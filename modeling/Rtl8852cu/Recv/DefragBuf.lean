import Rtl8852cu.Recv.Defrag
import Rtl8852cu.Lib.Slice

/-!
# Reassembly in the receive buffers

`recvframe_defrag` on the buffers of the frames, with the four pointers into each, the copies that are made and the frames
that are freed.

Addresses are those within a buffer.  The buffers of two frames are apart.
-/

namespace Rtl8852cu.Recv

open Lib

/-- `struct recv_frame_hdr`, with the buffer behind it. -/
structure RecvBuf where
  /-- Which frame it is. -/
  id : ℕ
  attrib : RxPktAttrib
  psta : Option StaId
  keytrack : Int
  mem : ℕ → UInt8
  rxData : ℕ
  rxTail : ℕ
  rxEnd : ℕ
  len : ℕ

def RecvBuf.bytes (f : RecvBuf) : List UInt8 := slice f.mem f.rxData f.len

/-- The pointers are in order, and `len` is between two of them. -/
structure RecvBuf.Ok (f : RecvBuf) : Prop where
  tail : f.rxData + f.len = f.rxTail
  le_end : f.rxTail ≤ f.rxEnd

def RecvBuf.view (f : RecvBuf) : RecvFrame := ⟨f.attrib, f.bytes, f.rxEnd - f.rxTail, f.psta, f.keytrack⟩

/-! ### `rtw_recv.h` -/

/-- `recvframe_pull` -/
def recvframePullBuf (f : RecvBuf) (sz : ℕ) : RecvBuf :=
  if f.rxData + sz > f.rxTail then f else { f with rxData := f.rxData + sz, len := f.len - sz }

/-- `recvframe_pull_tail` -/
def recvframePullTailBuf (f : RecvBuf) (sz : ℕ) : RecvBuf :=
  if (f.rxTail : ℤ) - sz < f.rxData then f else { f with rxTail := f.rxTail - sz, len := f.len - sz }

/-- `recvframe_put` -/
def recvframePutBuf (f : RecvBuf) (sz : ℕ) : RecvBuf :=
  if f.rxTail + sz > f.rxEnd then f else { f with rxTail := f.rxTail + sz, len := f.len + sz }

/-! ### `recvframe_defrag` -/

/-- The packet number at the header of the cipher. -/
def RecvBuf.ccmpPn (f : RecvBuf) : BitVec 64 := ccmph2Pn (getLe64 (slice f.mem (f.rxData + f.attrib.hdrlen) 8))

/-- What a call leaves: the frame that is returned, the frames that are freed, and the copies, with their address and
their size. -/
structure DefragBufOut where
  ret : Option RecvBuf
  freed : List ℕ
  copies : List (ℕ × ℕ)

/-- A fragment is appended to the first one. -/
def appendFragment (pr nf : RecvBuf) : RecvBuf :=
  let pr := recvframePullTailBuf pr pr.attrib.icvLen
  let pr := { pr with mem := copy pr.mem pr.rxTail nf.mem nf.rxData nf.len }
  let pr := recvframePutBuf pr nf.len
  { pr with attrib := { pr.attrib with icvLen := nf.attrib.icvLen } }

/-- The loop over the fragments behind the first, those of `q`.  `wlanhdr_offset` and `curfragnum` are eight bits wide. -/
def defragBufLoop (q : List ℕ) (pr : RecvBuf) (curfragnum : ℕ) (curPn : BitVec 64) (copies : List (ℕ × ℕ)) :
    List RecvBuf → DefragBufOut
  | [] => ⟨some pr, q, copies⟩
  | nf :: rest =>
    if nf.attrib.encrypt.ccmpHeader ∧ nf.ccmpPn ≠ curPn + 1#64 then ⟨none, pr.id :: q, copies⟩
    else if pr.keytrack ≠ nf.keytrack then ⟨none, pr.id :: q, copies⟩
    else if curfragnum ≠ nf.attrib.fragNum then ⟨none, pr.id :: q, copies⟩
    else
      let curPn := if nf.attrib.encrypt.ccmpHeader then nf.ccmpPn else curPn
      let nf := recvframePullBuf nf ((nf.attrib.hdrlen + nf.attrib.ivLen) % 256)
      if pr.rxEnd - pr.rxTail < nf.len then ⟨none, pr.id :: q, copies⟩
      else
        defragBufLoop q (appendFragment pr nf) ((curfragnum + 1) % 256) curPn
          (copies ++ [((recvframePullTailBuf pr pr.attrib.icvLen).rxTail, nf.len)]) rest

/-- `recvframe_defrag`, of a queue that is not empty. -/
def recvframeDefragBuf (pr : RecvBuf) (rest : List RecvBuf) : DefragBufOut :=
  if pr.attrib.fragNum ≠ 0 then ⟨none, pr.id :: rest.map (·.id), []⟩
  else defragBufLoop (rest.map (·.id)) pr 1 (if pr.attrib.encrypt.ccmpHeader then pr.ccmpPn else 0#64) [] rest

/-! ### The operations keep the pointers in order -/

variable {f pr nf : RecvBuf} {sz : ℕ}

theorem RecvBuf.Ok.pull (h : f.Ok) (sz : ℕ) : (recvframePullBuf f sz).Ok := by
  have ht := h.tail
  have he := h.le_end
  unfold recvframePullBuf
  split
  · exact h
  · refine ⟨?_, he⟩
    dsimp only; omega

theorem RecvBuf.Ok.pullTail (h : f.Ok) (sz : ℕ) : (recvframePullTailBuf f sz).Ok := by
  have ht := h.tail
  have he := h.le_end
  unfold recvframePullTailBuf
  split
  · exact h
  · refine ⟨?_, ?_⟩
    · dsimp only; omega
    · dsimp only; omega

theorem bytes_pull (h : f.Ok) (hsz : sz ≤ f.len) : (recvframePullBuf f sz).bytes = f.bytes.drop sz := by
  have ht := h.tail
  unfold recvframePullBuf RecvBuf.bytes
  rw [if_neg (by omega), slice_drop hsz]

theorem bytes_pullTail (h : f.Ok) (hsz : sz ≤ f.len) : (recvframePullTailBuf f sz).bytes = f.bytes.take (f.len - sz) := by
  have ht := h.tail
  unfold recvframePullTailBuf RecvBuf.bytes
  rw [if_neg (by omega), slice_take (Nat.sub_le _ _)]

theorem pull_attrib (f : RecvBuf) (sz : ℕ) : (recvframePullBuf f sz).attrib = f.attrib := by
  unfold recvframePullBuf
  split
  · rfl
  · rfl

theorem pullTail_end (f : RecvBuf) (sz : ℕ) : (recvframePullTailBuf f sz).rxEnd = f.rxEnd := by
  unfold recvframePullTailBuf
  split
  · rfl
  · rfl

theorem pullTail_tail_le (f : RecvBuf) (sz : ℕ) : (recvframePullTailBuf f sz).rxTail ≤ f.rxTail := by
  unfold recvframePullTailBuf
  split
  · exact le_rfl
  · exact Nat.sub_le _ _

theorem appendFragment_spec (hpr : pr.Ok) (hroom : nf.len ≤ pr.rxEnd - pr.rxTail) :
    (appendFragment pr nf).Ok ∧ (appendFragment pr nf).rxEnd = pr.rxEnd ∧
      (appendFragment pr nf).rxTail = (recvframePullTailBuf pr pr.attrib.icvLen).rxTail + nf.len ∧
      (appendFragment pr nf).bytes = (recvframePullTailBuf pr pr.attrib.icvLen).bytes ++ nf.bytes := by
  have hok := hpr.pullTail pr.attrib.icvLen
  have hend := pullTail_end pr pr.attrib.icvLen
  have htail := pullTail_tail_le pr pr.attrib.icvLen
  have hle := hpr.le_end
  unfold appendFragment
  generalize recvframePullTailBuf pr pr.attrib.icvLen = p at hok hend htail ⊢
  have ht := hok.tail
  have hfit : ¬ p.rxTail + nf.len > p.rxEnd := by omega
  unfold recvframePutBuf
  dsimp only
  rw [if_neg hfit]
  refine ⟨⟨?_, ?_⟩, hend, rfl, ?_⟩
  · dsimp only; omega
  · dsimp only; omega
  · unfold RecvBuf.bytes
    dsimp only
    rw [slice_add, ht, slice_copy, slice_copy_before ht.le]

/-! ### Whatever is queued -/

variable {q : List ℕ} {n : ℕ} {pn : BitVec 64} {copies : List (ℕ × ℕ)}

theorem appendFragment_id (pr nf : RecvBuf) : (appendFragment pr nf).id = pr.id := by
  unfold appendFragment recvframePutBuf recvframePullTailBuf
  dsimp only
  split
  · split
    · rfl
    · rfl
  · split
    · rfl
    · rfl

variable {rest : List RecvBuf}

theorem defragBufLoop_copies (hpr : pr.Ok) (hcopies : ∀ c ∈ copies, c.1 + c.2 ≤ pr.rxEnd) :
    ∀ c ∈ (defragBufLoop q pr n pn copies rest).copies, c.1 + c.2 ≤ pr.rxEnd := by
  induction rest generalizing pr n pn copies with
  | nil => exact hcopies
  | cons nf rest ih =>
    unfold defragBufLoop
    split
    · exact hcopies
    split
    · exact hcopies
    split
    · exact hcopies
    dsimp only
    split
    · exact hcopies
    · rename_i hroom
      obtain ⟨hok, hend, -⟩ := appendFragment_spec hpr (Nat.not_lt.mp hroom)
      have htail := pullTail_tail_le pr pr.attrib.icvLen
      have hle := hpr.le_end
      rw [← hend]
      refine ih hok fun c hc => ?_
      rw [hend]
      rcases List.mem_append.mp hc with hc | hc
      · exact hcopies c hc
      · rw [List.mem_singleton.mp hc]
        dsimp only; omega

theorem copies_inside (rest : List RecvBuf) (hpr : pr.Ok) :
    ∀ c ∈ (recvframeDefragBuf pr rest).copies, c.1 + c.2 ≤ pr.rxEnd := by
  unfold recvframeDefragBuf
  split
  · nofun
  · exact defragBufLoop_copies hpr nofun

/-- **All frames of the queue are freed**, other than the one that is returned. -/
structure DefragBufOut.Frees (out : DefragBufOut) (first : ℕ) (q : List ℕ) : Prop where
  none : out.ret = none → out.freed = first :: q
  some : ∀ r, out.ret = some r → r.id = first ∧ out.freed = q

theorem frees_none : (DefragBufOut.mk none (pr.id :: q) copies).Frees pr.id q := ⟨fun _ => rfl, nofun⟩

theorem defragBufLoop_frees : (defragBufLoop q pr n pn copies rest).Frees pr.id q := by
  induction rest generalizing pr n pn copies with
  | nil =>
    refine ⟨nofun, fun r hr => ?_⟩
    cases hr
    exact ⟨rfl, rfl⟩
  | cons nf rest ih =>
    unfold defragBufLoop
    split
    · exact frees_none
    split
    · exact frees_none
    split
    · exact frees_none
    dsimp only
    split
    · exact frees_none
    · rw [← appendFragment_id pr (recvframePullBuf nf ((nf.attrib.hdrlen + nf.attrib.ivLen) % 256))]
      exact ih

theorem recvframeDefragBuf_frees (pr : RecvBuf) (rest : List RecvBuf) :
    (recvframeDefragBuf pr rest).Frees pr.id (rest.map (·.id)) := by
  unfold recvframeDefragBuf
  split
  · exact frees_none
  · exact defragBufLoop_frees

/-! ### The frames of the buffers -/

theorem view_len (f : RecvBuf) : f.view.len = f.len := length_slice

theorem pull_view (h : f.Ok) (sz : ℕ) : (recvframePullBuf f sz).view = recvframePull f.view sz := by
  have ht := h.tail
  unfold recvframePull
  rw [view_len]
  by_cases hsz : sz ≤ f.len
  · rw [if_pos hsz]
    have hbytes := bytes_pull h hsz
    unfold RecvBuf.view
    rw [hbytes]
    unfold recvframePullBuf
    rw [if_neg (by omega)]
  · unfold recvframePullBuf; rw [if_neg hsz, if_pos (by omega)]

theorem pullTail_view (h : f.Ok) (sz : ℕ) : (recvframePullTailBuf f sz).view = recvframePullTail f.view sz := by
  have ht := h.tail
  have he := h.le_end
  unfold recvframePullTail
  rw [view_len]
  by_cases hsz : sz ≤ f.len
  · have hroom : f.rxEnd - (f.rxTail - sz) = f.rxEnd - f.rxTail + sz := by omega
    have hbytes := bytes_pullTail h hsz
    rw [if_pos hsz]
    unfold RecvBuf.view
    rw [hbytes]
    unfold recvframePullTailBuf
    rw [if_neg (by omega)]
    dsimp only
    rw [hroom]
  · unfold recvframePullTailBuf; rw [if_neg hsz, if_pos (by omega)]

theorem appendFragment_view (hpr : pr.Ok) (hf : f.Ok) (hoff : f.attrib.hdrlen + f.attrib.ivLen < 256)
    (hroom : (recvframePullBuf f ((f.attrib.hdrlen + f.attrib.ivLen) % 256)).len ≤ pr.rxEnd - pr.rxTail) :
    (appendFragment pr (recvframePullBuf f ((f.attrib.hdrlen + f.attrib.ivLen) % 256))).view =
      joinFragment pr.view f.view := by
  rw [Nat.mod_eq_of_lt hoff] at hroom ⊢
  have hpayload : f.view.payload = (recvframePullBuf f (f.attrib.hdrlen + f.attrib.ivLen)).bytes := by
    unfold RecvFrame.payload; exact (congrArg RecvFrame.rxData (pull_view hf _)).symm
  have hattrib : (recvframePullBuf f (f.attrib.hdrlen + f.attrib.ivLen)).attrib = f.view.attrib := pull_attrib f _
  obtain ⟨-, -, -, hbytes⟩ := appendFragment_spec hpr hroom
  unfold joinFragment
  rw [hpayload]
  generalize recvframePullBuf f (f.attrib.hdrlen + f.attrib.ivLen) = nf at hroom hattrib hbytes ⊢
  have hok := hpr.pullTail pr.attrib.icvLen
  have hend := pullTail_end pr pr.attrib.icvLen
  have htail := pullTail_tail_le pr pr.attrib.icvLen
  have he := hpr.le_end
  have hcut : recvframePullTail pr.view pr.view.attrib.icvLen = (recvframePullTailBuf pr pr.attrib.icvLen).view :=
    (pullTail_view hpr _).symm
  have hlen : nf.bytes.length = nf.len := length_slice
  dsimp only
  rw [hcut]
  unfold recvframePut
  rw [hlen, if_pos (show nf.len ≤ (recvframePullTailBuf pr pr.attrib.icvLen).view.room by
    show nf.len ≤ _ - _
    omega)]
  unfold RecvBuf.view
  rw [hbytes]
  unfold appendFragment recvframePutBuf
  dsimp only
  rw [if_neg (by omega), hattrib]
  dsimp only
  rw [Nat.sub_add_eq]; rfl

theorem getLe64_take (d : List UInt8) : getLe64 (d.take 8) = getLe64 d := by
  unfold getLe64
  rw [List.take_take, Nat.min_self]

theorem ccmpPn_view (hlen : f.attrib.hdrlen + 8 ≤ f.len) : f.view.ccmpPn = f.ccmpPn := by
  have hle : f.attrib.hdrlen ≤ f.len := by omega
  have hiv : f.view.iv = slice f.mem (f.rxData + f.attrib.hdrlen) (f.len - f.attrib.hdrlen) := slice_drop hle
  unfold RecvFrame.ccmpPn RecvBuf.ccmpPn
  rw [hiv, ← getLe64_take, slice_take (by omega)]

/-- A fragment whose header and IV eight bits count, with its packet number in the frame. -/
structure RecvBuf.Plain (f : RecvBuf) : Prop where
  ok : f.Ok
  offset : f.attrib.hdrlen + f.attrib.ivLen < 256
  pn : f.attrib.encrypt.ccmpHeader = true → f.attrib.hdrlen + 8 ≤ f.len

theorem defragBufLoop_view (hpr : pr.Ok) (hrest : ∀ f ∈ rest, f.Plain) (hn : n + rest.length ≤ 256) :
    (defragBufLoop q pr (n % 256) pn copies rest).ret.map RecvBuf.view = defragLoop pr.view n pn (rest.map RecvBuf.view) := by
  induction rest generalizing pr n pn copies with
  | nil => rfl
  | cons f rest ih =>
    have hf := hrest f List.mem_cons_self
    rw [List.length_cons] at hn
    rw [List.map_cons]
    unfold defragBufLoop defragLoop
    have hpn : (f.attrib.encrypt.ccmpHeader ∧ f.ccmpPn ≠ pn + 1#64) ↔
        (f.view.attrib.encrypt.ccmpHeader ∧ f.view.ccmpPn ≠ pn + 1#64) :=
      and_congr_right fun hc => by rw [ccmpPn_view (hf.pn hc)]
    by_cases h1 : f.attrib.encrypt.ccmpHeader ∧ f.ccmpPn ≠ pn + 1#64
    · rw [if_pos h1, if_pos (hpn.mp h1)]; rfl
    rw [if_neg h1, if_neg (mt hpn.mpr h1)]
    by_cases h2 : pr.keytrack ≠ f.keytrack
    · rw [if_pos h2, if_pos (show pr.view.keytrack ≠ f.view.keytrack from h2)]; rfl
    rw [if_neg h2, if_neg (show ¬ pr.view.keytrack ≠ f.view.keytrack from h2), Nat.mod_eq_of_lt (show n < 256 by omega)]
    by_cases h3 : n ≠ f.attrib.fragNum
    · rw [if_pos h3, if_pos (show n ≠ f.view.attrib.fragNum from h3)]; rfl
    rw [if_neg h3, if_neg (show ¬ n ≠ f.view.attrib.fragNum from h3)]
    have hpayload : f.view.payload.length = (recvframePullBuf f ((f.attrib.hdrlen + f.attrib.ivLen) % 256)).len := by
      unfold RecvFrame.payload
      rw [Nat.mod_eq_of_lt hf.offset, ← view_len, pull_view hf.ok]; rfl
    dsimp only
    rw [hpayload]
    by_cases h4 : pr.rxEnd - pr.rxTail < (recvframePullBuf f ((f.attrib.hdrlen + f.attrib.ivLen) % 256)).len
    · rw [if_pos h4, if_pos (show pr.view.room < _ from h4)]; rfl
    rw [if_neg h4, if_neg (show ¬ pr.view.room < _ from h4)]
    have hpn' : (if f.attrib.encrypt.ccmpHeader then f.ccmpPn else pn) =
        if f.view.attrib.encrypt.ccmpHeader then f.view.ccmpPn else pn := by
      show _ = if f.attrib.encrypt.ccmpHeader then _ else _
      split
      · rename_i hc
        rw [ccmpPn_view (hf.pn hc)]
      · rfl
    rw [hpn', ← appendFragment_view hpr hf.ok hf.offset (Nat.not_lt.mp h4)]
    exact ih (appendFragment_spec hpr (Nat.not_lt.mp h4)).1 (fun f hf => hrest f (List.mem_cons_of_mem _ hf)) (by omega)

/-- **The frames of the buffers are reassembled as frames are.** -/
theorem defragBuf_view (hpr : pr.Plain) (hrest : ∀ f ∈ rest, f.Plain) (hn : rest.length < 256) :
    (recvframeDefragBuf pr rest).ret.map RecvBuf.view = recvframeDefrag ((pr :: rest).map RecvBuf.view) := by
  rw [List.map_cons]
  unfold recvframeDefragBuf recvframeDefrag
  dsimp only
  by_cases hnum : pr.attrib.fragNum ≠ 0
  · rw [if_pos hnum, if_pos (show pr.view.attrib.fragNum ≠ 0 from hnum)]; rfl
  rw [if_neg hnum, if_neg (show ¬ pr.view.attrib.fragNum ≠ 0 from hnum)]
  have hpn : (if pr.view.attrib.encrypt.ccmpHeader then pr.view.ccmpPn else 0#64) =
      if pr.attrib.encrypt.ccmpHeader then pr.ccmpPn else 0#64 := by
    show (if pr.attrib.encrypt.ccmpHeader then _ else _) = _
    split
    · rename_i hc
      rw [ccmpPn_view (hpr.pn hc)]
    · rfl
  rw [hpn]; exact defragBufLoop_view (n := 1) hpr.ok hrest (by omega)

/-! ### Fragments -/

structure Fragment where
  hdr : List UInt8
  iv : List UInt8
  payload : List UInt8
  icv : List UInt8

structure RecvBuf.Holds (f : RecvBuf) (x : Fragment) : Prop where
  ok : f.Ok
  bytes : f.bytes = x.hdr ++ x.iv ++ x.payload ++ x.icv
  hdrlen : f.attrib.hdrlen = x.hdr.length
  ivLen : f.attrib.ivLen = x.iv.length
  icvLen : f.attrib.icvLen = x.icv.length

/-- The ICV at the end, of fragments behind one with `icv`. -/
def lastIcv (icv : List UInt8) : List Fragment → List UInt8
  | [] => icv
  | x :: xs => lastIcv x.icv xs

/-- **What fragments make**: the first one without its ICV, the payloads of the others, and the last ICV. -/
def joined (x : Fragment) (xs : List Fragment) : List UInt8 :=
  x.hdr ++ x.iv ++ x.payload ++ xs.flatMap (·.payload) ++ lastIcv x.icv xs

/-- **There is room**: each payload fits with its ICV, while `icv` bytes are still there of the ICV before. -/
def RoomFor (room icv : ℕ) : List Fragment → Prop
  | [] => True
  | x :: xs =>
    x.payload.length + x.icv.length ≤ room ∧ RoomFor (room + icv - (x.payload.length + x.icv.length)) x.icv.length xs

/-- The packet numbers of the ciphers that have them are consecutive, from behind `pn` on. -/
def PnsFollow (pn : BitVec 64) : List RecvBuf → Prop
  | [] => True
  | f :: fs =>
    (f.attrib.encrypt.ccmpHeader = true → f.ccmpPn = pn + 1#64) ∧
      PnsFollow (if f.attrib.encrypt.ccmpHeader then f.ccmpPn else pn) fs

/-- The packet number before the fragments behind the first one. -/
def RecvBuf.firstPn (f : RecvBuf) : BitVec 64 := if f.attrib.encrypt.ccmpHeader then f.ccmpPn else 0#64

theorem RecvBuf.Holds.pull {f : RecvBuf} {x : Fragment} (h : f.Holds x) (hlen : x.hdr.length + x.iv.length < 256) :
    (recvframePullBuf f ((f.attrib.hdrlen + f.attrib.ivLen) % 256)).bytes = x.payload ++ x.icv ∧
      (recvframePullBuf f ((f.attrib.hdrlen + f.attrib.ivLen) % 256)).len = x.payload.length + x.icv.length := by
  have hbytes : f.bytes.length = f.len := length_slice
  rw [h.bytes] at hbytes
  simp only [List.length_append] at hbytes
  have hoff : (f.attrib.hdrlen + f.attrib.ivLen) % 256 = x.hdr.length + x.iv.length := by
    rw [h.hdrlen, h.ivLen, Nat.mod_eq_of_lt hlen]
  have hdrop : (recvframePullBuf f (x.hdr.length + x.iv.length)).bytes = x.payload ++ x.icv := by
    rw [bytes_pull h.ok (by omega), h.bytes, List.append_assoc (x.hdr ++ x.iv), List.drop_left']
    exact List.length_append
  rw [hoff]
  refine ⟨hdrop, ?_⟩
  have hlen' : (recvframePullBuf f (x.hdr.length + x.iv.length)).bytes.length = _ := length_slice
  rw [← hlen', hdrop, List.length_append]

theorem appendFragment_attrib (pr nf : RecvBuf) :
    (appendFragment pr nf).attrib.icvLen = nf.attrib.icvLen ∧ (appendFragment pr nf).keytrack = pr.keytrack := by
  unfold appendFragment recvframePutBuf recvframePullTailBuf
  dsimp only
  split
  · split
    · exact ⟨rfl, rfl⟩
    · exact ⟨rfl, rfl⟩
  · split
    · exact ⟨rfl, rfl⟩
    · exact ⟨rfl, rfl⟩

theorem defragBufLoop_joins (copies : List (ℕ × ℕ)) {ps : List (RecvBuf × Fragment)} {body icv : List UInt8} (hpr : pr.Ok)
    (hbytes : pr.bytes = body ++ icv) (hicv : pr.attrib.icvLen = icv.length) (hn : n + ps.length ≤ 256)
    (hholds : ∀ p ∈ ps, p.1.Holds p.2) (hlen : ∀ p ∈ ps, p.2.hdr.length + p.2.iv.length < 256)
    (hkey : ∀ p ∈ ps, p.1.keytrack = pr.keytrack) (hnum : ∀ i p, ps[i]? = some p → p.1.attrib.fragNum = n + i)
    (hpn : PnsFollow pn (ps.map (·.1))) :
    (RoomFor (pr.rxEnd - pr.rxTail) icv.length (ps.map (·.2)) →
        ∃ r, (defragBufLoop q pr (n % 256) pn copies (ps.map (·.1))).ret = some r ∧
          r.bytes = body ++ (ps.map (·.2)).flatMap (·.payload) ++ lastIcv icv (ps.map (·.2))) ∧
      (¬ RoomFor (pr.rxEnd - pr.rxTail) icv.length (ps.map (·.2)) →
        (defragBufLoop q pr (n % 256) pn copies (ps.map (·.1))).ret = none) := by
  induction ps generalizing pr n pn copies body icv with
  | nil =>
    refine ⟨fun _ => ⟨pr, rfl, ?_⟩, fun h => absurd trivial h⟩
    rw [hbytes, List.map_nil, List.flatMap_nil, List.append_nil]; rfl
  | cons p ps ih =>
    obtain ⟨f, x⟩ := p
    have hf : f.Holds x := hholds (f, x) List.mem_cons_self
    have hoff : x.hdr.length + x.iv.length < 256 := hlen (f, x) List.mem_cons_self
    have hnum0 : f.attrib.fragNum = n := hnum 0 (f, x) rfl
    obtain ⟨hpulled, hplen⟩ := hf.pull hoff
    rw [List.length_cons] at hn
    rw [List.map_cons] at hpn ⊢
    rw [List.map_cons]
    unfold defragBufLoop RoomFor
    rw [if_neg fun h => h.2 (hpn.1 h.1), if_neg (not_not.mpr (hkey (f, x) List.mem_cons_self).symm),
      if_neg (not_not.mpr (by rw [hnum0]; exact Nat.mod_eq_of_lt (by omega)))]
    dsimp only
    rw [hplen]
    by_cases hroom : pr.rxEnd - pr.rxTail < x.payload.length + x.icv.length
    · rw [if_pos hroom]; exact ⟨fun h => absurd hroom (Nat.not_lt.mpr h.1), fun _ => rfl⟩
    rw [if_neg hroom, and_iff_right (Nat.not_lt.mp hroom)]
    set nf := recvframePullBuf f ((f.attrib.hdrlen + f.attrib.ivLen) % 256) with hnf
    obtain ⟨hok, hend, htail, happ⟩ := appendFragment_spec hpr (show nf.len ≤ pr.rxEnd - pr.rxTail by omega)
    obtain ⟨hicv', hkey'⟩ := appendFragment_attrib pr nf
    have hlenbody : pr.len = body.length + icv.length := by
      have : pr.bytes.length = pr.len := length_slice
      rw [← this, hbytes, List.length_append]
    have hcut : (recvframePullTailBuf pr pr.attrib.icvLen).bytes = body := by
      rw [bytes_pullTail hpr (by omega), hbytes, hicv, hlenbody, Nat.add_sub_cancel, List.take_left]
    have hroom' : (appendFragment pr nf).rxEnd - (appendFragment pr nf).rxTail =
        pr.rxEnd - pr.rxTail + icv.length - (x.payload.length + x.icv.length) := by
      have ht := hpr.tail
      have he := hpr.le_end
      have hcuttail : (recvframePullTailBuf pr pr.attrib.icvLen).rxTail = pr.rxTail - icv.length := by
        unfold recvframePullTailBuf
        rw [if_neg (by omega), hicv]
      rw [hend, htail, hcuttail, hplen]; omega
    have hnext : (n % 256 + 1) % 256 = (n + 1) % 256 := Nat.mod_add_mod n 256 1
    have h := ih (n := n + 1)
      (copies ++ [((recvframePullTailBuf pr pr.attrib.icvLen).rxTail, x.payload.length + x.icv.length)]) hok
      (by rw [happ, hcut, hpulled, List.append_assoc]) (by rw [hicv', hnf, pull_attrib, hf.icvLen]) (by omega)
      (fun p hp => hholds p (List.mem_cons_of_mem _ hp)) (fun p hp => hlen p (List.mem_cons_of_mem _ hp))
      (fun p hp => by rw [hkey', hkey p (List.mem_cons_of_mem _ hp)])
      (fun i p hp => by rw [hnum (i + 1) p hp, Nat.add_assoc, Nat.add_comm i]) hpn.2
    rw [hroom'] at h
    rw [hnext]
    refine ⟨fun hfit => ?_, h.2⟩
    obtain ⟨r, hr, hrbytes⟩ := h.1 hfit
    refine ⟨r, hr, ?_⟩
    rw [hrbytes, List.flatMap_cons, List.append_assoc body]; rfl

/-- **What comes out of a queue of fragments.**  Those of one MSDU are joined exactly where there is room; nothing is copied
behind the buffer, and the frames that are not returned are freed, whatever is queued. -/
theorem defrag_joins (f : RecvBuf) (x : Fragment) (ps : List (RecvBuf × Fragment)) (hf : f.Holds x)
    (hn : ps.length < 256) (hholds : ∀ p ∈ ps, p.1.Holds p.2) (hlen : ∀ p ∈ ps, p.2.hdr.length + p.2.iv.length < 256)
    (hkey : ∀ p ∈ ps, p.1.keytrack = f.keytrack) (hfirst : f.attrib.fragNum = 0)
    (hnum : ∀ i p, ps[i]? = some p → p.1.attrib.fragNum = i + 1) (hpn : PnsFollow f.firstPn (ps.map (·.1))) :
    (RoomFor (f.rxEnd - f.rxTail) x.icv.length (ps.map (·.2)) →
        ∃ r, (recvframeDefragBuf f (ps.map (·.1))).ret = some r ∧ r.bytes = joined x (ps.map (·.2))) ∧
      (¬ RoomFor (f.rxEnd - f.rxTail) x.icv.length (ps.map (·.2)) → (recvframeDefragBuf f (ps.map (·.1))).ret = none) ∧
      ∀ (pr : RecvBuf) (rest : List RecvBuf), pr.Ok →
        (∀ c ∈ (recvframeDefragBuf pr rest).copies, c.1 + c.2 ≤ pr.rxEnd) ∧
          (recvframeDefragBuf pr rest).Frees pr.id (rest.map (·.id)) := by
  have hloop := defragBufLoop_joins (q := (ps.map (·.1)).map (·.id)) (n := 1) [] hf.ok hf.bytes hf.icvLen (by omega)
    hholds hlen hkey
    (fun i p hp => by rw [hnum i p hp, Nat.add_comm]) hpn
  have heq : recvframeDefragBuf f (ps.map (·.1)) =
      defragBufLoop ((ps.map (·.1)).map (·.id)) f (1 % 256) f.firstPn [] (ps.map (·.1)) := if_neg (not_not.mpr hfirst)
  rw [heq]
  exact ⟨hloop.1, hloop.2, fun pr rest hpr => ⟨copies_inside rest hpr, recvframeDefragBuf_frees pr rest⟩⟩

/-! ### Queues of two fragments -/

def fragAttrib (encrypt : SecurityType) (fragNum hdrlen ivLen icvLen : ℕ) : RxPktAttrib :=
  { hdrlen, toFrDs := 0, amsdu := false, qos := true, priority := 0, seqNum := 0, fragNum, mfrag := true, order := false
    privacy := true, bdecrypted := true, encrypt, ivLen, icvLen, dst := [], src := [], ta := [], ra := [], bssid := []
    keyIndex := 0, ethType := 0, bsnaphdr := false }

/-- A buffer with the bytes `d`, and `room` behind them. -/
def fragBuf (attrib : RxPktAttrib) (d : List UInt8) (room : ℕ) : RecvBuf :=
  ⟨attrib.fragNum, attrib, none, 0, fun i => d.getD i 0, 0, d.length, d.length + room, d.length⟩

/-- A fragment with a header of two bytes and an ICV of two. -/
def smallFragment (b : UInt8) : Fragment := ⟨[1, 2], [], [b], [0xE, 0xF]⟩

def smallBuf (b : UInt8) (fragNum room : ℕ) : RecvBuf := fragBuf (fragAttrib .wep40 fragNum 2 0 2) [1, 2, b, 0xE, 0xF] room

theorem smallBuf_holds (b : UInt8) (fragNum room : ℕ) : (smallBuf b fragNum room).Holds (smallFragment b) :=
  ⟨⟨rfl, Nat.le_add_right _ _⟩, rfl, rfl, rfl, rfl⟩

theorem smallBuf_plain (b : UInt8) (fragNum room : ℕ) : (smallBuf b fragNum room).Plain :=
  ⟨(smallBuf_holds b fragNum room).ok, show 2 + 0 < 256 by decide, nofun⟩

theorem small_view : (recvframeDefragBuf (smallBuf 3 0 3) [smallBuf 4 1 0]).ret.map RecvBuf.view =
    recvframeDefrag ([smallBuf 3 0 3, smallBuf 4 1 0].map RecvBuf.view) :=
  defragBuf_view (smallBuf_plain 3 0 3) (List.forall_mem_singleton.mpr (smallBuf_plain 4 1 0)) (by decide)

theorem small_joined :
    ∃ r, (recvframeDefragBuf (smallBuf 3 0 3) [smallBuf 4 1 0]).ret = some r ∧ r.bytes = [1, 2, 3, 4, 0xE, 0xF] :=
  (defrag_joins (smallBuf 3 0 3) (smallFragment 3) [(smallBuf 4 1 0, smallFragment 4)] (smallBuf_holds 3 0 3) (by decide)
    (List.forall_mem_singleton.mpr (smallBuf_holds 4 1 0)) (List.forall_mem_singleton.mpr (by decide))
    (List.forall_mem_singleton.mpr rfl) rfl
    (fun i p hp => by
      cases i with
      | zero =>
        cases hp
        rfl
      | succ i => cases hp)
    ⟨nofun, trivial⟩).1 ⟨by decide, trivial⟩

/-- Fragments that make a frame the buffer has room for are dropped: with the first ICV still there, it has not; their packet
numbers are not consecutive.  And of a header and an IV of 256 bytes nothing is removed. -/
theorem defrag_differs : (smallBuf 3 0 1).len - 2 + ([4, 0xE, 0xF] : List UInt8).length ≤ (smallBuf 3 0 1).rxEnd ∧
      (recvframeDefragBuf (smallBuf 3 0 1) [smallBuf 4 1 0]).ret.isNone ∧
      (recvframeDefragBuf (fragBuf (fragAttrib .aes 0 0 8 0) [7, 0, 0, 0, 0, 0, 0, 0, 3] 9)
        [fragBuf (fragAttrib .aes 1 0 8 0) [9, 0, 0, 0, 0, 0, 0, 0, 4] 0]).ret.isNone ∧
      (recvframeDefragBuf (fragBuf (fragAttrib .wep40 0 0 0 0) [3] 300)
        [⟨1, fragAttrib .wep40 1 200 56 0, none, 0, fun i => if i < 256 then 0 else 4, 0, 257, 257, 257⟩]).ret.map (·.len) = some 258 := by
  refine ⟨by decide, by decide, by decide, by decide⟩

end Rtl8852cu.Recv
