import Rtl8852cu.Recv.Defrag
import Rtl8852cu.Recv.Replay

/-!
# The fragments of one sender

`recvframe_chk_defrag` called on the fragments of one sender, one after the other.

* `chkDefrag_handled`: what a call does, by the kind of fragment.
* `recvframeDefrag_isSome_iff`: which queues `recvframe_defrag` joins.
* `no_group_fragment_iff`: group-addressed fragments are neither queued nor handed on exactly when
  none arrives for which there is a queue.
* `one_msdu_iff`: every frame put together is one MSDU exactly when the fragments of every joined
  queue agree in what `recvframe_defrag` does not compare.
-/

namespace Rtl8852cu.Recv

/-! ### The packet number of a CCMP header -/

theorem getLe64_toNat (d : List UInt8) : (getLe64 d).toNat =
    (byteAt d 0).toNat + 256 * ((byteAt d 1).toNat + 256 * ((byteAt d 2).toNat + 256 *
      ((byteAt d 3).toNat + 256 * ((byteAt d 4).toNat + 256 * ((byteAt d 5).toNat + 256 *
        ((byteAt d 6).toNat + 256 * (byteAt d 7).toNat)))))) := by
  have hb : ∀ b : UInt8, b.toNat < 256 := fun b => b.toNat_lt
  unfold getLe64
  rw [BitVec.toNat_ofNat, Nat.mod_eq_of_lt]
  · rcases d with _ | ⟨a, _ | ⟨b, _ | ⟨c, _ | ⟨e, _ | ⟨f, _ | ⟨g, _ | ⟨h, _ | ⟨i, d⟩⟩⟩⟩⟩⟩⟩⟩ <;>
      simp [byteAt, Nat.ofDigits]
  · have := Nat.ofDigits_lt_base_pow_length (b := 256) (l := (d.take 8).map UInt8.toNat) (by omega)
      (fun x hx => by
        obtain ⟨b, -, rfl⟩ := List.mem_map.1 hx
        exact hb b)
    have hl : ((d.take 8).map UInt8.toNat).length ≤ 8 := by simp
    calc _ < 256 ^ ((d.take 8).map UInt8.toNat).length := this
      _ ≤ 256 ^ 8 := Nat.pow_le_pow_right (by omega) hl
      _ = 2 ^ 64 := by norm_num

theorem ccmph2Pn_toNat (x : BitVec 64) : (ccmph2Pn x).toNat = x.toNat % 2 ^ 16 + x.toNat / 2 ^ 32 * 2 ^ 16 := by
  have hlow : (x &&& 0x000000000000ffff#64).toNat = x.toNat % 2 ^ 16 := by
    rw [BitVec.toNat_and]; exact Nat.and_two_pow_sub_one_eq_mod x.toNat 16
  have hhigh : ∀ m : BitVec 64, m = BitVec.allOnes 64 <<< 32 → (x &&& m) >>> 16 = (x >>> 32) <<< 16 := by
    rintro _ rfl
    ext i hi
    simp only [BitVec.getElem_ushiftRight, BitVec.getLsbD_and, BitVec.getLsbD_shiftLeft,
      BitVec.getLsbD_allOnes, BitVec.getElem_shiftLeft]
    grind
  have hshift : ((x >>> 32) <<< 16).toNat = (x.toNat / 2 ^ 32) <<< 16 := by
    have := x.isLt
    rw [BitVec.toNat_shiftLeft, BitVec.toNat_ushiftRight, Nat.shiftRight_eq_div_pow, Nat.shiftLeft_eq]
    omega
  unfold ccmph2Pn
  rw [hhigh 0xffffffff00000000#64 rfl, BitVec.toNat_or, hlow, hshift, Nat.or_comm,
    ← Nat.shiftLeft_add_eq_or_of_lt (Nat.mod_lt _ (by norm_num)), Nat.shiftLeft_eq]
  omega

theorem RecvFrame.pn_of_ccmpHeader {f : RecvFrame} (h : f.attrib.encrypt.ccmpHeader = true) :
    f.pn = some f.ccmpPn := by
  have hpn : f.pn = some (getLe64 [byteAt f.iv 0, byteAt f.iv 1, byteAt f.iv 4, byteAt f.iv 5,
      byteAt f.iv 6, byteAt f.iv 7]) := by
    unfold RecvFrame.pn rtwIvToPn
    unfold SecurityType.ccmpHeader at h; cases he : f.attrib.encrypt <;> simp [he] at h ⊢
  rw [hpn, Option.some.injEq]
  apply BitVec.eq_of_toNat_eq
  have hb : ∀ b : UInt8, b.toNat < 256 := fun b => b.toNat_lt
  unfold RecvFrame.ccmpPn
  rw [ccmph2Pn_toNat, getLe64_toNat, getLe64_toNat]
  have h0 := hb (byteAt f.iv 0)
  have h1 := hb (byteAt f.iv 1)
  have h2 := hb (byteAt f.iv 2)
  have h3 := hb (byteAt f.iv 3)
  simp only [byteAt, List.getD_cons_zero, List.getD_cons_succ, List.getD_nil] at *
  generalize (f.iv.getD 0 0).toNat = a0 at *
  generalize (f.iv.getD 1 0).toNat = a1 at *
  generalize (f.iv.getD 2 0).toNat = a2 at *
  generalize (f.iv.getD 3 0).toNat = a3 at *
  have : (0 : UInt8).toNat = 0 := rfl
  omega

/-! ### What a call does -/

/-- A frame that is not an MSDU by itself. -/
def RecvFrame.IsFragment (f : RecvFrame) : Prop := f.attrib.mfrag = true ∨ f.attrib.fragNum ≠ 0

/-- The outcomes of `recvframe_chk_defrag`. -/
inductive Handled {α : Type*} (hdr : α → RecvFrame) : Option (List α) → α → DefragOut α → Prop
  | whole {q f} : ¬ (hdr f).IsFragment → Handled hdr q f ⟨.cont, some f, none, q.getD [], false, []⟩
  | noQueue {f} : (hdr f).IsFragment → Handled hdr none f ⟨.drop, some f, none, [], false, []⟩
  | first {q f} : (hdr f).attrib.mfrag = true → (hdr f).attrib.fragNum = 0 →
      Handled hdr (some q) f ⟨.defrag, some f, none, [f], true, q⟩
  | next {q f} : (hdr f).attrib.mfrag = true → (hdr f).attrib.fragNum ≠ 0 →
      Handled hdr (some q) f ⟨.defrag, some f, none, q ++ [f], true, []⟩
  | dropped {q f} : (hdr f).attrib.mfrag = false → (hdr f).attrib.fragNum ≠ 0 →
      recvframeDefrag ((q ++ [f]).map hdr) = none →
      Handled hdr (some q) f ⟨.drop, none, none, [], true, q ++ [f]⟩
  | joined {q f r} : (hdr f).attrib.mfrag = false → (hdr f).attrib.fragNum ≠ 0 →
      recvframeDefrag ((q ++ [f]).map hdr) = some r →
      Handled hdr (some q) f ⟨.cont, (q ++ [f]).head?, some r, [], true, (q ++ [f]).tail⟩

theorem chkDefrag_handled {α : Type*} (hdr : α → RecvFrame) (q : Option (List α)) (f : α) :
    Handled hdr q f (recvframeChkDefrag hdr q f) := by
  by_cases hf : (hdr f).IsFragment
  · have hq : ∀ ret, Handled hdr q f (chkDefragQueue hdr q f ret) := fun ret => by
      unfold chkDefragQueue
      by_cases hm : (hdr f).attrib.mfrag = true
      · rw [if_pos hm]
        cases q with
        | none => exact .noQueue hf
        | some q =>
          by_cases h0 : (hdr f).attrib.fragNum = 0
          · simp only [if_pos h0]; exact .first hm h0
          · simp only [if_neg h0]; exact .next hm h0
      · have h0 : (hdr f).attrib.fragNum ≠ 0 := hf.resolve_left hm
        rw [if_neg hm, if_pos h0]
        have hm' : (hdr f).attrib.mfrag = false := by simpa using hm
        cases q with
        | none => exact .noQueue hf
        | some q =>
          simp only
          cases hr : recvframeDefrag ((q ++ [f]).map hdr) with
          | none => exact .dropped hm' h0 hr
          | some r => exact .joined hm' h0 hr
    unfold recvframeChkDefrag
    simp only
    split
    · exact hq _
    · split <;> exact hq _
  · have hm : (hdr f).attrib.mfrag = false := by
      cases h : (hdr f).attrib.mfrag
      · rfl
      · exact absurd (Or.inl h) hf
    have h0 : (hdr f).attrib.fragNum = 0 := by
      by_contra h
      exact hf (.inr h)
    have hout : recvframeChkDefrag hdr q f = ⟨.cont, some f, none, q.getD [], false, []⟩ := by
      simp [recvframeChkDefrag, chkDefragQueue, hm, h0]
    rw [hout]; exact .whole hf

/-! ### A sender's run -/

/-- A frame that comes to `recvframe_chk_defrag`, and the key track of its sender at that time. -/
structure Arrival where
  frame : RecvFrame
  keytrack : Int

/-- One call: `pdefrag_q` before it and the frame, marked with its key track. -/
structure Call where
  queue : Option (List RecvFrame)
  frame : RecvFrame
  deriving DecidableEq

def Call.out (c : Call) : DefragOut RecvFrame := recvframeChkDefrag id c.queue c.frame

/-- `pdefrag_q` after the call. -/
def Call.next (c : Call) : Option (List RecvFrame) := c.queue.map fun _ => c.out.queue

/-- The calls made for a sequence of frames. -/
def calls : Option (List RecvFrame) → List Arrival → List Call
  | _, [] => []
  | q, a :: as =>
    let c : Call := ⟨q, markKeytrack q.isSome a.keytrack a.frame⟩
    c :: calls c.next as

/-- The fragments of the frame that the call hands on. -/
def Call.parts (c : Call) : List RecvFrame :=
  if c.out.whole.isSome then c.queue.getD [] ++ [c.frame] else [c.frame]

theorem Call.handled (c : Call) : Handled id c.queue c.frame c.out := chkDefrag_handled ..

theorem calls_invariant {I : Option (List RecvFrame) → Prop} {P : Call → Prop}
    (hI : ∀ c : Call, I c.queue → P c → I c.next) {q : Option (List RecvFrame)} {as : List Arrival}
    (h₀ : I q) (hP : ∀ c ∈ calls q as, P c) : ∀ c ∈ calls q as, I c.queue := by
  induction as generalizing q with
  | nil => intro c hc; cases hc
  | cons a as ih =>
    rw [calls] at hP ⊢
    rw [List.forall_mem_cons] at hP ⊢; exact ⟨h₀, ih (hI _ h₀ hP.1) hP.2⟩

/-! ### Group-addressed fragments -/

/-- A fragment addressed to a group address. -/
def RecvFrame.IsGroupFragment (f : RecvFrame) : Prop := f.IsFragment ∧ isMcast f.attrib.ra = true

/-- The call neither queues a group-addressed fragment nor hands one on, by itself or as a part. -/
def Call.GroupSafe (c : Call) : Prop :=
  (c.out.queued = true → ¬ c.frame.IsGroupFragment) ∧
  (c.out.ret = .cont → ∀ p ∈ c.parts, ¬ p.IsGroupFragment)

theorem Call.groupSafe_iff {c : Call} (hq : ∀ q, c.queue = some q → ∀ p ∈ q, ¬ p.IsGroupFragment) :
    c.GroupSafe ↔ (c.frame.IsGroupFragment → c.queue = none) := by
  have hc := c.handled
  unfold Call.GroupSafe Call.parts
  generalize c.out = o at hc ⊢
  obtain ⟨cq, f⟩ := c
  simp only at hc hq ⊢
  cases hc with
  | whole hf =>
    have : ¬ f.IsGroupFragment := fun h => hf h.1
    simp [this]
  | noQueue hf => simp
  | first hm h0 => simp
  | next hm h0 => simp
  | dropped hm h0 hr => simp
  | @joined q _ r hm h0 hr =>
    simp only [Option.isSome_some, if_true, Option.getD_some, forall_const, reduceCtorEq, imp_false]
    refine ⟨fun h => h.1, fun h => ⟨h, fun p hp => ?_⟩⟩
    rcases List.mem_append.1 hp with hp | hp
    · exact hq q rfl p hp
    · rw [List.mem_singleton.1 hp]; exact h

/-- **Group-addressed fragments.**  Over any sequence of frames of one sender, no group-addressed
fragment is queued, handed on or made part of a frame handed on, exactly when none arrives for which
there is a queue. -/
theorem no_group_fragment_iff (known : Bool) (as : List Arrival) :
    (∀ c ∈ calls (if known then some [] else none) as, c.GroupSafe) ↔
      ∀ c ∈ calls (if known then some [] else none) as, c.frame.IsGroupFragment → c.queue = none := by
  let I : Option (List RecvFrame) → Prop := fun q => ∀ l, q = some l → ∀ p ∈ l, ¬ p.IsGroupFragment
  have h₀ : I (if known then some [] else none) := by
    intro l hl p hp
    cases known <;> simp at hl
    subst hl; cases hp
  have hI : ∀ c : Call, I c.queue → (c.frame.IsGroupFragment → c.queue = none) → I c.next := by
    intro c hq hf l hl p hp
    have hc := c.handled
    unfold Call.next at hl
    generalize c.out = o at hc hl
    obtain ⟨cq, f⟩ := c
    simp only at hc hq hf hl
    cases hc with
    | whole h =>
      cases cq with
      | none => cases hl
      | some q => cases hl; exact hq q rfl p hp
    | noQueue h => cases hl
    | first hm h0 =>
      cases hl
      rw [List.mem_singleton.1 hp]; exact fun h => by simpa using hf h
    | @next q _ hm h0 =>
      cases hl
      rcases List.mem_append.1 hp with hp | hp
      · exact hq q rfl p hp
      · rw [List.mem_singleton.1 hp]; exact fun h => by simpa using hf h
    | dropped hm h0 hr => cases hl; cases hp
    | joined hm h0 hr => cases hl; cases hp
  constructor
  · intro hs c hc
    have hinv := calls_invariant (P := Call.GroupSafe)
      (fun c hq hsafe => hI c hq ((Call.groupSafe_iff hq).1 hsafe)) h₀ hs
    exact (Call.groupSafe_iff (hinv c hc)).1 (hs c hc)
  · intro hs c hc
    have hinv := calls_invariant hI h₀ hs
    exact (Call.groupSafe_iff (hinv c hc)).2 (hs c hc)

def plainFragment (ra : List UInt8) (seqNum fragNum : ℕ) (mfrag : Bool) (payload : List UInt8) : RecvFrame where
  attrib :=
    { hdrlen := 24, toFrDs := 1, amsdu := false, qos := false, priority := 0, seqNum := seqNum,
      fragNum := fragNum, mfrag := mfrag, order := false, privacy := false, bdecrypted := true,
      encrypt := .noPrivacy, ivLen := 0, icvLen := 0, dst := ra, src := [2, 0, 0, 0, 0, 7],
      ta := [2, 0, 0, 0, 0, 7], ra := ra, bssid := [2, 0, 0, 0, 0, 7], keyIndex := 0,
      ethType := 0, bsnaphdr := true }
  rxData := List.replicate 24 0 ++ payload
  room := 1600
  psta := some 0
  keytrack := 0

/-- Two fragments to 01:00:5e:00:00:01: the first is queued, and the second makes a frame of both. -/
theorem not_no_group_fragment : ¬ ∀ (known : Bool) (as : List Arrival),
      ∀ c ∈ calls (if known then some [] else none) as, c.GroupSafe := by
  intro h
  let f₁ := plainFragment [1, 0, 94, 0, 0, 1] 5 0 true [10]
  let c₁ : Call := ⟨some [], f₁⟩
  have hsafe := h true [⟨f₁, 0⟩] c₁ (by simp [calls]; rfl)
  exact hsafe.1 rfl ⟨.inl rfl, by decide⟩

/-! ### What recvframe_defrag joins -/

/-- The payloads fit behind the first fragment. -/
def Fits : RecvFrame → List RecvFrame → Prop
  | _, [] => True
  | pr, nf :: rest => nf.payload.length ≤ pr.room ∧ Fits (joinFragment pr nf) rest

/-- The packet numbers of the fragments with a CCMP header follow each other, from `cur` on. -/
def PnInRow : BitVec 64 → List RecvFrame → Prop
  | _, [] => True
  | cur, nf :: rest =>
    if nf.attrib.encrypt.ccmpHeader then nf.ccmpPn = cur + 1#64 ∧ PnInRow nf.ccmpPn rest
    else PnInRow cur rest

/-- The packet number the first fragment starts with. -/
def RecvFrame.startPn (f : RecvFrame) : BitVec 64 :=
  if f.attrib.encrypt.ccmpHeader then f.ccmpPn else 0#64

theorem joinFragment_keytrack (pr nf : RecvFrame) : (joinFragment pr nf).keytrack = pr.keytrack := by
  unfold joinFragment recvframePut recvframePullTail
  split <;> split <;> rfl

variable {pr : RecvFrame} {rest : List RecvFrame}

theorem defragLoop_isSome_iff {n : ℕ} {cur : BitVec 64} : (defragLoop pr n cur rest).isSome ↔
      rest.map (·.attrib.fragNum) = List.range' n rest.length ∧
      (∀ f ∈ rest, f.keytrack = pr.keytrack) ∧ PnInRow cur rest ∧ Fits pr rest := by
  induction rest generalizing pr n cur with
  | nil => simp [defragLoop, PnInRow, Fits]
  | cons nf rest ih =>
    rw [defragLoop, PnInRow, Fits]
    simp only [List.map_cons, List.length_cons, List.range'_succ, List.cons.injEq, List.forall_mem_cons]
    by_cases hpn : nf.attrib.encrypt.ccmpHeader = true ∧ nf.ccmpPn ≠ cur + 1#64
    · simp [hpn.1, hpn.2]
    · rw [if_neg hpn]
      by_cases hk : pr.keytrack = nf.keytrack
      · by_cases hn : n = nf.attrib.fragNum
        · by_cases hr : pr.room < nf.payload.length
          · simp only [hk, hn, hr, ne_eq, not_true_eq_false, if_false, if_true, Option.isSome_none,
              Bool.false_eq_true, false_iff]
            rintro ⟨-, -, -, hfit, -⟩
            omega
          · have hfit : nf.payload.length ≤ pr.room := by omega
            simp only [hk, hn, hr, ne_eq, not_true_eq_false, if_false, ih, joinFragment_keytrack, hfit, true_and]
            by_cases hc : nf.attrib.encrypt.ccmpHeader = true
            · have hpn' : nf.ccmpPn = cur + 1#64 := by
                by_contra h
                exact hpn ⟨hc, h⟩
              simp only [hc, if_true, ← hpn', true_and]
            · simp only [hc, if_false, Bool.false_eq_true]
        · have hn' : nf.attrib.fragNum ≠ n := fun h => hn h.symm; simp [hk, hn, hn']
      · have hk' : nf.keytrack ≠ pr.keytrack := fun h => hk h.symm; simp [hk, hk']

/-- The comparisons of `recvframe_defrag`: fragment numbers from 0 on, one key track, packet numbers
in a row as far as they are compared, and payloads that fit. -/
structure Joinable (pr : RecvFrame) (rest : List RecvFrame) : Prop where
  numbered : (pr :: rest).map (·.attrib.fragNum) = List.range (rest.length + 1)
  key : ∀ f ∈ rest, f.keytrack = pr.keytrack
  pn : PnInRow pr.startPn rest
  fits : Fits pr rest

theorem recvframeDefrag_isSome_iff : (recvframeDefrag (pr :: rest)).isSome ↔ Joinable pr rest := by
  have hiff : (recvframeDefrag (pr :: rest)).isSome ↔
      (pr :: rest).map (·.attrib.fragNum) = List.range (rest.length + 1) ∧
      (∀ f ∈ rest, f.keytrack = pr.keytrack) ∧ PnInRow pr.startPn rest ∧ Fits pr rest := by
    rw [recvframeDefrag]
    simp only [List.map_cons, List.range_eq_range', List.range'_succ, List.cons.injEq]
    by_cases h0 : pr.attrib.fragNum = 0
    · rw [if_neg (not_not.2 h0)]
      simp only [h0, true_and]; exact defragLoop_isSome_iff
    · simp [h0]
  rw [hiff]
  exact ⟨fun ⟨h1, h2, h3, h4⟩ => ⟨h1, h2, h3, h4⟩, fun h => ⟨h.numbered, h.key, h.pn, h.fits⟩⟩

/-! ### One MSDU -/

/-- The packet number of `g` follows that of `f`. -/
def PnFollows (f g : RecvFrame) : Prop := ∀ p q, f.pn = some p → g.pn = some q → q = p + 1#64

/-- The fragments 0, 1, .. of one MSDU. -/
structure OneMsdu (parts : List RecvFrame) : Prop where
  numbered : parts.map (·.attrib.fragNum) = List.range parts.length
  seq : ∀ f ∈ parts, ∀ g ∈ parts, f.attrib.seqNum = g.attrib.seqNum
  prot : ∀ f ∈ parts, ∀ g ∈ parts, f.attrib.privacy = g.attrib.privacy ∧ f.attrib.encrypt = g.attrib.encrypt
  key : ∀ f ∈ parts, ∀ g ∈ parts, f.keytrack = g.keytrack
  pn : parts.IsChain PnFollows

/-- Fragments that agree in what `recvframe_defrag` does not compare: the sequence number, the
protection, and the packet numbers of TKIP. -/
structure Alike (parts : List RecvFrame) : Prop where
  seq : ∀ f ∈ parts, ∀ g ∈ parts, f.attrib.seqNum = g.attrib.seqNum
  prot : ∀ f ∈ parts, ∀ g ∈ parts, f.attrib.privacy = g.attrib.privacy ∧ f.attrib.encrypt = g.attrib.encrypt
  tkip : (∀ f ∈ parts, f.attrib.encrypt = .tkip) → parts.IsChain PnFollows

theorem PnInRow.chain (hc : ∀ f ∈ pr :: rest, f.attrib.encrypt.ccmpHeader = true) (h : PnInRow pr.ccmpPn rest) :
    (pr :: rest).IsChain PnFollows := by
  induction rest generalizing pr with
  | nil => exact List.IsChain.singleton _
  | cons nf rest ih =>
    have hnf : nf.attrib.encrypt.ccmpHeader = true := hc nf (by simp)
    rw [PnInRow, if_pos hnf] at h
    refine List.isChain_cons_cons.2 ⟨?_, ih (fun f hf => hc f (List.mem_cons_of_mem _ hf)) h.2⟩
    intro p q hp hq
    rw [RecvFrame.pn_of_ccmpHeader (hc pr (by simp))] at hp
    rw [RecvFrame.pn_of_ccmpHeader hnf] at hq
    cases hp
    cases hq
    exact h.1

theorem Joinable.oneMsdu_iff (h : Joinable pr rest) : OneMsdu (pr :: rest) ↔ Alike (pr :: rest) := by
  refine ⟨fun hm => ⟨hm.seq, hm.prot, fun _ => hm.pn⟩, fun ha => ?_⟩
  have hkey : ∀ f ∈ pr :: rest, f.keytrack = pr.keytrack := by
    intro f hf
    rcases List.mem_cons.1 hf with rfl | hf
    · rfl
    · exact h.key f hf
  have hcipher : ∀ f ∈ pr :: rest, f.attrib.encrypt = pr.attrib.encrypt :=
    fun f hf => (ha.prot f hf pr (by simp)).2
  refine ⟨h.numbered, ha.seq, ha.prot, fun f hf g hg => (hkey f hf).trans (hkey g hg).symm, ?_⟩
  by_cases hc : pr.attrib.encrypt.ccmpHeader = true
  · have hpn := h.pn
    rw [RecvFrame.startPn, if_pos hc] at hpn
    exact hpn.chain fun f hf => by rw [hcipher f hf]; exact hc
  · by_cases ht : pr.attrib.encrypt = .tkip
    · exact ha.tkip fun f hf => (hcipher f hf).trans ht
    · -- a cipher without packet numbers
      have hnone : ∀ f ∈ pr :: rest, f.pn = none := by
        intro f hf
        have he := hcipher f hf
        unfold RecvFrame.pn rtwIvToPn
        rw [he]
        unfold SecurityType.ccmpHeader at hc; cases hpe : pr.attrib.encrypt <;> simp_all
      rw [List.isChain_iff_getElem]
      intro i hi p q hp
      rw [hnone _ (List.getElem_mem _)] at hp; cases hp

/-- The fragments that a call hands on are one MSDU. -/
def Call.OneMsdu (c : Call) : Prop := c.out.whole.isSome → Recv.OneMsdu c.parts

/-- Where the last fragment completes a queue that passes the comparisons, the fragments are alike. -/
def Call.Alike (c : Call) : Prop :=
  ∀ q pr rest, c.queue = some q → c.frame.attrib.mfrag = false → c.frame.attrib.fragNum ≠ 0 →
    q ++ [c.frame] = pr :: rest → Joinable pr rest → Recv.Alike (pr :: rest)

theorem Call.oneMsdu_iff (c : Call) : c.OneMsdu ↔ c.Alike := by
  have hc := c.handled
  unfold Call.OneMsdu Call.Alike Call.parts
  generalize c.out = o at hc ⊢
  obtain ⟨cq, f⟩ := c
  simp only at hc ⊢
  cases hc with
  | whole hf =>
    have h0 : f.attrib.fragNum = 0 := by
      by_contra h
      exact hf (.inr h)
    simp [h0]
  | noQueue hf => simp
  | first hm h0 =>
    have hm' : f.attrib.mfrag = true := hm
    simp [hm']
  | next hm h0 =>
    have hm' : f.attrib.mfrag = true := hm
    simp [hm']
  | @dropped q _ hm h0 hr =>
    simp only [Option.isSome_none, Bool.false_eq_true, IsEmpty.forall_iff, true_iff]
    intro q' pr rest hq' _ _ hparts hj
    cases hq'
    have hsome := recvframeDefrag_isSome_iff.2 hj
    rw [List.map_id, hparts] at hr
    rw [hr] at hsome; cases hsome
  | @joined q _ r hm h0 hr =>
    simp only [Option.isSome_some, if_true, Option.getD_some, forall_const]
    rw [List.map_id] at hr
    constructor
    · intro hone q' pr rest hq' _ _ hparts hj
      cases hq'
      rw [hparts] at hone; exact hj.oneMsdu_iff.1 hone
    · intro halike
      obtain ⟨pr, rest, hparts⟩ : ∃ pr rest, q ++ [f] = pr :: rest :=
        List.exists_cons_of_ne_nil (by simp)
      have hj : Joinable pr rest := by
        rw [← recvframeDefrag_isSome_iff, ← hparts, hr]; rfl
      have := halike q pr rest rfl hm h0 hparts hj
      rw [hparts]; exact hj.oneMsdu_iff.2 this

/-- **Reassembled frames.**  Over any sequence of frames of one sender, every frame put together is
made of the fragments of one MSDU exactly when the fragments of every queue that is joined agree in
what `recvframe_defrag` does not compare. -/
theorem one_msdu_iff (known : Bool) (as : List Arrival) :
    (∀ c ∈ calls (if known then some [] else none) as, c.OneMsdu) ↔
      ∀ c ∈ calls (if known then some [] else none) as, c.Alike :=
  forall₂_congr fun c _ => c.oneMsdu_iff

/-- Fragment 0 of the MSDU with sequence number 5, and fragment 1 of another. -/
theorem not_one_msdu : ¬ ∀ (known : Bool) (as : List Arrival),
      ∀ c ∈ calls (if known then some [] else none) as, c.OneMsdu := by
  intro h
  let f₁ := plainFragment [2, 0, 0, 0, 0, 1] 5 0 true [10]
  let f₂ := plainFragment [2, 0, 0, 0, 0, 1] 9 1 false [11]
  let c₂ : Call := ⟨some [f₁], f₂⟩
  have hcalls : calls (some []) [⟨f₁, 0⟩, ⟨f₂, 0⟩] = [⟨some [], f₁⟩, c₂] := by decide
  have hone := h true [⟨f₁, 0⟩, ⟨f₂, 0⟩] c₂ (by simp [hcalls]) (by decide)
  exact absurd (hone.seq f₁ (by decide) f₂ (by decide)) (by decide)

end Rtl8852cu.Recv
