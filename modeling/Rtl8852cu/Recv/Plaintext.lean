import Rtl8852cu.Recv.DefragBuf
import Rtl8852cu.Recv.Forged

/-!
# Frames without protection

What `validate_recv_data_frame` lets through in a protected network, with what it reads behind the end of a frame.

`CONFIG_RTW_MESH`, `CONFIG_TDLS` and `CONFIG_WAPI_SUPPORT` are not set.
-/

namespace Rtl8852cu.Recv

open Lib

/-- What is read through `rx_data`: the frame, and the bytes behind it.  The header, the IV and the type of the payload
take less than 64 bytes. -/
def RecvBuf.seen (f : RecvBuf) : RecvFrame := { f.view with rxData := slice f.mem f.rxData (f.len + 64) }

/-- `validate_recv_data_frame`, on the frame in its buffer -/
def validateRecvDataFrameBuf (env : RxEnv) (f : RecvBuf) (st : RecvPriv) : Option (StaId × RecvBuf) × RecvPriv :=
  match validateRecvDataFrame env f.seen st with
  | (some (s, g), st) => (some (s, { f with attrib := g.attrib, psta := g.psta }), st)
  | (none, st) => (none, st)

/-- Where `ether_ptr` points to in the frame. -/
def RecvBuf.etherPtr (f : RecvBuf) : ℕ := f.attrib.hdrlen + f.attrib.ivLen + 6

/-- `ether_type`, of what is there. -/
def RecvBuf.etherType (f : RecvBuf) : ℕ :=
  (f.mem (f.rxData + f.etherPtr)).toNat * 256 + (f.mem (f.rxData + f.etherPtr + 1)).toNat

/-- An EAPOL frame that may be without protection. -/
structure PlainEapol (env : RxEnv) (s : StaId) (f : RecvBuf) : Prop where
  unicast : isMcast f.attrib.ra = false
  notAmsdu : f.attrib.amsdu = false
  auth : env.authAlgrthm = .ieee8021X
  inside : f.etherPtr + 2 ≤ f.len
  eapol : f.etherType = eapolType
  self : env.mlmeIsApOrMesh = true → (env.sta s).privacy = .noPrivacy → env.matchSelfAddr f.attrib.dst = true

/-- The check of the addresses, of whatever role, writes the five addresses only. -/
def AddressesOnly (env : RxEnv) : Prop :=
  ∀ f s a, env.validateHdr f = .success s a →
    a = { f.attrib with dst := a.dst, src := a.src, ta := a.ta, ra := a.ra, bssid := a.bssid }

/-- The length of the header, by its bits. -/
def RxPktAttrib.headerLen (a : RxPktAttrib) : ℕ :=
  (if a.qos then 26 + a.a4Shift else 24 + a.a4Shift) + if a.order then 4 else 0

theorem headerLen_le (a : RxPktAttrib) : a.headerLen ≤ 36 := by
  unfold RxPktAttrib.headerLen RxPktAttrib.a4Shift
  split <;> split <;> split <;> omega

/-- What is known of a frame that has been let through, but for where its ether type lies. -/
structure Passed (env : RxEnv) (s : StaId) (f : RecvBuf) : Prop where
  hdrlen : f.attrib.hdrlen = f.attrib.headerLen
  ivLen : f.attrib.ivLen = 0
  icvLen : f.attrib.icvLen = 0
  unicast : isMcast f.attrib.ra = false
  notAmsdu : f.attrib.amsdu = false
  auth : env.authAlgrthm = .ieee8021X
  eapol : f.etherType = eapolType
  self : env.mlmeIsApOrMesh = true → (env.sta s).privacy = .noPrivacy → env.matchSelfAddr f.attrib.dst = true

section Accepted

variable {env : RxEnv} {f g : RecvBuf} {s : StaId} {st st' : RecvPriv}

theorem plaintextDrop_false {g : RecvFrame} (hpriv : env.privacyAlgrthm ≠ .noPrivacy) (hplain : g.attrib.privacy = false)
    (h : plaintextDrop env s g = false) : isMcast g.attrib.ra = false ∧ g.attrib.amsdu = false ∧
      env.authAlgrthm = .ieee8021X ∧ g.etherType = eapolType ∧
      (env.mlmeIsApOrMesh = true → (env.sta s).privacy = .noPrivacy → env.matchSelfAddr g.attrib.dst = true) := by
  unfold plaintextDrop at h
  dsimp only at h
  rw [if_neg hpriv] at h
  cases hm : isMcast g.attrib.ra with
  | true => simp [hm, hplain] at h
  | false =>
    rw [if_neg (by rw [hm]; decide)] at h
    by_cases hauth : env.authAlgrthm = .ieee8021X
    · rw [if_pos hauth, decide_eq_false_iff_not, not_or, not_or] at h
      obtain ⟨h1, h2, h3⟩ := h
      have heapol : g.etherType = eapolType := by
        by_contra hne
        exact h1 ⟨by rw [hplain]; decide, hne⟩
      refine ⟨rfl, ?_, hauth, heapol, fun hap hkey => ?_⟩
      · by_contra ham; exact h2 ⟨by rw [hplain]; decide, Bool.eq_true_of_not_eq_false ham⟩
      · by_contra hself; exact h3 ⟨heapol, hap, hkey, hself⟩
    · rw [if_neg hauth, hplain] at h; cases h

theorem byteAt_slice {m : ℕ → UInt8} {a n i : ℕ} (h : i < n) : byteAt (slice m a n) i = m (a + i) := by
  unfold byteAt slice
  rw [List.getD_eq_getElem?_getD, List.getElem?_map, List.getElem?_range' h, Option.map_some, Option.getD_some, Nat.one_mul]

theorem accepted_plain (hhdr : AddressesOnly env) (hpriv : env.privacyAlgrthm ≠ .noPrivacy) (hplain : f.attrib.privacy = false)
    (h : validateRecvDataFrameBuf env f st = (some (s, g), st')) :
    Passed env s g ∧ g.attrib.headerLen = f.attrib.headerLen ∧ g = { f with attrib := g.attrib, psta := g.psta } := by
  unfold validateRecvDataFrameBuf at h
  split at h
  · rename_i s' g' st₁ hv
    cases h
    obtain ⟨a, p, hval, -, -, rfl, hdrop⟩ := validateRecvDataFrame_some hv
    have ha := hhdr _ _ _ hval
    have hpriv' : a.privacy = false := by
      rw [ha]; exact hplain
    have hlen : a.headerLen = f.attrib.headerLen := by
      rw [ha]; rfl
    generalize hg : setEncrypt env s (parseQc s { f.seen with attrib := a }) = g at *
    have hattrib : g.attrib = { (parseQc s { f.seen with attrib := a }).attrib with
        encrypt := .noPrivacy, ivLen := 0, icvLen := 0 } := by
      rw [← hg]
      unfold setEncrypt
      dsimp only
      rw [if_neg (show ¬ (parseQc s { f.seen with attrib := a }).attrib.privacy = true by
        rw [show (parseQc s { f.seen with attrib := a }).attrib.privacy = a.privacy from rfl, hpriv']; decide)]
    have hhdrlen : g.attrib.hdrlen = a.headerLen := by
      rw [hattrib]
      unfold parseQc RxPktAttrib.headerLen
      dsimp only
      split
      · rfl
      · rfl
    have hglen : g.attrib.headerLen = a.headerLen := by
      rw [hattrib]; rfl
    have hgplain : g.attrib.privacy = false := by
      rw [hattrib]; exact hpriv'
    obtain ⟨h1, h2, h3, h4, h5⟩ := plaintextDrop_false hpriv hgplain hdrop
    have hiv : g.attrib.ivLen = 0 := by
      rw [hattrib]
    have hle := headerLen_le a
    refine ⟨⟨by rw [hhdrlen, hglen], hiv, by rw [hattrib], h1, h2, h3, ?_, h5⟩, by rw [hglen, hlen], rfl⟩
    have hdata : g.rxData = slice f.mem f.rxData (f.len + 64) := by
      rw [← hg]; rfl
    unfold RecvFrame.etherType at h4
    dsimp only at h4
    rw [hdata, byteAt_slice (by omega), byteAt_slice (by omega)] at h4; exact h4
  · cases h

end Accepted

/-! ### Fragments -/

/-- A frame of `defrag_q` that has been let through without protection: the decryption has marked it, and it has the key
track of its sender. -/
structure Held (env : RxEnv) (s : StaId) (q : RecvBuf) : Prop where
  ok : q.Ok
  passed : Passed env s q

/-- What is done to a frame between the check and the queue. -/
def RecvBuf.marked (g : RecvBuf) (bdecrypted : Bool) (keytrack : ℤ) : RecvBuf :=
  { g with attrib := { g.attrib with bdecrypted := bdecrypted }, keytrack := keytrack }

/-- What a fragment brings to the frame. -/
def RecvBuf.plainPayload (q : RecvBuf) : List UInt8 := (recvframePullBuf q q.attrib.hdrlen).bytes

/-- The fragments, one behind the other. -/
def plainJoined (pr : RecvBuf) (rest : List RecvBuf) : List UInt8 := pr.bytes ++ rest.flatMap RecvBuf.plainPayload

section Fragments

variable {env : RxEnv} {s : StaId} {f g q r pr : RecvBuf} {st st' : RecvPriv} {rest : List RecvBuf}

theorem held_of_accepted (hhdr : AddressesOnly env) (hpriv : env.privacyAlgrthm ≠ .noPrivacy) (hok : f.Ok)
    (hplain : f.attrib.privacy = false) (h : validateRecvDataFrameBuf env f st = (some (s, g), st')) (b : Bool) (k : ℤ) :
    Held env s (g.marked b k) := by
  obtain ⟨hp, -, hg⟩ := accepted_plain hhdr hpriv hplain h
  refine ⟨?_, ⟨hp.hdrlen, hp.ivLen, hp.icvLen, hp.unicast, hp.notAmsdu, hp.auth, hp.eapol, hp.self⟩⟩
  rw [hg]; exact ⟨hok.tail, hok.le_end⟩

theorem pullTail_zero (h : pr.Ok) : recvframePullTailBuf pr 0 = pr := by
  have ht := h.tail
  unfold recvframePullTailBuf
  split
  · rfl
  · rfl

theorem append_attrib (pr nf : RecvBuf) :
    (appendFragment pr nf).attrib = { pr.attrib with icvLen := nf.attrib.icvLen } := by
  unfold appendFragment recvframePutBuf recvframePullTailBuf
  dsimp only
  split
  · split
    · rfl
    · rfl
  · split
    · rfl
    · rfl

theorem defragBufLoop_plain {ids : List ℕ} {n : ℕ} {pn : BitVec 64} {copies : List (ℕ × ℕ)} (hpr : pr.Ok)
    (hicv : pr.attrib.icvLen = 0) (hrest : ∀ q ∈ rest, Held env s q)
    (h : (defragBufLoop ids pr n pn copies rest).ret = some r) :
    r.Ok ∧ r.attrib = pr.attrib ∧ r.bytes = plainJoined pr rest := by
  induction rest generalizing pr n pn copies with
  | nil =>
    cases h
    exact ⟨hpr, rfl, (List.append_nil _).symm⟩
  | cons q rest ih =>
    have hq := hrest q List.mem_cons_self
    have hle := headerLen_le q.attrib
    have hmod : (q.attrib.hdrlen + q.attrib.ivLen) % 256 = q.attrib.hdrlen := by
      rw [hq.passed.ivLen, hq.passed.hdrlen]; omega
    unfold defragBufLoop at h
    split at h
    · cases h
    split at h
    · cases h
    split at h
    · cases h
    dsimp only at h
    rw [hmod] at h
    split at h
    · cases h
    rename_i hroom
    obtain ⟨hok, -, -, hbytes⟩ := appendFragment_spec hpr (Nat.not_lt.mp hroom)
    have hattrib : (appendFragment pr (recvframePullBuf q q.attrib.hdrlen)).attrib = pr.attrib := by
      rw [append_attrib, pull_attrib, hq.passed.icvLen, ← hicv]
    obtain ⟨h1, h2, h3⟩ := ih hok (by rw [hattrib, hicv]) (fun q' hq' => hrest q' (List.mem_cons_of_mem _ hq')) h
    refine ⟨h1, h2.trans hattrib, ?_⟩
    rw [h3]
    unfold plainJoined
    rw [hbytes, hicv, pullTail_zero hpr, List.flatMap_cons, List.append_assoc]; rfl

theorem inside_eapol_iff :
    r.etherPtr + 2 ≤ r.len ∧ r.etherType = eapolType ↔ [0x88, 0x8e] <+: r.bytes.drop r.etherPtr := by
  have hdrop : r.etherPtr + 2 ≤ r.len → r.bytes.drop r.etherPtr =
      [r.mem (r.rxData + r.etherPtr), r.mem (r.rxData + r.etherPtr + 1)] ++
        slice r.mem (r.rxData + r.etherPtr + 2) (r.len - r.etherPtr - 2) := by
    intro hin
    obtain ⟨k, hk⟩ := Nat.exists_eq_add_of_le hin
    have hlen : r.len - r.etherPtr = 2 + k := by omega
    have hrest : r.len - r.etherPtr - 2 = k := by omega
    unfold RecvBuf.bytes
    rw [hrest, slice_drop (by omega), hlen, slice_add]; rfl
  have htype : r.etherType = eapolType ↔ r.mem (r.rxData + r.etherPtr) = 0x88 ∧ r.mem (r.rxData + r.etherPtr + 1) = 0x8e := by
    unfold RecvBuf.etherType
    rw [← UInt8.toNat_inj, ← UInt8.toNat_inj]
    have h1 := (r.mem (r.rxData + r.etherPtr)).toNat_lt
    have h2 := (r.mem (r.rxData + r.etherPtr + 1)).toNat_lt
    have h88 : (0x88 : UInt8).toNat = 136 := rfl
    have h8e : (0x8e : UInt8).toNat = 142 := rfl
    have he : eapolType = 34958 := rfl
    omega
  constructor
  · rintro ⟨hin, heapol⟩
    obtain ⟨h1, h2⟩ := htype.mp heapol
    rw [hdrop hin, h1, h2]; exact List.prefix_append _ _
  · intro hpre
    have hin : r.etherPtr + 2 ≤ r.len := by
      have hle := hpre.length_le
      have hlen : r.bytes.length = r.len := length_slice
      rw [List.length_drop, hlen] at hle
      change 2 ≤ _ at hle
      omega
    rw [hdrop hin, List.cons_append, List.cons_append, List.cons_prefix_cons, List.cons_prefix_cons] at hpre
    exact ⟨hin, htype.mpr ⟨hpre.1.symm, hpre.2.1.symm⟩⟩

theorem reassembled_iff (hpr : Held env s pr) (hrest : ∀ q ∈ rest, Held env s q)
    (h : (recvframeDefragBuf pr rest).ret = some r) :
    (PlainEapol env s r ↔ [0x88, 0x8e] <+: (plainJoined pr rest).drop (pr.attrib.headerLen + 6)) ∧
      (pr.attrib.headerLen + 8 ≤ pr.len → PlainEapol env s r) := by
  unfold recvframeDefragBuf at h
  split at h
  · cases h
  obtain ⟨-, hattrib, hbytes⟩ := defragBufLoop_plain hpr.ok hpr.passed.icvLen hrest h
  have hptr : r.etherPtr = pr.attrib.headerLen + 6 := by
    unfold RecvBuf.etherPtr
    rw [hattrib, hpr.passed.ivLen, hpr.passed.hdrlen]
  have hiff : PlainEapol env s r ↔ [0x88, 0x8e] <+: (plainJoined pr rest).drop (pr.attrib.headerLen + 6) := by
    rw [← hbytes, ← hptr, ← inside_eapol_iff]
    constructor
    · intro hlaw; exact ⟨hlaw.inside, hlaw.eapol⟩
    · rintro ⟨hin, heapol⟩
      refine ⟨?_, ?_, hpr.passed.auth, hin, heapol, ?_⟩
      · rw [hattrib]; exact hpr.passed.unicast
      · rw [hattrib]; exact hpr.passed.notAmsdu
      · rw [hattrib]; exact hpr.passed.self
  refine ⟨hiff, fun hlong => hiff.mpr ?_⟩
  have hptr' : pr.etherPtr = pr.attrib.headerLen + 6 := by
    unfold RecvBuf.etherPtr
    rw [hpr.passed.ivLen, hpr.passed.hdrlen]
  have hfirst := inside_eapol_iff.mp ⟨by omega, hpr.passed.eapol⟩
  have hlen : pr.bytes.length = pr.len := length_slice
  unfold plainJoined
  rw [List.drop_append_of_le_length (by omega), ← hptr']
  exact hfirst.trans (List.prefix_append _ _)

end Fragments
/-! ### What is let through -/

/-- A fragment that has been let through without protection, as it is in `defrag_q`. -/
def AcceptedPlain (env : RxEnv) (s : StaId) (q : RecvBuf) : Prop :=
  ∃ f st g st' b k, RecvBuf.Ok f ∧ f.attrib.privacy = false ∧
    validateRecvDataFrameBuf env f st = (some (s, g), st') ∧ q = g.marked b k

theorem AcceptedPlain.held {env : RxEnv} {s : StaId} {q : RecvBuf} (hhdr : AddressesOnly env)
    (hpriv : env.privacyAlgrthm ≠ .noPrivacy) (h : AcceptedPlain env s q) : Held env s q := by
  obtain ⟨f, st, g, st', b, k, hok, hplain, hval, rfl⟩ := h
  exact held_of_accepted hhdr hpriv hok hplain hval b k

/-- **Frames without protection** keep to the law if and only if the two bytes that are taken for the ether type are inside
the frame, and those of EAPOL in the frame that is put together. -/
theorem plaintext_iff (env : RxEnv) (s : StaId) (hhdr : AddressesOnly env) (hpriv : env.privacyAlgrthm ≠ .noPrivacy) :
    (∀ f st g st', f.attrib.privacy = false → validateRecvDataFrameBuf env f st = (some (s, g), st') →
      (PlainEapol env s g ↔ f.attrib.headerLen + 8 ≤ f.len)) ∧
    (∀ pr rest r, AcceptedPlain env s pr → (∀ q ∈ rest, AcceptedPlain env s q) →
      (recvframeDefragBuf pr rest).ret = some r →
        (PlainEapol env s r ↔ [0x88, 0x8e] <+: (plainJoined pr rest).drop (pr.attrib.headerLen + 6)) ∧
        (pr.attrib.headerLen + 8 ≤ pr.len → PlainEapol env s r)) := by
  constructor
  · intro f st g st' hplain hval
    obtain ⟨hp, hhead, hg⟩ := accepted_plain hhdr hpriv hplain hval
    have hptr : g.etherPtr = f.attrib.headerLen + 6 := by
      unfold RecvBuf.etherPtr
      rw [hp.hdrlen, hp.ivLen, hhead]
    have hlen : g.len = f.len := by rw [hg]
    constructor
    · intro hlaw
      have hin := hlaw.inside
      omega
    · intro hlong; exact ⟨hp.unicast, hp.notAmsdu, hp.auth, by omega, hp.eapol, hp.self⟩
  · intro pr rest r hpr hrest hret
    exact reassembled_iff (hpr.held hhdr hpriv) (fun q hq => (hrest q hq).held hhdr hpriv) hret

/-- A data frame to `02:00:00:00:00:01`, without protection. -/
def plainAttrib (mfrag : Bool) (fragNum : ℕ) : RxPktAttrib :=
  { fragAttrib .noPrivacy fragNum 0 0 0 with
    qos := false, privacy := false, mfrag, seqNum := 7, ra := [2, 0, 0, 0, 0, 1], dst := [2, 0, 0, 0, 0, 1] }

/-- Such a frame of `len` bytes; the bytes of a frame that was in the buffer before it are still there. -/
def eapolBuf (mfrag : Bool) (fragNum len : ℕ) : RecvBuf :=
  { fragBuf (plainAttrib mfrag fragNum) (List.replicate 30 0 ++ [0x88, 0x8e, 2, 3]) 30 with
    rxTail := len, len := len }

def eapolPassed (mfrag : Bool) (fragNum len : ℕ) : RecvBuf :=
  { eapolBuf mfrag fragNum len with attrib := { plainAttrib mfrag fragNum with hdrlen := 24 }, psta := some 0 }

theorem addressesOnly_ccmpStation : AddressesOnly ccmpStation := by
  intro f s a h
  cases h
  rfl

theorem eapol_passes (mfrag : Bool) (fragNum len : ℕ) (hlen : len = 24 ∨ len = 34) (hfrag : fragNum = 0 ∨ fragNum = 1) :
    ∃ st', validateRecvDataFrameBuf ccmpStation (eapolBuf mfrag fragNum len) .init =
      (some (0, eapolPassed mfrag fragNum len), st') := by
  rcases hlen with rfl | rfl <;> rcases hfrag with rfl | rfl <;> cases mfrag <;> exact ⟨_, rfl⟩

theorem plaintext_examples :
    PlainEapol ccmpStation 0 (eapolPassed false 0 34) ∧ ¬ PlainEapol ccmpStation 0 (eapolPassed false 0 24) ∧
      ∃ r, (recvframeDefragBuf ((eapolPassed true 0 34).marked true 0) [(eapolPassed false 1 34).marked true 0]).ret = some r ∧
        PlainEapol ccmpStation 0 r := by
  obtain ⟨hone, hjoined⟩ := plaintext_iff ccmpStation 0 addressesOnly_ccmpStation (by decide)
  obtain ⟨st₁, h₁⟩ := eapol_passes false 0 34 (.inr rfl) (.inl rfl)
  obtain ⟨st₂, h₂⟩ := eapol_passes false 0 24 (.inl rfl) (.inl rfl)
  obtain ⟨st₃, h₃⟩ := eapol_passes true 0 34 (.inr rfl) (.inl rfl)
  obtain ⟨st₄, h₄⟩ := eapol_passes false 1 34 (.inr rfl) (.inr rfl)
  refine ⟨(hone _ _ _ _ rfl h₁).mpr (by decide), fun hlaw => ?_, _, rfl, ?_⟩
  · exact absurd ((hone _ _ _ _ rfl h₂).mp hlaw) (by decide)
  · refine (hjoined _ [(eapolPassed false 1 34).marked true 0] _ ⟨_, _, _, _, true, 0, ⟨rfl, by decide⟩, rfl, h₃, rfl⟩
      (fun q hq => ?_) rfl).2 (by decide)
    rw [List.mem_singleton.mp hq]; exact ⟨_, _, _, _, true, 0, ⟨rfl, by decide⟩, rfl, h₄, rfl⟩

/-- A frame that ends with its header is taken for EAPOL by the bytes that an earlier frame has left behind it. -/
theorem plaintext_not_inside :
    ¬ ∀ env s, AddressesOnly env → env.privacyAlgrthm ≠ .noPrivacy → ∀ f st g st', RecvBuf.Ok f → f.attrib.privacy = false →
      validateRecvDataFrameBuf env f st = (some (s, g), st') → PlainEapol env s g := by
  intro h
  obtain ⟨st', hval⟩ := eapol_passes false 0 24 (.inl rfl) (.inl rfl)
  have hlaw := h ccmpStation 0 addressesOnly_ccmpStation (by decide) _ _ _ _ ⟨rfl, by decide⟩ rfl hval
  exact absurd hlaw.inside (by decide)

end Rtl8852cu.Recv
