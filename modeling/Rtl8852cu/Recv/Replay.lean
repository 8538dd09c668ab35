import Mathlib.Data.Nat.Digits.Lemmas
import Rtl8852cu.Recv.Types

/-!
# Replay detection of group-addressed data frames

`recv_bcast_pn_decache` compares the packet number of a frame with the one stored for its key id by
the sign of a 48-bit difference.
-/

namespace Rtl8852cu.Recv

open Function (update update_self update_of_ne)

/-! ### The check -/

def pnLessChk (a b : BitVec 64) : Bool := (a - b) &&& 0x800000000000 != 0

def validPnChk (new old : BitVec 64) : Bool := old == 0 || pnLessChk old new

/-- `recv_bcast_pn_decache`: `false` is `_FAIL`. -/
def recvBcastPnDecache (mlmeIsSta : Bool) (ivSeq : ℕ → BitVec 64) (f : RecvFrame) : Bool × (ℕ → BitVec 64) :=
  -- the ciphers it asks for are those that `rtw_iv_to_pn` knows
  match mlmeIsSta, rtwIvToPn f.iv f.attrib.encrypt with
  | true, some (pn, keyId) =>
    let pktPn := getLe64 pn
    if validPnChk pktPn (ivSeq keyId) then (true, update ivSeq keyId pktPn)
    else (false, ivSeq)
  | _, _ => (true, ivSeq)

theorem and_bit_47 (x : BitVec 64) : (x &&& 0x800000000000 != 0) = decide (x.toNat / 2 ^ 47 % 2 = 1) := by
  have hbit : x.getLsbD 47 = decide (x.toNat / 2 ^ 47 % 2 = 1) := by
    rw [BitVec.getLsbD, Nat.testBit_eq_decide_div_mod_eq]
  have hmask : (0x800000000000 : BitVec 64) = BitVec.twoPow 64 47 := rfl
  rw [← hbit, hmask, BitVec.and_twoPow]; cases x.getLsbD 47 <;> rfl

theorem validPnChk_iff {p s : BitVec 64} (hp : p.toNat < 2 ^ 48) (hs : s.toNat < 2 ^ 48) :
    validPnChk p s = true ↔ s.toNat = 0 ∨ (s.toNat < p.toNat ∧ p.toNat - s.toNat ≤ 2 ^ 47) ∨
      (p.toNat ≤ s.toNat ∧ 2 ^ 47 ≤ s.toNat - p.toNat) := by
  have h0 : (s == 0) = decide (s.toNat = 0) := by
    rw [Bool.eq_iff_iff]
    simp [BitVec.toNat_eq]
  unfold validPnChk pnLessChk
  rw [and_bit_47, h0, Bool.or_eq_true, decide_eq_true_eq, decide_eq_true_eq, BitVec.toNat_sub]
  omega

-- a packet number `2 ^ 47 + 1` ahead of the stored one is taken for an old one
example : validPnChk (BitVec.ofNat 64 (2 ^ 47 + 2)) 1 = false := by decide

theorem getLe64_lt {d : List UInt8} {n : ℕ} (h : d.length = n) (hn : n ≤ 8) : (getLe64 d).toNat < 256 ^ n := by
  have h' : Nat.ofDigits 256 ((d.take 8).map UInt8.toNat) < 256 ^ n := by
    rw [List.take_of_length_le (by omega)]
    have := Nat.ofDigits_lt_base_pow_length (b := 256) (l := d.map UInt8.toNat) (by omega)
      (fun x hx => by
        obtain ⟨b, -, rfl⟩ := List.mem_map.1 hx
        exact b.toNat_lt)
    simpa [h] using this
  unfold getLe64
  rw [BitVec.toNat_ofNat]; exact lt_of_le_of_lt (Nat.mod_le _ _) h'

theorem rtwIvToPn_keyId {iv : List UInt8} {e : SecurityType} {r : List UInt8 × ℕ}
    (h : rtwIvToPn iv e = some r) : r.2 = (byteAt iv 3).toNat / 64 ∧ r.1.length = 6 := by
  unfold rtwIvToPn at h
  cases e <;> simp only [Option.some.injEq, reduceCtorEq] at h <;> subst h <;> exact ⟨rfl, rfl⟩

theorem RecvFrame.pn_lt {f : RecvFrame} {p : BitVec 64} (h : f.pn = some p) : p.toNat < 2 ^ 48 := by
  unfold RecvFrame.pn at h
  obtain ⟨r, hr, rfl⟩ := Option.map_eq_some_iff.1 h
  have := getLe64_lt (rtwIvToPn_keyId hr).2 (by omega)
  simpa using this

theorem recvBcastPnDecache_eq (sta : Bool) (ivSeq : ℕ → BitVec 64) (f : RecvFrame) :
    recvBcastPnDecache sta ivSeq f = match sta, f.pn with
      | true, some p => if validPnChk p (ivSeq f.keyId)
          then (true, update ivSeq f.keyId p) else (false, ivSeq)
      | _, _ => (true, ivSeq) := by
  unfold recvBcastPnDecache RecvFrame.pn RecvFrame.keyId
  cases sta with
  | false => rfl
  | true =>
    cases h : rtwIvToPn f.iv f.attrib.encrypt with
    | none => rfl
    | some r =>
      obtain ⟨pn, k⟩ := r
      have hk := (rtwIvToPn_keyId h).1
      simp only at hk
      subst hk; rfl

/-! ### A sequence of frames -/

/-- One frame of a sequence: the packet number stored for its key id when it arrived, the packet
number of the last frame accepted for that key id, and the verdict. -/
structure Heard where
  frame : RecvFrame
  stored : BitVec 64
  last : Option (BitVec 64)
  accepted : Bool

/-- The last accepted packet number of every key id after `f` with this verdict. -/
def noteLast (last : ℕ → Option (BitVec 64)) (f : RecvFrame) (accepted : Bool) : ℕ → Option (BitVec 64) :=
  match accepted, f.pn with
  | true, some p => update last f.keyId (some p)
  | _, _ => last

/-- The frames of a sequence with their verdicts. -/
def bcastRun (mlmeIsSta : Bool) : (ℕ → BitVec 64) → (ℕ → Option (BitVec 64)) → List RecvFrame → List Heard
  | _, _, [] => []
  | ivSeq, last, f :: fs =>
    let (ok, ivSeq') := recvBcastPnDecache mlmeIsSta ivSeq f
    ⟨f, ivSeq f.keyId, last f.keyId, ok⟩ :: bcastRun mlmeIsSta ivSeq' (noteLast last f ok) fs

/-- The packet numbers of the frames accepted for key id `k`, in order. -/
def acceptedPns (k : ℕ) (hs : List Heard) : List (BitVec 64) :=
  hs.filterMap fun h => if h.accepted ∧ h.frame.keyId = k then h.frame.pn else none

/-- No frame ahead of the stored packet number is rejected. -/
def NoneLost (hs : List Heard) : Prop :=
  ∀ h ∈ hs, ∀ p, h.frame.pn = some p → h.stored < p → h.accepted = true

/-- When the verdict on a frame is the right one.  On a station: the frame is at most `2 ^ 47` ahead
of a stored packet number other than 0, and, once a frame has been accepted, it is neither a
repetition of packet number 0 nor `2 ^ 47` or more below the stored one.  Elsewhere nothing is
checked: the frame is ahead of the last one by itself. -/
def Orderly (mlmeIsSta : Bool) (h : Heard) : Prop :=
  ∀ p, h.frame.pn = some p → if mlmeIsSta then
      (h.stored ≠ 0 → h.stored < p → p.toNat - h.stored.toNat ≤ 2 ^ 47) ∧
      (h.last ≠ none → p ≤ h.stored → h.stored ≠ 0 ∧ h.stored.toNat - p.toNat < 2 ^ 47)
    else ∀ l, h.last = some l → l < p

/-- The accepted packet numbers increase, counted from the last one before the sequence. -/
def Chained (last : ℕ → Option (BitVec 64)) (hs : List Heard) : Prop :=
  ∀ k, ((last k).toList ++ acceptedPns k hs).IsChain (· < ·)

/-- On a station the last accepted packet number is the stored one. -/
def Agrees (mlmeIsSta : Bool) (ivSeq : ℕ → BitVec 64) (last : ℕ → Option (BitVec 64)) : Prop :=
  mlmeIsSta = true → ∀ k l, last k = some l → ivSeq k = l ∧ l.toNat < 2 ^ 48

variable {ivSeq : ℕ → BitVec 64} {last : ℕ → Option (BitVec 64)}

theorem agrees_step {sta : Bool} (h : Agrees sta ivSeq last) (f : RecvFrame) :
    Agrees sta (recvBcastPnDecache sta ivSeq f).2
      (noteLast last f (recvBcastPnDecache sta ivSeq f).1) := by
  intro hsta k l hl
  subst hsta
  rw [recvBcastPnDecache_eq] at hl ⊢
  cases hp : f.pn with
  | none => simp only [hp, noteLast] at hl ⊢; exact h rfl k l hl
  | some p =>
    simp only [hp] at hl ⊢
    by_cases hv : validPnChk p (ivSeq f.keyId)
    · simp only [hv, if_true, noteLast, hp] at hl ⊢
      by_cases hk : k = f.keyId
      · subst hk
        rw [update_self] at hl ⊢
        cases hl
        exact ⟨rfl, RecvFrame.pn_lt hp⟩
      · rw [update_of_ne hk] at hl ⊢; exact h rfl k l hl
    · simp only [hv, noteLast] at hl ⊢; exact h rfl k l hl

theorem chained_cons {h : Heard} {hs : List Heard} : Chained last (h :: hs) ↔
      (∀ p, h.frame.pn = some p → h.accepted = true → ∀ l, last h.frame.keyId = some l → l < p) ∧
      Chained (noteLast last h.frame h.accepted) hs := by
  unfold Chained
  cases hp : h.frame.pn with
  | none =>
    have : ∀ k, acceptedPns k (h :: hs) = acceptedPns k hs := fun k => by
      simp [acceptedPns, hp]
    simp [this, noteLast, hp]
  | some p =>
    cases ha : h.accepted with
    | false =>
      have : ∀ k, acceptedPns k (h :: hs) = acceptedPns k hs := fun k => by
        simp [acceptedPns, ha]
      simp [this, noteLast]
    | true =>
      have hsame : acceptedPns h.frame.keyId (h :: hs) = p :: acceptedPns h.frame.keyId hs := by
        simp [acceptedPns, ha, hp]
      have hother : ∀ k, k ≠ h.frame.keyId → acceptedPns k (h :: hs) = acceptedPns k hs :=
        fun k hk => by simp [acceptedPns, ha, Ne.symm hk]
      have hnote : noteLast last h.frame true = update last h.frame.keyId (some p) := by
        simp [noteLast, hp]
      rw [hnote]
      constructor
      · intro hc
        have hk := hc h.frame.keyId
        rw [hsame] at hk
        refine ⟨?_, fun k => ?_⟩
        · intro q hq _ l hl
          cases hq
          rw [hl] at hk; exact (List.isChain_cons_cons.1 hk).1
        · by_cases hkk : k = h.frame.keyId
          · subst hkk
            rw [update_self]; exact hk.right_of_append
          · rw [update_of_ne hkk, ← hother k hkk]; exact hc k
      · rintro ⟨hlt, hc⟩ k
        by_cases hkk : k = h.frame.keyId
        · subst hkk
          have hk := hc h.frame.keyId
          rw [update_self] at hk
          rw [hsame]
          cases hl : last h.frame.keyId with
          | none => exact hk
          | some l => exact List.isChain_cons_cons.2 ⟨hlt p rfl rfl l hl, hk⟩
        · have hk := hc k
          rw [update_of_ne hkk] at hk
          rw [hother k hkk]; exact hk

theorem orderly_iff {sta : Bool} (h : Agrees sta ivSeq last) (f : RecvFrame) :
    ((∀ p, f.pn = some p → (recvBcastPnDecache sta ivSeq f).1 = true → ∀ l, last f.keyId = some l → l < p) ∧
      ∀ p, f.pn = some p → ivSeq f.keyId < p → (recvBcastPnDecache sta ivSeq f).1 = true) ↔
    Orderly sta ⟨f, ivSeq f.keyId, last f.keyId, (recvBcastPnDecache sta ivSeq f).1⟩ := by
  unfold Orderly
  rw [recvBcastPnDecache_eq]
  cases hp : f.pn with
  | none => simp
  | some p =>
    have hp48 := RecvFrame.pn_lt hp
    cases sta with
    | false => simp
    | true =>
      have hfst : (if validPnChk p (ivSeq f.keyId)
          then (true, update ivSeq f.keyId p) else (false, ivSeq)).1 =
          validPnChk p (ivSeq f.keyId) := by
        cases validPnChk p (ivSeq f.keyId) <;> rfl
      have hz : ∀ x : BitVec 64, x ≠ 0 ↔ x.toNat ≠ 0 := fun x => by
        rw [ne_eq, BitVec.toNat_eq]; rfl
      simp only [hfst, Option.some.injEq, forall_eq', if_true]
      simp only [BitVec.lt_def, BitVec.le_def, hz]
      have hkey : (ivSeq f.keyId).toNat < 2 ^ 48 → (validPnChk p (ivSeq f.keyId) = true ↔ _) := validPnChk_iff hp48
      cases hl : last f.keyId with
      | none =>
        simp only [reduceCtorEq, IsEmpty.forall_iff, implies_true, true_and, ne_eq, not_true_eq_false, and_true]
        constructor
        · intro hv h0 hlt
          rcases (hkey (by omega)).1 (hv hlt) with h1 | h1 | h1 <;> omega
        · intro hv hlt
          refine (hkey (by omega)).2 ?_
          by_cases h0 : (ivSeq f.keyId).toNat = 0
          · exact .inl h0
          · exact .inr (.inl ⟨hlt, hv h0 hlt⟩)
      | some l =>
        obtain ⟨hs, hl48⟩ := h rfl _ _ hl
        rw [hs] at hkey ⊢
        have hk := hkey hl48
        simp only [Option.some.injEq, forall_eq', ne_eq, reduceCtorEq, not_false_eq_true, forall_const]
        constructor
        · rintro ⟨hinc, hacc⟩
          refine ⟨fun h0 hlt => ?_, fun hle => ?_⟩
          · rcases hk.1 (hacc hlt) with h1 | h1 | h1 <;> omega
          · have hrej : ¬ validPnChk p l = true := fun hv => by have := hinc hv; omega
            rw [hk] at hrej; omega
        · rintro ⟨hfar, hback⟩
          refine ⟨fun hv => ?_, fun hlt => hk.2 ?_⟩
          · by_contra hge
            have := hback (by omega)
            rcases hk.1 hv with h1 | h1 | h1 <;> omega
          · by_cases h0 : l.toNat = 0
            · exact .inl h0
            · exact .inr (.inl ⟨hlt, hfar h0 hlt⟩)

theorem bcastRun_chained {sta : Bool} (h : Agrees sta ivSeq last) (fs : List RecvFrame) :
    (Chained last (bcastRun sta ivSeq last fs) ∧ NoneLost (bcastRun sta ivSeq last fs)) ↔
      ∀ x ∈ bcastRun sta ivSeq last fs, Orderly sta x := by
  induction fs generalizing ivSeq last with
  | nil =>
    have : Chained last [] := fun k => by cases hk : last k <;> simp [acceptedPns]
    simp [bcastRun, this, NoneLost]
  | cons f fs ih =>
    have hstep := orderly_iff h f
    have hrest := ih (agrees_step h f)
    rw [bcastRun, List.forall_mem_cons, ← hstep, ← hrest, chained_cons, NoneLost, List.forall_mem_cons]
    constructor
    · rintro ⟨⟨h1, h2⟩, h3, h4⟩; exact ⟨⟨h1, h3⟩, h2, h4⟩
    · rintro ⟨⟨h1, h3⟩, h2, h4⟩; exact ⟨⟨h1, h2⟩, h3, h4⟩

/-- **Replay detection of group frames.**  Over any sequence of frames, the packet numbers accepted
for one key id increase and no frame ahead of the stored one is rejected, exactly when every frame is
`Orderly` with respect to the packet number stored when it arrives. -/
theorem bcast_pn_increasing_iff (mlmeIsSta : Bool) (ivSeq : ℕ → BitVec 64) (fs : List RecvFrame) :
    ((∀ k, (acceptedPns k (bcastRun mlmeIsSta ivSeq (fun _ => none) fs)).Pairwise (· < ·)) ∧
      NoneLost (bcastRun mlmeIsSta ivSeq (fun _ => none) fs)) ↔
      ∀ h ∈ bcastRun mlmeIsSta ivSeq (fun _ => none) fs, Orderly mlmeIsSta h := by
  have hag : Agrees mlmeIsSta ivSeq (fun _ => none) := fun _ _ _ hl => by cases hl
  rw [← bcastRun_chained hag]
  refine and_congr_left fun _ => forall_congr' fun k => ?_
  exact List.isChain_iff_pairwise.symm

/-- A CCMP-protected group-addressed data frame with key id 1 and the packet number of these bytes. -/
def ccmpGroupFrame (pn0 pn1 pn2 pn3 pn4 pn5 : UInt8) : RecvFrame where
  attrib :=
    { hdrlen := 24, toFrDs := 1, amsdu := false, qos := false, priority := 0, seqNum := 0,
      fragNum := 0, mfrag := false, order := false, privacy := true, bdecrypted := true,
      encrypt := .aes, ivLen := 8, icvLen := 8, dst := [1, 0, 94, 0, 0, 1],
      src := [2, 0, 0, 0, 0, 7], ta := [2, 0, 0, 0, 0, 7], ra := [1, 0, 94, 0, 0, 1],
      bssid := [2, 0, 0, 0, 0, 7], keyIndex := 0, ethType := 0, bsnaphdr := true }
  rxData := List.replicate 24 0 ++ [pn0, pn1, 0, 0x60, pn2, pn3, pn4, pn5]
  room := 0
  psta := some 0
  keytrack := 0

/-- Packet numbers 1 and `2 ^ 47 + 1`, then the frame with packet number 1 once more. -/
theorem not_bcast_pn_increasing : ¬ ∀ (ivSeq : ℕ → BitVec 64) (fs : List RecvFrame),
      (∀ f ∈ fs, isMcast f.attrib.ra = true ∧ f.attrib.privacy = true ∧ f.pn ≠ none) →
      (∀ k, (acceptedPns k (bcastRun true ivSeq (fun _ => none) fs)).Pairwise (· < ·)) ∧
        NoneLost (bcastRun true ivSeq (fun _ => none) fs) := by
  intro h
  let f₁ := ccmpGroupFrame 1 0 0 0 0 0
  let f₂ := ccmpGroupFrame 1 0 0 0 0 0x80
  have hrun : acceptedPns 1 (bcastRun true (fun _ => 0) (fun _ => none) [f₁, f₂, f₁]) =
      [1, BitVec.ofNat 64 (2 ^ 47 + 1), 1] := by decide
  have hinc := (h (fun _ => 0) [f₁, f₂, f₁] (by decide)).1 1
  rw [hrun] at hinc; exact absurd hinc (by decide)

end Rtl8852cu.Recv
