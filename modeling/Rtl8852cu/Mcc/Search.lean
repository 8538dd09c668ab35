import Rtl8852cu.Mcc.Pattern

/-!
# What the searches for a pattern find

* `Fits`: what the loop has tested when it takes a candidate;
* `Search.loop_fits`: whichever way the loop is left, its candidate fits;
* `Valid`: the geometry of a pattern, with a gap between the two slots;
* `search_valid_iff`: the stored times are computed once more from the candidate, without the BT slot, so
  the one search with a gap is right only when the gap is 0.
-/

namespace Rtl8852cu.Mcc

theorem s16_eq {x : ℤ} (hlo : -32768 ≤ x) (hhi : x < 32768) : s16 x = x := by
  unfold s16; exact Int.bmod_eq_of_le (by omega) (by omega)

theorem s16_natCast {n : ℕ} (h : n < 512) : s16 n = n := s16_eq (by omega) (by omega)

structure DurInfo.Below (i : DurInfo) : Prop where
  dur : i.dur < 512
  maxTob : i.durLimit.maxTob < 512
  maxToa : i.durLimit.maxToa < 512

namespace Search

variable (s : Search)

structure Fits (tobR : ℤ) : Prop where
  earlyR : earlyRxBcnT ≤ tobR
  lt : tobR < s.mccIntvl
  minR : minRxBcnT ≤ s.toaR tobR
  limR : s.ref.durLimit.enable → tobR ≤ s16 s.ref.durLimit.maxTob ∧ s.toaR tobR ≤ s16 s.ref.durLimit.maxToa
  earlyA : earlyRxBcnT ≤ s.tobA tobR
  minA : minRxBcnT ≤ s.toaA tobR
  limA : s.ano.durLimit.enable → s.tobA tobR ≤ s16 s.ano.durLimit.maxTob ∧ s.toaA tobR ≤ s16 s.ano.durLimit.maxToa

theorem loop_fits (n : ℕ) (tobR sumLast cand : ℤ) (h5 : earlyRxBcnT ≤ tobR) (hn : tobR + n ≤ s.mccIntvl) :
    s.loop n tobR sumLast cand = cand ∨ s.Fits (s.loop n tobR sumLast cand) := by
  induction n generalizing tobR sumLast cand with
  | zero => exact .inl rfl
  | succ n ih =>
    have hnext : ∀ sumLast cand, s.loop n (tobR + 1) sumLast cand = cand ∨
        s.Fits (s.loop n (tobR + 1) sumLast cand) := fun sumLast cand =>
      ih (tobR + 1) sumLast cand (by omega) (by omega)
    unfold loop
    split
    · exact .inl rfl
    rename_i hminR
    split
    · split
      · exact .inl rfl
      · exact hnext sumLast cand
    rename_i htobR
    split
    · exact hnext sumLast cand
    rename_i htoaR
    split
    · exact hnext sumLast cand
    rename_i hearlyA
    split
    · exact .inl rfl
    rename_i hminA
    split
    · exact hnext sumLast cand
    rename_i hlimA
    -- all tests are passed: this is a candidate
    have hfits : s.Fits tobR := by
      refine ⟨h5, by omega, Int.not_lt.mp hminR, fun hen => ⟨?_, ?_⟩, Int.not_lt.mp hearlyA,
        Int.not_lt.mp hminA, fun hen => ⟨?_, ?_⟩⟩
      · exact Int.not_lt.mp fun hgt => htobR ⟨hen, hgt⟩
      · exact Int.not_lt.mp fun hgt => htoaR ⟨hen, hgt⟩
      · exact Int.not_lt.mp fun hgt => hlimA ⟨hen, .inl hgt⟩
      · exact Int.not_lt.mp fun hgt => hlimA ⟨hen, .inr hgt⟩
    split
    · exact .inr hfits
    · rcases hnext (s.sum tobR) tobR with heq | hfits'
      · rw [heq]; exact .inr hfits
      · exact .inr hfits'

theorem cand_fits (h : s.cand ≠ 0) : s.Fits s.cand := by
  by_cases h5 : 5 ≤ s.mccIntvl
  · have hn : earlyRxBcnT + ((s.mccIntvl - 5 : ℕ) : ℤ) ≤ s.mccIntvl := by
      unfold earlyRxBcnT; omega
    exact (s.loop_fits _ _ 0 0 (Int.le_refl _) hn).resolve_left h
  · have hzero : s.cand = 0 := by
      unfold cand
      rw [Nat.sub_eq_zero_of_le (by omega)]; rfl
    exact absurd hzero h

end Search

/-! ### The geometry -/

/-- The beacons are where the slots and their offset put them, inside their slots and the limits, with
`gap` between the two slots. -/
structure Pattern.Valid (m : Pattern) (ref ano : DurInfo) (offset : ℕ) (gap : ℤ) : Prop where
  refDur : m.tobR + m.toaR = ref.dur
  anoDur : m.tobA + m.toaA = ano.dur
  bcns : m.toaR + gap + m.tobA = offset
  earlyR : earlyRxBcnT ≤ m.tobR
  earlyA : earlyRxBcnT ≤ m.tobA
  minR : minRxBcnT ≤ m.toaR
  minA : minRxBcnT ≤ m.toaA
  limR : ref.durLimit.enable → m.tobR ≤ ref.durLimit.maxTob ∧ m.toaR ≤ ref.durLimit.maxToa
  limA : ano.durLimit.enable → m.tobA ≤ ano.durLimit.maxTob ∧ m.toaA ≤ ano.durLimit.maxToa

section Slots

variable (m : Pattern) (btRole : Bool) (dur : ℕ) (mrole : Option (Fin 2)) (ref ano : DurInfo)
  (offset : ℕ) (gap : ℤ)

theorem fillSlotInfo_times : (m.fillSlotInfo btRole dur mrole).tobR = m.tobR ∧
    (m.fillSlotInfo btRole dur mrole).toaR = m.toaR ∧
    (m.fillSlotInfo btRole dur mrole).tobA = m.tobA ∧
    (m.fillSlotInfo btRole dur mrole).toaA = m.toaA := by
  unfold Pattern.fillSlotInfo
  split
  · exact ⟨rfl, rfl, rfl, rfl⟩
  · split <;> exact ⟨rfl, rfl, rfl, rfl⟩

theorem valid_fillSlotInfo :
    (m.fillSlotInfo btRole dur mrole).Valid ref ano offset gap ↔ m.Valid ref ano offset gap := by
  obtain ⟨htobR, htoaR, htobA, htoaA⟩ := fillSlotInfo_times m btRole dur mrole
  constructor
  · rintro ⟨h₁, h₂, h₃, h₄, h₅, h₆, h₇, h₈, h₉⟩
    rw [htobR, htoaR, htobA, htoaA] at *; exact ⟨h₁, h₂, h₃, h₄, h₅, h₆, h₇, h₈, h₉⟩
  · rintro ⟨h₁, h₂, h₃, h₄, h₅, h₆, h₇, h₈, h₉⟩
    rw [← htobR, ← htoaR, ← htobA, ← htoaA] at *; exact ⟨h₁, h₂, h₃, h₄, h₅, h₆, h₇, h₈, h₉⟩

end Slots

namespace Search

variable {s : Search} {tobR : ℤ}

/-! No conversion changes a value below 512. -/

theorem toaR_eq (href : s.ref.Below) (hlo : 0 ≤ tobR) (hhi : tobR < 1024) : s.toaR tobR = s.ref.dur - tobR := by
  have hdur := href.dur
  unfold toaR
  rw [s16_natCast hdur, s16_eq (by omega) (by omega)]

section

variable {offset : ℕ} (hs : s.offset = s16 offset) (hoff : offset < 512) (hlo : 0 ≤ s.toaR tobR)
  (hhi : s.toaR tobR < 512)

include hs hoff hlo hhi

theorem stored_tobA : s16 (s.offset - s.toaR tobR) = offset - s.toaR tobR := by
  rw [hs, s16_natCast hoff, s16_eq (by omega) (by omega)]

theorem tobA_eq (hgap : 0 ≤ s.gap) (hgap' : s.gap < 512) : s.tobA tobR = offset - s.toaR tobR - s.gap := by
  unfold tobA
  rw [hs, s16_natCast hoff, s16_eq (by omega) (by omega)]

end

theorem toaA_eq (hano : s.ano.Below) (hlo : -1024 ≤ s.tobA tobR) (hhi : s.tobA tobR < 512) :
    s.toaA tobR = s.ano.dur - s.tobA tobR := by
  have hdur := hano.dur
  unfold toaA
  rw [s16_natCast hdur, s16_eq (by omega) (by omega)]

theorem Fits.store_valid_iff (h : s.Fits tobR) (m : Pattern) {offset : ℕ} (href : s.ref.Below)
    (hano : s.ano.Below) (hoff : offset < 512) (hs : s.offset = s16 offset) (hgap : 0 ≤ s.gap)
    (hgap' : s.gap < 512) : (s.store m tobR).Valid s.ref s.ano offset s.gap ↔ s.gap = 0 := by
  have hearlyR : 5 ≤ tobR := h.earlyR
  have hminR : 10 ≤ s.toaR tobR := h.minR
  have hearlyA : 5 ≤ s.tobA tobR := h.earlyA
  have hintvl : s.mccIntvl ≤ 1022 := by
    have := href.dur
    have := hano.dur
    exact Nat.le_trans (Nat.mod_le _ _) (by omega)
  have htoaR := toaR_eq href (by omega) (Int.lt_trans h.lt (by omega) : tobR < 1024)
  have hlt : s.toaR tobR < 512 := by
    have := href.dur
    omega
  have htobA := tobA_eq hs hoff (by omega) hlt hgap hgap'
  have hstored := stored_tobA hs hoff (by omega) hlt
  have htoaA := toaA_eq hano (by omega : -1024 ≤ s.tobA tobR) (by omega)
  constructor
  · intro hvalid
    have hbcns : s.toaR tobR + s.gap + s16 (s.offset - s.toaR tobR) = offset := hvalid.bcns
    rw [hstored] at hbcns
    clear hs hstored
    omega
  · intro hzero
    have hsame : s16 (s.offset - s.toaR tobR) = s.tobA tobR := by
      rw [hstored, htobA, hzero, Int.sub_zero]
    have hstore : s.store m tobR = { m with
        tobR := tobR
        toaR := s.toaR tobR
        tobA := s.tobA tobR
        toaA := s.toaA tobR } := by
      unfold store
      rw [hsame]; rfl
    rw [hstore]
    clear hs hstored hsame hstore
    refine ⟨?_, ?_, ?_, h.earlyR, h.earlyA, h.minR, h.minA, fun hen => ?_, fun hen => ?_⟩
    · show tobR + s.toaR tobR = s.ref.dur; omega
    · show s.tobA tobR + s.toaA tobR = s.ano.dur; omega
    · show s.toaR tobR + s.gap + s.tobA tobR = offset; omega
    · rw [← s16_natCast href.maxTob, ← s16_natCast href.maxToa]; exact h.limR hen
    · rw [← s16_natCast hano.maxTob, ← s16_natCast hano.maxToa]; exact h.limA hen

end Search

section Searches

variable {ref ano : DurInfo} {offset btDur : ℕ} {m m' : Pattern}

/-- **The pattern that is stored is valid**, but for the search that puts the BT slot between the two: there
it is valid exactly when the slot is empty. -/
theorem search_valid_iff (href : ref.Below) (hano : ano.Below) (hoff : offset < 512) (hbt : btDur < 512) :
    (search2Wrole ref ano offset m = some m' → m'.Valid ref ano offset 0) ∧
    (calculate2Wslot1BtslotPattern1 ref ano offset btDur m = some m' → m'.Valid ref ano offset 0) ∧
    (calculate2Wslot1BtslotPattern2 ref ano offset btDur m = some m' →
      (m'.Valid ref ano offset btDur ↔ btDur = 0)) := by
  have hstore : ∀ s : Search, s.ref = ref → s.ano = ano → s.offset = s16 offset →
      ∀ gap : ℕ, s.gap = gap → gap < 512 → s.cand ≠ 0 →
      ((s.store m s.cand).Valid ref ano offset gap ↔ gap = 0) := by
    rintro s rfl rfl hs gap hgap hlt hcand
    rw [← hgap, (s.cand_fits hcand).store_valid_iff m href hano hoff hs (by omega) (by omega), hgap,
      Int.natCast_eq_zero]
  refine ⟨fun h => ?_, fun h => ?_, fun h => ?_⟩
  · unfold search2Wrole at h
    simp only at h
    split at h
    · cases h
    · rename_i hcand
      rw [← Option.some.inj h, valid_fillSlotInfo, valid_fillSlotInfo]
      exact (hstore _ rfl rfl rfl 0 rfl (by omega) hcand).mpr rfl
  · unfold calculate2Wslot1BtslotPattern1 at h
    simp only at h
    split at h
    · cases h
    · rename_i hcand
      rw [← Option.some.inj h, valid_fillSlotInfo, valid_fillSlotInfo, valid_fillSlotInfo]
      exact (hstore _ rfl rfl rfl 0 rfl (by omega) hcand).mpr rfl
  · unfold calculate2Wslot1BtslotPattern2 at h
    simp only at h
    split at h
    · cases h
    · rename_i hcand
      rw [← Option.some.inj h, valid_fillSlotInfo, valid_fillSlotInfo, valid_fillSlotInfo]
      exact hstore _ rfl rfl rfl btDur rfl hbt hcand

end Searches

def someDur : DurInfo := ⟨40, ⟨false, 0, 0, 0⟩⟩

theorem someDur_below : someDur.Below := ⟨by decide, by decide, by decide⟩

theorem someDur_search : (search2Wrole someDur someDur 40 .zero).isSome = true ∧
    (calculate2Wslot1BtslotPattern1 someDur someDur 40 20 .zero).isSome = true ∧
    (calculate2Wslot1BtslotPattern2 someDur someDur 60 20 .zero).isSome = true ∧
    (calculate2Wslot1BtslotPattern2 someDur someDur 60 20 .zero).all fun m => m.toaA = -2 := by
  decide +kernel

theorem search_valid_iff_some : (∃ m, search2Wrole someDur someDur 40 .zero = some m ∧ m.Valid someDur someDur 40 0) ∧
    (∃ m, calculate2Wslot1BtslotPattern1 someDur someDur 40 20 .zero = some m ∧ m.Valid someDur someDur 40 0) ∧
    ∃ m, calculate2Wslot1BtslotPattern2 someDur someDur 60 20 .zero = some m ∧ ¬ m.Valid someDur someDur 60 20 := by
  have hb := someDur_below
  obtain ⟨hnone, hone, htwo, -⟩ := someDur_search
  refine ⟨?_, ?_, ?_⟩
  · obtain ⟨m, hm⟩ := Option.isSome_iff_exists.mp hnone
    exact ⟨m, hm, (search_valid_iff hb hb (by decide) (by decide : 0 < 512)).1 hm⟩
  · obtain ⟨m, hm⟩ := Option.isSome_iff_exists.mp hone
    exact ⟨m, hm, (search_valid_iff hb hb (by decide) (by decide : 20 < 512)).2.1 hm⟩
  · obtain ⟨m, hm⟩ := Option.isSome_iff_exists.mp htwo
    exact ⟨m, hm, fun hvalid => absurd
      (((search_valid_iff hb hb (by decide) (by decide : 20 < 512)).2.2 hm).mp hvalid) (by decide)⟩

/-- With a BT slot of 20 TU between two slots of 40, the other beacon is stored 2 TU behind the end of its
slot. -/
theorem pattern2_not_valid : ¬ ∀ (ref ano : DurInfo) (offset btDur : ℕ) (m m' : Pattern),
    ref.Below → ano.Below → offset < 512 → btDur < 512 →
    calculate2Wslot1BtslotPattern2 ref ano offset btDur m = some m' → m'.Valid ref ano offset btDur := by
  intro h
  obtain ⟨-, -, htwo, hstored⟩ := someDur_search
  obtain ⟨m, hm⟩ := Option.isSome_iff_exists.mp htwo
  have hmin := (h someDur someDur 60 20 .zero m someDur_below someDur_below (by decide) (by decide)
    hm).minA
  rw [hm] at hstored
  rw [of_decide_eq_true hstored] at hmin; exact absurd hmin (by decide)

end Rtl8852cu.Mcc
