import Rtl8852cu.Mcc.Clients
import Rtl8852cu.Mcc.Slots

/-!
# The ranges of the pattern with a BT slot

`_mcc_calculate_2wslot_1btslot_pattern` chooses between its two searches and the negotiation by the offset of the beacons.
-/

namespace Rtl8852cu.Mcc

/-- The beacons have their margins, with `gap` between the slots. -/
structure Margins (refDur anoDur : ℕ) (offset gap : ℤ) (v : BcnTimes) : Prop where
  refDur : v.tobR + v.toaR = refDur
  anoDur : v.tobA + v.toaA = anoDur
  bcns : v.toaR + gap + v.tobA = offset
  earlyR : earlyRxBcnT ≤ v.tobR
  minR : minRxBcnT ≤ v.toaR
  earlyA : earlyRxBcnT ≤ v.tobA
  minA : minRxBcnT ≤ v.toaA

/-- The times are inside the limits, as the searches read them. -/
structure Limits (ref ano : DurInfo) (v : BcnTimes) : Prop where
  ref : ref.durLimit.enable → v.tobR ≤ s16 ref.durLimit.maxTob ∧ v.toaR ≤ s16 ref.durLimit.maxToa
  ano : ano.durLimit.enable → v.tobA ≤ s16 ano.durLimit.maxTob ∧ v.toaA ≤ s16 ano.durLimit.maxToa

section Ranges

variable {refDur anoDur : ℕ} {offset gap : ℤ}

theorem margins_iff (hR : 15 ≤ refDur) (hA : 15 ≤ anoDur) :
    (∃ v, Margins refDur anoDur offset gap v) ↔ 15 + gap ≤ offset ∧ offset + 15 ≤ refDur + anoDur + gap := by
  constructor
  · rintro ⟨v, hv⟩
    have h1 := hv.refDur
    have h2 := hv.anoDur
    have h3 := hv.bcns
    have h4 : 5 ≤ v.tobR := hv.earlyR
    have h5 : 10 ≤ v.toaR := hv.minR
    have h6 : 5 ≤ v.tobA := hv.earlyA
    have h7 : 10 ≤ v.toaA := hv.minA
    omega
  · rintro ⟨hlo, hhi⟩
    -- the reference beacon is as early as the other one allows it
    refine ⟨⟨max 5 (refDur - (offset - gap - 5)), refDur - max 5 (refDur - (offset - gap - 5)),
      offset - gap - (refDur - max 5 (refDur - (offset - gap - 5))),
      anoDur - (offset - gap - (refDur - max 5 (refDur - (offset - gap - 5))))⟩, ?_⟩
    constructor
    all_goals
      dsimp only [earlyRxBcnT, minRxBcnT]; omega

variable (refDur anoDur) in
/-- The offset is in the range of the first slot order. -/
def InP1 (offset : ℕ) : Prop :=
  (offsetRangeP1 (s16 refDur) (s16 anoDur)).1 ≤ offset ∧ offset ≤ (offsetRangeP1 (s16 refDur) (s16 anoDur)).2

variable (refDur anoDur) in
/-- The offset is in the range of the second one. -/
def InP2 (btDur : ℤ) (offset : ℕ) : Prop :=
  (offsetRangeP2 (s16 refDur) (s16 anoDur) btDur).1 ≤ offset ∧ offset ≤ (offsetRangeP2 (s16 refDur) (s16 anoDur) btDur).2

variable (refDur anoDur) in
/-- The first range are the offsets that have times. -/
def P1Exact : Prop :=
  ∀ offset : ℕ, offset < 65536 → (InP1 refDur anoDur offset ↔ ∃ v, Margins refDur anoDur offset 0 v)

variable (refDur anoDur) in
/-- The second range are the offsets that have times with the BT slot in between. -/
def P2Exact (btDur : ℤ) : Prop :=
  ∀ offset : ℕ, offset < 65536 → (InP2 refDur anoDur btDur offset ↔ ∃ v, Margins refDur anoDur offset btDur v)

theorem s16_lt (x : ℤ) : s16 x < 32768 := by
  unfold s16; exact Int.bmod_lt (by decide)

theorem offsetRangeP1_eq (hR : 15 ≤ refDur) (hA : 15 ≤ anoDur) (hsum : refDur + anoDur ≤ 32782) :
    offsetRangeP1 (s16 refDur) (s16 anoDur) = (15, (refDur : ℤ) + anoDur - 15) := by
  unfold offsetRangeP1 offsetP1 earlyRxBcnT minRxBcnT
  dsimp only
  rw [s16_eq (x := refDur) (by omega) (by omega), s16_eq (x := anoDur) (by omega) (by omega),
    s16_eq (x := refDur - 10) (by omega) (by omega), s16_eq (x := anoDur - 10) (by omega) (by omega),
    s16_eq (x := refDur - 5 + 5) (by omega) (by omega), s16_eq (x := refDur - 5 + (anoDur - 10)) (by omega) (by omega),
    s16_eq (x := refDur - (refDur - 10) + 5) (by omega) (by omega),
    s16_eq (x := refDur - (refDur - 10) + (anoDur - 10)) (by omega) (by omega)]
  refine Prod.ext ?_ ?_
  · dsimp only
    split <;> omega
  · dsimp only
    split <;> omega

theorem offsetRangeP1_lt (ref ano : ℤ) : (offsetRangeP1 ref ano).2 < 32768 := by
  unfold offsetRangeP1 offsetP1
  dsimp only
  split
  · exact s16_lt _
  · exact s16_lt _

theorem inP1_iff {offset : ℕ} (hR : 15 ≤ refDur) (hA : 15 ≤ anoDur) (hsum : refDur + anoDur ≤ 32782) :
    InP1 refDur anoDur offset ↔ 15 ≤ offset ∧ offset + 15 ≤ refDur + anoDur := by
  unfold InP1
  rw [offsetRangeP1_eq hR hA hsum]
  dsimp only; omega

theorem p1Exact_iff (hR : 15 ≤ refDur) (hA : 15 ≤ anoDur) : P1Exact refDur anoDur ↔ refDur + anoDur ≤ 32782 := by
  constructor
  · intro h
    by_contra hsum
    have hin := ((h 32768 (by decide)).mpr ((margins_iff hR hA).mpr (by omega))).2
    have hlt := offsetRangeP1_lt (s16 refDur) (s16 anoDur)
    omega
  · intro hsum offset hoff
    rw [inP1_iff hR hA hsum, margins_iff hR hA]; omega

theorem offsetRangeP2_eq {btDur : ℕ} (hR : 15 ≤ refDur) (hA : 15 ≤ anoDur) (hsum : refDur + anoDur + btDur ≤ 32782) :
    offsetRangeP2 (s16 refDur) (s16 anoDur) btDur =
      ((btDur : ℤ) + min refDur anoDur, (refDur : ℤ) + anoDur + btDur - 15) := by
  unfold offsetRangeP2 offsetP2 earlyRxBcnT minRxBcnT
  dsimp only
  rw [s16_eq (x := refDur) (by omega) (by omega), s16_eq (x := anoDur) (by omega) (by omega),
    s16_eq (x := refDur - 10) (by omega) (by omega), s16_eq (x := anoDur - 10) (by omega) (by omega),
    s16_eq (x := refDur - 5 + btDur + 5) (by omega) (by omega),
    s16_eq (x := refDur - 5 + btDur + (anoDur - 10)) (by omega) (by omega),
    s16_eq (x := refDur - (refDur - 10) + btDur + (anoDur - 10)) (by omega) (by omega)]
  refine Prod.ext ?_ ?_
  · dsimp only
    split <;> omega
  · dsimp only
    split <;> omega

theorem offsetRangeP2_lt (ref ano btDur : ℤ) : (offsetRangeP2 ref ano btDur).2 < 32768 := by
  unfold offsetRangeP2 offsetP2
  dsimp only
  split
  · decide
  · exact s16_lt _

theorem inP2_iff {btDur offset : ℕ} (hR : 15 ≤ refDur) (hA : 15 ≤ anoDur) (hsum : refDur + anoDur + btDur ≤ 32782) :
    InP2 refDur anoDur btDur offset ↔ btDur + min refDur anoDur ≤ offset ∧ offset + 15 ≤ refDur + anoDur + btDur := by
  unfold InP2
  rw [offsetRangeP2_eq hR hA hsum]
  dsimp only; omega

theorem p2Exact_iff {btDur : ℕ} (hR : 15 ≤ refDur) (hA : 15 ≤ anoDur) (hbt : btDur < 32768) :
    P2Exact refDur anoDur btDur ↔ refDur + anoDur + btDur ≤ 32782 ∧ (refDur = 15 ∨ anoDur = 15) := by
  constructor
  · intro h
    have hsum : refDur + anoDur + btDur ≤ 32782 := by
      by_contra hsum
      have hin := ((h (max 32768 (btDur + 15)) (by omega)).mpr ((margins_iff hR hA).mpr (by omega))).2
      have hlt := offsetRangeP2_lt (s16 refDur) (s16 anoDur) btDur
      omega
    refine ⟨hsum, ?_⟩
    have hin := (h (15 + btDur) (by omega)).mpr ((margins_iff hR hA).mpr (by omega))
    rw [inP2_iff hR hA hsum] at hin; omega
  · rintro ⟨hsum, hshort⟩ offset hoff
    rw [inP2_iff hR hA hsum, margins_iff hR hA]; omega

end Ranges
/-! ### The searches -/

namespace Search

variable {s : Search} {t u : ℤ}

variable (s) in
/-- The offset has times, and the durations fit into 16 bits. -/
structure InRange : Prop where
  ref : 15 ≤ s.ref.dur
  ano : 15 ≤ s.ano.dur
  sum : s.ref.dur + s.ano.dur ≤ 32782
  lower : 15 + s.gap ≤ s.offset
  upper : s.offset + 15 ≤ s.ref.dur + s.ano.dur + s.gap

theorem InRange.toaR_eq (h : s.InRange) (h5 : 5 ≤ t) (ht : t ≤ s.ref.dur + s.ano.dur) : s.toaR t = s.ref.dur - t := by
  have href := h.ref
  have hano := h.ano
  have hsum := h.sum
  unfold toaR
  rw [s16_eq (x := s.ref.dur) (by omega) (by omega), s16_eq (by omega) (by omega)]

theorem InRange.tobA_eq (h : s.InRange) (h5 : 5 ≤ t) (ht : t + 10 ≤ s.ref.dur) :
    s.tobA t = s.offset - s.gap - (s.ref.dur - t) := by
  have href := h.ref
  have hsum := h.sum
  have hlower := h.lower
  have hupper := h.upper
  unfold tobA
  rw [h.toaR_eq h5 (by omega), s16_eq (by omega) (by omega)]; omega

theorem InRange.toaA_eq (h : s.InRange) (h5 : 5 ≤ t) (ht : t + 10 ≤ s.ref.dur) :
    s.toaA t = s.ano.dur - (s.offset - s.gap - (s.ref.dur - t)) := by
  have href := h.ref
  have hano := h.ano
  have hsum := h.sum
  have hlower := h.lower
  have hupper := h.upper
  unfold toaA
  rw [h.tobA_eq h5 ht, s16_eq (x := s.ano.dur) (by omega) (by omega), s16_eq (by omega) (by omega)]

theorem loop_ge {n : ℕ} {sumLast cand : ℤ} (h5 : 5 ≤ t) (hcand : 5 ≤ cand) : 5 ≤ s.loop n t sumLast cand := by
  induction n generalizing t sumLast cand with
  | zero => exact hcand
  | succ n ih =>
    have hnext : ∀ {x c : ℤ}, 5 ≤ c → 5 ≤ s.loop n (t + 1) x c := fun hc => ih (by omega) hc
    unfold loop
    split
    · exact hcand
    split
    · split
      · exact hcand
      · exact hnext hcand
    split
    · exact hnext hcand
    split
    · exact hnext hcand
    split
    · exact hcand
    split
    · exact hnext hcand
    split
    · exact h5
    · exact hnext h5

theorem loop_finds {n : ℕ} {sumLast cand : ℤ} (h : s.InRange) (hu : s.Fits u) (h5 : 5 ≤ t) (htu : t ≤ u) (hn : u < t + n)
    (huR : u + 10 ≤ s.ref.dur) : 5 ≤ s.loop n t sumLast cand := by
  induction n generalizing t sumLast cand with
  | zero => omega
  | succ n ih =>
    have hminA := hu.minA
    rw [h.toaA_eq (by omega) huR] at hminA
    have hlimR := hu.limR
    have hnext : ∀ {x c : ℤ}, t < u → 5 ≤ s.loop n (t + 1) x c := fun hlt => ih (by omega) (by omega) (by omega)
    have hlt : ∀ {p : Prop}, p → (p → t = u → False) → t < u := fun hp hno =>
      Int.lt_iff_le_and_ne.mpr ⟨htu, fun heq => hno hp heq⟩
    unfold loop
    rw [if_neg (by rw [h.toaR_eq h5 (by omega)]; unfold minRxBcnT; omega),
      if_neg fun hen => absurd (hlimR hen.1).1 (by omega)]
    split
    · rename_i hc
      refine hnext (hlt hc fun hc heq => ?_)
      rw [heq] at hc; exact absurd (hlimR hc.1).2 (Int.not_le.mpr hc.2)
    split
    · rename_i hc
      refine hnext (hlt hc fun hc heq => ?_)
      rw [heq] at hc; exact absurd hu.earlyA (Int.not_le.mpr hc)
    rw [if_neg (by rw [h.toaA_eq h5 (by omega)]; omega)]
    split
    · rename_i hc
      refine hnext (hlt hc fun hc heq => ?_)
      rw [heq] at hc
      rcases hc.2 with hgt | hgt
      · exact absurd (hu.limA hc.1).1 (Int.not_le.mpr hgt)
      · exact absurd (hu.limA hc.1).2 (Int.not_le.mpr hgt)
    split
    · exact h5
    · exact loop_ge (by omega) h5

theorem InRange.mccIntvl_eq (h : s.InRange) : s.mccIntvl = s.ref.dur + s.ano.dur := by
  have hsum := h.sum
  exact Nat.mod_eq_of_lt (by omega)

theorem InRange.fits_of_margins (h : s.InRange) {v : BcnTimes} (hv : Margins s.ref.dur s.ano.dur s.offset s.gap v)
    (hlim : Limits s.ref s.ano v) : s.Fits v.tobR ∧ v.tobR + 10 ≤ s.ref.dur := by
  have h1 := hv.refDur
  have h2 := hv.anoDur
  have h3 := hv.bcns
  have h4 : 5 ≤ v.tobR := hv.earlyR
  have h5 : 10 ≤ v.toaR := hv.minR
  have hintvl := h.mccIntvl_eq
  have hlt : v.tobR < s.mccIntvl := by omega
  have hvR : v.tobR + 10 ≤ s.ref.dur := by omega
  have htoaR : s.toaR v.tobR = v.toaR := by
    rw [h.toaR_eq h4 (by omega)]; omega
  have htobA : s.tobA v.tobR = v.tobA := by
    rw [h.tobA_eq h4 (by omega)]; omega
  have htoaA : s.toaA v.tobR = v.toaA := by
    rw [h.toaA_eq h4 (by omega)]; omega
  refine ⟨⟨h4, hlt, ?_, fun hen => ?_, ?_, ?_, fun hen => ?_⟩, hvR⟩
  · rw [htoaR]; exact hv.minR
  · rw [htoaR]; exact hlim.ref hen
  · rw [htobA]; exact hv.earlyA
  · rw [htoaA]; exact hv.minA
  · rw [htobA, htoaA]; exact hlim.ano hen

theorem InRange.cand_ne_zero_iff (h : s.InRange) :
    s.cand ≠ 0 ↔ ∃ v, Margins s.ref.dur s.ano.dur s.offset s.gap v ∧ Limits s.ref s.ano v := by
  have href := h.ref
  have hano := h.ano
  have hsum := h.sum
  have hintvl := h.mccIntvl_eq
  constructor
  · intro hcand
    have hfits := cand_fits s hcand
    generalize s.cand = c at hfits
    have h5 : 5 ≤ c := hfits.earlyR
    have hlt := hfits.lt
    rw [hintvl] at hlt
    have hminR : 10 ≤ s.toaR c := hfits.minR
    have htoaR := h.toaR_eq h5 (by omega)
    have hcR : c + 10 ≤ s.ref.dur := by omega
    refine ⟨⟨c, s.toaR c, s.tobA c, s.toaA c⟩, ⟨?_, ?_, ?_, hfits.earlyR, hfits.minR, hfits.earlyA, hfits.minA⟩,
      ⟨hfits.limR, hfits.limA⟩⟩
    · dsimp only
      rw [htoaR]; omega
    · dsimp only
      rw [h.tobA_eq h5 hcR, h.toaA_eq h5 hcR]; omega
    · dsimp only
      rw [htoaR, h.tobA_eq h5 hcR]; omega
  · rintro ⟨v, hv, hlim⟩
    obtain ⟨hfits, hvR⟩ := h.fits_of_margins hv hlim
    have hn : v.tobR < earlyRxBcnT + ((s.mccIntvl - 5 : ℕ) : ℤ) := by
      unfold earlyRxBcnT; omega
    have hfound : 5 ≤ s.cand := loop_finds h hfits le_rfl hfits.earlyR hn hvR
    intro hzero
    rw [hzero] at hfound; exact absurd hfound (by decide)

end Search
section Searches

variable {ref ano : DurInfo} {btDur : ℕ} {m : Pattern}

theorem pattern1_isSome : (calculate2Wslot1BtslotPattern1 ref ano m.bcnsOffset btDur m).isSome ↔
    (Search.mk true ref ano (s16 m.bcnsOffset) 0).cand ≠ 0 := by
  unfold calculate2Wslot1BtslotPattern1
  dsimp only
  split
  · rename_i hzero
    exact iff_of_false nofun (not_not.mpr hzero)
  · rename_i hcand
    exact iff_of_true rfl hcand

theorem pattern2_isSome : (calculate2Wslot1BtslotPattern2 ref ano m.bcnsOffset btDur m).isSome ↔
    (Search.mk true ref ano (s16 m.bcnsOffset) btDur).cand ≠ 0 := by
  unfold calculate2Wslot1BtslotPattern2
  dsimp only
  split
  · rename_i hzero
    exact iff_of_false nofun (not_not.mpr hzero)
  · rename_i hcand
    exact iff_of_true rfl hcand

theorem search1_iff (hR : 15 ≤ ref.dur) (hA : 15 ≤ ano.dur) (hsum : ref.dur + ano.dur ≤ 32782)
    (hin : InP1 ref.dur ano.dur m.bcnsOffset) :
    (calculate2Wslot1BtslotPattern1 ref ano m.bcnsOffset btDur m).isSome ↔
      ∃ v, Margins ref.dur ano.dur m.bcnsOffset 0 v ∧ Limits ref ano v := by
  have hbounds := (inP1_iff hR hA hsum).mp hin
  rw [pattern1_isSome, s16_eq (x := m.bcnsOffset) (by omega) (by omega)]
  have hrange : (Search.mk true ref ano m.bcnsOffset 0).InRange :=
    ⟨hR, hA, hsum, by dsimp only; omega, by dsimp only; omega⟩
  exact hrange.cand_ne_zero_iff

theorem search2_iff (hR : 15 ≤ ref.dur) (hA : 15 ≤ ano.dur) (hsum : ref.dur + ano.dur + btDur ≤ 32782)
    (hin : InP2 ref.dur ano.dur btDur m.bcnsOffset) :
    (calculate2Wslot1BtslotPattern2 ref ano m.bcnsOffset btDur m).isSome ↔
      ∃ v, Margins ref.dur ano.dur m.bcnsOffset btDur v ∧ Limits ref ano v := by
  have hbounds := (inP2_iff hR hA hsum).mp hin
  rw [pattern2_isSome, s16_eq (x := m.bcnsOffset) (by omega) (by omega)]
  have hrange : (Search.mk true ref ano m.bcnsOffset btDur).InRange :=
    ⟨hR, hA, by dsimp only; omega, by dsimp only; omega, by dsimp only; omega⟩
  exact hrange.cand_ne_zero_iff

/-! ### The negotiation -/

def Fits16 (x : ℤ) : Prop := -32768 ≤ x ∧ x < 32768

instance (x : ℤ) : Decidable (Fits16 x) := inferInstanceAs (Decidable (_ ∧ _))

theorem fits16_s16 (x : ℤ) : Fits16 (s16 x) := by
  refine ⟨?_, s16_lt x⟩
  unfold s16; exact Int.le_bmod (by decide)

theorem s16_eq_iff {x : ℤ} : s16 x = x ↔ Fits16 x := by
  constructor
  · intro h
    rw [← h]; exact fits16_s16 x
  · intro h; exact s16_eq h.1 h.2

/-- The durations and limits are of 16 bits. -/
structure DurInfo.Stored (i : DurInfo) : Prop where
  dur : i.dur < 65536
  maxTob : i.durLimit.maxTob < 65536
  maxToa : i.durLimit.maxToa < 65536

/-- The middle of a slot, moved inside its limits. -/
def DurInfo.middle (i : DurInfo) : ℤ :=
  if i.durLimit.enable then max (min (i.dur / 2) i.durLimit.maxTob) (i.dur - i.durLimit.maxToa) else i.dur / 2

section Adjust

variable {d p q : ℕ} {tob toa tob₁ toa₁ : ℤ}

theorem adjust_tob (hd : d < 65536)
    (h : (if s16 ((d : ℤ) / 2) > p then (s16 p, s16 (d - s16 p)) else (s16 ((d : ℤ) / 2), s16 (d - s16 ((d : ℤ) / 2)))) =
      (tob, toa)) : tob = min ((d : ℤ) / 2) p ∧ toa = s16 (d - tob) := by
  rw [s16_eq (x := (d : ℤ) / 2) (by omega) (by omega)] at h
  split at h
  · rename_i hgt
    rw [s16_eq (x := p) (by omega) (by omega)] at h
    obtain ⟨rfl, rfl⟩ := Prod.mk.inj h
    exact ⟨by omega, rfl⟩
  · obtain ⟨rfl, rfl⟩ := Prod.mk.inj h; exact ⟨by omega, rfl⟩

theorem adjust_toa (hlt : toa₁ < 32768)
    (h : (if toa₁ > q then (s16 (d - s16 q), s16 q) else (tob₁, toa₁)) = (tob, toa)) :
    toa₁ > q ∧ tob = s16 (d - q) ∧ toa = q ∨ toa₁ ≤ q ∧ tob = tob₁ ∧ toa = toa₁ := by
  split at h
  · rename_i hgt
    rw [s16_eq (x := q) (by omega) (by omega)] at h
    obtain ⟨rfl, rfl⟩ := Prod.mk.inj h
    exact .inl ⟨hgt, rfl, rfl⟩
  · rename_i hle
    obtain ⟨rfl, rfl⟩ := Prod.mk.inj h
    exact .inr ⟨Int.not_lt.mp hle, rfl, rfl⟩

theorem adjust_iff (hd : d < 65536) (h₁ : tob₁ = min ((d : ℤ) / 2) p ∧ toa₁ = s16 (d - tob₁))
    (h₂ : toa₁ > q ∧ tob = s16 (d - q) ∧ toa = q ∨ toa₁ ≤ q ∧ tob = tob₁ ∧ toa = toa₁) {x : ℤ}
    (hx : x = max (min ((d : ℤ) / 2) p) (d - q)) :
    (¬ (tob > p ∨ toa > q) ∧ tob + toa = d ↔ d ≤ p + q ∧ Fits16 x ∧ Fits16 (d - x)) ∧
      (¬ (tob > p ∨ toa > q) → tob + toa = d → tob = x ∧ toa = d - x) := by
  obtain ⟨h₁, rfl⟩ := h₁
  have hmod := s16_emod (d - tob₁)
  have hfit := fits16_s16 (d - tob₁)
  have hmodQ := s16_emod (d - q)
  have hfitQ := fits16_s16 (d - q)
  generalize s16 (d - tob₁) = toa₁ at *
  generalize s16 (d - q) = tobQ at *
  unfold Fits16 at *
  rcases h₂ with ⟨hgt, rfl, rfl⟩ | ⟨hle, rfl, rfl⟩
  · omega
  · omega

end Adjust

theorem negoLimited_iff {i : DurInfo} (h : i.Stored) (hen : i.durLimit.enable = true) {tob toa : ℤ} :
    negoLimited i = some (tob, toa) ∧ tob + toa = i.dur ↔
      i.dur ≤ i.durLimit.maxTob + i.durLimit.maxToa ∧ Fits16 i.middle ∧ Fits16 (i.dur - i.middle) ∧ tob = i.middle ∧
        toa = i.dur - i.middle := by
  have hx : i.middle = max (min ((i.dur : ℤ) / 2) i.durLimit.maxTob) (i.dur - i.durLimit.maxToa) := if_pos hen
  fun_cases negoLimited i with
  | case1 tob₀ toa₀ tob₁ toa₁ h₁ tob₂ toa₂ h₂ hbad =>
    have h₁' := adjust_tob h.dur h₁
    obtain ⟨hiff, -⟩ := adjust_iff h.dur h₁' (adjust_toa (h₁'.2 ▸ s16_lt _) h₂) hx
    exact iff_of_false nofun fun hc => (hiff.mpr ⟨hc.1, hc.2.1, hc.2.2.1⟩).1 hbad
  | case2 tob₀ toa₀ tob₁ toa₁ h₁ tob₂ toa₂ h₂ hgood =>
    have h₁' := adjust_tob h.dur h₁
    obtain ⟨hiff, heq⟩ := adjust_iff h.dur h₁' (adjust_toa (h₁'.2 ▸ s16_lt _) h₂) hx
    rw [Option.some.injEq, Prod.mk.injEq]
    constructor
    · rintro ⟨⟨rfl, rfl⟩, hsum⟩
      obtain ⟨ha, hb, hc⟩ := hiff.mp ⟨hgood, hsum⟩
      exact ⟨ha, hb, hc, heq hgood hsum⟩
    · rintro ⟨ha, hb, hc, rfl, rfl⟩
      have hsum := (hiff.mpr ⟨ha, hb, hc⟩).2
      obtain ⟨rfl, rfl⟩ := heq hgood hsum
      exact ⟨⟨rfl, rfl⟩, hsum⟩

/-- The times belong to the slots and the offset, with `gap` between the slots. -/
structure Pattern.Joined (m : Pattern) (refDur anoDur offset : ℕ) (gap : ℤ) : Prop where
  refDur : m.tobR + m.toaR = refDur
  anoDur : m.tobA + m.toaA = anoDur
  bcns : m.toaR + gap + m.tobA = offset

/-- The BT slot between the two others, in the slot order. -/
def Pattern.between (m : Pattern) : ℤ :=
  match m.slotOrder with
  | [_, s, _] => if s.btRole then s.slot else 0
  | _ => 0

/-- The times satisfy the geometry of the slot order. -/
def Pattern.Geometry (m : Pattern) (refDur anoDur offset : ℕ) : Prop := m.Joined refDur anoDur offset m.between

/-- The times of the negotiation, without conversions. -/
def negoValues (ref ano : DurInfo) (offset : ℤ) : BcnTimes :=
  if ano.durLimit.enable then
    ⟨ref.dur - (offset - ano.middle), offset - ano.middle, ano.middle, ano.dur - ano.middle⟩
  else
    ⟨ref.middle, ref.dur - ref.middle, offset - (ref.dur - ref.middle), ano.dur - (offset - (ref.dur - ref.middle))⟩

/-- At most one role has limits, which leave room for its slot, and the times fit into 16 bits. -/
structure NegoFits (ref ano : DurInfo) (offset : ℤ) : Prop where
  one : ¬ (ref.durLimit.enable ∧ ano.durLimit.enable)
  limR : ref.durLimit.enable → ref.dur ≤ ref.durLimit.maxTob + ref.durLimit.maxToa
  limA : ano.durLimit.enable → ano.dur ≤ ano.durLimit.maxTob + ano.durLimit.maxToa
  tobR : Fits16 (negoValues ref ano offset).tobR
  toaR : Fits16 (negoValues ref ano offset).toaR
  tobA : Fits16 (negoValues ref ano offset).tobA
  toaA : Fits16 (negoValues ref ano offset).toaA

theorem s16_eq_iff_of_mod {x y : ℤ} (h : x % 65536 = y % 65536) : s16 x = y ↔ Fits16 y := by
  constructor
  · rintro rfl; exact fits16_s16 x
  · intro hy
    have hmod := s16_emod x
    have hfit := fits16_s16 x
    unfold Fits16 at *
    generalize s16 x = z at *
    omega

theorem s16_offset_iff {offset : ℕ} {toa : ℤ} : s16 (s16 offset - toa - 0) = offset - toa ↔ Fits16 (offset - toa) := by
  refine s16_eq_iff_of_mod ?_
  have hmod := s16_emod offset
  generalize s16 offset = z at *
  omega

theorem other_times_iff {dur offset : ℕ} {toa x y : ℤ} (hx : x = s16 (s16 offset - toa - 0)) (hy : y = s16 (dur - x)) :
    x + y = dur ∧ x + toa = offset ↔ Fits16 (offset - toa) ∧ Fits16 (dur - (offset - toa)) := by
  constructor
  · rintro ⟨hsum, hbcns⟩
    have hxe : x = offset - toa := eq_sub_of_add_eq hbcns
    refine ⟨s16_offset_iff.mp (hx.symm.trans hxe), ?_⟩
    have hye : y = dur - (offset - toa) := eq_sub_of_add_eq' (hxe ▸ hsum)
    rw [← hye, hy]; exact fits16_s16 _
  · rintro ⟨hfit, hfit'⟩
    obtain rfl : x = offset - toa := hx.trans (s16_offset_iff.mpr hfit)
    obtain rfl : y = dur - (offset - toa) := hy.trans (s16_eq_iff.mpr hfit')
    exact ⟨add_sub_cancel _ _, sub_add_cancel _ _⟩

theorem negoFits_iff_ref {offset : ℤ} (ha : ¬ ano.durLimit.enable = true) :
    NegoFits ref ano offset ↔ (ref.durLimit.enable → ref.dur ≤ ref.durLimit.maxTob + ref.durLimit.maxToa) ∧
      Fits16 ref.middle ∧ Fits16 (ref.dur - ref.middle) ∧ Fits16 (offset - (ref.dur - ref.middle)) ∧
        Fits16 (ano.dur - (offset - (ref.dur - ref.middle))) := by
  have hv : negoValues ref ano offset =
      ⟨ref.middle, ref.dur - ref.middle, offset - (ref.dur - ref.middle), ano.dur - (offset - (ref.dur - ref.middle))⟩ :=
    if_neg ha
  constructor
  · rintro ⟨-, hlim, -, h1, h2, h3, h4⟩
    rw [hv] at h1 h2 h3 h4; exact ⟨hlim, h1, h2, h3, h4⟩
  · rintro ⟨hlim, h1, h2, h3, h4⟩
    refine ⟨fun h => ha h.2, hlim, fun h => absurd h ha, ?_, ?_, ?_, ?_⟩
    all_goals rw [hv]
    exacts [h1, h2, h3, h4]

theorem negoFits_iff_ano {offset : ℤ} (hr : ¬ ref.durLimit.enable = true) (ha : ano.durLimit.enable = true) :
    NegoFits ref ano offset ↔ ano.dur ≤ ano.durLimit.maxTob + ano.durLimit.maxToa ∧
      Fits16 ano.middle ∧ Fits16 (ano.dur - ano.middle) ∧ Fits16 (offset - ano.middle) ∧
        Fits16 (ref.dur - (offset - ano.middle)) := by
  have hv : negoValues ref ano offset =
      ⟨ref.dur - (offset - ano.middle), offset - ano.middle, ano.middle, ano.dur - ano.middle⟩ := if_pos ha
  constructor
  · rintro ⟨-, -, hlim, h1, h2, h3, h4⟩
    rw [hv] at h1 h2 h3 h4; exact ⟨hlim ha, h3, h4, h2, h1⟩
  · rintro ⟨hlim, h3, h4, h2, h1⟩
    refine ⟨fun h => hr h.1, fun h => absurd h hr, fun _ => hlim, ?_, ?_, ?_, ?_⟩
    all_goals rw [hv]
    exacts [h1, h2, h3, h4]

theorem limited_iff {i : DurInfo} {dur offset : ℕ} (h : i.Stored) (hen : i.durLimit.enable = true) {F : ℤ × ℤ → Pattern}
    {P : Pattern → Prop} {x y : ℤ → ℤ} (hx : ∀ t, x t = s16 (s16 offset - t - 0)) (hy : ∀ t, y t = s16 (dur - x t))
    (side : ℤ × ℤ → ℤ) (hside : ∀ tob toa, P (F (tob, toa)) ↔ tob + toa = i.dur ∧
      x (side (tob, toa)) + y (side (tob, toa)) = dur ∧ x (side (tob, toa)) + side (tob, toa) = offset) :
    (∃ m', (negoLimited i).map F = some m' ∧ P m') ↔
      i.dur ≤ i.durLimit.maxTob + i.durLimit.maxToa ∧ Fits16 i.middle ∧ Fits16 (i.dur - i.middle) ∧
        Fits16 (offset - side (i.middle, i.dur - i.middle)) ∧
        Fits16 (dur - (offset - side (i.middle, i.dur - i.middle))) := by
  constructor
  · rintro ⟨m', hm, hP⟩
    obtain ⟨⟨tob, toa⟩, hlim, rfl⟩ := Option.map_eq_some_iff.mp hm
    obtain ⟨hsum, hother⟩ := (hside tob toa).mp hP
    obtain ⟨hle, h1, h2, rfl, rfl⟩ := (negoLimited_iff h hen).mp ⟨hlim, hsum⟩
    exact ⟨hle, h1, h2, (other_times_iff (hx _) (hy _)).mp hother⟩
  · rintro ⟨hle, h1, h2, hother⟩
    obtain ⟨hlim, hsum⟩ := (negoLimited_iff h hen).mpr ⟨hle, h1, h2, rfl, rfl⟩
    exact ⟨_, Option.map_eq_some_iff.mpr ⟨_, hlim, rfl⟩, (hside _ _).mpr ⟨hsum, (other_times_iff (hx _) (hy _)).mpr hother⟩⟩

theorem bcns_iff {a b c : ℤ} : a + 0 + b = c ↔ b + a = c := by omega

theorem negoTimes_iff {offset : ℕ} (href : ref.Stored) (hano : ano.Stored) :
    (∃ m', negoTimes ref ano (s16 offset) 0 m = some m' ∧ m'.Joined ref.dur ano.dur offset 0) ↔ NegoFits ref ano offset := by
  rw [negoTimes]
  by_cases hboth : ref.durLimit.enable = true ∧ ano.durLimit.enable = true
  · rw [if_pos hboth]; exact iff_of_false (fun ⟨_, h, _⟩ => nomatch h) fun h => h.one hboth
  rw [if_neg hboth]
  by_cases hr : ref.durLimit.enable = true
  · have ha : ¬ ano.durLimit.enable = true := fun ha => hboth ⟨hr, ha⟩
    rw [if_pos hr, negoFits_iff_ref ha, imp_iff_right hr]
    refine limited_iff href hr (fun _ => rfl) (fun _ => rfl) Prod.snd fun tob toa => ?_
    exact ⟨fun h => ⟨h.refDur, h.anoDur, bcns_iff.mp h.bcns⟩, fun ⟨hsum, hother, hbcns⟩ =>
      ⟨hsum, hother, bcns_iff.mpr hbcns⟩⟩
  rw [if_neg hr]
  by_cases ha : ano.durLimit.enable = true
  · rw [if_pos ha, negoFits_iff_ano hr ha]
    refine limited_iff hano ha (fun _ => rfl) (fun _ => rfl) Prod.fst fun tob toa => ?_
    exact ⟨fun h => ⟨h.anoDur, (Int.add_comm _ _).trans h.refDur, (bcns_iff.trans (by rw [Int.add_comm])).mp h.bcns⟩,
      fun ⟨hsum, hother, hbcns⟩ => ⟨(Int.add_comm _ _).trans hother, hsum, (bcns_iff.trans (by rw [Int.add_comm])).mpr hbcns⟩⟩
  · have hmid : ref.middle = (ref.dur : ℤ) / 2 := if_neg hr
    have hdur := href.dur
    rw [if_neg ha, negoFits_iff_ref ha, hmid, s16_eq (x := (ref.dur : ℤ) / 2) (by omega) (by omega)]
    have hhalf : Fits16 ((ref.dur : ℤ) / 2) := ⟨by omega, by omega⟩
    constructor
    · rintro ⟨m', hm, hsum, hother, hbcns⟩
      obtain rfl := Option.some.inj hm
      have htoa : s16 (ref.dur - (ref.dur : ℤ) / 2) = ref.dur - (ref.dur : ℤ) / 2 := eq_sub_of_add_eq' hsum
      refine ⟨fun h => absurd h hr, hhalf, s16_eq_iff.mp htoa, ?_⟩
      rw [← htoa]
      refine (other_times_iff rfl rfl).mp ⟨hother, bcns_iff.mp hbcns⟩
    · rintro ⟨-, -, hfit, hother⟩
      rw [s16_eq_iff.mpr hfit]
      obtain ⟨hsum, hbcns⟩ := (other_times_iff rfl rfl).mpr hother
      exact ⟨_, rfl, add_sub_cancel _ _, hsum, bcns_iff.mpr hbcns⟩

theorem btNego_eq : btNego ref ano btDur m = calc2Wslot1BtslotNegoP1 ref ano (s16 m.bcnsOffset) btDur m := by
  unfold btNego
  split
  · rename_i hsome
    exact hsome.symm
  · rename_i hnone
    rw [negoP2_eq_none hnone, hnone]

theorem btNego_geometry_iff (href : ref.Stored) (hano : ano.Stored) (hslots : m.slotOrder = []) :
    (∃ m', btNego ref ano btDur m = some m' ∧ m'.Geometry ref.dur ano.dur m.bcnsOffset) ↔
      NegoFits ref ano m.bcnsOffset := by
  rw [btNego_eq, ← negoTimes_iff (m := m) href hano]
  have hgeometry : ∀ {q : Pattern}, negoTimes ref ano (s16 m.bcnsOffset) 0 m = some q →
      ((((q.fillSlotInfo false ref.dur m.roleRef).fillSlotInfo false ano.dur m.roleAno).fillSlotInfo true
        (u16 btDur) none).Geometry ref.dur ano.dur m.bcnsOffset ↔ q.Joined ref.dur ano.dur m.bcnsOffset 0) := by
    intro q hq
    have horder := fill_bt_last ((slotOrder_negoTimes hq).trans hslots) ref.dur ano.dur (u16 btDur) m.roleRef m.roleAno
    obtain ⟨h1, h2, h3, h4⟩ := fillSlotInfo_times q false ref.dur m.roleRef
    obtain ⟨h5, h6, h7, h8⟩ := fillSlotInfo_times (q.fillSlotInfo false ref.dur m.roleRef) false ano.dur m.roleAno
    obtain ⟨h9, h10, h11, h12⟩ := fillSlotInfo_times
      ((q.fillSlotInfo false ref.dur m.roleRef).fillSlotInfo false ano.dur m.roleAno) true (u16 btDur) none
    unfold Pattern.Geometry Pattern.between
    rw [horder]
    constructor
    · rintro ⟨ha, hb, hc⟩
      rw [h9, h5, h1, h10, h6, h2] at ha
      rw [h11, h7, h3, h12, h8, h4] at hb
      rw [h10, h6, h2, h11, h7, h3] at hc; exact ⟨ha, hb, hc⟩
    · rintro ⟨ha, hb, hc⟩
      refine ⟨?_, ?_, ?_⟩
      · rw [h9, h5, h1, h10, h6, h2, ha]
      · rw [h11, h7, h3, h12, h8, h4, hb]
      · rw [h10, h6, h2, h11, h7, h3]; exact hc
  unfold calc2Wslot1BtslotNegoP1
  constructor
  · rintro ⟨m', hm, hg⟩
    obtain ⟨q, hq, rfl⟩ := Option.map_eq_some_iff.mp hm
    exact ⟨q, hq, (hgeometry hq).mp hg⟩
  · rintro ⟨q, hq, hj⟩; exact ⟨_, Option.map_eq_some_iff.mpr ⟨q, hq, rfl⟩, (hgeometry hq).mpr hj⟩

theorem calculate_inP1 (hin : InP1 ref.dur ano.dur m.bcnsOffset) :
    (∃ m', calculate2Wslot1BtslotPattern1 ref ano m.bcnsOffset btDur m = some m' ∧
      calculate2Wslot1BtslotPattern ref ano btDur m = some m') ↔
        (calculate2Wslot1BtslotPattern1 ref ano m.bcnsOffset btDur m).isSome := by
  unfold calculate2Wslot1BtslotPattern
  unfold InP1 at hin
  dsimp only
  rw [if_pos hin]
  cases h : calculate2Wslot1BtslotPattern1 ref ano m.bcnsOffset btDur m with
  | none => exact iff_of_false (fun ⟨_, h, _⟩ => nomatch h) nofun
  | some m' => exact iff_of_true ⟨m', rfl, rfl⟩ rfl

theorem calculate_inP2 (hnot : ¬ InP1 ref.dur ano.dur m.bcnsOffset) (hin : InP2 ref.dur ano.dur btDur m.bcnsOffset) :
    (∃ m', calculate2Wslot1BtslotPattern2 ref ano m.bcnsOffset btDur m = some m' ∧
      calculate2Wslot1BtslotPattern ref ano btDur m = some m') ↔
        (calculate2Wslot1BtslotPattern2 ref ano m.bcnsOffset btDur m).isSome := by
  unfold calculate2Wslot1BtslotPattern
  unfold InP1 at hnot
  unfold InP2 at hin
  dsimp only
  rw [if_neg hnot, if_pos hin]
  cases h : calculate2Wslot1BtslotPattern2 ref ano m.bcnsOffset btDur m with
  | none => exact iff_of_false (fun ⟨_, h, _⟩ => nomatch h) nofun
  | some m' => exact iff_of_true ⟨m', rfl, rfl⟩ rfl

theorem calculate_outside (hnot : ¬ InP1 ref.dur ano.dur m.bcnsOffset)
    (hnot' : ¬ InP2 ref.dur ano.dur btDur m.bcnsOffset) :
    calculate2Wslot1BtslotPattern ref ano btDur m = btNego ref ano btDur m := by
  unfold calculate2Wslot1BtslotPattern
  unfold InP1 at hnot
  unfold InP2 at hnot'
  dsimp only
  rw [if_neg hnot, if_neg hnot']; rfl

end Searches

/-- **The pattern with a BT slot.**  The range of the first slot order is exact as far as it fits into 16 bits; that of the
second one only if a slot has no room but for its beacon.  Inside a range, the search of that slot order finds a pattern when
the limits leave one.  Outside of both, the negotiation keeps to the geometry of the first slot order when the times fit. -/
theorem bt_ranges_iff (ref ano : DurInfo) (btDur : ℕ) (m : Pattern) (hR : 15 ≤ ref.dur) (hA : 15 ≤ ano.dur)
    (hbt : btDur < 32768) :
    (P1Exact ref.dur ano.dur ↔ ref.dur + ano.dur ≤ 32782) ∧
    (P2Exact ref.dur ano.dur btDur ↔ ref.dur + ano.dur + btDur ≤ 32782 ∧ (ref.dur = 15 ∨ ano.dur = 15)) ∧
    (ref.dur + ano.dur ≤ 32782 → InP1 ref.dur ano.dur m.bcnsOffset →
      ((∃ m', calculate2Wslot1BtslotPattern1 ref ano m.bcnsOffset btDur m = some m' ∧
          calculate2Wslot1BtslotPattern ref ano btDur m = some m') ↔
        ∃ v, Margins ref.dur ano.dur m.bcnsOffset 0 v ∧ Limits ref ano v)) ∧
    (ref.dur + ano.dur + btDur ≤ 32782 → ¬ InP1 ref.dur ano.dur m.bcnsOffset → InP2 ref.dur ano.dur btDur m.bcnsOffset →
      ((∃ m', calculate2Wslot1BtslotPattern2 ref ano m.bcnsOffset btDur m = some m' ∧
          calculate2Wslot1BtslotPattern ref ano btDur m = some m') ↔
        ∃ v, Margins ref.dur ano.dur m.bcnsOffset btDur v ∧ Limits ref ano v)) ∧
    (ref.Stored → ano.Stored → m.slotOrder = [] →
      ¬ InP1 ref.dur ano.dur m.bcnsOffset → ¬ InP2 ref.dur ano.dur btDur m.bcnsOffset →
      ((∃ m', calculate2Wslot1BtslotPattern ref ano btDur m = some m' ∧
          m'.Geometry ref.dur ano.dur m.bcnsOffset) ↔ NegoFits ref ano m.bcnsOffset)) := by
  refine ⟨p1Exact_iff hR hA, p2Exact_iff hR hA hbt, ?_, ?_, ?_⟩
  · intro hsum hin; exact (calculate_inP1 hin).trans (search1_iff hR hA hsum hin)
  · intro hsum hnot hin; exact (calculate_inP2 hnot hin).trans (search2_iff hR hA hsum hin)
  · intro href hano hslots hnot hnot'
    rw [calculate_outside hnot hnot']; exact btNego_geometry_iff href hano hslots

/-- Two slots of 40 TU, or of 15 and 40 TU, without limits. -/
theorem bt_ranges_some : P1Exact 40 40 ∧ P2Exact 15 40 20 ∧
    (∃ m', calculate2Wslot1BtslotPattern1 someDur someDur 40 20 { Pattern.zero with bcnsOffset := 40 } = some m' ∧
      calculate2Wslot1BtslotPattern someDur someDur 20 { Pattern.zero with bcnsOffset := 40 } = some m') ∧
    (∃ m', calculate2Wslot1BtslotPattern2 someDur someDur 80 20 { Pattern.zero with bcnsOffset := 80 } = some m' ∧
      calculate2Wslot1BtslotPattern someDur someDur 20 { Pattern.zero with bcnsOffset := 80 } = some m') ∧
    ∃ m', calculate2Wslot1BtslotPattern someDur someDur 20 { Pattern.zero with bcnsOffset := 100 } = some m' ∧
      m'.Geometry 40 40 100 := by
  have hin : ∀ {offset : ℕ}, InP1 someDur.dur someDur.dur offset ↔ 15 ≤ offset ∧ offset + 15 ≤ 80 :=
    inP1_iff (by decide) (by decide) (by decide)
  have hin' : ∀ {offset : ℕ}, InP2 someDur.dur someDur.dur (20 : ℕ) offset ↔ 60 ≤ offset ∧ offset + 15 ≤ 100 :=
    inP2_iff (by decide) (by decide) (by decide)
  have h := fun offset : ℕ => bt_ranges_iff someDur someDur 20 { Pattern.zero with bcnsOffset := offset } (by decide)
    (by decide) (by decide)
  refine ⟨(h 40).1.mpr (by decide), (bt_ranges_iff { someDur with dur := 15 } someDur 20 .zero (by decide) (by decide)
    (by decide)).2.1.mpr (by decide), ?_, ?_, ?_⟩
  · exact ((h 40).2.2.1 (by decide) (hin.mpr (by decide))).mpr
      ⟨⟨20, 20, 20, 20⟩, by constructor <;> decide, by constructor <;> decide⟩
  · exact ((h 80).2.2.2.1 (by decide) (fun h => absurd (hin.mp h) (by decide)) (hin'.mpr (by decide))).mpr
      ⟨⟨10, 30, 30, 10⟩, by constructor <;> decide, by constructor <;> decide⟩
  · refine ((h 100).2.2.2.2 ⟨by decide, by decide, by decide⟩ ⟨by decide, by decide, by decide⟩ rfl
      (fun h => absurd (hin.mp h) (by decide)) (fun h => absurd (hin'.mp h) (by decide))).mpr ?_
    constructor <;> decide

/-- Two slots of 40 TU with a BT slot of 60 TU between them: an offset of 80 TU has times, and is outside of the range. -/
theorem range2_not_exact :
    ¬ ∀ refDur anoDur btDur : ℕ, 15 ≤ refDur → 15 ≤ anoDur → btDur < 32768 → P2Exact refDur anoDur btDur := by
  intro h
  have hexact := h 40 40 60 (by decide) (by decide) (by decide) 80 (by decide)
  have hin := hexact.mpr ⟨⟨30, 10, 10, 30⟩, by constructor <;> decide⟩
  exact absurd hin.1 (by decide +kernel)

end Rtl8852cu.Mcc
