import Rtl8852cu.Twt.Config
import Mathlib.Data.Int.ModEq

/-!
# The next target wake time

`phl_twt_get_target_wake_time` counts from the reference wake time of a configuration to the first start of a service
period behind the current TSF and an offset.
-/

namespace Rtl8852cu.Twt

def ignoreCfgId : ℕ := 0xFF

/-- `rtw_phl_twt_get_twt_i`, with what the two pointers point to. -/
structure TwtGetTwtI where
  id : ℕ
  offset : ℕ
  tsfH : ℕ
  tsfL : ℕ
deriving DecidableEq, Repr

def twtCalcIntvl (exp mantissa : ℕ) : ℕ := mantissa * (1 <<< exp) % 2 ^ 32

def osAdd64 (x y : ℕ) : ℕ := (x + y) % 2 ^ 64

def osMinus64 (x y : ℕ) : ℕ := (x + 2 ^ 64 - y) % 2 ^ 64

/-- `_os_modular64`; there is no remainder by zero. -/
def osModular64 (x y : ℕ) : Option ℕ := if y = 0 then none else some (x % y)

/-- The target wake time from a configuration. -/
def targetFromConfig (curTsf offset : ℕ) (info : TwtInfo) : Option ℕ := do
  let refTsf := (info.targetWakeTimeH <<< 32) ||| info.targetWakeTimeL
  let intvl := twtCalcIntvl info.twtWakeIntExp info.twtWakeIntMantissa
  let tgtTsf := osAdd64 curTsf (offset * 1000)
  let difTsf := osMinus64 tgtTsf refTsf
  let rest ← osModular64 difTsf intvl
  some (osAdd64 (osMinus64 tgtTsf rest) intvl)

/-- `phl_twt_get_target_wake_time`; `tsf` is what `rtw_hal_get_tsf` gives, the high word first. -/
def phlTwtGetTargetWakeTime (s : TwtInfoState) (tsf : Option (ℕ × ℕ)) (i : TwtGetTwtI) : Option (PhlStatus × TwtGetTwtI) :=
  if s.twtSup = false then some (.failure, i)
  else if s.twtInit = false then some (.failure, i)
  else
    match tsf with
    | none => some (.failure, i)
    | some (cTsfH, cTsfL) =>
      let curTsf := (cTsfH <<< 32) ||| cTsfL
      if i.id = ignoreCfgId then
        let tgtTsf := osAdd64 curTsf (i.offset * 1000)
        some (.success, { i with tsfH := tgtTsf / 2 ^ 32, tsfL := tgtTsf % 2 ^ 32 })
      else if getConfigById s i.id then
        (targetFromConfig curTsf i.offset (s.cfg i.id).twtInfo).map fun tgtTsf =>
          (.success, { i with tsfH := tgtTsf / 2 ^ 32, tsfL := tgtTsf % 2 ^ 32 })
      else some (.failure, i)

/-! ### Starts of service periods -/

/-- **The first start of a service period behind `now`**, of periods every `intvl` that the start at `ref` belongs to. -/
structure IsFirstStart (ref intvl now t : ℤ) : Prop where
  congr : t ≡ ref [ZMOD intvl]
  gt : now < t
  le : t ≤ now + intvl

/-- The first start behind `now`. -/
def firstStart (ref intvl now : ℤ) : ℤ := now + (intvl - (now - ref) % intvl)

theorem isFirstStart_iff {ref intvl now t : ℤ} (hpos : 0 < intvl) :
    IsFirstStart ref intvl now t ↔ t = firstStart ref intvl now := by
  have hlt := Int.emod_lt_of_pos (now - ref) hpos
  have hle := Int.emod_nonneg (now - ref) hpos.ne'
  have hdiv := Int.emod_add_mul_ediv (now - ref) intvl
  unfold firstStart
  constructor
  · intro h
    obtain ⟨k, hk⟩ := h.congr.symm.dvd
    -- both are in one interval, and differ by a multiple of it
    have hmul : t - (now + (intvl - (now - ref) % intvl)) = intvl * (k - 1 - (now - ref) / intvl) := by
      rw [Int.mul_sub, Int.mul_sub]; omega
    have hgt := h.gt
    have hle' := h.le
    have hzero : k - 1 - (now - ref) / intvl = 0 := by
      by_contra hne
      rcases lt_or_gt_of_ne hne with hneg | hp
      · have := Int.mul_le_mul_of_nonneg_left (Int.le_sub_one_of_lt hneg) hpos.le; omega
      · have := Int.mul_le_mul_of_nonneg_left (Int.add_one_le_of_lt hp) hpos.le; omega
    rw [hzero, Int.mul_zero] at hmul; omega
  · rintro rfl
    refine ⟨Int.ModEq.symm (Int.modEq_iff_dvd.mpr ⟨1 + (now - ref) / intvl, ?_⟩), by omega, by omega⟩
    rw [Int.mul_add]; omega

/-! ### What is returned -/

variable {now ref intvl : ℕ}

/-- The turns of 64 bits by which a reference is behind `now`. -/
def wrapped (ref now : ℕ) : ℤ := if ref ≤ now then 0 else 2 ^ 64

theorem osMinus64_eq (hn : now < 2 ^ 64) (hr : ref < 2 ^ 64) : (osMinus64 now ref : ℤ) = now - (ref - wrapped ref now) := by
  unfold osMinus64 wrapped
  split <;> omega

theorem osAdd64_eq (hn : now < 2 ^ 64) (hr : ref < 2 ^ 64) (hpos : 0 < intvl) :
    (osAdd64 (osMinus64 now (osMinus64 now ref % intvl)) intvl : ℤ) =
      firstStart (ref - wrapped ref now) intvl now % 2 ^ 64 := by
  have hlt := Nat.mod_lt (osMinus64 now ref) hpos
  have hle := Nat.mod_le (osMinus64 now ref) intvl
  have hd : osMinus64 now ref < 2 ^ 64 := Nat.mod_lt _ (by decide)
  have hrest : ((osMinus64 now ref % intvl : ℕ) : ℤ) = (now - (ref - wrapped ref now)) % intvl := by
    rw [Int.natCast_emod, osMinus64_eq hn hr]
  unfold firstStart
  rw [← hrest]
  generalize osMinus64 now ref % intvl = r at hlt hle hrest ⊢
  unfold osAdd64 osMinus64; omega

theorem osAdd64_firstStart_iff {i : ℕ} (hi : 0 < i) (hlt : i < 2 ^ 32) (hn : now < 2 ^ 64) (hr : ref < 2 ^ 64)
    (hpos : 0 < intvl) :
    (osAdd64 (osMinus64 now (osMinus64 now ref % i)) i : ℤ) = firstStart ref intvl now ↔
      firstStart ref intvl now < 2 ^ 64 ∧ firstStart ref intvl now ≤ now + i ∧
        (i : ℤ) ∣ firstStart ref intvl now - ref + wrapped ref now := by
  have hF := (isFirstStart_iff (t := firstStart ref intvl now) (Int.natCast_pos.mpr hpos)).mpr rfl
  have hT := (isFirstStart_iff
    (t := firstStart (ref - wrapped ref now) i now) (Int.natCast_pos.mpr hi)).mpr rfl
  rw [osAdd64_eq hn hr hi]
  have hgt := hF.gt
  have hTgt := hT.gt
  have hTle := hT.le
  constructor
  · intro h
    have hT64 : firstStart (ref - wrapped ref now) i now < 2 ^ 64 := by omega
    rw [Int.emod_eq_of_lt (by omega) hT64] at h
    rw [← h]
    refine ⟨hT64, hTle, ?_⟩
    have hsub : firstStart (ref - wrapped ref now) i now - ref + wrapped ref now =
        firstStart (ref - wrapped ref now) i now - (ref - wrapped ref now) := by omega
    rw [hsub]; exact hT.congr.symm.dvd
  · rintro ⟨h64, hle, hdvd⟩
    have hfirst : IsFirstStart (ref - wrapped ref now) i now (firstStart ref intvl now) := by
      have hsub : firstStart ref intvl now - (ref - wrapped ref now) = firstStart ref intvl now - ref + wrapped ref now := by
        omega
      exact ⟨(Int.modEq_iff_dvd.mpr (hsub ▸ hdvd)).symm, hgt, hle⟩
    rw [← (isFirstStart_iff (Int.natCast_pos.mpr hi)).mp hfirst]
    exact Int.emod_eq_of_lt (by omega) h64

/-- **When the first start is returned.**  It is within 64 bits.  The interval is within 32, and the reference is not ahead or
the interval divides the turns of the clock; or of a longer interval a part is left that divides the way to the start. -/
def Reached (ref intvl now : ℕ) : Prop :=
  firstStart ref intvl now < 2 ^ 64 ∧ (intvl < 2 ^ 32 ∧ (ref ≤ now ∨ intvl ∣ 2 ^ 64) ∨
      2 ^ 32 ≤ intvl ∧ firstStart ref intvl now ≤ now + (intvl % 2 ^ 32 : ℕ) ∧
        ((intvl % 2 ^ 32 : ℕ) : ℤ) ∣ firstStart ref intvl now - ref + wrapped ref now)

theorem dvd_wrapped_iff (hpos : 0 < intvl) :
    (intvl : ℤ) ∣ firstStart ref intvl now - ref + wrapped ref now ↔ ref ≤ now ∨ intvl ∣ 2 ^ 64 := by
  have hF := (isFirstStart_iff (t := firstStart ref intvl now) (Int.natCast_pos.mpr hpos)).mpr rfl
  rw [Int.dvd_add_right hF.congr.symm.dvd]
  unfold wrapped
  split
  · exact iff_of_true (Int.dvd_zero _) (Or.inl ‹_›)
  · rw [or_iff_right ‹_›]; exact Int.natCast_dvd_natCast (n := 2 ^ 64)

theorem targetFromConfig_lt {curTsf offset t : ℕ} {info : TwtInfo} (h : targetFromConfig curTsf offset info = some t) :
    t < 2 ^ 64 := by
  unfold targetFromConfig osModular64 at h
  dsimp only at h
  split at h
  · cases h
  · cases h; exact Nat.mod_lt _ (by decide)

theorem targetFromConfig_iff {curTsf offset : ℕ} {info : TwtInfo}
    (hm : 0 < info.twtWakeIntMantissa) (hh : info.targetWakeTimeH < 2 ^ 32) (hl : info.targetWakeTimeL < 2 ^ 32) :
    (∃ t : ℕ, targetFromConfig curTsf offset info = some t ∧
        IsFirstStart (info.targetWakeTimeH * 2 ^ 32 + info.targetWakeTimeL : ℕ)
          (info.twtWakeIntMantissa * 2 ^ info.twtWakeIntExp : ℕ) (curTsf + offset * 1000 : ℕ) t) ↔
      Reached (info.targetWakeTimeH * 2 ^ 32 + info.targetWakeTimeL) (info.twtWakeIntMantissa * 2 ^ info.twtWakeIntExp)
        (curTsf + offset * 1000) := by
  have href : (info.targetWakeTimeH <<< 32) ||| info.targetWakeTimeL = info.targetWakeTimeH * 2 ^ 32 + info.targetWakeTimeL := by
    rw [← Nat.shiftLeft_add_eq_or_of_lt hl, Nat.shiftLeft_eq]
  have hintvl : twtCalcIntvl info.twtWakeIntExp info.twtWakeIntMantissa =
      info.twtWakeIntMantissa * 2 ^ info.twtWakeIntExp % 2 ^ 32 := by
    unfold twtCalcIntvl
    rw [Nat.one_shiftLeft]
  have hpos : 0 < info.twtWakeIntMantissa * 2 ^ info.twtWakeIntExp := Nat.mul_pos hm (Nat.two_pow_pos _)
  have hr : info.targetWakeTimeH * 2 ^ 32 + info.targetWakeTimeL < 2 ^ 64 := by omega
  rcases Nat.lt_or_ge (curTsf + offset * 1000) (2 ^ 64) with hn | hn
  swap
  · -- the current time and the offset do not go into 64 bits
    have hbehind : ∀ {t : ℤ} {ref intvl : ℕ}, IsFirstStart ref intvl (curTsf + offset * 1000 : ℕ) t → ¬ t < 2 ^ 64 := by
      intro t ref intvl h
      have := h.gt
      omega
    refine iff_of_false ?_ fun h => ?_
    · rintro ⟨t, ht, hfirst⟩
      have := targetFromConfig_lt ht
      exact hbehind hfirst (by omega)
    · exact hbehind ((isFirstStart_iff (Int.natCast_pos.mpr hpos)).mpr rfl) h.1
  unfold targetFromConfig
  dsimp only
  rw [href, hintvl]
  generalize info.targetWakeTimeH * 2 ^ 32 + info.targetWakeTimeL = ref at hr ⊢
  generalize info.twtWakeIntMantissa * 2 ^ info.twtWakeIntExp = intvl at hpos ⊢
  have hnow : osAdd64 curTsf (offset * 1000) = curTsf + offset * 1000 := Nat.mod_eq_of_lt hn
  rw [hnow]
  generalize curTsf + offset * 1000 = now at hn ⊢
  have hgt := ((isFirstStart_iff (t := firstStart ref intvl now) (Int.natCast_pos.mpr hpos)).mpr rfl).gt
  have hlt : intvl % 2 ^ 32 < 2 ^ 32 := Nat.mod_lt _ (by decide)
  simp only [isFirstStart_iff (Int.natCast_pos.mpr hpos)]
  unfold osModular64 Reached
  rcases Nat.eq_zero_or_pos (intvl % 2 ^ 32) with hi | hi
  · rw [if_pos hi, hi]
    refine iff_of_false (by rintro ⟨t, ht, -⟩; cases ht) ?_
    rintro ⟨-, ⟨hfit, -⟩ | ⟨-, hle, -⟩⟩ <;> omega
  · rw [if_neg hi.ne']
    simp only [Option.bind_eq_bind, Option.bind_some, Option.some.injEq, exists_eq_left']
    rw [osAdd64_firstStart_iff hi hlt hn hr hpos]
    refine and_congr_right fun _ => ?_
    rcases Nat.lt_or_ge intvl (2 ^ 32) with hfit | hfit
    · have hle := ((isFirstStart_iff (t := firstStart ref intvl now)
        (Int.natCast_pos.mpr hpos)).mpr rfl).le
      rw [Nat.mod_eq_of_lt hfit, dvd_wrapped_iff hpos]
      constructor
      · exact fun h => Or.inl ⟨hfit, h.2⟩
      · rintro (h | h)
        · exact ⟨hle, h.2⟩
        · exact absurd h.1 (not_le.mpr hfit)
    · constructor
      · exact fun h => Or.inr ⟨hfit, h⟩
      · rintro (h | h)
        · exact absurd h.1 (not_lt.mpr hfit)
        · exact h.2

/-! ### The function -/

/-- The first start of a service period is returned. -/
def ReturnsFirstStart (s : TwtInfoState) (cTsfH cTsfL : ℕ) (i : TwtGetTwtI) : Prop :=
  ∃ i', phlTwtGetTargetWakeTime s (some (cTsfH, cTsfL)) i = some (.success, i') ∧
    IsFirstStart ((s.cfg i.id).twtInfo.targetWakeTimeH * 2 ^ 32 + (s.cfg i.id).twtInfo.targetWakeTimeL : ℕ)
      ((s.cfg i.id).twtInfo.twtWakeIntMantissa * 2 ^ (s.cfg i.id).twtInfo.twtWakeIntExp : ℕ)
      (cTsfH * 2 ^ 32 + cTsfL + i.offset * 1000 : ℕ) (i'.tsfH * 2 ^ 32 + i'.tsfL : ℕ)

/-- **The first start behind now and the offset is returned, exactly where it is `Reached`.** -/
theorem target_wake_time_iff (s : TwtInfoState) (cTsfH cTsfL : ℕ) (i : TwtGetTwtI) (hsup : s.twtSup = true)
    (hinit : s.twtInit = true) (hid : i.id < maxNumHwTwtConfig) (hstate : (s.cfg i.id).state ≠ .free)
    (hcL : cTsfL < 2 ^ 32) (hm : 0 < (s.cfg i.id).twtInfo.twtWakeIntMantissa)
    (hh : (s.cfg i.id).twtInfo.targetWakeTimeH < 2 ^ 32) (hl : (s.cfg i.id).twtInfo.targetWakeTimeL < 2 ^ 32) :
    ReturnsFirstStart s cTsfH cTsfL i ↔
      Reached ((s.cfg i.id).twtInfo.targetWakeTimeH * 2 ^ 32 + (s.cfg i.id).twtInfo.targetWakeTimeL)
        ((s.cfg i.id).twtInfo.twtWakeIntMantissa * 2 ^ (s.cfg i.id).twtInfo.twtWakeIntExp)
        (cTsfH * 2 ^ 32 + cTsfL + i.offset * 1000) := by
  have hcur : (cTsfH <<< 32) ||| cTsfL = cTsfH * 2 ^ 32 + cTsfL := by
    rw [← Nat.shiftLeft_add_eq_or_of_lt hcL, Nat.shiftLeft_eq]
  have hnot : i.id ≠ ignoreCfgId := by
    unfold ignoreCfgId
    unfold maxNumHwTwtConfig at hid; omega
  have hget : getConfigById s i.id = true := by
    unfold getConfigById
    rw [decide_eq_true hid, decide_eq_true hstate]; rfl
  rw [← targetFromConfig_iff hm hh hl]
  unfold ReturnsFirstStart phlTwtGetTargetWakeTime
  simp only [hsup, hinit, Bool.true_eq_false, if_false, if_neg hnot, hget, if_true, hcur, Option.map_eq_some_iff]
  constructor
  · rintro ⟨i', ⟨t, ht, hi'⟩, hfirst⟩
    cases hi'
    rw [Nat.div_add_mod'] at hfirst; exact ⟨t, ht, hfirst⟩
  · rintro ⟨t, ht, hfirst⟩
    refine ⟨_, ⟨t, ht, rfl⟩, ?_⟩
    dsimp only
    rw [Nat.div_add_mod']; exact hfirst

/-- One configuration, of periods every 100 · 2¹⁰ µs. -/
def oneConfig (ref : ℕ) : TwtInfoState :=
  ⟨true, true, fun _ => ⟨.enable, some 0, some 0,
    { TwtInfo.zero with twtWakeIntExp := 10, twtWakeIntMantissa := 100, targetWakeTimeL := ref }, []⟩⟩

/-- A reference in the past. -/
theorem target_of_past : ReturnsFirstStart (oneConfig 5000) 1 0 ⟨0, 2, 0, 0⟩ :=
  (target_wake_time_iff (oneConfig 5000) 1 0 ⟨0, 2, 0, 0⟩ rfl rfl (by decide) nofun (by decide) (by decide) (by decide)
    (by decide)).mpr ⟨by decide, Or.inl ⟨by decide, Or.inl (by decide)⟩⟩

/-- A reference three milliseconds ahead. -/
theorem target_of_future : ¬ ReturnsFirstStart (oneConfig 5000) 0 0 ⟨0, 2, 0, 0⟩ := by
  rintro ⟨i', h, hfirst⟩
  have hi : phlTwtGetTargetWakeTime (oneConfig 5000) (some (0, 0)) ⟨0, 2, 0, 0⟩ = some (.success, ⟨0, 2, 0, 21384⟩) := by
    decide
  cases hi.symm.trans h
  exact absurd hfirst.congr (by decide)

end Rtl8852cu.Twt
