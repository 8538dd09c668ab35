import Mathlib.Algebra.Ring.Nat
import Mathlib.Algebra.Order.Ring.Nat

/-!
# The airtime metric of a link

`rtw_airtime_link_metric_get` weighs a link by the time that a test frame needs on it, repeated as often as the average of
the reported error rates makes likely.
-/

namespace Rtl8852cu.Mesh

def RTW_MESH_EWMA_PRECISION : ℕ := 20

def RTW_TEST_FRAME_LEN : ℕ := 8192

def RTW_MAX_METRIC : ℕ := 0xffffffff

def RTW_ARITH_SHIFT : ℕ := 8

def RTW_LINK_FAIL_THRESH : ℕ := 95

/-! ## The average -/

variable {w : ℕ}

/-- The average after a report, in a long of `w` bits; `3` is `rtw_ilog2(RTW_MESH_EWMA_WEIGHT_RCP)`. -/
def ewmaErrRateAdd (internal val : BitVec w) : BitVec w :=
  if internal ≠ 0 then ((internal <<< 3) - internal + (val <<< RTW_MESH_EWMA_PRECISION)) >>> 3
  else val <<< RTW_MESH_EWMA_PRECISION

def ewmaErrRateRead (internal : BitVec w) : ℕ := (internal >>> RTW_MESH_EWMA_PRECISION).toNat

/-- What is read after a history of reports, from `rtw_ewma_err_rate_init` on. -/
def errAvg (history : List (BitVec w)) : ℕ := ewmaErrRateRead (history.foldl ewmaErrRateAdd 0)

theorem ewmaErrRateAdd_le (hw : 32 ≤ w) {internal val : BitVec w} (hi : internal.toNat ≤ 100 * 2 ^ 20)
    (hv : val.toNat ≤ 100) : (ewmaErrRateAdd internal val).toNat ≤ 100 * 2 ^ 20 := by
  have hpow : 2 ^ 32 ≤ 2 ^ w := Nat.pow_le_pow_right (by decide) hw
  have hval : (val <<< RTW_MESH_EWMA_PRECISION).toNat = val.toNat * 2 ^ 20 := by
    rw [BitVec.toNat_shiftLeft, RTW_MESH_EWMA_PRECISION, Nat.shiftLeft_eq, Nat.mod_eq_of_lt (by omega)]
  unfold ewmaErrRateAdd
  split
  · have hshift : (internal <<< 3).toNat = internal.toNat * 8 := by
      rw [BitVec.toNat_shiftLeft, Nat.shiftLeft_eq, Nat.mod_eq_of_lt (by omega)]
    have hsub : ((internal <<< 3) - internal).toNat = internal.toNat * 7 := by
      rw [BitVec.toNat_sub_of_le (by rw [BitVec.le_def]; omega)]
      omega
    rw [BitVec.toNat_ushiftRight, BitVec.toNat_add, hsub, hval, Nat.mod_eq_of_lt (by omega), Nat.shiftRight_eq_div_pow]
    omega
  · omega

theorem foldl_ewmaErrRateAdd_le (hw : 32 ≤ w) (history : List (BitVec w)) (internal : BitVec w)
    (hi : internal.toNat ≤ 100 * 2 ^ 20) (hh : ∀ val ∈ history, val.toNat ≤ 100) :
    (history.foldl ewmaErrRateAdd internal).toNat ≤ 100 * 2 ^ 20 := by
  induction history generalizing internal with
  | nil => exact hi
  | cons val history ih =>
    exact ih _ (ewmaErrRateAdd_le hw hi (hh val (by simp))) fun v hv => hh v (by simp [hv])

theorem errAvg_le (hw : 32 ≤ w) {history : List (BitVec w)} (hh : ∀ val ∈ history, val.toNat ≤ 100) :
    errAvg history ≤ 100 := by
  have h := foldl_ewmaErrRateAdd_le hw history 0 (by simp) hh
  rw [errAvg, ewmaErrRateRead, BitVec.toNat_ushiftRight, RTW_MESH_EWMA_PRECISION, Nat.shiftRight_eq_div_pow]
  omega

/-! ## The formula -/

/-- The share of frames that get through, in units of `2 ^ -8`. -/
def passShare (failAvg : ℕ) : ℕ := 2 ^ 8 - failAvg * 2 ^ 8 / 100

/-- The time of a test frame at a rate, in units of `2 ^ -8` µs. -/
def txTime (plcp rate : ℕ) : ℕ := plcp * 2 ^ 8 + 10 * (RTW_TEST_FRAME_LEN * 2 ^ 8) / rate

/-- The expected number of transmissions, in units of `2 ^ -8`. -/
def estimatedRetx (failAvg : ℕ) : ℕ := 2 ^ 16 / passShare failAvg

/-- The metric over the numbers, in units of 10.24 µs; a link that fails too often has the worst one. -/
def linkMetric (plcp rate failAvg : ℕ) : ℕ :=
  if RTW_LINK_FAIL_THRESH < failAvg then RTW_MAX_METRIC
  else txTime plcp rate * estimatedRetx failAvg / 2 ^ 16 * 100 / 2 ^ 10

theorem passShare_pos {failAvg : ℕ} (h : failAvg ≤ RTW_LINK_FAIL_THRESH) : 13 ≤ passShare failAvg := by
  unfold RTW_LINK_FAIL_THRESH at h
  unfold passShare; omega

theorem txTime_anti {rate rate' : ℕ} (plcp : ℕ) (hr : 0 < rate) (h : rate ≤ rate') :
    txTime plcp rate' ≤ txTime plcp rate := by
  unfold txTime; exact Nat.add_le_add_left (Nat.div_le_div_left h hr) _

theorem txTime_lt {plcp rate : ℕ} (hp : plcp < 2 ^ 10) (hr : 10 ≤ rate) : txTime plcp rate < 2 ^ 32 := by
  have hframe : 10 * (RTW_TEST_FRAME_LEN * 2 ^ 8) / rate ≤ RTW_TEST_FRAME_LEN * 2 ^ 8 :=
    Nat.div_le_of_le_mul (Nat.mul_le_mul_right _ hr)
  unfold txTime
  unfold RTW_TEST_FRAME_LEN at hframe ⊢; omega

theorem estimatedRetx_mono {failAvg failAvg' : ℕ} (h : failAvg ≤ failAvg') (h' : failAvg' ≤ RTW_LINK_FAIL_THRESH) :
    estimatedRetx failAvg ≤ estimatedRetx failAvg' := by
  refine Nat.div_le_div_left ?_ (by have := passShare_pos h'; omega)
  unfold passShare; omega

theorem estimatedRetx_lt {failAvg : ℕ} (h : failAvg ≤ RTW_LINK_FAIL_THRESH) : estimatedRetx failAvg < 2 ^ 13 := by
  have hmono := estimatedRetx_mono h le_rfl
  have hmax : estimatedRetx RTW_LINK_FAIL_THRESH = 5041 := by decide
  omega

theorem linkMetric_mono {plcp rate rate' failAvg failAvg' : ℕ} (hp : plcp < 2 ^ 10) (hr : 10 ≤ rate) (hrate : rate ≤ rate')
    (h : failAvg ≤ failAvg') : linkMetric plcp rate' failAvg ≤ linkMetric plcp rate failAvg' := by
  have htime := txTime_anti plcp (by omega : 0 < rate) hrate
  unfold linkMetric
  by_cases hfail : RTW_LINK_FAIL_THRESH < failAvg'
  · rw [if_pos hfail]
    split
    · exact le_rfl
    · have hlt := txTime_lt hp (hr.trans hrate)
      have hretx := estimatedRetx_lt (by omega : failAvg ≤ RTW_LINK_FAIL_THRESH)
      have hprod := Nat.mul_le_mul hlt.le hretx.le
      unfold RTW_MAX_METRIC; omega
  · rw [if_neg hfail, if_neg (by omega)]
    refine Nat.div_le_div_right (Nat.mul_le_mul_right _ (Nat.div_le_div_right ?_))
    exact Nat.mul_le_mul htime (estimatedRetx_mono h (by omega))

/-! ## The function -/

def u32 (x : ℕ) : ℕ := x % 2 ^ 32

/-- `plcp` is what the hardware layer gives, `errRate` the average of the station. -/
def airtimeLinkMetricGet (plcp rate : ℕ) (errRate : BitVec w) : ℕ :=
  let deviceConstant := u32 (plcp <<< RTW_ARITH_SHIFT)
  let testFrameLen := u32 (RTW_TEST_FRAME_LEN <<< RTW_ARITH_SHIFT)
  let sUnit := 1 <<< RTW_ARITH_SHIFT
  let failAvg := u32 (ewmaErrRateRead errRate)
  if RTW_LINK_FAIL_THRESH < failAvg then RTW_MAX_METRIC
  else if rate < 10 then RTW_MAX_METRIC
  else
    let err := u32 (failAvg <<< RTW_ARITH_SHIFT) / 100
    let txTime := u32 (deviceConstant + u32 (10 * testFrameLen) / rate)
    let estimatedRetx := (1 <<< (2 * RTW_ARITH_SHIFT)) / u32 (sUnit + 2 ^ 32 - err)
    -- the product has the type of its factors; only the variable it is stored in is of 64 bits
    let result := u32 (txTime * estimatedRetx) >>> (2 * RTW_ARITH_SHIFT)
    u32 ((result * 100) >>> 10)

theorem airtimeLinkMetricGet_eq {plcp rate : ℕ} {errRate : BitVec w} (hp : plcp < 2 ^ 10) (hr : 10 ≤ rate)
    (he : ewmaErrRateRead errRate ≤ 100) : airtimeLinkMetricGet plcp rate errRate =
      if RTW_LINK_FAIL_THRESH < ewmaErrRateRead errRate then RTW_MAX_METRIC
      else u32 (txTime plcp rate * estimatedRetx (ewmaErrRateRead errRate)) / 2 ^ 16 * 100 / 2 ^ 10 := by
  have hfail : u32 (ewmaErrRateRead errRate) = ewmaErrRateRead errRate := Nat.mod_eq_of_lt (by omega)
  unfold airtimeLinkMetricGet
  simp only [hfail]
  split
  · rfl
  · rename_i hthresh
    have hshare := passShare_pos (Nat.not_lt.mp hthresh)
    have htx : u32 (u32 (plcp <<< RTW_ARITH_SHIFT) + u32 (10 * u32 (RTW_TEST_FRAME_LEN <<< RTW_ARITH_SHIFT)) / rate) =
        txTime plcp rate := by
      have hlen : u32 (10 * u32 (RTW_TEST_FRAME_LEN <<< RTW_ARITH_SHIFT)) = 10 * (RTW_TEST_FRAME_LEN * 2 ^ 8) := by decide
      have hplcp : u32 (plcp <<< RTW_ARITH_SHIFT) = plcp * 2 ^ 8 := by
        rw [u32, RTW_ARITH_SHIFT, Nat.shiftLeft_eq, Nat.mod_eq_of_lt (by omega)]
      rw [hlen, hplcp]; exact Nat.mod_eq_of_lt (txTime_lt hp hr)
    have hretx : (1 <<< (2 * RTW_ARITH_SHIFT)) / u32 ((1 <<< RTW_ARITH_SHIFT) + 2 ^ 32 -
        u32 (ewmaErrRateRead errRate <<< RTW_ARITH_SHIFT) / 100) = estimatedRetx (ewmaErrRateRead errRate) := by
      have herr : u32 (ewmaErrRateRead errRate <<< RTW_ARITH_SHIFT) = ewmaErrRateRead errRate * 2 ^ 8 := by
        rw [u32, RTW_ARITH_SHIFT, Nat.shiftLeft_eq, Nat.mod_eq_of_lt (by omega)]
      have hdiv : u32 ((1 <<< RTW_ARITH_SHIFT) + 2 ^ 32 - ewmaErrRateRead errRate * 2 ^ 8 / 100) =
          passShare (ewmaErrRateRead errRate) := by
        unfold passShare at hshare ⊢
        unfold u32 RTW_ARITH_SHIFT; omega
      rw [herr, hdiv]; rfl
    have hshift : 2 * RTW_ARITH_SHIFT = 16 := rfl
    rw [if_neg (by omega), htx, hretx, hshift, Nat.shiftRight_eq_div_pow, Nat.shiftRight_eq_div_pow]
    unfold u32; omega

/-- The product of the time and the repetitions fits its type, unless the link is beyond the threshold. -/
def ProductFits (plcp rate failAvg : ℕ) : Prop :=
  failAvg ≤ RTW_LINK_FAIL_THRESH → txTime plcp rate * estimatedRetx failAvg < 2 ^ 32

theorem airtimeLinkMetricGet_eq_iff {plcp rate : ℕ} {errRate : BitVec w} (hp : plcp < 2 ^ 10) (hr : 10 ≤ rate)
    (he : ewmaErrRateRead errRate ≤ 100) :
    airtimeLinkMetricGet plcp rate errRate = linkMetric plcp rate (ewmaErrRateRead errRate) ↔
      ProductFits plcp rate (ewmaErrRateRead errRate) := by
  rw [airtimeLinkMetricGet_eq hp hr he, linkMetric, ProductFits]
  by_cases hfail : RTW_LINK_FAIL_THRESH < ewmaErrRateRead errRate
  · simp [hfail]
  · simp only [if_neg hfail, Nat.not_lt.mp hfail, true_implies]
    unfold u32
    -- a product that wraps gives less than `2 ^ 16 * 100 / 2 ^ 10`, and one that should have been `2 ^ 32` at least that
    omega

theorem ProductFits.better {plcp rate rate' failAvg failAvg' : ℕ} (h : ProductFits plcp rate failAvg)
    (hfail : failAvg ≤ RTW_LINK_FAIL_THRESH) (hr : 0 < rate) (hrate : rate ≤ rate') (havg : failAvg' ≤ failAvg) :
    ProductFits plcp rate' failAvg' := fun _ =>
  (Nat.mul_le_mul (txTime_anti plcp hr hrate) (estimatedRetx_mono havg hfail)).trans_lt (h hfail)

theorem airtimeLinkMetricGet_le_max {plcp rate : ℕ} {errRate : BitVec w} (hp : plcp < 2 ^ 10) (hr : 10 ≤ rate)
    (he : ewmaErrRateRead errRate ≤ 100) : airtimeLinkMetricGet plcp rate errRate ≤ RTW_MAX_METRIC := by
  rw [airtimeLinkMetricGet_eq hp hr he]
  split
  · exact le_rfl
  · unfold u32 RTW_MAX_METRIC; omega

/-- After a history of reports the divisors are positive, the metric is the formula's, and no link with fewer errors and a
higher rate has a higher one. -/
def AirtimeRight (plcp rate : ℕ) (history : List (BitVec w)) : Prop :=
  (errAvg history ≤ RTW_LINK_FAIL_THRESH → 0 < passShare (errAvg history)) ∧ 0 < rate ∧
    airtimeLinkMetricGet plcp rate (history.foldl ewmaErrRateAdd 0) = linkMetric plcp rate (errAvg history) ∧
    ∀ history' : List (BitVec w), (∀ val ∈ history', val.toNat ≤ 100) → ∀ rate', rate ≤ rate' →
      errAvg history' ≤ errAvg history →
      airtimeLinkMetricGet plcp rate' (history'.foldl ewmaErrRateAdd 0) ≤
        airtimeLinkMetricGet plcp rate (history.foldl ewmaErrRateAdd 0)

theorem airtime_right_iff (hw : 32 ≤ w) {history : List (BitVec w)} (hh : ∀ val ∈ history, val.toNat ≤ 100)
    {plcp rate : ℕ} (hp : plcp < 2 ^ 10) (hr : 10 ≤ rate) :
    AirtimeRight plcp rate history ↔ ProductFits plcp rate (errAvg history) := by
  have hiff : airtimeLinkMetricGet plcp rate (history.foldl ewmaErrRateAdd 0) = linkMetric plcp rate (errAvg history) ↔
      ProductFits plcp rate (errAvg history) := airtimeLinkMetricGet_eq_iff hp hr (errAvg_le hw hh)
  constructor
  · rintro ⟨-, -, h, -⟩; exact hiff.mp h
  · intro hfits
    refine ⟨fun h => by have := passShare_pos h; omega, by omega, hiff.mpr hfits, fun history' hh' rate' hrate havg => ?_⟩
    have he := errAvg_le hw hh'
    by_cases hfail : errAvg history ≤ RTW_LINK_FAIL_THRESH
    · have hfits' := hfits.better hfail (by omega) hrate havg
      rw [hiff.mpr hfits, (airtimeLinkMetricGet_eq_iff hp (hr.trans hrate) he).mpr hfits']
      exact linkMetric_mono hp hr hrate havg
    · rw [hiff.mpr hfits, linkMetric, if_pos (Nat.not_le.mp hfail)]
      exact airtimeLinkMetricGet_le_max hp (hr.trans hrate) he

theorem airtime_right_fifty : AirtimeRight 0 10 [50#32] :=
  (airtime_right_iff (by decide) (by simp) (by decide) (by decide)).mpr fun _ => by decide

/-- At 1 Mbit/s and ninety per cent of errors the product wraps: the link is taken for a better one than with fifty. -/
theorem airtime_not_right : ¬ AirtimeRight 0 10 [90#32] ∧
    airtimeLinkMetricGet 0 10 ([90#32].foldl ewmaErrRateAdd 0) = 1475 ∧ linkMetric 0 10 (errAvg [90#32]) = 7875 ∧
    airtimeLinkMetricGet 0 10 ([50#32].foldl ewmaErrRateAdd 0) = 1600 := by
  have h : airtimeLinkMetricGet 0 10 ([90#32].foldl ewmaErrRateAdd 0) = 1475 := by decide
  have h' : linkMetric 0 10 (errAvg [90#32]) = 7875 := by decide
  refine ⟨fun ⟨_, _, heq, _⟩ => ?_, h, h', by decide⟩
  rw [h, h'] at heq; exact absurd heq (by decide)

end Rtl8852cu.Mesh
