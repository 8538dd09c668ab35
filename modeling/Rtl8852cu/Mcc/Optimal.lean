import Rtl8852cu.Mcc.Calculate
import Rtl8852cu.Mcc.Search
import Rtl8852cu.Lib.Checked
import Mathlib.Algebra.Order.Ring.Int
import Mathlib.Tactic.Ring

/-!
# The minimal sum

The searches for a pattern look for the `tob_r` with the least sum of the squared differences of the four times.

The sum of the two durations is at most 1024 TU.  What fits is an interval, as all limits are linear in `tob_r`.
-/

namespace Rtl8852cu.Mcc

open Lib

/-- The sum of the six squared differences. -/
def sixSquares (a b c d : ℤ) : ℤ :=
  (a - b) * (a - b) + (a - c) * (a - c) + (a - d) * (a - d) + (b - c) * (b - c) + (b - d) * (b - d) + (c - d) * (c - d)

theorem sixSquares_nonneg (a b c d : ℤ) : 0 ≤ sixSquares a b c d := by
  have h1 := mul_self_nonneg (a - b)
  have h2 := mul_self_nonneg (a - c)
  have h3 := mul_self_nonneg (a - d)
  have h4 := mul_self_nonneg (b - c)
  have h5 := mul_self_nonneg (b - d)
  have h6 := mul_self_nonneg (c - d)
  unfold sixSquares; omega

namespace Search

variable (s : Search)

/-- `sum`, before it is stored in 16 bits. -/
def exactSum (tobR : ℤ) : ℤ := sixSquares tobR (s.toaR tobR) (s.tobA tobR) (s.toaA tobR)

/-- The loop, up to a sum that does not fit. -/
def loopChecked : ℕ → ℤ → ℤ → ℤ → Option ℤ
  | 0, _, _, cand => some cand
  | n + 1, tobR, sumLast, cand =>
    if s.toaR tobR < minRxBcnT then some cand
    else if s.ref.durLimit.enable ∧ tobR > s16 s.ref.durLimit.maxTob then
      if s.tobStops then some cand else loopChecked n (tobR + 1) sumLast cand
    else if s.ref.durLimit.enable ∧ s.toaR tobR > s16 s.ref.durLimit.maxToa then
      loopChecked n (tobR + 1) sumLast cand
    else if s.tobA tobR < earlyRxBcnT then loopChecked n (tobR + 1) sumLast cand
    else if s.toaA tobR < minRxBcnT then some cand
    else if s.ano.durLimit.enable ∧ (s.tobA tobR > s16 s.ano.durLimit.maxTob ∨
        s.toaA tobR > s16 s.ano.durLimit.maxToa) then
      loopChecked n (tobR + 1) sumLast cand
    else if 32768 ≤ s.exactSum tobR then none
    else if sumLast ≠ 0 ∧ s.exactSum tobR > sumLast then some tobR
    else loopChecked n (tobR + 1) (s.exactSum tobR) tobR

/-- `tob_r_cand` behind the loop, if all sums fit. -/
def candChecked : Option ℤ := s.loopChecked (s.mccIntvl - 5) earlyRxBcnT 0 0

/-- The least sum of all `tob_r` that fit. -/
def Optimal (tobR : ℤ) : Prop := s.Fits tobR ∧ ∀ t, s.Fits t → s.exactSum tobR ≤ s.exactSum t

variable {s}

theorem sum_eq {tobR : ℤ} (h : s.exactSum tobR < 32768) : s.sum tobR = s.exactSum tobR := by
  have hpos : 0 ≤ s.exactSum tobR := sixSquares_nonneg _ _ _ _
  show s16 (s.exactSum tobR) = s.exactSum tobR
  exact s16_eq (by omega) h

theorem loop_agrees (n : ℕ) (tobR sumLast cand : ℤ) :
    Agrees (s.loopChecked n tobR sumLast cand) (s.loop n tobR sumLast cand) := by
  induction n generalizing tobR sumLast cand with
  | zero => exact Agrees.pure cand
  | succ n ih =>
    unfold loopChecked loop
    refine Agrees.ite (fun _ => Agrees.pure cand) fun _ => ?_
    refine Agrees.ite (fun _ => Agrees.ite (fun _ => Agrees.pure cand) fun _ => ih _ _ _) fun _ => ?_
    refine Agrees.ite (fun _ => ih _ _ _) fun _ => ?_
    refine Agrees.ite (fun _ => ih _ _ _) fun _ => ?_
    refine Agrees.ite (fun _ => Agrees.pure cand) fun _ => ?_
    refine Agrees.ite (fun _ => ih _ _ _) fun _ => ?_
    by_cases hover : 32768 ≤ s.exactSum tobR
    · rw [if_pos hover]
      intro c hc
      cases hc
    · rw [if_neg hover, sum_eq (by omega)]
      exact Agrees.ite (fun _ => Agrees.pure tobR) fun _ => ih _ _ _

/-! ### The times without conversions -/

variable (s) in
/-- No conversion changes a time, with `k` the distance of the two beacons in their slots. -/
structure Exact (k : ℤ) : Prop where
  toaR : ∀ t, 5 ≤ t → t ≤ 1024 → s.toaR t = s.ref.dur - t
  tobA : ∀ t, 5 ≤ t → t ≤ 1024 → s.tobA t = t + k
  toaA : ∀ t, 5 ≤ t → t ≤ 1024 → s.toaA t = s.ano.dur - k - t

theorem s16_shift {x y : ℤ} (h : s16 x = y) (d : ℤ) (hlo : -32768 ≤ y + d) (hhi : y + d < 32768) : s16 (x + d) = y + d := by
  have hx : x = y + (65536 : ℕ) * x.bdiv 65536 := by
    have := Int.bmod_add_bdiv x 65536
    unfold s16 at h; omega
  have hxd : x + d = y + d + (65536 : ℕ) * x.bdiv 65536 := by omega
  rw [hxd]
  unfold s16
  rw [Int.add_mul_bmod_self_left]; exact Int.bmod_eq_of_le (by omega) (by omega)

theorem Fits.le {t : ℤ} (h : s.Fits t) (hsmall : s.ref.dur + s.ano.dur ≤ 1024) : 5 ≤ t ∧ t ≤ 1024 := by
  have hearly := h.earlyR
  have hlt := h.lt
  unfold earlyRxBcnT at hearly
  unfold mccIntvl at hlt; omega

theorem exact_of_fits {t₀ : ℤ} (hsmall : s.ref.dur + s.ano.dur ≤ 1024) (h : s.Fits t₀) : s.Exact (s.tobA t₀ - t₀) := by
  obtain ⟨hlo, hhi⟩ := h.le hsmall
  have hearlyA := h.earlyA
  have hminA := h.minA
  unfold earlyRxBcnT at hearlyA
  unfold minRxBcnT at hminA
  have htoaR : ∀ t, 5 ≤ t → t ≤ 1024 → s.toaR t = s.ref.dur - t := fun t h5 h1024 => by
    unfold toaR
    rw [s16_eq (x := s.ref.dur) (by omega) (by omega), s16_eq (by omega) (by omega)]
  have hano : s16 s.ano.dur = s.ano.dur := s16_eq (by omega) (by omega)
  -- the duration of the other slot bounds the place of its beacon
  have hupper : s.tobA t₀ ≤ 1024 := by
    by_contra hgt
    have hle : s.tobA t₀ < 32768 := by
      unfold tobA s16; exact Int.bmod_lt (by decide)
    unfold toaA at hminA
    rw [hano, s16_eq (by omega) (by omega)] at hminA; omega
  have htobA : ∀ t, 5 ≤ t → t ≤ 1024 → s.tobA t = t + (s.tobA t₀ - t₀) := fun t h5 h1024 => by
    have hbase : s16 (s.offset - s.toaR t₀ - s.gap) = s.tobA t₀ := rfl
    have hshift := s16_shift hbase (t - t₀) (by omega) (by omega)
    have harg : s.offset - s.toaR t - s.gap = s.offset - s.toaR t₀ - s.gap + (t - t₀) := by
      rw [htoaR t h5 h1024, htoaR t₀ hlo hhi]; omega
    show s16 (s.offset - s.toaR t - s.gap) = _
    rw [harg, hshift]; omega
  refine ⟨htoaR, htobA, fun t h5 h1024 => ?_⟩
  have ht := htobA t h5 h1024
  unfold toaA
  rw [hano, ht, s16_eq (by omega) (by omega)]; omega

/-! ### The parabola -/

variable {k t u v : ℤ}

theorem exactSum_sub (he : s.Exact k) (hu : 5 ≤ u ∧ u ≤ 1024) (hv : 5 ≤ v ∧ v ≤ 1024) :
    s.exactSum u - s.exactSum v = 8 * (u - v) * (2 * (u + v) - (s.ref.dur + s.ano.dur - 2 * k)) := by
  unfold exactSum sixSquares
  rw [he.toaR u hu.1 hu.2, he.tobA u hu.1 hu.2, he.toaA u hu.1 hu.2, he.toaR v hv.1 hv.2, he.tobA v hv.1 hv.2,
    he.toaA v hv.1 hv.2]
  ring

theorem le_of_rise (he : s.Exact k) (ht : 5 ≤ t) (htu : t + 1 ≤ u) (hu : u ≤ 1024)
    (hrise : s.exactSum t < s.exactSum (t + 1)) : s.exactSum (t + 1) ≤ s.exactSum u := by
  have hstep := exactSum_sub he (u := t + 1) (v := t) (by omega) (by omega)
  have hrest := exactSum_sub he (u := u) (v := t + 1) (by omega) (by omega)
  have hpos : 0 ≤ 8 * (u - (t + 1)) * (2 * (u + (t + 1)) - (s.ref.dur + s.ano.dur - 2 * k)) :=
    mul_nonneg (by omega) (by omega)
  omega

theorem le_of_fall (he : s.Exact k) (hv : 5 ≤ v) (hvt : v ≤ t) (ht : t + 1 ≤ 1024)
    (hfall : s.exactSum (t + 1) ≤ s.exactSum t) : s.exactSum (t + 1) ≤ s.exactSum v := by
  have hstep := exactSum_sub he (u := t + 1) (v := t) (by omega) (by omega)
  have hrest := exactSum_sub he (u := t + 1) (v := v) (by omega) (by omega)
  have hneg : 8 * (t + 1 - v) * (2 * (t + 1 + v) - (s.ref.dur + s.ano.dur - 2 * k)) ≤ 0 :=
    mul_nonpos_of_nonneg_of_nonpos (by omega) (by omega)
  omega

variable (s) in
structure Window (k t : ℤ) : Prop where
  early : 5 ≤ t
  minR : t + 10 ≤ s.ref.dur
  limR : s.ref.durLimit.enable → t ≤ s16 s.ref.durLimit.maxTob ∧ s.ref.dur - t ≤ s16 s.ref.durLimit.maxToa
  earlyA : 5 ≤ t + k
  minA : t + k + 10 ≤ s.ano.dur
  limA : s.ano.durLimit.enable → t + k ≤ s16 s.ano.durLimit.maxTob ∧ s.ano.dur - k - t ≤ s16 s.ano.durLimit.maxToa

theorem Window.le (h : s.Window k t) (hsmall : s.ref.dur + s.ano.dur ≤ 1024) : t ≤ 1024 := by
  have := h.minR
  omega

theorem fits_iff (he : s.Exact k) (hsmall : s.ref.dur + s.ano.dur ≤ 1024) : s.Fits t ↔ s.Window k t := by
  constructor
  · intro h
    obtain ⟨h5, h1024⟩ := h.le hsmall
    have hminR := h.minR
    have hlimR := h.limR
    have hearlyA := h.earlyA
    have hminA := h.minA
    have hlimA := h.limA
    rw [he.toaR t h5 h1024] at hminR hlimR
    rw [he.tobA t h5 h1024] at hearlyA hlimA
    rw [he.toaA t h5 h1024] at hminA hlimA
    unfold minRxBcnT at hminR hminA; exact ⟨h5, by omega, hlimR, hearlyA, by omega, hlimA⟩
  · intro h
    have h1024 := h.le hsmall
    have hminR := h.minR
    have hminA := h.minA
    refine ⟨h.early, ?_, ?_, fun hen => ?_, ?_, ?_, fun hen => ?_⟩
    · unfold mccIntvl
      rw [Nat.mod_eq_of_lt (by omega)]; omega
    · rw [he.toaR t h.early h1024]
      unfold minRxBcnT; omega
    · rw [he.toaR t h.early h1024]; exact h.limR hen
    · rw [he.tobA t h.early h1024]; exact h.earlyA
    · rw [he.toaA t h.early h1024]
      unfold minRxBcnT; omega
    · rw [he.tobA t h.early h1024, he.toaA t h.early h1024]; exact h.limA hen

theorem Window.between (ht : s.Window k t) (hv : s.Window k v) (htu : t ≤ u) (huv : u ≤ v) : s.Window k u := by
  have h1 := ht.early
  have h2 := hv.minR
  have h3 := ht.earlyA
  have h4 := hv.minA
  refine ⟨by omega, by omega, fun hen => ?_, by omega, by omega, fun hen => ?_⟩
  · have := (ht.limR hen).2
    have := (hv.limR hen).1
    omega
  · have := (ht.limA hen).2
    have := (hv.limA hen).1
    omega

/-! ### The loop -/

variable {n : ℕ} {sumLast cand c : ℤ}

theorem loopChecked_succ (he : s.Exact k) (h5 : 5 ≤ t) (h1024 : t ≤ 1024) : s.loopChecked (n + 1) t sumLast cand =
    if s.ref.dur - t < 10 then some cand
    else if s.ref.durLimit.enable ∧ t > s16 s.ref.durLimit.maxTob then
      if s.tobStops then some cand else s.loopChecked n (t + 1) sumLast cand
    else if s.ref.durLimit.enable ∧ s.ref.dur - t > s16 s.ref.durLimit.maxToa then
      s.loopChecked n (t + 1) sumLast cand
    else if t + k < 5 then s.loopChecked n (t + 1) sumLast cand
    else if s.ano.dur - k - t < 10 then some cand
    else if s.ano.durLimit.enable ∧ (t + k > s16 s.ano.durLimit.maxTob ∨
        s.ano.dur - k - t > s16 s.ano.durLimit.maxToa) then
      s.loopChecked n (t + 1) sumLast cand
    else if 32768 ≤ s.exactSum t then none
    else if sumLast ≠ 0 ∧ s.exactSum t > sumLast then some t
    else s.loopChecked n (t + 1) (s.exactSum t) t := by
  conv_lhs => unfold loopChecked
  rw [he.toaR t h5 h1024, he.tobA t h5 h1024, he.toaA t h5 h1024]; rfl

theorem loopChecked_fits (he : s.Exact k) (hsmall : s.ref.dur + s.ano.dur ≤ 1024) (ht : s.Window k t) :
    s.loopChecked (n + 1) t sumLast cand = if 32768 ≤ s.exactSum t then none
      else if sumLast ≠ 0 ∧ s.exactSum t > sumLast then some t
      else s.loopChecked n (t + 1) (s.exactSum t) t := by
  have hminR := ht.minR
  have hearlyA := ht.earlyA
  have hminA := ht.minA
  rw [loopChecked_succ he ht.early (ht.le hsmall), if_neg (by omega), if_neg fun h => ?_, if_neg fun h => ?_,
    if_neg (by omega), if_neg (by omega), if_neg fun h => ?_]
  · have := (ht.limA h.1).1
    have := (ht.limA h.1).2
    omega
  · have := (ht.limR h.1).2; omega
  · have := (ht.limR h.1).1; omega

theorem loopChecked_skip (he : s.Exact k) (hsmall : s.ref.dur + s.ano.dur ≤ 1024) (h5 : 5 ≤ t) (hnot : ¬ s.Window k t)
    (hu : s.Window k u) (htu : t < u) :
    s.loopChecked (n + 1) t sumLast cand = s.loopChecked n (t + 1) sumLast cand := by
  have hminR := hu.minR
  have hminA := hu.minA
  rw [loopChecked_succ he h5 (by omega), if_neg (by omega), if_neg fun h => ?_]
  · split
    · rfl
    rename_i htoaR
    split
    · rfl
    rename_i htobA
    rw [if_neg (by omega)]
    split
    · rfl
    rename_i hlimA
    -- otherwise this one fits
    · refine absurd ⟨h5, by omega, fun hen => ⟨?_, ?_⟩, by omega, by omega, fun hen => ⟨?_, ?_⟩⟩ hnot
      · have := (hu.limR hen).1; omega
      · exact Int.not_lt.mp fun hgt => htoaR ⟨hen, hgt⟩
      · exact Int.not_lt.mp fun hgt => hlimA ⟨hen, .inl hgt⟩
      · exact Int.not_lt.mp fun hgt => hlimA ⟨hen, .inr hgt⟩
  · have := (hu.limR h.1).1; omega

theorem loopChecked_end (he : s.Exact k) (h5 : 5 ≤ t) (hn : t + n ≤ 1024) (hnot : ∀ u, t ≤ u → ¬ s.Window k u) :
    s.loopChecked n t sumLast cand = some cand := by
  induction n generalizing t with
  | zero => rfl
  | succ n ih =>
    have hnext : s.loopChecked n (t + 1) sumLast cand = some cand :=
      ih (by omega) (by omega) fun u hu => hnot u (by omega)
    rw [loopChecked_succ he h5 (by omega)]
    split
    · rfl
    rename_i hminR
    split
    · split
      · rfl
      · exact hnext
    rename_i htobR
    split
    · exact hnext
    rename_i htoaR
    split
    · exact hnext
    rename_i hearlyA
    split
    · rfl
    rename_i hminA
    split
    · exact hnext
    rename_i hlimA
    refine absurd ⟨h5, by omega, fun hen => ⟨?_, ?_⟩, by omega, by omega, fun hen => ⟨?_, ?_⟩⟩ (hnot t le_rfl)
    · exact Int.not_lt.mp fun hgt => htobR ⟨hen, hgt⟩
    · exact Int.not_lt.mp fun hgt => htoaR ⟨hen, hgt⟩
    · exact Int.not_lt.mp fun hgt => hlimA ⟨hen, .inl hgt⟩
    · exact Int.not_lt.mp fun hgt => hlimA ⟨hen, .inr hgt⟩

variable (s) in
def SumsFit : Prop := ∀ t, s.Fits t → s.exactSum t < 32768

variable (s) in
/-- The sum does not rise from one that fits to the next. -/
def NeverRises : Prop := ∀ t, s.Fits t → s.Fits (t + 1) → s.exactSum (t + 1) ≤ s.exactSum t

theorem start_of_skip {β : Type*} {W : ℤ → Prop} {F : ℕ → ℤ → β} {N a : ℤ} (hN : ∀ v, W v → v < N) (hu : W u)
    (hskip : ∀ n t, a ≤ t → ¬ W t → t < u → F (n + 1) t = F n (t + 1)) (ha : a ≤ t) (hn : t + n = N)
    (hfirst : ∀ v, W v → t ≤ v) :
    ∃ (lo : ℤ) (m : ℕ), W lo ∧ (∀ v, W v → lo ≤ v) ∧ lo + m = N ∧ F n t = F m lo := by
  induction n generalizing t with
  | zero =>
    have hle := hfirst u hu
    have hlt := hN u hu
    omega
  | succ n ih =>
    by_cases ht : W t
    · exact ⟨t, n + 1, ht, hfirst, hn, rfl⟩
    · have hlt : ∀ v, W v → t < v := fun v hv => by
        rcases Int.lt_or_eq_of_le (hfirst v hv) with hlt | rfl
        · exact hlt
        · exact absurd hv ht
      obtain ⟨lo, m, hlo, hmin, hm, heq⟩ := ih (by omega) (by omega) fun v hv => Int.add_one_le_of_lt (hlt v hv)
      exact ⟨lo, m, hlo, hmin, hm, (hskip n t ha ht (hlt u hu)).trans heq⟩

theorem Window.lt (h : s.Window k t) : t < s.ref.dur + s.ano.dur := by
  have := h.minR
  omega

theorem not_window_behind (ht : s.Window k t) (hnot : ¬ s.Window k (t + 1)) : ∀ u, t + 1 ≤ u → ¬ s.Window k u :=
  fun _ hu hw => hnot (ht.between hw (by omega) hu)

section

variable (he : s.Exact k) (hsmall : s.ref.dur + s.ano.dur ≤ 1024)

include he hsmall

theorem loopChecked_ge (ht : s.Window k t)
    (hn : t + n = s.ref.dur + s.ano.dur) (h : s.loopChecked n t sumLast cand = some c) : s.Window k c ∧ t ≤ c := by
  induction n generalizing t sumLast cand with
  | zero =>
    have hminR := ht.minR
    omega
  | succ n ih =>
    rw [loopChecked_fits he hsmall ht] at h
    split at h
    · cases h
    split at h
    · cases h; exact ⟨ht, le_rfl⟩
    · by_cases hnext : s.Window k (t + 1)
      · obtain ⟨hc, hle⟩ := ih hnext (by omega) h; exact ⟨hc, by omega⟩
      · rw [loopChecked_end he (by have := ht.early; omega) (by omega) (not_window_behind ht hnext)] at h
        cases h
        exact ⟨ht, le_rfl⟩

theorem loopChecked_last (ht : s.Window k t)
    (hn : t + n = s.ref.dur + s.ano.dur) (hfit : ∀ u, s.Window k u → s.exactSum u < 32768)
    (hfall : ∀ u, s.Window k u → s.Window k (u + 1) → s.exactSum (u + 1) ≤ s.exactSum u)
    (hlast : sumLast = 0 ∨ s.exactSum t ≤ sumLast) :
    ∃ c, s.loopChecked n t sumLast cand = some c ∧ s.Window k c ∧ ∀ u, s.Window k u → u ≤ c := by
  induction n generalizing t sumLast cand with
  | zero =>
    have hminR := ht.minR
    omega
  | succ n ih =>
    have hsum := hfit t ht
    rw [loopChecked_fits he hsmall ht, if_neg (by omega), if_neg (by omega)]
    by_cases hnext : s.Window k (t + 1)
    · exact ih hnext (by omega) (.inr (hfall t ht hnext))
    · have hnone := not_window_behind ht hnext
      rw [loopChecked_end he (by have := ht.early; omega) (by omega) hnone]
      refine ⟨t, rfl, ht, fun u hu => ?_⟩
      by_contra hgt
      exact hnone u (by omega) hu

theorem optimal_last (hc : s.Window k c)
    (hlast : ∀ u, s.Window k u → u ≤ c) (hfall : ∀ u, s.Window k u → s.Window k (u + 1) → s.exactSum (u + 1) ≤ s.exactSum u)
    (hu : s.Window k u) : s.exactSum c ≤ s.exactSum u := by
  rcases Int.lt_or_eq_of_le (hlast u hu) with hlt | rfl
  · have hprev : s.Window k (c - 1) := hu.between hc (by omega) (by omega)
    have hstep := hfall (c - 1) hprev (by rwa [Int.sub_add_cancel])
    have h1024 := hc.le hsmall
    have hle := le_of_fall (t := c - 1) he hu.early (by omega) (by omega) hstep
    rwa [Int.sub_add_cancel] at hle
  · exact le_rfl

theorem loopChecked_optimal (ht : s.Window k t)
    (hn : t + n = s.ref.dur + s.ano.dur) (hlast : sumLast = 0 ∨ s.Window k (t - 1) ∧ sumLast = s.exactSum (t - 1))
    (h : s.loopChecked n t sumLast cand = some c) (hopt : ∀ u, s.Window k u → s.exactSum c ≤ s.exactSum u) :
    ∀ u, s.Window k u → t ≤ u → s.exactSum u < 32768 ∧ (s.Window k (u + 1) → s.exactSum (u + 1) ≤ s.exactSum u) := by
  induction n generalizing t sumLast cand with
  | zero =>
    have hminR := ht.minR
    omega
  | succ n ih =>
    rw [loopChecked_fits he hsmall ht] at h
    split at h
    · cases h
    rename_i hsum
    split at h
    · rename_i hrise
      cases h
      rcases hlast with hzero | ⟨hprev, rfl⟩
      · exact absurd hzero hrise.1
      · have := hopt (c - 1) hprev; omega
    · by_cases hnext : s.Window k (t + 1)
      · obtain ⟨hc, hle⟩ := loopChecked_ge he hsmall hnext (by omega) h
        have hfall : s.exactSum (t + 1) ≤ s.exactSum t := by
          by_contra hrise
          have hbehind := le_of_rise he ht.early hle (hc.le hsmall) (Int.not_le.mp hrise)
          have := hopt t ht
          omega
        have hrest := ih hnext (by omega) (.inr (by rw [Int.add_sub_cancel]; exact ⟨ht, rfl⟩)) h
        intro u hu htu
        rcases Int.lt_or_eq_of_le htu with hlt | rfl
        · exact hrest u hu (by omega)
        · exact ⟨by omega, fun _ => hfall⟩
      · intro u hu htu
        rcases Int.lt_or_eq_of_le htu with hlt | rfl
        · exact absurd hu (not_window_behind ht hnext u (by omega))
        · exact ⟨by omega, fun hw => absurd hw hnext⟩

end

theorem mccIntvl_eq (hsmall : s.ref.dur + s.ano.dur ≤ 1024) : s.mccIntvl = s.ref.dur + s.ano.dur :=
  Nat.mod_eq_of_lt (by omega)

theorem cand_optimal_iff (hsmall : s.ref.dur + s.ano.dur ≤ 1024) (hfound : ∃ t, s.Fits t) :
    (∃ c, s.candChecked = some c ∧ s.cand = c ∧ s.Optimal c) ↔ s.SumsFit ∧ s.NeverRises := by
  obtain ⟨t₀, ht₀⟩ := hfound
  have he := exact_of_fits hsmall ht₀
  generalize s.tobA t₀ - t₀ = k at he
  have hiff : ∀ t, s.Fits t ↔ s.Window k t := fun t => fits_iff he hsmall
  have hw₀ := (hiff t₀).mp ht₀
  have hminR := hw₀.minR
  have hearly := hw₀.early
  obtain ⟨lo, m, hlo, hfirst, hm, hstart⟩ := start_of_skip (F := fun n t => s.loopChecked n t 0 0) (n := s.mccIntvl - 5)
    (fun v hv => Window.lt hv) hw₀ (fun n t h5 hnot hlt => loopChecked_skip he hsmall h5 hnot hw₀ hlt) le_rfl
    (by rw [mccIntvl_eq hsmall]; omega) (fun v hv => hv.early)
  have hcand : s.candChecked = s.loopChecked m lo 0 0 := hstart
  constructor
  · rintro ⟨c, hc, -, hopt⟩
    rw [hcand] at hc
    have hall := loopChecked_optimal he hsmall hlo hm (.inl rfl) hc fun u hu => hopt.2 u ((hiff u).mpr hu)
    exact ⟨fun t ht => (hall t ((hiff t).mp ht) (hfirst t ((hiff t).mp ht))).1,
      fun t ht ht' => (hall t ((hiff t).mp ht) (hfirst t ((hiff t).mp ht))).2 ((hiff _).mp ht')⟩
  · rintro ⟨hfit, hfall⟩
    have hfall' : ∀ u, s.Window k u → s.Window k (u + 1) → s.exactSum (u + 1) ≤ s.exactSum u :=
      fun u hu hu' => hfall u ((hiff u).mpr hu) ((hiff _).mpr hu')
    obtain ⟨c, hc, hcw, hlast⟩ := loopChecked_last he hsmall hlo hm (fun u hu => hfit u ((hiff u).mpr hu)) hfall'
      (.inl rfl)
    rw [← hcand] at hc
    exact ⟨c, hc, loop_agrees _ _ _ _ c hc, (hiff c).mpr hcw, fun t ht =>
      optimal_last he hsmall hcw hlast hfall' ((hiff t).mp ht)⟩

/-! ### Two clients -/

variable (s) in
/-- The loop of two clients, up to a sum that does not fit: `tob_r` behind it. -/
def clientsLoopChecked : ℕ → ℤ → ℤ → Option ℤ
  | 0, tobR, _ => some tobR
  | n + 1, tobR, sumLast =>
    if s.toaR tobR < minRxBcnT then some tobR
    else if s.tobA tobR < earlyRxBcnT then clientsLoopChecked n (tobR + 1) sumLast
    else if s.toaA tobR < minRxBcnT then some tobR
    else if 32768 ≤ s.exactSum tobR then none
    else if sumLast ≠ 0 ∧ s.exactSum tobR > sumLast then some tobR
    else clientsLoopChecked n (tobR + 1) (s.exactSum tobR)

variable (s) in
structure Unlimited : Prop where
  ref : s.ref.durLimit.enable = false
  ano : s.ano.durLimit.enable = false

theorem clientsLoopChecked_succ (he : s.Exact k) (h5 : 5 ≤ t) (h1024 : t ≤ 1024) :
    s.clientsLoopChecked (n + 1) t sumLast = if s.ref.dur - t < 10 then some t
      else if t + k < 5 then s.clientsLoopChecked n (t + 1) sumLast
      else if s.ano.dur - k - t < 10 then some t
      else if 32768 ≤ s.exactSum t then none
      else if sumLast ≠ 0 ∧ s.exactSum t > sumLast then some t
      else s.clientsLoopChecked n (t + 1) (s.exactSum t) := by
  conv_lhs => unfold clientsLoopChecked
  rw [he.toaR t h5 h1024, he.tobA t h5 h1024, he.toaA t h5 h1024]; rfl

theorem window_of_unlimited (hfree : s.Unlimited) (h5 : 5 ≤ t) (hR : t + 10 ≤ s.ref.dur) (hb : 5 ≤ t + k)
    (hA : t + k + 10 ≤ s.ano.dur) : s.Window k t := by
  refine ⟨h5, hR, fun hen => ?_, hb, hA, fun hen => ?_⟩
  · rw [hfree.ref] at hen; cases hen
  · rw [hfree.ano] at hen; cases hen

theorem clientsLoopChecked_fits (he : s.Exact k) (hsmall : s.ref.dur + s.ano.dur ≤ 1024) (ht : s.Window k t) :
    s.clientsLoopChecked (n + 1) t sumLast = if 32768 ≤ s.exactSum t then none
      else if sumLast ≠ 0 ∧ s.exactSum t > sumLast then some t
      else s.clientsLoopChecked n (t + 1) (s.exactSum t) := by
  have hminR := ht.minR
  have hearlyA := ht.earlyA
  have hminA := ht.minA
  rw [clientsLoopChecked_succ he ht.early (ht.le hsmall), if_neg (by omega), if_neg (by omega), if_neg (by omega)]

theorem clientsLoopChecked_end (he : s.Exact k) (hsmall : s.ref.dur + s.ano.dur ≤ 1024) (hfree : s.Unlimited)
    (ht : s.Window k t) (hnot : ¬ s.Window k (t + 1)) : s.clientsLoopChecked n (t + 1) sumLast = some (t + 1) := by
  cases n with
  | zero => rfl
  | succ n =>
    have hearly := ht.early
    have hminR := ht.minR
    have hearlyA := ht.earlyA
    rw [clientsLoopChecked_succ he (by omega) (by omega)]
    split
    · rfl
    rename_i hR
    rw [if_neg (by omega)]
    split
    · rfl
    rename_i hA
    exact absurd (window_of_unlimited hfree (by omega) (by omega) (by omega) (by omega)) hnot

theorem clientsLoopChecked_skip (he : s.Exact k) (hfree : s.Unlimited) (hsmall : s.ref.dur + s.ano.dur ≤ 1024)
    (h5 : 5 ≤ t) (hnot : ¬ s.Window k t) (hu : s.Window k u) (htu : t < u) :
    s.clientsLoopChecked (n + 1) t sumLast = s.clientsLoopChecked n (t + 1) sumLast := by
  have hminR := hu.minR
  have hminA := hu.minA
  rw [clientsLoopChecked_succ he h5 (by omega), if_neg (by omega)]
  split
  · rfl
  rename_i htobA
  exact absurd (window_of_unlimited hfree h5 (by omega) (by omega) (by omega)) hnot

theorem clientsLoopChecked_ge (he : s.Exact k) (hsmall : s.ref.dur + s.ano.dur ≤ 1024) (hfree : s.Unlimited)
    (ht : s.Window k t) (hn : t + n = s.ref.dur + s.ano.dur) (h : s.clientsLoopChecked n t sumLast = some c) :
    t ≤ c ∧ (sumLast = 0 → t + 1 ≤ c) := by
  induction n generalizing t sumLast with
  | zero =>
    have hminR := ht.minR
    omega
  | succ n ih =>
    rw [clientsLoopChecked_fits he hsmall ht] at h
    split at h
    · cases h
    split at h
    · rename_i hrise
      cases h
      exact ⟨le_rfl, fun hzero => absurd hzero hrise.1⟩
    · by_cases hnext : s.Window k (t + 1)
      · obtain ⟨hle, -⟩ := ih hnext (by omega) h; exact ⟨by omega, fun _ => hle⟩
      · rw [clientsLoopChecked_end he hsmall hfree ht hnext] at h
        cases h
        exact ⟨by omega, fun _ => le_rfl⟩

variable (s) in
/-- The loop comes to this one: the sum has not risen before it. -/
def Computed (t : ℤ) : Prop := ∀ u, s.Fits u → s.Fits (u + 1) → u + 1 < t → s.exactSum (u + 1) ≤ s.exactSum u

variable (s) in
/-- The sums that the loop computes fit into 16 bits. -/
def ComputedFit : Prop := ∀ t, s.Fits t → s.Computed t → s.exactSum t < 32768

variable (s) in
/-- The sum is 0 at most at the last that fits: a last sum of 0 counts as none. -/
def NeverZero : Prop := ∀ t, s.Fits t → s.Fits (t + 1) → s.exactSum t ≠ 0

theorem sixSquares_eq_zero {a b x y : ℤ} (h : sixSquares a b x y = 0) : a = b := by
  have h1 := mul_self_nonneg (a - b)
  have h2 := mul_self_nonneg (a - x)
  have h3 := mul_self_nonneg (a - y)
  have h4 := mul_self_nonneg (b - x)
  have h5 := mul_self_nonneg (b - y)
  have h6 := mul_self_nonneg (x - y)
  unfold sixSquares at h
  have hzero : (a - b) * (a - b) = 0 := by omega
  have := mul_self_eq_zero.mp hzero
  omega

theorem exactSum_succ_pos (he : s.Exact k) (h5 : 5 ≤ t) (h1024 : t + 1 ≤ 1024) (hzero : s.exactSum t = 0) :
    s.exactSum t < s.exactSum (t + 1) := by
  have hnonneg : 0 ≤ s.exactSum (t + 1) := sixSquares_nonneg _ _ _ _
  have hne : s.exactSum (t + 1) ≠ 0 := fun hnext => by
    have h1 := sixSquares_eq_zero hzero
    have h2 := sixSquares_eq_zero hnext
    rw [he.toaR t h5 (by omega)] at h1
    rw [he.toaR (t + 1) (by omega) h1024] at h2; omega
  omega

section

variable (he : s.Exact k) (hsmall : s.ref.dur + s.ano.dur ≤ 1024) (hfree : s.Unlimited) (ht : s.Window k t)
  (hn : t + n = s.ref.dur + s.ano.dur)

include he hsmall hfree ht hn

theorem clientsLoopChecked_selects (hcomputed : s.Computed t) (hfit : s.ComputedFit) (hzero : s.NeverZero)
    (hlast : (sumLast = 0 ∧ ∀ v, s.Window k v → t ≤ v) ∨ s.Window k (t - 1) ∧ sumLast = s.exactSum (t - 1)) :
    ∃ e, s.clientsLoopChecked n t sumLast = some e ∧ s.Window k (e - 1) ∧
      ∀ u, s.Window k u → s.exactSum (e - 1) ≤ s.exactSum u := by
  have hiff : ∀ t, s.Fits t ↔ s.Window k t := fun t => fits_iff he hsmall
  induction n generalizing t sumLast with
  | zero =>
    have hminR := ht.minR
    omega
  | succ n ih =>
    have hsum := hfit t ((hiff t).mpr ht) hcomputed
    rw [clientsLoopChecked_fits he hsmall ht, if_neg (by omega)]
    by_cases hrise : sumLast ≠ 0 ∧ s.exactSum t > sumLast
    · rw [if_pos hrise]
      rcases hlast with ⟨hz, -⟩ | ⟨hprev, rfl⟩
      · exact absurd hz hrise.1
      refine ⟨t, rfl, hprev, fun u hu => ?_⟩
      have h1024 := ht.le hsmall
      rcases Int.lt_trichotomy u (t - 1) with hlt | rfl | hgt
      · have hpp : s.Window k (t - 2) := hu.between hprev (by omega) (by omega)
        have hback : t - 2 + 1 = t - 1 := by omega
        have hstep := hcomputed (t - 2) ((hiff _).mpr hpp) (by rw [hback]; exact (hiff _).mpr hprev) (by omega)
        have hle := le_of_fall (t := t - 2) he hu.early (by omega) (by omega) hstep
        rwa [hback] at hle
      · exact le_rfl
      · have hback : t - 1 + 1 = t := by omega
        have hstep : s.exactSum (t - 1) < s.exactSum (t - 1 + 1) := by
          rw [hback]; exact hrise.2
        have hle := le_of_rise (t := t - 1) he hprev.early (by omega) (hu.le hsmall) hstep
        omega
    · rw [if_neg hrise]
      have hfall : s.Window k (t - 1) → s.exactSum t ≤ s.exactSum (t - 1) := fun hprev => by
        rcases hlast with ⟨-, hfirst⟩ | ⟨-, rfl⟩
        · have := hfirst (t - 1) hprev; omega
        · have hback : t - 1 + 1 = t := by omega
          have hne := hzero (t - 1) ((hiff _).mpr hprev) (by rw [hback]; exact (hiff _).mpr ht)
          by_contra hgt
          exact hrise ⟨hne, by omega⟩
      have hcomputed' : s.Computed (t + 1) := fun u hu hu' hlt => by
        rcases Int.lt_or_eq_of_le (show u + 1 ≤ t by omega) with hlt | rfl
        · exact hcomputed u hu hu' hlt
        · rw [Int.add_sub_cancel] at hfall; exact hfall ((hiff u).mp hu)
      by_cases hnext : s.Window k (t + 1)
      · exact ih hnext (by omega) hcomputed' (.inr (by rw [Int.add_sub_cancel]; exact ⟨ht, rfl⟩))
      · rw [clientsLoopChecked_end he hsmall hfree ht hnext]
        refine ⟨t + 1, rfl, by rwa [Int.add_sub_cancel], fun u hu => ?_⟩
        rw [Int.add_sub_cancel]
        refine optimal_last he hsmall ht (fun v hv => ?_) (fun v hv hv' => ?_) hu
        · by_contra hgt; exact not_window_behind ht hnext v (by omega) hv
        · refine hcomputed' v ((hiff v).mpr hv) ((hiff _).mpr hv') ?_
          by_contra hge
          exact not_window_behind ht hnext (v + 1) (by omega) hv'

theorem clientsLoopChecked_optimal (hlast : sumLast = 0 ∨ s.Window k (t - 1) ∧ sumLast = s.exactSum (t - 1))
    (h : s.clientsLoopChecked n t sumLast = some c) (hc : s.Window k (c - 1))
    (hopt : ∀ u, s.Window k u → s.exactSum (c - 1) ≤ s.exactSum u) :
    ∀ u, s.Window k u → t ≤ u → (s.Computed u → s.exactSum u < 32768) ∧ (s.Window k (u + 1) → s.exactSum u ≠ 0) := by
  have hiff : ∀ t, s.Fits t ↔ s.Window k t := fun t => fits_iff he hsmall
  induction n generalizing t sumLast with
  | zero =>
    have hminR := ht.minR
    omega
  | succ n ih =>
    rw [clientsLoopChecked_fits he hsmall ht] at h
    split at h
    · cases h
    rename_i hsum
    split at h
    · rename_i hrise
      cases h
      rcases hlast with hz | ⟨hprev, rfl⟩
      · exact absurd hz hrise.1
      have hback : c - 1 + 1 = c := by omega
      have hstep : s.exactSum (c - 1) < s.exactSum (c - 1 + 1) := by
        rw [hback]; exact hrise.2
      have hnonneg : 0 ≤ s.exactSum (c - 1) := sixSquares_nonneg _ _ _ _
      intro u hu hcu
      have hle := le_of_rise (t := c - 1) he hprev.early (by omega) (hu.le hsmall) hstep
      refine ⟨fun hcomputed => ?_, fun _ => by omega⟩
      rcases Int.lt_or_eq_of_le hcu with hlt | rfl
      · have := hcomputed (c - 1) ((hiff _).mpr hprev) (by rw [hback]; exact (hiff _).mpr ht) (by omega)
        omega
      · omega
    · by_cases hnext : s.Window k (t + 1)
      · have hrest := ih hnext (by omega) (.inr (by rw [Int.add_sub_cancel]; exact ⟨ht, rfl⟩)) h
        intro u hu htu
        rcases Int.lt_or_eq_of_le htu with hlt | rfl
        · exact hrest u hu (by omega)
        · refine ⟨fun _ => by omega, fun _ hz => ?_⟩
          -- the loop goes on by two, to where the sum is not 0 again
          have hgo := (clientsLoopChecked_ge he hsmall hfree hnext (by omega) h).2 hz
          have hpos := exactSum_succ_pos he ht.early (hnext.le hsmall) hz
          have hle := le_of_rise he ht.early (show t + 1 ≤ c - 1 by omega) (hc.le hsmall) hpos
          have := hopt t ht
          omega
      · intro u hu htu
        rcases Int.lt_or_eq_of_le htu with hlt | rfl
        · exact absurd hu (not_window_behind ht hnext u (by omega))
        · exact ⟨fun _ => by omega, fun hw => absurd hw hnext⟩

end

theorem clientsLoop_optimal_iff (hfree : s.Unlimited) (hsmall : s.ref.dur + s.ano.dur ≤ 1024) (hfound : ∃ t, s.Fits t) :
    (∃ e, s.clientsLoopChecked (s.mccIntvl - 5) earlyRxBcnT 0 = some e ∧ s.Optimal (e - 1)) ↔
      s.ComputedFit ∧ s.NeverZero := by
  obtain ⟨t₀, ht₀⟩ := hfound
  have he := exact_of_fits hsmall ht₀
  generalize s.tobA t₀ - t₀ = k at he
  have hiff : ∀ t, s.Fits t ↔ s.Window k t := fun t => fits_iff he hsmall
  have hw₀ := (hiff t₀).mp ht₀
  have hminR := hw₀.minR
  have hearly := hw₀.early
  obtain ⟨lo, m, hlo, hfirst, hm, hstart⟩ := start_of_skip (F := fun n t => s.clientsLoopChecked n t 0) (n := s.mccIntvl - 5)
    (fun v hv => Window.lt hv) hw₀ (fun n t h5 hnot hlt => clientsLoopChecked_skip he hfree hsmall h5 hnot hw₀ hlt) le_rfl
    (by rw [mccIntvl_eq hsmall]; omega) (fun v hv => hv.early)
  have hrun : s.clientsLoopChecked (s.mccIntvl - 5) earlyRxBcnT 0 = s.clientsLoopChecked m lo 0 := hstart
  rw [hrun]
  constructor
  · rintro ⟨e, hrun, hopt⟩
    have hall := clientsLoopChecked_optimal he hsmall hfree hlo hm (.inl rfl) hrun ((hiff _).mp hopt.1)
      fun u hu => hopt.2 u ((hiff u).mpr hu)
    exact ⟨fun t ht => (hall t ((hiff t).mp ht) (hfirst t ((hiff t).mp ht))).1,
      fun t ht ht' => (hall t ((hiff t).mp ht) (hfirst t ((hiff t).mp ht))).2 ((hiff _).mp ht')⟩
  · rintro ⟨hfit, hzero⟩
    have hcomputed : s.Computed lo := fun u hu _ hlt => by
      have := hfirst u ((hiff u).mp hu)
      omega
    obtain ⟨e, he', hew, hopt⟩ := clientsLoopChecked_selects he hsmall hfree hlo hm hcomputed hfit hzero
      (.inl ⟨rfl, hfirst⟩)
    exact ⟨e, he', (hiff _).mpr hew, fun t ht => hopt t ((hiff t).mp ht)⟩

end Search

/-! ### The functions -/

/-- The search for a pattern of two clients. -/
def clientsSearch (refDur anoDur : ℕ) (offset : ℤ) : Search :=
  ⟨false, ⟨refDur, ⟨false, 0, 0, 0⟩⟩, ⟨anoDur, ⟨false, 0, 0, 0⟩⟩, offset, 0⟩

theorem clientsLoop_agrees (refDur anoDur : ℕ) (offset : ℤ) (n : ℕ) (tobR sumLast : ℤ) :
    Agrees ((clientsSearch refDur anoDur offset).clientsLoopChecked n tobR sumLast)
      (clientsLoop (s16 refDur) (s16 anoDur) offset n tobR sumLast) := by
  induction n generalizing tobR sumLast with
  | zero => exact Agrees.pure tobR
  | succ n ih =>
    have htobA : s16 (offset - s16 (s16 refDur - tobR)) = (clientsSearch refDur anoDur offset).tobA tobR := by
      show _ = s16 (offset - s16 (s16 refDur - tobR) - 0)
      rw [Int.sub_zero]
    unfold Search.clientsLoopChecked clientsLoop
    dsimp only
    rw [htobA]
    refine Agrees.ite (fun _ => Agrees.pure tobR) fun _ => ?_
    refine Agrees.ite (fun _ => ih _ _) fun _ => ?_
    refine Agrees.ite (fun _ => Agrees.pure tobR) fun _ => ?_
    by_cases hover : 32768 ≤ (clientsSearch refDur anoDur offset).exactSum tobR
    · rw [if_pos hover]; exact nofun
    · rw [if_neg hover, ← Search.sum_eq (Int.not_le.mp hover)]
      exact Agrees.ite (fun _ => Agrees.pure tobR) fun _ => ih _ _

section Searches

variable {ref ano : DurInfo} {offset : ℕ} {btDur : ℤ} {m m' : Pattern}

theorem search2Wrole_tobR (h : search2Wrole ref ano offset m = some m') :
    m'.tobR = (Search.mk false ref ano (s16 offset) 0).cand := by
  unfold search2Wrole at h
  simp only at h
  split at h
  · cases h
  · rw [← Option.some.inj h, (fillSlotInfo_times _ _ _ _).1, (fillSlotInfo_times _ _ _ _).1]; rfl

theorem pattern1_tobR (h : calculate2Wslot1BtslotPattern1 ref ano offset btDur m = some m') :
    m'.tobR = (Search.mk true ref ano (s16 offset) 0).cand := by
  unfold calculate2Wslot1BtslotPattern1 at h
  simp only at h
  split at h
  · cases h
  · rw [← Option.some.inj h, (fillSlotInfo_times _ _ _ _).1, (fillSlotInfo_times _ _ _ _).1,
      (fillSlotInfo_times _ _ _ _).1]
    rfl

theorem pattern2_tobR (h : calculate2Wslot1BtslotPattern2 ref ano offset btDur m = some m') :
    m'.tobR = (Search.mk true ref ano (s16 offset) btDur).cand := by
  unfold calculate2Wslot1BtslotPattern2 at h
  simp only at h
  split at h
  · cases h
  · rw [← Option.some.inj h, (fillSlotInfo_times _ _ _ _).1, (fillSlotInfo_times _ _ _ _).1,
      (fillSlotInfo_times _ _ _ _).1]
    rfl

end Searches

/-- **The searches for a pattern select the least sum**: the three with limits, which store their candidate, exactly when the
sum does not rise at all; that of two clients exactly when no sum is 0 but the last; and when the sums fit into 16 bits. -/
theorem optimal_iff (s : Search) (hsmall : s.ref.dur + s.ano.dur ≤ 1024) (hfound : ∃ t, s.Fits t) :
    (∀ (ref ano : DurInfo) (offset : ℕ) (btDur : ℤ) (m m' : Pattern),
      (search2Wrole ref ano offset m = some m' → m'.tobR = (Search.mk false ref ano (s16 offset) 0).cand) ∧
      (calculate2Wslot1BtslotPattern1 ref ano offset btDur m = some m' →
        m'.tobR = (Search.mk true ref ano (s16 offset) 0).cand) ∧
      (calculate2Wslot1BtslotPattern2 ref ano offset btDur m = some m' →
        m'.tobR = (Search.mk true ref ano (s16 offset) btDur).cand)) ∧
    ((∃ c, s.candChecked = some c ∧ s.cand = c ∧ s.Optimal c) ↔ s.SumsFit ∧ s.NeverRises) ∧
    ∀ (refDur anoDur : ℕ) (offset : ℤ), s = clientsSearch refDur anoDur offset →
      ((∃ e, s.clientsLoopChecked ((refDur + anoDur) % 65536 - 5) earlyRxBcnT 0 = some e ∧
          clientsLoop (s16 refDur) (s16 anoDur) offset ((refDur + anoDur) % 65536 - 5) earlyRxBcnT 0 = e ∧
          s.Optimal (e - 1)) ↔ s.ComputedFit ∧ s.NeverZero) := by
  refine ⟨fun ref ano offset btDur m m' => ⟨search2Wrole_tobR, pattern1_tobR, pattern2_tobR⟩,
    Search.cand_optimal_iff hsmall hfound, fun refDur anoDur offset hs => ?_⟩
  subst hs
  rw [← Search.clientsLoop_optimal_iff ⟨rfl, rfl⟩ hsmall hfound]
  constructor
  · rintro ⟨e, hrun, -, hopt⟩; exact ⟨e, hrun, hopt⟩
  · rintro ⟨e, hrun, hopt⟩
    exact ⟨e, hrun, clientsLoop_agrees refDur anoDur offset _ _ _ e hrun, hopt⟩

/-! ### Some searches -/

/-- Two slots in which the beacons have one place. -/
def tightSearch : Search := clientsSearch 15 15 15

theorem tightSearch_five : tightSearch.Fits 5 :=
  ⟨by decide, by decide +kernel, by decide +kernel, nofun, by decide +kernel, by decide +kernel, nofun⟩

theorem tightSearch_fits {t : ℤ} (h : tightSearch.Fits t) : t = 5 := by
  have hw := (Search.fits_iff (Search.exact_of_fits (by decide) tightSearch_five) (by decide)).mp h
  have hlo := hw.early
  have hhi : t + 10 ≤ 15 := hw.minR
  omega

theorem tightSearch_optimal : ∃ c, tightSearch.candChecked = some c ∧ tightSearch.cand = c ∧ tightSearch.Optimal c :=
  (optimal_iff tightSearch (by decide) ⟨5, tightSearch_five⟩).2.1.mpr
    ⟨fun t ht => by
      rw [tightSearch_fits ht]
      decide +kernel,
    fun t ht ht' => by
      have h := tightSearch_fits ht
      have h' := tightSearch_fits ht'
      omega⟩

/-- Of two slots of 40 TU, a search with limits takes the place behind the one with the least sum, as does that of two
clients, where the least sum is 0; and in an interval of 200 TU the first sum is 35600. -/
theorem searches_not_optimal : ((Search.mk false someDur someDur 40 0).cand = 22 ∧
      (Search.mk false someDur someDur 40 0).exactSum 20 < (Search.mk false someDur someDur 40 0).exactSum 22) ∧
    (clientsLoop 40 40 40 75 earlyRxBcnT 0 = 22 ∧
      (clientsSearch 40 40 40).exactSum 20 < (clientsSearch 40 40 40).exactSum 21) ∧
    (clientsSearch 120 80 120).exactSum 5 = 35600 ∧ (clientsSearch 120 80 120).sum 5 = -29936 := by
  decide +kernel

end Rtl8852cu.Mcc
