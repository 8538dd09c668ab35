import Mathlib.Tactic.Linarith
import Rtl8852cu.Lib.HostWord

/-!
# Ones' complement sums

The check of the Internet protocols: the half words of a piece of memory are added, and carries out of the lowest sixteen
bits are added back.  A last byte alone is the upper half of its word.

* `foldSum`: the carries; `foldSum_eq_allOnes_iff`: a sum is all ones where 65535 divides it;
* `onesSum`: the sum of a piece of memory; `onesSum_write16`: it follows a half word that is stored in the piece;
* `toNat_swap16_mod`: the other byte order is a factor.
-/

namespace Rtl8852cu.Lib

/-- The carries are added back until there are none. -/
def foldSum (s : ℕ) : ℕ := if s < 2 ^ 16 then s else foldSum (s % 2 ^ 16 + s / 2 ^ 16)
termination_by s
decreasing_by omega

theorem foldSum_lt (s : ℕ) : foldSum s < 2 ^ 16 := by
  induction s using foldSum.induct with
  | case1 s hs =>
    unfold foldSum
    rwa [if_pos hs]
  | case2 s hs ih =>
    unfold foldSum
    rwa [if_neg hs]

theorem foldSum_mod (s : ℕ) : foldSum s % 65535 = s % 65535 := by
  induction s using foldSum.induct with
  | case1 s hs =>
    unfold foldSum
    rw [if_pos hs]
  | case2 s hs ih =>
    unfold foldSum
    rw [if_neg hs, ih]; omega

theorem foldSum_eq_zero_iff (s : ℕ) : foldSum s = 0 ↔ s = 0 := by
  induction s using foldSum.induct with
  | case1 s hs =>
    unfold foldSum
    rw [if_pos hs]
  | case2 s hs ih =>
    unfold foldSum
    rw [if_neg hs, ih]; omega

/-- **A sum is all ones**, exactly where it is a multiple of 65535 and not zero. -/
theorem foldSum_eq_allOnes_iff (s : ℕ) : foldSum s = 0xffff ↔ s ≠ 0 ∧ s % 65535 = 0 := by
  have hlt := foldSum_lt s
  have hmod := foldSum_mod s
  have hzero := foldSum_eq_zero_iff s
  omega

/-- The half words of `n` bytes from `a` on. -/
def onesSum (m : ByteMem) (a : ℕ) : ℕ → ℕ
  | 0 => 0
  | n + 1 => onesSum m a n + (if n % 2 = 0 then 2 ^ 8 else 1) * (m (a + n)).toNat

variable {m m' : ByteMem} {a b n k : ℕ} {e : ByteOrder} {w : BitVec 16}

theorem onesSum_congr (h : ∀ i < n, m' (a + i) = m (a + i)) : onesSum m' a n = onesSum m a n := by
  induction n with
  | zero => rfl
  | succ n ih =>
    unfold onesSum
    rw [ih fun i hi => h i (Nat.lt_succ_of_lt hi), h n (Nat.lt_succ_self n)]

/-- **A half word of the piece is replaced.** -/
theorem onesSum_write16 (hk : k % 2 = 0) (hn : k + 2 ≤ n) :
    onesSum (e.write16 m (a + k) w) a n + (be16 m (a + k)).toNat = onesSum m a n + (e.htons w).toNat := by
  induction n with
  | zero => omega
  | succ n ih =>
    unfold onesSum
    by_cases hlast : k + 2 = n + 1
    · obtain rfl : n = k + 1 := by omega
      have hsame : onesSum (e.write16 m (a + k) w) a k = onesSum m a k :=
        onesSum_congr fun i hi => write16_of_ne (by omega) (by omega)
      have hnew := toNat_be16 (m := e.write16 m (a + k) w) (a := a + k)
      have hold := toNat_be16 (m := m) (a := a + k)
      rw [be16_write16_same] at hnew
      unfold onesSum
      rw [if_pos hk, if_neg (by omega), hsame, hnew, hold]
      simp only [Nat.add_assoc]; omega
    · have hsame : e.write16 m (a + k) w (a + n) = m (a + n) := write16_of_ne (by omega) (by omega)
      have := ih (by omega)
      rw [hsame]; omega

theorem toNat_swap16_mod (w : BitVec 16) : (swap16 w).toNat % 65535 = 2 ^ 8 * w.toNat % 65535 := by
  have hw : w.extractLsb' 8 8 ++ w.extractLsb' 0 8 = w := BitVec.extractLsb'_append_extractLsb'
  have hnat : w.toNat = 2 ^ 8 * (w.extractLsb' 8 8).toNat + (w.extractLsb' 0 8).toNat := by
    rw [← toNat_bytes, hw]
  have hhi := (w.extractLsb' 8 8).isLt
  unfold swap16
  rw [toNat_bytes, hnat]; omega

theorem toNat_htons_mod (w : BitVec 16) :
    (e.htons w).toNat % 65535 = (match e with | .little => 2 ^ 8 | .big => 1) * w.toNat % 65535 := by
  cases e with
  | little => exact toNat_swap16_mod w
  | big => rw [Nat.one_mul]; rfl

end Rtl8852cu.Lib
