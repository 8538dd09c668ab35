import Mathlib.Algebra.Ring.Nat
import Mathlib.Data.Nat.Bitwise

/-!
# Bit fields in memory

Memory is bytes at addresses.  A field of `len` bits is at the offset `off` of a word of `n` bytes at an address, the least
byte first; it is read out of the word, and set with the other bits of the word written back.

* `bit`: the bits of memory, those of one byte behind those of the byte before;
* `testBit_getBits`, `bit_setBits`: what is read and written, in bits of memory;
* `getBits_setBits_same`, `getBits_setBits_disjoint`: a field after a field was set, whatever the words of the two.
-/

namespace Rtl8852cu.Lib.BitMem

abbrev Mem := ℕ → BitVec 8

/-- The word of `n` bytes at `a`. -/
def readLe (m : Mem) : ℕ → ℕ → ℕ
  | _, 0 => 0
  | a, n + 1 => 2 ^ 8 * readLe m (a + 1) n + (m a).toNat

def writeLe (m : Mem) (a n w : ℕ) : Mem := fun b =>
  if a ≤ b ∧ b < a + n then BitVec.ofNat 8 (w >>> (8 * (b - a))) else m b

/-- The lowest `len` bits. -/
def lenMask (len : ℕ) : ℕ := 2 ^ len - 1

def getBits (m : Mem) (a n off len : ℕ) : ℕ := (readLe m a n >>> off) &&& lenMask len

def setBits (m : Mem) (a n off len v : ℕ) : Mem :=
  if off = 0 ∧ len = 8 * n then writeLe m a n v
  else writeLe m a n (Nat.ldiff (readLe m a n) (lenMask len <<< off) ||| ((v &&& lenMask len) <<< off))

/-- The bits of memory. -/
def bit (m : Mem) (i : ℕ) : Bool := (m (i / 8)).getLsbD (i % 8)

variable {m : Mem} {a a' n n' off off' len len' v : ℕ}

theorem testBit_lenMask (i : ℕ) : (lenMask len).testBit i = decide (i < len) := Nat.testBit_two_pow_sub_one len i

theorem testBit_readLe (i : ℕ) : (readLe m a n).testBit i = (decide (i < 8 * n) && bit m (8 * a + i)) := by
  induction n generalizing a i with
  | zero =>
    unfold readLe
    rw [Nat.zero_testBit, Nat.mul_zero, decide_eq_false (Nat.not_lt_zero i), Bool.false_and]
  | succ n ih =>
    unfold readLe
    rw [Nat.testBit_two_pow_mul_add _ (m a).isLt, ih]
    by_cases hi : i < 8
    · have hdiv : (8 * a + i) / 8 = a := by omega
      have hmod : (8 * a + i) % 8 = i := by omega
      rw [if_pos hi, decide_eq_true (show i < 8 * (n + 1) by omega), Bool.true_and]
      unfold bit
      rw [hdiv, hmod]; rfl
    · have hpos : 8 * (a + 1) + (i - 8) = 8 * a + i := by omega
      have hlt : (i - 8 < 8 * n) ↔ (i < 8 * (n + 1)) := by omega
      rw [if_neg hi, hpos, decide_eq_decide.mpr hlt]

theorem bit_writeLe (w i : ℕ) :
    bit (writeLe m a n w) i = if 8 * a ≤ i ∧ i < 8 * (a + n) then w.testBit (i - 8 * a) else bit m i := by
  unfold bit writeLe
  by_cases hi : 8 * a ≤ i ∧ i < 8 * (a + n)
  · have hbyte : a ≤ i / 8 ∧ i / 8 < a + n := by omega
    have hpos : 8 * (i / 8 - a) + i % 8 = i - 8 * a := by omega
    rw [if_pos hi, if_pos hbyte, BitVec.getLsbD_ofNat, decide_eq_true (Nat.mod_lt i (by decide)), Bool.true_and,
      Nat.testBit_shiftRight, hpos]
  · have hbyte : ¬ (a ≤ i / 8 ∧ i / 8 < a + n) := by omega
    rw [if_neg hi, if_neg hbyte]

theorem getBits_congr {m' : Mem} (h : ∀ i < n, m' (a' + i) = m (a + i)) :
    getBits m' a' n off len = getBits m a n off len := by
  have hread : readLe m' a' n = readLe m a n := by
    induction n generalizing a a' with
    | zero => rfl
    | succ n ih =>
      have hrest : readLe m' (a' + 1) n = readLe m (a + 1) n := by
        refine ih fun i hi => ?_
        rw [Nat.add_assoc, Nat.add_assoc, Nat.add_comm 1 i]; exact h (i + 1) (Nat.succ_lt_succ hi)
      have hfirst : m' a' = m a := h 0 n.succ_pos
      unfold readLe
      rw [hrest, hfirst]
  unfold getBits
  rw [hread]

theorem getBits_byte : getBits m a 1 0 8 = (m a).toNat := by
  unfold getBits readLe readLe lenMask
  rw [Nat.mul_zero, Nat.zero_add, Nat.shiftRight_zero, Nat.and_two_pow_sub_one_eq_mod]
  exact Nat.mod_eq_of_lt (m a).isLt

/-- **A field is the bits of memory at its place.** -/
theorem testBit_getBits (h : off + len ≤ 8 * n) (i : ℕ) :
    (getBits m a n off len).testBit i = (decide (i < len) && bit m (8 * a + off + i)) := by
  unfold getBits
  rw [Nat.testBit_and, Nat.testBit_shiftRight, testBit_readLe, testBit_lenMask, ← Nat.add_assoc, Bool.and_comm]
  by_cases hi : i < len
  · rw [decide_eq_true (show off + i < 8 * n by omega), Bool.true_and]
  · rw [decide_eq_false hi, Bool.false_and, Bool.false_and]

/-- **Setting a field changes the bits at its place.** -/
theorem bit_setBits (h : off + len ≤ 8 * n) (hv : v < 2 ^ len) (i : ℕ) : bit (setBits m a n off len v) i =
      if 8 * a + off ≤ i ∧ i < 8 * a + off + len then v.testBit (i - (8 * a + off)) else bit m i := by
  unfold setBits
  by_cases hfull : off = 0 ∧ len = 8 * n
  · obtain ⟨rfl, rfl⟩ := hfull; rw [if_pos ⟨rfl, rfl⟩, bit_writeLe, Nat.mul_add, Nat.add_zero]
  rw [if_neg hfull, bit_writeLe]
  by_cases hword : 8 * a ≤ i ∧ i < 8 * (a + n)
  · rw [if_pos hword, Nat.testBit_or, Nat.testBit_ldiff, Nat.testBit_shiftLeft, Nat.testBit_shiftLeft, Nat.testBit_and,
      testBit_lenMask, testBit_readLe, decide_eq_true (show i - 8 * a < 8 * n by omega), Bool.true_and]
    have hbit : 8 * a + (i - 8 * a) = i := by omega
    have hsub : i - 8 * a - off = i - (8 * a + off) := by omega
    rw [hbit, hsub]
    by_cases hlo : 8 * a + off ≤ i
    · rw [decide_eq_true (show off ≤ i - 8 * a by omega)]
      by_cases hhi : i < 8 * a + off + len
      · rw [if_pos ⟨hlo, hhi⟩, decide_eq_true (show i - (8 * a + off) < len by omega)]
        simp only [Bool.true_and, Bool.and_true, Bool.not_true, Bool.and_false, Bool.false_or]
      · rw [if_neg fun hin => hhi hin.2, decide_eq_false (show ¬ i - (8 * a + off) < len by omega)]
        simp only [Bool.and_false, Bool.not_false, Bool.and_true, Bool.or_false]
    · rw [if_neg fun hin => hlo hin.1, decide_eq_false (show ¬ off ≤ i - 8 * a by omega)]
      simp only [Bool.false_and, Bool.not_false, Bool.and_true, Bool.or_false]
  · rw [if_neg hword, if_neg (by omega)]

theorem getBits_setBits_same (h : off + len ≤ 8 * n) (h' : off' + len ≤ 8 * n') (hv : v < 2 ^ len)
    (hpos : 8 * a' + off' = 8 * a + off) : getBits (setBits m a n off len v) a' n' off' len = v := by
  refine Nat.eq_of_testBit_eq fun i => ?_
  rw [testBit_getBits h', hpos, bit_setBits h hv]
  by_cases hi : i < len
  · have hin : 8 * a + off ≤ 8 * a + off + i ∧ 8 * a + off + i < 8 * a + off + len := by omega
    rw [if_pos hin, Nat.add_sub_cancel_left, decide_eq_true hi, Bool.true_and]
  · rw [decide_eq_false hi, Bool.false_and]
    exact (Nat.testBit_lt_two_pow (hv.trans_le (Nat.pow_le_pow_right (by decide) (not_lt.mp hi)))).symm

theorem getBits_setBits_disjoint (h : off + len ≤ 8 * n) (h' : off' + len' ≤ 8 * n') (hv : v < 2 ^ len)
    (hpos : 8 * a' + off' + len' ≤ 8 * a + off ∨ 8 * a + off + len ≤ 8 * a' + off') :
    getBits (setBits m a n off len v) a' n' off' len' = getBits m a' n' off' len' := by
  refine Nat.eq_of_testBit_eq fun i => ?_
  rw [testBit_getBits h', testBit_getBits h', bit_setBits h hv]
  by_cases hi : i < len'
  · rw [if_neg (by omega)]
  · rw [decide_eq_false hi, Bool.false_and, Bool.false_and]

end Rtl8852cu.Lib.BitMem
