import Mathlib.Data.Nat.Notation
import Mathlib.Logic.Function.Basic

/-!
# Bitmaps in an array of words

Bit `i` of the map is bit `i % w` of word `i / w`.

* `isUsed_set`, `isUsed_clr`: what setting and clearing a bit does to the bits.
-/

namespace Rtl8852cu.Lib

/-- The words. -/
abbrev WordMap (w : ℕ) := ℕ → BitVec w

namespace WordMap

variable {w : ℕ}

/-- `BIT(n)`. -/
def bit (w n : ℕ) : BitVec w := 1#w <<< n

def empty : WordMap w := fun _ => 0#w

/-- `map[id / w] & BIT(id % w)`. -/
def isUsed (map : WordMap w) (id : ℕ) : Bool := map (id / w) &&& bit w (id % w) ≠ 0#w

/-- `map[id / w] |= BIT(id % w)`. -/
def set (map : WordMap w) (id : ℕ) : WordMap w :=
  Function.update map (id / w) (map (id / w) ||| bit w (id % w))

/-- `map[id / w] &= ~BIT(id % w)`. -/
def clr (map : WordMap w) (id : ℕ) : WordMap w :=
  Function.update map (id / w) (map (id / w) &&& ~~~ bit w (id % w))

theorem getLsbD_bit {n i : ℕ} (hn : n < w) : (bit w n).getLsbD i = decide (i = n) := by
  unfold bit
  by_cases hi : i = n
  · subst hi; simp [hn]
  · simp only [BitVec.getLsbD_shiftLeft, BitVec.getLsbD_one, hi, decide_false]
    rcases Nat.lt_or_gt_of_ne hi with hlt | hgt
    · simp [hlt]
    · have hne : i - n ≠ 0 := by omega
      simp [hne]

variable {id id' : ℕ}

theorem isUsed_eq (hw : 0 < w) (map : WordMap w) (id : ℕ) : map.isUsed id = (map (id / w)).getLsbD (id % w) := by
  have hlt : id % w < w := Nat.mod_lt _ hw
  unfold isUsed
  rw [Bool.eq_iff_iff, decide_eq_true_iff]
  constructor
  · intro h
    by_contra hbit
    refine h (BitVec.eq_of_getLsbD_eq fun i hi => ?_)
    rw [BitVec.getLsbD_and, getLsbD_bit hlt, BitVec.getLsbD_zero]
    by_cases hid : i = id % w
    · subst hid; simpa using hbit
    · simp [hid]
  · intro h heq
    have hbit := congrArg (fun v => v.getLsbD (id % w)) heq
    simp [getLsbD_bit hlt, h] at hbit

theorem eq_of_div_mod (h : id' / w = id / w) (h' : id' % w = id % w) : id' = id := by
  rw [← Nat.div_add_mod id' w, h, h', Nat.div_add_mod]

@[simp] theorem isUsed_empty (id : ℕ) : (empty : WordMap w).isUsed id = false := by
  simp [isUsed, empty]

theorem isUsed_set (hw : 0 < w) (map : WordMap w) (id id' : ℕ) :
    (map.set id).isUsed id' = (decide (id' = id) || map.isUsed id') := by
  rw [isUsed_eq hw, isUsed_eq hw, set]
  by_cases hd : id' / w = id / w
  · rw [hd, Function.update_self, BitVec.getLsbD_or, getLsbD_bit (Nat.mod_lt _ hw), Bool.or_comm]
    congr 1
    exact decide_eq_decide.mpr ⟨eq_of_div_mod hd, fun h => h ▸ rfl⟩
  · have hne : id' ≠ id := fun h => hd (h ▸ rfl)
    rw [Function.update_of_ne hd]
    simp [hne]

theorem isUsed_clr (hw : 0 < w) (map : WordMap w) (id id' : ℕ) :
    (map.clr id).isUsed id' = (!decide (id' = id) && map.isUsed id') := by
  rw [isUsed_eq hw, isUsed_eq hw, clr]
  by_cases hd : id' / w = id / w
  · rw [hd, Function.update_self, BitVec.getLsbD_and, BitVec.getLsbD_not,
      getLsbD_bit (Nat.mod_lt _ hw), Bool.and_comm]
    have hm : id' % w = id % w ↔ id' = id := ⟨eq_of_div_mod hd, fun h => h ▸ rfl⟩
    simp [hm, Nat.mod_lt _ hw]
  · have hne : id' ≠ id := fun h => hd (h ▸ rfl)
    rw [Function.update_of_ne hd]
    simp [hne]

end WordMap

end Rtl8852cu.Lib
