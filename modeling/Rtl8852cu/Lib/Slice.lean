import Mathlib.Algebra.Ring.Nat

/-!
# Pieces of memory

Memory is a function on the addresses.

* `slice`: what is from an address on; `copy`: memory with a piece of another one in it;
* `slice_add`, `slice_take`, `slice_drop`, `slice_append`: parts of a piece;
* `slice_copy`, `slice_copy_before`: a piece after a copy.
-/

namespace Rtl8852cu.Lib

variable {α : Type*}

/-- The `n` values from `a` on. -/
def slice (m : ℕ → α) (a n : ℕ) : List α := (List.range' a n).map m

/-- The `n` values of `src` from `s` on are put at `dst`. -/
def copy (m : ℕ → α) (dst : ℕ) (src : ℕ → α) (s n : ℕ) : ℕ → α := fun i =>
  if dst ≤ i ∧ i < dst + n then src (s + (i - dst)) else m i

variable {m src : ℕ → α} {a n k dst s : ℕ}

@[simp] theorem length_slice : (slice m a n).length = n := by
  unfold slice
  rw [List.length_map, List.length_range']

theorem slice_add : slice m a (n + k) = slice m a n ++ slice m (a + n) k := by
  unfold slice
  rw [← List.map_append, List.range'_append_1]

theorem slice_congr {m' : ℕ → α} {a' : ℕ} (h : ∀ i < n, m' (a' + i) = m (a + i)) : slice m' a' n = slice m a n := by
  unfold slice
  refine List.ext_getElem (by rw [List.length_map, List.length_map, List.length_range', List.length_range'])
    fun i hi _ => ?_
  rw [List.length_map, List.length_range'] at hi
  rw [List.getElem_map, List.getElem_map, List.getElem_range', List.getElem_range', Nat.one_mul]
  exact h i hi

theorem slice_take (h : k ≤ n) : (slice m a n).take k = slice m a k := by
  obtain ⟨d, rfl⟩ := Nat.exists_eq_add_of_le h
  rw [slice_add, List.take_left' length_slice]

theorem slice_drop (h : k ≤ n) : (slice m a n).drop k = slice m (a + k) (n - k) := by
  obtain ⟨d, rfl⟩ := Nat.exists_eq_add_of_le h
  rw [slice_add, List.drop_left' length_slice, Nat.add_sub_cancel_left]

theorem slice_append {l₁ l₂ : List α} (h : slice m a n = l₁ ++ l₂) :
    slice m a l₁.length = l₁ ∧ slice m (a + l₁.length) l₂.length = l₂ := by
  have hn : n = l₁.length + l₂.length := by
    rw [← List.length_append, ← h, length_slice]
  rw [hn, slice_add] at h; exact List.append_inj h length_slice

theorem slice_copy : slice (copy m dst src s n) dst n = slice src s n := by
  refine slice_congr fun i hi => ?_
  unfold copy
  rw [if_pos ⟨Nat.le_add_right dst i, Nat.add_lt_add_left hi dst⟩, Nat.add_sub_cancel_left]

theorem slice_copy_before (h : a + k ≤ dst) : slice (copy m dst src s n) a k = slice m a k := by
  refine slice_congr fun i hi => ?_
  unfold copy
  rw [if_neg (by omega)]

end Rtl8852cu.Lib
