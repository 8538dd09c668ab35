import Mathlib.Algebra.BigOperators.Group.Finset.Piecewise

/-!
# Sums over a table with one entry overwritten

A table `f : α → β` whose entries have a content `g` in a commutative monoid.  Overwriting one entry
exchanges the content of the old entry for that of the new one (`add_sum_update`).
-/

namespace Rtl8852cu.Lib

variable {α β M : Type*} [DecidableEq α] [AddCommMonoid M]

/-- **Overwriting an entry** exchanges its content. -/
theorem add_sum_update (s : Finset α) (f : α → β) (g : β → M) {i : α} (hi : i ∈ s) (v : β) :
    g (f i) + ∑ j ∈ s, g (Function.update f i v j) = g v + ∑ j ∈ s, g (f j) := by
  have hrest : ∑ j ∈ s.erase i, g (Function.update f i v j) = ∑ j ∈ s.erase i, g (f j) :=
    Finset.sum_congr rfl fun j hj => by rw [Function.update_of_ne (Finset.ne_of_mem_erase hj)]
  rw [← Finset.add_sum_erase _ (fun j => g (Function.update f i v j)) hi,
    ← Finset.add_sum_erase _ (fun j => g (f j)) hi, hrest, Function.update_self, add_left_comm]

end Rtl8852cu.Lib
