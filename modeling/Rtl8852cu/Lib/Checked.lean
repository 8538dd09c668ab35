import Mathlib.Algebra.Ring.Nat

/-!
# Checked arithmetic

A computation on natural numbers that stops at a subtraction below zero or a division by zero.

* `checkedSub`, `checkedDiv`;
* `Agrees`: the unchecked computation has the value of the checked one; `Agrees.map`, `Agrees.ite`: part by part.
-/

namespace Rtl8852cu.Lib

/-- A subtraction that stays above zero. -/
def checkedSub (a b : ℕ) : Option ℕ := if b ≤ a then some (a - b) else none

/-- A division, not by zero. -/
def checkedDiv (a b : ℕ) : Option ℕ := if b = 0 then none else some (a / b)

theorem checkedSub_pos {a b : ℕ} (h : b ≤ a) : checkedSub a b = some (a - b) := if_pos h

theorem checkedSub_neg {a b : ℕ} (h : a < b) : checkedSub a b = none := if_neg (by omega)

theorem checkedDiv_pos {a b : ℕ} (h : 0 < b) : checkedDiv a b = some (a / b) := if_neg (by omega)

theorem checkedDiv_zero (a : ℕ) : checkedDiv a 0 = none := if_pos rfl

variable {α β : Type*}

/-- Where the checked computation has a value, it is this one. -/
def Agrees (c : Option α) (p : α) : Prop := ∀ r, c = some r → p = r

namespace Agrees

variable {c d : Option α} {p q : α}

theorem pure (p : α) : Agrees (some p) p := fun _ h => Option.some.inj h

theorem map (f : α → β) (h : Agrees c p) : Agrees (c.map f) (f p) := by
  intro r hr
  obtain ⟨x, hx, rfl⟩ := Option.map_eq_some_iff.mp hr
  rw [h x hx]

theorem ite {P : Prop} [Decidable P] (h₁ : P → Agrees c p) (h₂ : ¬ P → Agrees d q) :
    Agrees (if P then c else d) (if P then p else q) := by
  by_cases hP : P
  · rw [if_pos hP, if_pos hP]; exact h₁ hP
  · rw [if_neg hP, if_neg hP]; exact h₂ hP

end Agrees

end Rtl8852cu.Lib
