import Mathlib.Logic.Basic
import Mathlib.Tactic.TypeStar

/-!
# A record of what another side holds

One side hands out handles, `held i`; the other records them, `R k i`: slot `k` has handle `i`.  `Mirrored`
says that the handles that are held are those that are recorded, each in one slot.

* `Mirrored.add`, `Mirrored.drop`: both sides add a new handle, or give up those of some slots;
* `Mirrored.not_of_unrecorded`: a handle that only the other side adds breaks it;
* `Mirrored.not_of_kept`: so does one that only this side gives up.
-/

namespace Rtl8852cu.Lib

variable {ι κ : Type*}

structure Mirrored (held : ι → Prop) (R : κ → ι → Prop) : Prop where
  holds : ∀ i, held i ↔ ∃ k, R k i
  inj : ∀ k k' i, R k i → R k' i → k = k'

namespace Mirrored

variable {held held' : ι → Prop} {R R' : κ → ι → Prop} {k : κ} {i : ι} {D : κ → Prop}

theorem congr (h : Mirrored held R) (hheld : ∀ j, held' j ↔ held j) (hR : ∀ k j, R' k j ↔ R k j) :
    Mirrored held' R' where
  holds j := by
    rw [hheld, h.holds]; exact exists_congr fun k => (hR k j).symm
  inj k k' j hk hk' := h.inj k k' j ((hR k j).mp hk) ((hR k' j).mp hk')

theorem add (h : Mirrored held R) (hnew : ¬ held i) (hheld : ∀ j, held' j ↔ held j ∨ j = i)
    (hR : ∀ k' j, R' k' j ↔ R k' j ∨ k' = k ∧ j = i) : Mirrored held' R' where
  holds j := by
    rw [hheld, h.holds]
    simp only [hR, exists_or, exists_eq_left]
  inj k₁ k₂ j h₁ h₂ := by
    have hold : ∀ {k'}, R k' i → False := fun hk => hnew ((h.holds i).mpr ⟨_, hk⟩)
    rcases (hR k₁ j).mp h₁ with h₁ | ⟨rfl, rfl⟩
    · rcases (hR k₂ j).mp h₂ with h₂ | ⟨rfl, rfl⟩
      · exact h.inj k₁ k₂ j h₁ h₂
      · exact (hold h₁).elim
    · rcases (hR k₂ j).mp h₂ with h₂ | ⟨rfl, -⟩
      · exact (hold h₂).elim
      · rfl

theorem drop (h : Mirrored held R) (hheld : ∀ j, held' j ↔ held j ∧ ¬ ∃ k, D k ∧ R k j)
    (hR : ∀ k j, R' k j ↔ R k j ∧ ¬ D k) : Mirrored held' R' where
  holds j := by
    rw [hheld, h.holds]
    constructor
    · rintro ⟨⟨k, hk⟩, hnot⟩; exact ⟨k, (hR k j).mpr ⟨hk, fun hD => hnot ⟨k, hD, hk⟩⟩⟩
    · rintro ⟨k, hk⟩
      obtain ⟨hk, hD⟩ := (hR k j).mp hk
      refine ⟨⟨k, hk⟩, ?_⟩
      rintro ⟨k', hD', hk'⟩
      exact hD (h.inj k' k j hk' hk ▸ hD')
  inj k k' j hk hk' := h.inj k k' j ((hR k j).mp hk).1 ((hR k' j).mp hk').1

theorem not_of_unrecorded (h : Mirrored held R) (hnew : ¬ held i) (hheld : held' i)
    (hR : ∀ k j, R' k j → R k j) : ¬ ∀ j, held' j ↔ ∃ k, R' k j := by
  intro hall
  obtain ⟨k, hk⟩ := (hall i).mp hheld
  exact hnew ((h.holds i).mpr ⟨k, hR k i hk⟩)

theorem not_of_kept (h : Mirrored held R) (hk : R k i) (hheld : held' i)
    (hR : ∀ k' j, R' k' j → R k' j ∧ k' ≠ k) : ¬ ∀ j, held' j ↔ ∃ k, R' k j := by
  intro hall
  obtain ⟨k', hk'⟩ := (hall i).mp hheld
  obtain ⟨hold, hne⟩ := hR k' i hk'
  exact hne (h.inj k' k i hold hk)

end Mirrored

end Rtl8852cu.Lib
