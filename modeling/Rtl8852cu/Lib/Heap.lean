import Mathlib.Logic.Function.Basic
import Mathlib.Algebra.Ring.Nat

/-!
# A heap of cells

Pointers are numbers, given out in order: `alloc` hands out `next`, so that a pointer is never handed
out twice and a freed cell stays recognisable.  `Bounded` says that only pointers handed out have a
cell.
-/

namespace Rtl8852cu.Lib

open Function (update update_self update_of_ne)

/-- The cells by their pointers; `none` is a pointer not yet handed out, or freed. -/
structure Heap (α : Type*) where
  cell : ℕ → Option α
  next : ℕ

namespace Heap

variable {α : Type*} {h : Heap α} {p q : ℕ} {a : α} {f : α → α}

def empty : Heap α := ⟨fun _ => none, 0⟩

/-- The pointer of the new cell is the old `next`. -/
def alloc (h : Heap α) (a : α) : Heap α := ⟨update h.cell h.next (some a), h.next + 1⟩

def free (h : Heap α) (p : ℕ) : Heap α := ⟨update h.cell p none, h.next⟩

def modify (h : Heap α) (p : ℕ) (f : α → α) : Heap α :=
  ⟨update h.cell p ((h.cell p).map f), h.next⟩

/-- Only pointers handed out have a cell. -/
def Bounded (h : Heap α) : Prop := ∀ p, h.next ≤ p → h.cell p = none

@[simp] theorem alloc_cell_self : (h.alloc a).cell h.next = some a := update_self ..

theorem alloc_cell_ne (hp : p ≠ h.next) : (h.alloc a).cell p = h.cell p := update_of_ne hp ..

@[simp] theorem free_cell_self : (h.free p).cell p = none := update_self ..

theorem free_cell_ne (hq : q ≠ p) : (h.free p).cell q = h.cell q := update_of_ne hq ..

@[simp] theorem modify_cell_self : (h.modify p f).cell p = (h.cell p).map f := update_self ..

theorem modify_cell_ne (hq : q ≠ p) : (h.modify p f).cell q = h.cell q := update_of_ne hq ..

theorem modify_eq_self {a : α} (ha : h.cell p = some a) (hf : f a = a) : h.modify p f = h := by
  unfold modify
  rw [ha, Option.map_some, hf, ← ha, Function.update_eq_self]

theorem modify_modify {g : α → α} : (h.modify p f).modify p g = h.modify p fun a => g (f a) := by
  unfold modify
  simp only [update_self, Function.update_idem, Option.map_map]; rfl

theorem of_modify_cell {b : α} (hb : (h.modify p f).cell q = some b) :
    ∃ a, h.cell q = some a ∧ b = if q = p then f a else a := by
  by_cases hq : q = p
  · subst hq
    rw [modify_cell_self, Option.map_eq_some_iff] at hb
    obtain ⟨a, ha, rfl⟩ := hb
    exact ⟨a, ha, (if_pos rfl).symm⟩
  · rw [modify_cell_ne hq] at hb; exact ⟨b, hb, (if_neg hq).symm⟩

theorem modify_cell_some {a : α} (ha : h.cell q = some a) :
    (h.modify p f).cell q = some (if q = p then f a else a) := by
  by_cases hq : q = p
  · subst hq
    rw [modify_cell_self, ha, if_pos rfl]; rfl
  · rw [modify_cell_ne hq, ha, if_neg hq]

theorem foldl_free_cell {ps : List ℕ} : (ps.foldl free h).cell q = if q ∈ ps then none else h.cell q := by
  induction ps generalizing h with
  | nil => rfl
  | cons p ps ih =>
    rw [List.foldl_cons, ih]
    by_cases hq : q ∈ ps
    · rw [if_pos hq, if_pos (List.mem_cons_of_mem p hq)]
    rw [if_neg hq]
    by_cases hqp : q = p
    · rw [hqp, free_cell_self, if_pos List.mem_cons_self]
    · rw [free_cell_ne hqp, if_neg fun hm => (List.mem_cons.mp hm).elim hqp hq]

theorem Bounded.empty : (Heap.empty : Heap α).Bounded := fun _ _ => rfl

theorem Bounded.lt (hb : h.Bounded) (hp : h.cell p = some a) : p < h.next := by
  by_contra hle
  rw [hb p (by omega)] at hp; exact nomatch hp

theorem Bounded.alloc (hb : h.Bounded) : (h.alloc a).Bounded := by
  intro p hp
  have hp : h.next + 1 ≤ p := hp
  rw [alloc_cell_ne (by omega)]; exact hb p (by omega)

theorem Bounded.free (hb : h.Bounded) : (h.free p).Bounded := by
  intro q hq
  by_cases hqp : q = p
  · rw [hqp, free_cell_self]
  · rw [free_cell_ne hqp]; exact hb q hq

theorem Bounded.modify (hb : h.Bounded) : (h.modify p f).Bounded := by
  intro q hq
  by_cases hqp : q = p
  · subst hqp
    rw [modify_cell_self, hb q hq]; rfl
  · rw [modify_cell_ne hqp]; exact hb q hq

end Heap

end Rtl8852cu.Lib
