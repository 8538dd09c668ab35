import Mathlib.Data.List.Basic
import Mathlib.Logic.Function.Basic

/-!
# Rings with indices of the last slot used

A ring of `n` cells with a read index `r` and a write index `w`.  Both name the slot used last, so
the unread cells are those behind `r` up to `w`, an empty ring has `r = w`, and one cell is never
used: `n - 1` entries fit.

* `Holds n cell r w q`: the unread cells are the list `q`, oldest first;
* `Holds.push`, `Holds.pop`: what moving an index does to the list;
* `Holds.write`: a cell outside the unread ones may be written.
-/

namespace Rtl8852cu.Lib.IndexRing

variable {α : Type*} {n r w i j k : ℕ} {cell : ℕ → Option α} {q : List α}

/-- The slot behind `i`. -/
def next (n i : ℕ) : ℕ := if i + 1 < n then i + 1 else 0

/-- How many cells are unread. -/
def used (n r w : ℕ) : ℕ := if r ≤ w then w - r else w + (n - r)

/-- The `i`-th unread cell. -/
def slot (n r i : ℕ) : ℕ := if r + 1 + i < n then r + 1 + i else r + 1 + i - n

theorem next_lt (h : i < n) : next n i < n := by unfold next; split <;> omega

theorem next_eq_mod (h : i < n) : next n i = (i + 1) % n := by
  unfold next
  split
  · rw [Nat.mod_eq_of_lt ‹_›]
  · rw [show i + 1 = n by omega, Nat.mod_self]

@[simp] theorem used_self : used n r r = 0 := by simp [used]

theorem used_lt (hr : r < n) (hw : w < n) : used n r w < n := by unfold used; split <;> omega

theorem used_next_wr (hr : r < n) (hw : w < n) (h : used n r w + 1 < n) : used n r (next n w) = used n r w + 1 := by
  unfold used next at *; split_ifs at * <;> omega

theorem used_next_rd (hr : r < n) (hw : w < n) (h : 0 < used n r w) : used n (next n r) w = used n r w - 1 := by
  unfold used next at *; split_ifs at * <;> omega

theorem slot_zero (hr : r < n) : slot n r 0 = next n r := by
  unfold slot next; split_ifs <;> omega

theorem slot_next (hr : r < n) (hi : i + 1 < n) : slot n (next n r) i = slot n r (i + 1) := by
  unfold slot next; split_ifs <;> omega

theorem slot_used (hr : r < n) (hw : w < n) : slot n r (used n r w) = next n w := by
  unfold slot next used; split_ifs <;> omega

theorem slot_inj (hi : i < n) (hj : j < n) : slot n r i = slot n r j ↔ i = j := by
  unfold slot; split_ifs <;> omega

theorem slot_eq_mod (hr : r < n) (hi : i < n) : slot n r i = (r + 1 + i) % n := by
  unfold slot
  split
  · rw [Nat.mod_eq_of_lt ‹_›]
  · rw [Nat.mod_eq_sub_mod (by omega), Nat.mod_eq_of_lt (by omega)]

/-- The unread cells are `q`, oldest first. -/
structure Holds (n : ℕ) (cell : ℕ → Option α) (r w : ℕ) (q : List α) : Prop where
  rd : r < n
  wr : w < n
  len : q.length = used n r w
  cells : ∀ i (h : i < q.length), cell (slot n r i) = some q[i]

namespace Holds

theorem empty (h : r < n) : Holds n cell r r [] := ⟨h, h, by simp, by simp⟩

theorem length_lt (h : Holds n cell r w q) : q.length < n := h.len ▸ used_lt h.rd h.wr

theorem unique {q' : List α} (h : Holds n cell r w q) (h' : Holds n cell r w q') : q = q' := by
  refine List.ext_getElem (h.len.trans h'.len.symm) fun i hi hi' => ?_
  exact Option.some.inj ((h.cells i hi).symm.trans (h'.cells i hi'))

theorem write [DecidableEq ℕ] (h : Holds n cell r w q) (hk : ∀ i < q.length, slot n r i ≠ k)
    (x : Option α) : Holds n (Function.update cell k x) r w q where
  rd := h.rd
  wr := h.wr
  len := h.len
  cells i hi := by rw [Function.update_of_ne (hk i hi), h.cells i hi]

theorem push [DecidableEq ℕ] (h : Holds n cell r w q) (hroom : q.length + 1 < n) (x : α) :
    Holds n (Function.update cell (next n w) (some x)) r (next n w) (q ++ [x]) where
  rd := h.rd
  wr := next_lt h.wr
  len := by
    rw [List.length_append, used_next_wr h.rd h.wr (h.len ▸ hroom), h.len]; rfl
  cells i hi := by
    rw [List.length_append, List.length_singleton] at hi
    rw [← slot_used h.rd h.wr, ← h.len]
    rcases Nat.lt_succ_iff_lt_or_eq.mp hi with hlt | heq
    · have hne : slot n r i ≠ slot n r q.length := by
        rw [Ne, slot_inj (by omega) (by omega)]; omega
      rw [Function.update_of_ne hne, h.cells i hlt, List.getElem_append_left hlt]
    · subst heq; simp

theorem head {x : α} (h : Holds n cell r w (x :: q)) : cell (next n r) = some x := by
  have h0 := h.cells 0 (by simp)
  rwa [slot_zero h.rd] at h0

theorem setHead {x y : α} (h : Holds n cell r w (x :: q)) :
    Holds n (Function.update cell (next n r) (some y)) r w (y :: q) where
  rd := h.rd
  wr := h.wr
  len := h.len
  cells i hi := by
    have hlt := h.length_lt
    rw [List.length_cons] at hi hlt
    cases i with
    | zero => rw [slot_zero h.rd, Function.update_self, List.getElem_cons_zero]
    | succ i =>
      have hne : slot n r (i + 1) ≠ next n r := by
        rw [← slot_zero h.rd, Ne, slot_inj (by omega) (by omega)]; omega
      rw [Function.update_of_ne hne, h.cells (i + 1) (by rw [List.length_cons]; omega)]
      rfl

theorem pop {x : α} (h : Holds n cell r w (x :: q)) : Holds n cell (next n r) w q := by
  have hlen : q.length + 1 = used n r w := h.len
  have hlt := h.length_lt
  rw [List.length_cons] at hlt
  refine ⟨next_lt h.rd, h.wr, ?_, fun i hi => ?_⟩
  · rw [used_next_rd h.rd h.wr (by omega)]; omega
  · rw [slot_next h.rd (by omega), h.cells (i + 1) (by simpa using hi)]; rfl

theorem slot_ne_rd (h : Holds n cell r w q) : ∀ i < q.length, slot n r i ≠ r := by
  intro i hi
  have hlt := h.length_lt
  have hr := h.rd
  unfold slot
  split_ifs <;> omega

end Holds

end Rtl8852cu.Lib.IndexRing
