import Mathlib.Algebra.Ring.Nat
import Mathlib.Data.List.Basic

/-!
# A list put between the elements of another

`interleave turn ins i l` is `l` with `ins` after each element whose turn it is, the elements being numbered from `i`.

* `interleave_append`: the parts of a list one after the other;
* `interleave_congr`: only the turns inside the list count;
* `interleave_first`: the list up to the first turn;
* `interleave_nil`: with nothing to put in, the list itself;
* `firstResults`: the first results of a source that gives the elements of a list and then nothing.
-/

namespace Rtl8852cu.Lib

variable {α : Type*}

/-- `ins` after each element of the list whose turn it is. -/
def interleave (turn : ℕ → Bool) (ins : List α) : ℕ → List α → List α
  | _, [] => []
  | i, a :: l => a :: ((if turn i then ins else []) ++ interleave turn ins (i + 1) l)

variable {turn turn' : ℕ → Bool} {ins ins' : List α}

theorem interleave_append (i : ℕ) (l l' : List α) :
    interleave turn ins i (l ++ l') = interleave turn ins i l ++ interleave turn ins (i + l.length) l' := by
  induction l generalizing i with
  | nil => rfl
  | cons a l ih =>
    have hlen : i + (a :: l).length = i + 1 + l.length := by rw [List.length_cons, Nat.add_comm l.length, Nat.add_assoc]
    rw [hlen]
    show a :: ((if turn i then ins else []) ++ interleave turn ins (i + 1) (l ++ l')) =
      a :: (((if turn i then ins else []) ++ interleave turn ins (i + 1) l) ++ _)
    rw [ih, List.append_assoc]

theorem interleave_congr {i : ℕ} {l : List α}
    (h : ∀ j, i ≤ j → j < i + l.length → turn j = turn' j ∧ (turn j = true → ins = ins')) :
    interleave turn ins i l = interleave turn' ins' i l := by
  induction l generalizing i with
  | nil => rfl
  | cons a l ih =>
    rw [List.length_cons] at h
    obtain ⟨hturn, hins⟩ := h i le_rfl (by omega)
    have hrest := ih (i := i + 1) fun j h1 h2 => h j (by omega) (by omega)
    have hfirst : (if turn i then ins else []) = if turn' i then ins' else [] := by
      rw [← hturn]
      cases ht : turn i with
      | false => rfl
      | true =>
        rw [hins ht]
    show a :: ((if turn i then ins else []) ++ _) = a :: ((if turn' i then ins' else []) ++ _)
    rw [hfirst, hrest]

theorem interleave_none {i : ℕ} {l : List α} (h : ∀ j, i ≤ j → j < i + l.length → turn j = false) : interleave turn ins i l = l := by
  induction l generalizing i with
  | nil => rfl
  | cons a l ih =>
    rw [List.length_cons] at h
    have hfirst := h i le_rfl (by omega)
    have hrest := ih (i := i + 1) fun j h1 h2 => h j (by omega) (by omega)
    show a :: ((if turn i then ins else []) ++ _) = _
    rw [hfirst, hrest]; rfl

theorem interleave_nil (i : ℕ) (l : List α) : interleave turn [] i l = l := by
  induction l generalizing i with
  | nil => rfl
  | cons a l ih =>
    show a :: ((if turn i then [] else []) ++ interleave turn [] (i + 1) l) = a :: l
    rw [ite_self, List.nil_append, ih]

theorem length_interleave {i : ℕ} {l : List α} (hlen : ins.length = ins'.length) :
    (interleave turn ins i l).length = (interleave turn ins' i l).length := by
  induction l generalizing i with
  | nil => rfl
  | cons a l ih =>
    show (a :: ((if turn i then ins else []) ++ _)).length = (a :: ((if turn i then ins' else []) ++ _)).length
    rw [List.length_cons, List.length_cons, List.length_append, List.length_append, ih]
    cases turn i with
    | false => rfl
    | true => rw [if_pos rfl, if_pos rfl, hlen]

theorem interleave_first {t : ℕ} {l : List α} (hlt : t < l.length) (hturn : turn t = true) (hbefore : ∀ j < t, turn j = false) :
    interleave turn ins 0 l = l.take (t + 1) ++ (ins ++ interleave turn ins (t + 1) (l.drop (t + 1))) := by
  have htake : l.take (t + 1) = l.take t ++ [l[t]] := (List.take_append_getElem hlt).symm
  have hlen : (l.take t).length = t := List.length_take_of_le (Nat.le_of_lt hlt)
  have hfirst : interleave turn ins 0 (l.take (t + 1)) = l.take (t + 1) ++ ins := by
    have hnone : interleave turn ins 0 (l.take t) = l.take t := by
      refine interleave_none fun j _ hj => hbefore j ?_
      rw [hlen] at hj; omega
    rw [htake, interleave_append, hnone, hlen, Nat.zero_add]
    show _ ++ (l[t] :: ((if turn t then ins else []) ++ [])) = _
    rw [hturn, if_pos rfl, List.append_nil, List.append_assoc]; rfl
  have hlen' : (l.take (t + 1)).length = t + 1 := List.length_take_of_le hlt
  conv_lhs => rw [← List.take_append_drop (t + 1) l]
  rw [interleave_append, hfirst, hlen', Nat.zero_add, List.append_assoc]

/-! ### Results one after the other -/

/-- The first `k` results of a source that gives the elements of a list and then nothing. -/
def firstResults (k : ℕ) (l : List α) : List (Option α) := (l.map some ++ List.replicate k none).take k

theorem firstResults_nil (k : ℕ) : firstResults k ([] : List α) = List.replicate k none := by
  unfold firstResults
  rw [List.map_nil, List.nil_append, List.take_replicate, min_self]

theorem firstResults_cons (k : ℕ) (a : α) (l : List α) : firstResults (k + 1) (a :: l) = some a :: firstResults k l := by
  unfold firstResults
  rw [List.map_cons, List.cons_append, List.take_succ_cons, List.replicate_succ', ← List.append_assoc,
    List.take_append_of_le_length]
  rw [List.length_append, List.length_replicate]; omega

theorem firstResults_succ (k : ℕ) (l : List α) : firstResults (k + 1) l = l.head? :: firstResults k l.tail := by
  cases l with
  | nil =>
    rw [List.tail_nil, firstResults_nil, firstResults_nil]; rfl
  | cons a l => exact firstResults_cons k a l

theorem firstResults_length (k : ℕ) (l : List α) : (firstResults k l).length = k := by
  unfold firstResults
  rw [List.length_take, List.length_append, List.length_replicate]; omega

theorem firstResults_getElem? {k j : ℕ} {l : List α} (hj : j < k) : (firstResults k l)[j]? = some l[j]? := by
  unfold firstResults
  rw [List.getElem?_take_of_lt hj]
  rcases Nat.lt_or_ge j l.length with hlt | hge
  · rw [List.getElem?_append_left (by rw [List.length_map]; exact hlt), List.getElem?_map, List.getElem?_eq_getElem hlt]
    rfl
  · rw [List.getElem?_append_right (by rw [List.length_map]; exact hge), List.getElem?_eq_none hge, List.length_map,
      List.getElem?_replicate, if_pos (by omega)]

end Rtl8852cu.Lib
