import Mathlib.Data.List.Basic

/-!
# Bounded queues

The queue of at most `cap` entries, as a component with three operations, and what it means that an
implementation behaves like it: whatever operations are called, the answers are the same.

* `trace`: the calls with their answers; `trace_eq_of_simulates`: an implementation whose steps
  keep a relation to the queue has the traces of the queue;
* `accepted_eq`: what was accepted is what was taken, in that order, and then what is stored;
* `taken_drain`: taking as often as entries are stored takes exactly these.
-/

namespace Rtl8852cu.Lib.Fifo

variable {α σ : Type*}

/-- The calls. -/
inductive Op (α : Type*) where
  | put (x : α)
  | take
  | count
  deriving DecidableEq

/-- The answers. -/
inductive Out (α : Type*) where
  | put (stored : Bool)
  | took (x : Option α)
  | count (k : ℕ)
  deriving DecidableEq

/-- The queue. -/
def step (cap : ℕ) (q : List α) : Op α → List α × Out α
  | .put x => if q.length < cap then (q ++ [x], .put true) else (q, .put false)
  | .take => (q.tail, .took q.head?)
  | .count => (q, .count q.length)

theorem step_put_room {cap : ℕ} {q : List α} (h : q.length < cap) (x : α) :
    step cap q (.put x) = (q ++ [x], .put true) := if_pos h

theorem step_put_full {cap : ℕ} {q : List α} (h : ¬ q.length < cap) (x : α) :
    step cap q (.put x) = (q, .put false) := if_neg h

/-- The state behind a sequence of calls. -/
def run (st : σ → Op α → σ × Out α) (s : σ) (ops : List (Op α)) : σ :=
  ops.foldl (fun s op => (st s op).1) s

/-- The calls of a sequence with their answers. -/
def trace (st : σ → Op α → σ × Out α) (s : σ) : List (Op α) → List (Op α × Out α)
  | [] => []
  | op :: ops => (op, (st s op).2) :: trace st (st s op).1 ops

/-- What the calls have put in. -/
def accepted (t : List (Op α × Out α)) : List α :=
  t.filterMap fun c => match c with
    | (.put x, .put true) => some x
    | _ => none

/-- What the calls have got out. -/
def taken (t : List (Op α × Out α)) : List α :=
  t.filterMap fun c => match c with
    | (_, .took x) => x
    | _ => none

section Simulation

variable {st : σ → Op α → σ × Out α} {R : σ → List α → Prop} {cap : ℕ}

theorem run_simulates (hR : ∀ s q op, R s q → R (st s op).1 (step cap q op).1) {s : σ} {q : List α}
    (h : R s q) (ops : List (Op α)) : R (run st s ops) (run (step cap) q ops) := by
  induction ops generalizing s q with
  | nil => exact h
  | cons op ops ih => exact ih (hR s q op h)

/-- **The answers are those of the queue.** -/
theorem trace_eq_of_simulates (hR : ∀ s q op, R s q → R (st s op).1 (step cap q op).1)
    (hout : ∀ s q op, R s q → (st s op).2 = (step cap q op).2) {s : σ} {q : List α} (h : R s q)
    (ops : List (Op α)) : trace st s ops = trace (step cap) q ops := by
  induction ops generalizing s q with
  | nil => rfl
  | cons op ops ih =>
    rw [trace, trace, hout s q op h, ih (hR s q op h)]

end Simulation

theorem step_balance (cap : ℕ) (q : List α) (op : Op α) : q ++ accepted [(op, (step cap q op).2)] =
      taken [(op, (step cap q op).2)] ++ (step cap q op).1 := by
  cases op with
  | put x =>
    by_cases h : q.length < cap
    · simp [step_put_room h, accepted, taken]
    · simp [step_put_full h, accepted, taken]
  | take => cases q <;> simp [step, accepted, taken]
  | count => simp [step, accepted, taken]

theorem accepted_cons (c : Op α × Out α) (t : List (Op α × Out α)) : accepted (c :: t) = accepted [c] ++ accepted t :=
  List.filterMap_append (l := [c])

theorem taken_cons (c : Op α × Out α) (t : List (Op α × Out α)) : taken (c :: t) = taken [c] ++ taken t :=
  List.filterMap_append (l := [c])

/-- **First in, first out.** -/
theorem accepted_eq (cap : ℕ) (q : List α) (ops : List (Op α)) : q ++ accepted (trace (step cap) q ops) =
      taken (trace (step cap) q ops) ++ run (step cap) q ops := by
  induction ops generalizing q with
  | nil => simp [trace, accepted, taken, run]
  | cons op ops ih =>
    rw [trace, accepted_cons, taken_cons, ← List.append_assoc, step_balance, List.append_assoc,
      ih (step cap q op).1, List.append_assoc]
    rfl

theorem taken_drain (cap : ℕ) (q : List α) : taken (trace (step cap) q (List.replicate q.length .take)) = q := by
  induction q with
  | nil => rfl
  | cons x q ih =>
    rw [List.length_cons, List.replicate_succ, trace, taken_cons]; exact congrArg (x :: ·) ih

theorem run_length_le {cap : ℕ} {q : List α} (h : q.length ≤ cap) (ops : List (Op α)) :
    (run (step cap) q ops).length ≤ cap := by
  induction ops generalizing q with
  | nil => exact h
  | cons op ops ih =>
    refine ih (q := (step cap q op).1) ?_
    cases op with
    | put x =>
      by_cases hroom : q.length < cap
      · rw [step_put_room hroom, List.length_append, List.length_singleton]; omega
      · rwa [step_put_full hroom]
    | take =>
      have htail : q.tail.length = q.length - 1 := List.length_tail
      show q.tail.length ≤ cap
      omega
    | count => exact h

end Rtl8852cu.Lib.Fifo
