import Mathlib.Data.List.Induction

/-!
# Reachable states of a stepping system

A system is a step function `step : σ → α → σ`: the next state from the state and the action taken.
`ok s a` says which actions count; `Reach step ok s₀ s` says that `s` is reached from `s₀` by such
actions, so a property of every `Reach`able state is a property of every state of every run whose
steps all meet `ok`.

* `Reach.invariant`: what holds at the start and is kept by a step holds everywhere;
* `Legal.reach`: the run of a list of actions that each count in their turn;
* `legal_and`: actions that count in two ways;
* `legal_congr`: under an invariant, the same runs for two ways of counting;
* `Legal.keeps`, `Legal.always_iff`: a property holds all along such a run exactly when no action of it is bad.
-/

namespace Rtl8852cu.Lib

variable {σ τ α β : Type*}

/-- The states reached from `s₀` by steps that meet `ok`. -/
inductive Reach (step : σ → α → σ) (ok : σ → α → Prop) (s₀ : σ) : σ → Prop
  | init : Reach step ok s₀ s₀
  | step {s : σ} (a : α) : Reach step ok s₀ s → ok s a → Reach step ok s₀ (step s a)

namespace Reach

variable {step : σ → α → σ} {ok ok' : σ → α → Prop} {s₀ s : σ}

/-- **The invariant rule.** -/
theorem invariant {I : σ → Prop} (h₀ : I s₀) (hs : ∀ s a, I s → ok s a → I (step s a))
    (h : Reach step ok s₀ s) : I s := by
  induction h with
  | init => exact h₀
  | step a _ ha ih => exact hs _ a ih ha

theorem trans {s₁ : σ} (h₁ : Reach step ok s₀ s₁) (h₂ : Reach step ok s₁ s) : Reach step ok s₀ s := by
  induction h₂ with
  | init => exact h₁
  | step a _ ha ih => exact .step a ih ha

theorem foldl (as : List α) (hok : ∀ a ∈ as, ∀ s, ok s a) : Reach step ok s₀ (as.foldl step s₀) := by
  induction as generalizing s₀ with
  | nil => exact .init
  | cons a as ih =>
    have h₁ : Reach step ok s₀ (step s₀ a) := .step a .init (hok a (by simp) s₀)
    exact h₁.trans (ih fun b hb => hok b (List.mem_cons_of_mem a hb))

end Reach

/-- Each action of the list counts when its turn comes. -/
def Legal (step : σ → α → σ) (ok : σ → α → Prop) : σ → List α → Prop
  | _, [] => True
  | s, a :: as => ok s a ∧ Legal step ok (step s a) as

instance Legal.decidable {step : σ → α → σ} {ok : σ → α → Prop} [∀ s a, Decidable (ok s a)] :
    ∀ (s : σ) (as : List α), Decidable (Legal step ok s as)
  | _, [] => inferInstanceAs (Decidable True)
  | s, a :: as =>
    have : Decidable (Legal step ok (step s a) as) := Legal.decidable (step s a) as
    inferInstanceAs (Decidable (_ ∧ _))

variable {step : σ → α → σ} {ok : σ → α → Prop} {as : List α}

theorem Legal.reach {s : σ} (h : Legal step ok s as) : Reach step ok s (as.foldl step s) := by
  induction as generalizing s with
  | nil => exact .init
  | cons a as ih => exact (Reach.step a .init h.1).trans (ih h.2)

theorem legal_append {s : σ} {bs : List α} :
    Legal step ok s (as ++ bs) ↔ Legal step ok s as ∧ Legal step ok (as.foldl step s) bs := by
  induction as generalizing s with
  | nil => exact (true_and _).symm.to_iff
  | cons a as ih =>
    show ok s a ∧ Legal step ok (step s a) (as ++ bs) ↔ _
    rw [ih, ← and_assoc]; rfl

theorem legal_and {ok' : σ → α → Prop} {s : σ} :
    Legal step (fun s a => ok s a ∧ ok' s a) s as ↔ Legal step ok s as ∧ Legal step ok' s as := by
  induction as generalizing s with
  | nil => exact (and_self _).symm.to_iff
  | cons a as ih =>
    show (ok s a ∧ ok' s a) ∧ Legal step (fun s a => ok s a ∧ ok' s a) (step s a) as ↔
      (ok s a ∧ Legal step ok (step s a) as) ∧ ok' s a ∧ Legal step ok' (step s a) as
    rw [ih]; exact and_and_and_comm

theorem legal_of_forall (hok : ∀ s a, ok s a) (s : σ) (as : List α) : Legal step ok s as := by
  induction as generalizing s with
  | nil => trivial
  | cons a as ih => exact ⟨hok s a, ih (step s a)⟩

theorem legal_congr {ok' : σ → α → Prop} {J : σ → Prop} {s : σ} (h₀ : J s)
    (hiff : ∀ s a, J s → (ok s a ↔ ok' s a)) (hkeep : ∀ s a, J s → ok s a → J (step s a)) :
    Legal step ok s as ↔ Legal step ok' s as := by
  induction as generalizing s with
  | nil => exact Iff.rfl
  | cons a as ih =>
    refine ⟨fun h => ⟨(hiff s a h₀).mp h.1, (ih (hkeep s a h₀ h.1)).mp h.2⟩, fun h => ?_⟩
    have hok := (hiff s a h₀).mpr h.1
    exact ⟨hok, (ih (hkeep s a h₀ hok)).mpr h.2⟩

section Always

variable {step : σ → α → σ} {ok B : σ → α → Prop} {J P : σ → Prop} {s : σ} {as : List α}

theorem Legal.last {pre : List α} {a : α} (h : Legal step ok s as) (hpre : pre ++ [a] <+: as) :
    ok (pre.foldl step s) a := by
  obtain ⟨rest, rfl⟩ := hpre
  exact (legal_append.mp (legal_append.mp h).1).2.1

theorem Legal.keeps (h₀ : J s) (hgood : ∀ s a, J s → ok s a → ¬ B s a → J (step s a))
    (h : Legal step ok s as) (hnot : ∀ pre a, pre ++ [a] <+: as → ¬ B (pre.foldl step s) a)
    {pre : List α} (hpre : pre <+: as) : J (pre.foldl step s) := by
  induction pre using List.reverseRecOn with
  | nil => exact h₀
  | append_singleton pre a ih =>
    rw [List.foldl_append]
    exact hgood _ a (ih ((List.prefix_append _ _).trans hpre)) (h.last hpre) (hnot pre a hpre)

/-- **A property of all states of a run.** An action that is not bad keeps the invariant `J`, which has
the property; a bad one breaks the property. -/
theorem Legal.always_iff (h₀ : J s) (hJ : ∀ s, J s → P s) (hgood : ∀ s a, J s → ok s a → ¬ B s a → J (step s a))
    (hbad : ∀ s a, J s → ok s a → B s a → ¬ P (step s a)) (h : Legal step ok s as) :
    (∀ pre, pre <+: as → P (pre.foldl step s)) ↔ ∀ pre a, pre ++ [a] <+: as → ¬ B (pre.foldl step s) a := by
  constructor
  · intro hP
    have hinv : ∀ pre, pre <+: as → J (pre.foldl step s) := by
      intro pre
      induction pre using List.reverseRecOn with
      | nil => exact fun _ => h₀
      | append_singleton pre a ih =>
        intro hpre
        have hP' := hP _ hpre
        rw [List.foldl_append] at hP' ⊢
        have hok := h.last hpre
        have hpre' := ih ((List.prefix_append _ _).trans hpre)
        exact hgood _ a hpre' hok fun hb => hbad _ a hpre' hok hb hP'
    intro pre a hpre hb
    have hP' := hP _ hpre
    rw [List.foldl_append] at hP'
    exact hbad _ a (hinv pre ((List.prefix_append _ _).trans hpre)) (h.last hpre) hb hP'
  · exact fun hnot pre hpre => hJ _ (h.keeps h₀ hgood hnot hpre)

end Always

end Rtl8852cu.Lib
