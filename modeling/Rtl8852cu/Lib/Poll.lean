import Mathlib.Data.Set.Image
import Mathlib.Order.Bounds.Basic

/-!
# Joined votes

Voters have a vote on each topic, and there is one outcome for a topic. A ballot is a voter with its new votes on
some topics; the outcome of these, and of no other, is joined again from the new votes and those the other voters of
the list have.

* `Poll.Joined`: the outcome of a topic is the join of the votes of all voters of the list;
* `joined_cast`: the ballot of a voter of the list makes the outcome of its topics so, and leaves the others as they are;
* `joined_run`: after a run of ballots the outcome is so for every topic on which a ballot was.
-/

namespace Rtl8852cu.Lib

/-- The votes, and the outcome. -/
structure Poll (V T L : Type*) where
  vote : V → T → L
  out : T → L

variable {V T L : Type*} [DecidableEq V]

/-- The votes of `v` after new ones. -/
def revote (vote : V → T → L) (v : V) (new : T → Option L) : V → T → L :=
  fun u t => if u = v then (new t).getD (vote u t) else vote u t

/-- The last vote of `v` on `t` in a list of ballots, or the one it had. -/
def lastVote (vote : V → T → L) (ballots : List (V × (T → Option L))) : V → T → L :=
  ballots.foldl (fun vote b => revote vote b.1 b.2) vote

namespace Poll

variable [SemilatticeSup L] {vs : List V} {p : Poll V T L} {v : V} {new : T → Option L} {t : T}

/-- The vote `own` joined with those of the other voters. -/
def tally (vs : List V) (p : Poll V T L) (v : V) (own : L) (t : T) : L :=
  (vs.filter fun u => u ≠ v).foldl (fun acc u => acc ⊔ p.vote u t) own

/-- A ballot. -/
def cast (vs : List V) (p : Poll V T L) (b : V × (T → Option L)) : Poll V T L where
  vote := revote p.vote b.1 b.2
  out t := ((b.2 t).map fun own => p.tally vs b.1 own t).getD (p.out t)

/-- The outcome of `t` is the join of the votes on it. -/
def Joined (vs : List V) (p : Poll V T L) (t : T) : Prop := IsLUB {l | ∃ u ∈ vs, p.vote u t = l} (p.out t)

omit [DecidableEq V] in
theorem isLUB_foldl (f : V → L) (us : List V) (own : L) :
    IsLUB {l | l = own ∨ ∃ u ∈ us, f u = l} (us.foldl (fun acc u => acc ⊔ f u) own) := by
  induction us generalizing own with
  | nil =>
    refine ⟨?_, fun _ hb => hb (.inl rfl)⟩
    rintro l (rfl | ⟨u, hu, -⟩)
    · exact le_rfl
    · cases hu
  | cons w us ih =>
    obtain ⟨hub, hleast⟩ := ih (own ⊔ f w)
    have hown : own ⊔ f w ≤ us.foldl (fun acc u => acc ⊔ f u) (own ⊔ f w) := hub (.inl rfl)
    rw [List.foldl_cons]
    constructor
    · rintro l (rfl | ⟨u, hu, rfl⟩)
      · exact le_sup_left.trans hown
      · rcases List.mem_cons.mp hu with rfl | hu
        · exact le_sup_right.trans hown
        · exact hub (.inr ⟨u, hu, rfl⟩)
    · refine fun b hb => hleast ?_
      rintro l (rfl | ⟨u, hu, rfl⟩)
      · exact sup_le (hb (.inl rfl)) (hb (.inr ⟨w, List.mem_cons_self, rfl⟩))
      · exact hb (.inr ⟨u, List.mem_cons_of_mem w hu, rfl⟩)

theorem joined_cast (hv : v ∈ vs) (h : new t ≠ none ∨ p.Joined vs t) : (p.cast vs (v, new)).Joined vs t := by
  cases hnew : new t with
  | none =>
    have hj := h.resolve_left fun hne => hne hnew
    have hvote : ∀ u, (p.cast vs (v, new)).vote u t = p.vote u t := by
      intro u
      show (if u = v then (new t).getD (p.vote u t) else p.vote u t) = p.vote u t
      rw [hnew]; exact ite_self _
    have hout : (p.cast vs (v, new)).out t = p.out t := by
      show ((new t).map fun own => p.tally vs v own t).getD (p.out t) = p.out t
      rw [hnew]; rfl
    unfold Joined
    rw [hout]
    simp only [hvote]; exact hj
  | some own =>
    have hout : (p.cast vs (v, new)).out t = p.tally vs v own t := by
      show ((new t).map fun own => p.tally vs v own t).getD (p.out t) = p.tally vs v own t
      rw [hnew]; rfl
    have hself : (p.cast vs (v, new)).vote v t = own := by
      show (if v = v then (new t).getD (p.vote v t) else p.vote v t) = own
      rw [if_pos rfl, hnew]; rfl
    have hother : ∀ u ≠ v, (p.cast vs (v, new)).vote u t = p.vote u t := fun u hu => if_neg hu
    have hset : {l | ∃ u ∈ vs, (p.cast vs (v, new)).vote u t = l} =
        {l | l = own ∨ ∃ u ∈ vs.filter fun u => u ≠ v, p.vote u t = l} := by
      ext l
      constructor
      · rintro ⟨u, hu, rfl⟩
        by_cases huv : u = v
        · rw [huv]; exact .inl hself
        · exact .inr ⟨u, List.mem_filter.mpr ⟨hu, decide_eq_true huv⟩, (hother u huv).symm⟩
      · rintro (rfl | ⟨u, hu, rfl⟩)
        · exact ⟨v, hv, hself⟩
        · obtain ⟨hu, huv⟩ := List.mem_filter.mp hu; exact ⟨u, hu, hother u (of_decide_eq_true huv)⟩
    unfold Joined
    rw [hout, hset]; exact isLUB_foldl (fun u => p.vote u t) _ own

/-- **A run of ballots.** -/
theorem joined_run {ballots : List (V × (T → Option L))} (hmem : ∀ b ∈ ballots, b.1 ∈ vs)
    (h : (∃ b ∈ ballots, b.2 t ≠ none) ∨ p.Joined vs t) : (ballots.foldl (cast vs) p).Joined vs t := by
  induction ballots generalizing p with
  | nil =>
    rcases h with ⟨b, hb, -⟩ | h
    · cases hb
    · exact h
  | cons b ballots ih =>
    refine ih (fun c hc => hmem c (List.mem_cons_of_mem b hc)) ?_
    have hv := hmem b List.mem_cons_self
    rcases h with ⟨c, hc, hne⟩ | h
    · rcases List.mem_cons.mp hc with rfl | hc
      · exact .inr (joined_cast hv (.inl hne))
      · exact .inl ⟨c, hc, hne⟩
    · exact .inr (joined_cast hv (.inr h))

theorem vote_run (ballots : List (V × (T → Option L))) :
    (ballots.foldl (cast vs) p).vote = lastVote p.vote ballots := by
  induction ballots generalizing p with
  | nil => rfl
  | cons b ballots ih => exact ih

end Poll

end Rtl8852cu.Lib
