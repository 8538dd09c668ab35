import Mathlib.Data.List.Induction
import Mathlib.Data.List.Perm.Basic

/-!
# Grouping a list by insertion

Entries with a key are put into a list one after the other, each behind the last entry of its key, or
at the end when it is the first.

* `grouped_perm`: nothing is lost or doubled;
* `filter_grouped`: the entries of a key keep their order;
* `grouped_block`: they stand together.
-/

namespace Rtl8852cu.Lib.Grouping

variable {α κ : Type*} [DecidableEq κ] (key : α → κ)

/-- Put `x` behind the last entry of its key, or at the end. -/
def place (x : α) : List α → List α
  | [] => [x]
  | y :: l => if key y = key x ∧ ∀ z ∈ l, key z ≠ key x then y :: x :: l else y :: place x l

/-- Every entry is put in, in turn. -/
def grouped (items : List α) : List α := items.foldl (fun l x => place key x l) []

variable {key} {x : α} {k : κ}

theorem place_perm (x : α) (l : List α) : (place key x l).Perm (x :: l) := by
  induction l with
  | nil => exact List.Perm.refl _
  | cons y l ih =>
    rw [place]
    split
    · exact List.Perm.swap x y l
    · exact (ih.cons y).trans (List.Perm.swap x y l)

theorem place_of_new {l : List α} (h : ∀ z ∈ l, key z ≠ key x) : place key x l = l ++ [x] := by
  induction l with
  | nil => rfl
  | cons y l ih =>
    rw [List.forall_mem_cons] at h
    rw [place, if_neg fun hh => h.1 hh.1, ih h.2]; rfl

theorem place_behind {u v : List α} {y : α} (hy : key y = key x) (hv : ∀ z ∈ v, key z ≠ key x) :
    place key x (u ++ y :: v) = u ++ y :: x :: v := by
  induction u with
  | nil => rw [List.nil_append, place, if_pos ⟨hy, hv⟩, List.nil_append]
  | cons w u ih =>
    have hmem : ¬ ∀ z ∈ u ++ y :: v, key z ≠ key x := fun h => h y (by simp) hy
    rw [List.cons_append, place, if_neg fun hh => hmem hh.2, ih]; rfl

theorem exists_last {l : List α} (h : ∃ z ∈ l, key z = k) :
    ∃ u y v, l = u ++ y :: v ∧ key y = k ∧ ∀ z ∈ v, key z ≠ k := by
  induction l with
  | nil =>
    obtain ⟨z, hz, -⟩ := h
    cases hz
  | cons w l ih =>
    by_cases hl : ∃ z ∈ l, key z = k
    · obtain ⟨u, y, v, rfl, hy, hv⟩ := ih hl; exact ⟨w :: u, y, v, rfl, hy, hv⟩
    · obtain ⟨z, hz, hk⟩ := h
      rcases List.mem_cons.mp hz with rfl | hz
      · exact ⟨[], z, l, rfl, hk, fun z hz hk => hl ⟨z, hz, hk⟩⟩
      · exact absurd ⟨z, hz, hk⟩ hl

theorem filter_eq_nil_of {v : List α} (h : ∀ z ∈ v, key z ≠ k) : v.filter (fun z => key z = k) = [] := by
  rw [List.filter_eq_nil_iff]
  intro z hz
  simpa using h z hz

theorem filter_place (x : α) (l : List α) (k : κ) : (place key x l).filter (fun z => key z = k) =
      l.filter (fun z => key z = k) ++ [x].filter (fun z => key z = k) := by
  by_cases hnew : ∃ z ∈ l, key z = key x
  · obtain ⟨u, y, v, rfl, hy, hv⟩ := exists_last hnew
    rw [place_behind hy hv, List.filter_append, List.filter_append, List.append_assoc]
    congr 1
    by_cases hk : key x = k
    · have hvk : v.filter (fun z => key z = k) = [] := filter_eq_nil_of fun z hz => hk ▸ hv z hz
      simp [hy, hk, hvk]
    · simp [hy, hk]
  · have hz : ∀ z ∈ l, key z ≠ key x := fun z hz hk => hnew ⟨z, hz, hk⟩
    rw [place_of_new hz, List.filter_append]

theorem grouped_concat (items : List α) (x : α) : grouped key (items ++ [x]) = place key x (grouped key items) := by
  rw [grouped, List.foldl_append]; rfl

theorem grouped_perm (items : List α) : (grouped key items).Perm items := by
  induction items using List.reverseRecOn with
  | nil => exact List.Perm.refl _
  | append_singleton items x ih =>
    rw [grouped_concat]
    exact (place_perm x _).trans ((ih.cons x).trans (List.perm_append_singleton x items).symm)

theorem filter_grouped (items : List α) (k : κ) :
    (grouped key items).filter (fun z => key z = k) = items.filter (fun z => key z = k) := by
  induction items using List.reverseRecOn with
  | nil => rfl
  | append_singleton items x ih => rw [grouped_concat, filter_place, ih, List.filter_append]

variable (key) in
/-- The entries of a key stand together. -/
def Block (l : List α) (k : κ) : Prop :=
  ∃ a b, l = a ++ l.filter (fun z => key z = k) ++ b ∧ ∀ z ∈ a ++ b, key z ≠ k

theorem filter_ne_key {a b m : List α} (hm : ∀ z ∈ m, key z = k) (h : ∀ z ∈ a ++ b, key z ≠ k) :
    (a ++ m ++ b).filter (fun z => key z = k) = m := by
  have ha := filter_eq_nil_of fun z hz => h z (List.mem_append_left b hz)
  have hb := filter_eq_nil_of fun z hz => h z (List.mem_append_right a hz)
  rw [List.filter_append, List.filter_append, ha, hb, List.nil_append, List.append_nil]
  exact List.filter_eq_self.mpr fun z hz => by simpa using hm z hz

theorem block_of {l a m b : List α} (hl : l = a ++ m ++ b) (hm : ∀ z ∈ m, key z = k)
    (h : ∀ z ∈ a ++ b, key z ≠ k) : Block key l k :=
  ⟨a, b, by rw [hl, filter_ne_key hm h], h⟩

theorem place_append_left {u v : List α} (hu : ∃ z ∈ u, key z = key x)
    (hv : ∀ z ∈ v, key z ≠ key x) : place key x (u ++ v) = place key x u ++ v := by
  obtain ⟨u₁, y, u₂, rfl, hy, hu₂⟩ := exists_last hu
  have hall : ∀ z ∈ u₂ ++ v, key z ≠ key x := fun z hz => by
    rcases List.mem_append.mp hz with hz | hz
    · exact hu₂ z hz
    · exact hv z hz
  rw [place_behind hy hu₂, List.append_assoc, List.cons_append, place_behind hy hall]; simp

theorem place_append_right {u v : List α} (hv : ∃ z ∈ v, key z = key x) :
    place key x (u ++ v) = u ++ place key x v := by
  obtain ⟨v₁, y, v₂, rfl, hy, hv₂⟩ := exists_last hv
  rw [place_behind hy hv₂, ← List.append_assoc, place_behind hy hv₂, List.append_assoc]

theorem Block.place {l : List α} (h : ∀ k, Block key l k) (x : α) (k : κ) : Block key (place key x l) k := by
  by_cases hnew : ∃ z ∈ l, key z = key x
  · obtain ⟨a, b, hl, hab⟩ := h k
    have hm : ∀ z ∈ l.filter (fun z => key z = k), key z = k := fun z hz => by
      simpa using (List.mem_filter.mp hz).2
    generalize l.filter (fun z => key z = k) = m at hl hm
    by_cases hk : key x = k
    · -- the entry goes behind the block
      have hmx : ∃ z ∈ m, key z = key x := by
        obtain ⟨z, hz, hzk⟩ := hnew
        rw [hl, List.append_assoc, List.mem_append, List.mem_append] at hz
        rcases hz with hz | hz | hz
        · exact absurd (hzk.trans hk) (hab z (List.mem_append_left b hz))
        · exact ⟨z, hz, hzk⟩
        · exact absurd (hzk.trans hk) (hab z (List.mem_append_right a hz))
      have hb : ∀ z ∈ b, key z ≠ key x := fun z hz hzk =>
        hab z (List.mem_append_right a hz) (hzk.trans hk)
      have hamx : ∃ z ∈ a ++ m, key z = key x := by
        obtain ⟨z, hz, hzk⟩ := hmx
        exact ⟨z, List.mem_append_right a hz, hzk⟩
      refine block_of (m := Grouping.place key x m) ?_ (fun z hz => ?_) hab
      · rw [hl, place_append_left hamx hb, place_append_right hmx]
      · rcases List.mem_cons.mp ((place_perm x m).mem_iff.mp hz) with rfl | hz
        · exact hk
        · exact hm z hz
    · -- the entry goes before it or behind it
      have hmx : ∀ z ∈ m, key z ≠ key x := fun z hz hzk => hk (hzk.symm.trans (hm z hz))
      by_cases hb : ∃ z ∈ b, key z = key x
      · refine block_of (a := a) (m := m) (by rw [hl, place_append_right hb]) hm fun z hz => ?_
        rcases List.mem_append.mp hz with hz | hz
        · exact hab z (List.mem_append_left b hz)
        · rcases List.mem_cons.mp ((place_perm x b).mem_iff.mp hz) with rfl | hz
          · exact hk
          · exact hab z (List.mem_append_right a hz)
      · have hbx : ∀ z ∈ b, key z ≠ key x := fun z hz hzk => hb ⟨z, hz, hzk⟩
        have ha : ∃ z ∈ a, key z = key x := by
          obtain ⟨z, hz, hzk⟩ := hnew
          rw [hl, List.append_assoc, List.mem_append, List.mem_append] at hz
          rcases hz with hz | hz | hz
          · exact ⟨z, hz, hzk⟩
          · exact absurd hzk (hmx z hz)
          · exact absurd hzk (hbx z hz)
        have hmbx : ∀ z ∈ m ++ b, key z ≠ key x := fun z hz => by
          rcases List.mem_append.mp hz with hz | hz
          · exact hmx z hz
          · exact hbx z hz
        refine block_of (a := Grouping.place key x a) (m := m) (b := b) ?_ hm fun z hz => ?_
        · rw [hl, List.append_assoc, place_append_left ha hmbx, List.append_assoc]
        · rcases List.mem_append.mp hz with hz | hz
          · rcases List.mem_cons.mp ((place_perm x a).mem_iff.mp hz) with rfl | hz
            · exact hk
            · exact hab z (List.mem_append_left b hz)
          · exact hab z (List.mem_append_right a hz)
  · have hz : ∀ z ∈ l, key z ≠ key x := fun z hz hk => hnew ⟨z, hz, hk⟩
    rw [place_of_new hz]
    by_cases hk : key x = k
    · refine block_of (a := l) (m := [x]) (b := []) (List.append_nil _).symm (fun z hzx => ?_)
        fun z hzl => ?_
      · rw [List.mem_singleton.mp hzx, hk]
      · rw [List.append_nil] at hzl; exact hk ▸ hz z hzl
    · obtain ⟨a, b, hl, hab⟩ := h k
      refine block_of (a := a) (b := b ++ [x])
        ((congrArg (· ++ [x]) hl).trans (List.append_assoc _ _ _))
        (fun z hzm => by simpa using (List.mem_filter.mp hzm).2) fun z hzab => ?_
      rw [← List.append_assoc, List.mem_append] at hzab
      rcases hzab with hzab | hzx
      · exact hab z hzab
      · rw [List.mem_singleton.mp hzx]; exact hk

/-- **Grouping.** -/
theorem grouped_block (items : List α) (k : κ) : Block key (grouped key items) k := by
  induction items using List.reverseRecOn generalizing k with
  | nil => exact ⟨[], [], rfl, fun z hz => nomatch hz⟩
  | append_singleton items x ih =>
    rw [grouped_concat]; exact Block.place ih x k

end Rtl8852cu.Lib.Grouping
