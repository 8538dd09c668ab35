import Mathlib.Data.List.Nodup
import Mathlib.Data.List.Perm.Basic
import Mathlib.Data.Set.Defs

/-!
# Items in exactly one place

A store of items of type `α` that are, at any moment, on a free list, in one of a family of queues,
or with a holder.  `Custody` says that every item of the store is in exactly one of these places.
`take` and `release` move an item between the free list and the holder, `exchange` moves items between
the holder and one queue; `forget` is what is left when the holder drops items.
-/

namespace Rtl8852cu.Lib

open Function (update_self update_of_ne)

/-- Every item of `store` is in one place, and nothing else is anywhere. -/
structure Custody {α ι : Type*} (store : Set α) (free held : List α) (queue : ι → List α) : Prop where
  nodup : (free ++ held).Nodup
  queue_nodup : ∀ i, (queue i).Nodup
  disjoint : ∀ i a, a ∈ queue i → a ∉ free ++ held
  unique : ∀ i j a, a ∈ queue i → a ∈ queue j → i = j
  mem_iff : ∀ a, a ∈ store ↔ a ∈ free ++ held ∨ ∃ i, a ∈ queue i

namespace Custody

variable {α ι : Type*} {store : Set α} {free held : List α} {queue : ι → List α}

theorem move {free' held' : List α} (h : Custody store free held queue)
    (hp : (free ++ held).Perm (free' ++ held')) : Custody store free' held' queue where
  nodup := hp.nodup_iff.1 h.nodup
  queue_nodup := h.queue_nodup
  disjoint := fun i a ha hm => h.disjoint i a ha (hp.mem_iff.2 hm)
  unique := h.unique
  mem_iff := fun a => by rw [h.mem_iff, hp.mem_iff]

theorem take {a : α} (h : Custody store (a :: free) held queue) :
    Custody store free (a :: held) queue := h.move List.perm_middle.symm

theorem nodup_all (h : Custody store free held queue) (i : ι) : (queue i ++ (free ++ held)).Nodup := by
  rw [List.nodup_append']; exact ⟨h.queue_nodup i, h.nodup, fun a ha => h.disjoint i a ha⟩

theorem exchange [DecidableEq ι] {i : ι} {new held' : List α} (h : Custody store free held queue)
    (hp : (queue i ++ held).Perm (new ++ held')) :
    Custody store free held' (Function.update queue i new) := by
  have hp' : (queue i ++ (free ++ held)).Perm (new ++ (free ++ held')) := by
    refine (List.perm_append_comm_assoc ..).trans ?_
    exact (hp.append_left free).trans (List.perm_append_comm_assoc ..)
  have hnd := hp'.nodup_iff.1 (h.nodup_all i)
  obtain ⟨hnew, hrest, hdisj⟩ := List.nodup_append'.1 hnd
  -- an item of another queue is neither among the old ones nor among the new ones
  have hother : ∀ j a, j ≠ i → a ∈ queue j → a ∉ new ++ (free ++ held') := by
    intro j a hj ha hmem
    rcases List.mem_append.1 (hp'.mem_iff.2 hmem) with hq | hq
    · exact hj (h.unique j i a ha hq)
    · exact h.disjoint j a ha hq
  refine ⟨hrest, fun j => ?_, fun j a ha => ?_, fun j k a hj hk => ?_, fun a => ?_⟩
  · by_cases hj : j = i
    · subst hj
      rwa [update_self]
    · rw [update_of_ne hj]; exact h.queue_nodup j
  · by_cases hj : j = i
    · subst hj
      rw [update_self] at ha; exact hdisj ha
    · rw [update_of_ne hj] at ha; exact fun hm => hother j a hj ha (List.mem_append_right _ hm)
  · by_cases hji : j = i
    · by_cases hki : k = i
      · rw [hji, hki]
      · subst hji
        rw [update_self] at hj
        rw [update_of_ne hki] at hk; exact absurd (List.mem_append_left _ hj) (hother k a hki hk)
    · rw [update_of_ne hji] at hj
      by_cases hki : k = i
      · subst hki
        rw [update_self] at hk; exact absurd (List.mem_append_left _ hk) (hother j a hji hj)
      · rw [update_of_ne hki] at hk; exact h.unique j k a hj hk
  · rw [h.mem_iff]
    constructor
    · intro hm
      have hm' : a ∈ new ++ (free ++ held') ∨ ∃ j, j ≠ i ∧ a ∈ queue j := by
        rcases hm with hm | ⟨j, hj⟩
        · exact .inl (hp'.mem_iff.1 (List.mem_append_right _ hm))
        · by_cases hji : j = i
          · subst hji; exact .inl (hp'.mem_iff.1 (List.mem_append_left _ hj))
          · exact .inr ⟨j, hji, hj⟩
      rcases hm' with hm' | ⟨j, hji, hj⟩
      · rcases List.mem_append.1 hm' with hn | hn
        · exact .inr ⟨i, by rwa [update_self]⟩
        · exact .inl hn
      · exact .inr ⟨j, by rwa [update_of_ne hji]⟩
    · intro hm
      have hm' : a ∈ new ++ (free ++ held') ∨ ∃ j, j ≠ i ∧ a ∈ queue j := by
        rcases hm with hm | ⟨j, hj⟩
        · exact .inl (List.mem_append_right _ hm)
        · by_cases hji : j = i
          · subst hji
            rw [update_self] at hj; exact .inl (List.mem_append_left _ hj)
          · rw [update_of_ne hji] at hj; exact .inr ⟨j, hji, hj⟩
      rcases hm' with hm' | ⟨j, -, hj⟩
      · rcases List.mem_append.1 (hp'.mem_iff.2 hm') with hn | hn
        · exact .inr ⟨i, hn⟩
        · exact .inl hn
      · exact .inr ⟨j, hj⟩

theorem forget {lost : List α} (h : Custody store free (lost ++ held) queue) :
    Custody { a | a ∈ store ∧ a ∉ lost } free held queue := by
  have hsub : (free ++ held).Sublist (free ++ (lost ++ held)) :=
    (List.Sublist.refl free).append (List.sublist_append_right lost held)
  refine ⟨h.nodup.sublist hsub, h.queue_nodup, fun i a ha hm => h.disjoint i a ha (hsub.subset hm), h.unique, fun a => ?_⟩
  have hlost : a ∈ lost → a ∉ free ++ held := by
    intro hl hm
    obtain ⟨-, hrest, hfree⟩ := List.nodup_append'.1 h.nodup
    rcases List.mem_append.1 hm with hm | hm
    · exact hfree hm (List.mem_append_left held hl)
    · exact (List.nodup_append'.1 hrest).2.2 hl hm
  constructor
  · rintro ⟨ha, hl⟩
    rcases (h.mem_iff a).1 ha with hm | hq
    · refine .inl ?_
      rcases List.mem_append.1 hm with hm | hm
      · exact List.mem_append_left held hm
      · exact List.mem_append_right free ((List.mem_append.1 hm).resolve_left hl)
    · exact .inr hq
  · rintro (hm | ⟨i, hq⟩)
    · exact ⟨(h.mem_iff a).2 (.inl (hsub.subset hm)), fun hl => hlost hl hm⟩
    · exact ⟨(h.mem_iff a).2 (.inr ⟨i, hq⟩), fun hl =>
        h.disjoint i a hq (List.mem_append_right free (List.mem_append_left held hl))⟩

theorem mem_store {store' : Set α} {a : α} (h : Custody store free held queue) (h' : Custody store' free held queue)
    (ha : a ∈ store) : a ∈ store' := (h'.mem_iff a).2 ((h.mem_iff a).1 ha)

theorem release [DecidableEq α] {a : α} (h : Custody store free held queue) (ha : a ∈ store) (hf : a ∉ free) :
    Custody store (free ++ [a]) (held.erase a) fun i => (queue i).erase a := by
  have hheld : held.Nodup := h.nodup.of_append_right
  have hmem : ∀ b, b ∈ free ++ [a] ++ held.erase a ↔ b = a ∨ b ∈ free ++ held := by
    intro b
    by_cases hb : b = a
    · simp [hb]
    · simp [hb, List.mem_erase_of_ne hb]
  refine ⟨?_, fun i => (h.queue_nodup i).erase a, fun i b hb hm => ?_, fun i j b hi hj => ?_, fun b => ?_⟩
  · rw [List.append_assoc, List.nodup_append']
    obtain ⟨hfree, -, hdisj⟩ := List.nodup_append'.1 h.nodup
    refine ⟨hfree, ?_, fun b hb hm => ?_⟩
    · exact List.nodup_cons.2 ⟨hheld.not_mem_erase, hheld.erase a⟩
    · rcases List.mem_cons.1 hm with rfl | hm
      · exact hf hb
      · exact hdisj hb (List.mem_of_mem_erase hm)
  · rcases (hmem b).1 hm with rfl | hm
    · exact (h.queue_nodup i).not_mem_erase hb
    · exact h.disjoint i b (List.mem_of_mem_erase hb) hm
  · exact h.unique i j b (List.mem_of_mem_erase hi) (List.mem_of_mem_erase hj)
  · rw [hmem, h.mem_iff]
    by_cases hb : b = a
    · subst hb
      have := (h.mem_iff b).1 ha
      simpa using this
    · simp [hb, List.mem_erase_of_ne hb]

end Custody

end Rtl8852cu.Lib
