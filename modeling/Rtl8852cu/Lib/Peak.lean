import Mathlib.Data.List.Nodup
import Mathlib.Order.Defs.LinearOrder
import Mathlib.Data.Nat.Notation
import Mathlib.Algebra.Order.Ring.Int

/-!
# A list with its number and its peak

A list whose items have distinct keys, a counter of its items and a pointer to the item with the
largest key.  `Peaked` says that counter and pointer are right; `insert` and `erase` are the two ways
in which they are kept without a scan of the list: a new item is compared with the old peak, and only
when the peak itself is taken out another has to be found among the rest.
-/

namespace Rtl8852cu.Lib

variable {ι κ : Type*} [LinearOrder κ] {key : ι → κ} {l : List ι} {n : ℤ} {m : Option ι}

/-- `x` is in the list and no item has a larger key. -/
def IsPeak (key : ι → κ) (l : List ι) (x : ι) : Prop := x ∈ l ∧ ∀ y ∈ l, key y ≤ key x

/-- `n` is the number of the items of `l`, `m` the one with the largest key. -/
structure Peaked (key : ι → κ) (l : List ι) (n : ℤ) (m : Option ι) : Prop where
  nodup : l.Nodup
  inj : ∀ x ∈ l, ∀ y ∈ l, key x = key y → x = y
  num : n = l.length
  peak : ∀ x, m = some x ↔ IsPeak key l x

namespace Peaked

theorem nil : Peaked key [] 0 none where
  nodup := List.nodup_nil
  inj := nofun
  num := rfl
  peak := fun _ => ⟨nofun, fun h => nomatch h.1⟩

theorem num_eq_zero (h : Peaked key l n m) : n = 0 ↔ l = [] := by
  rw [h.num, Int.natCast_eq_zero, List.length_eq_zero_iff]

theorem congr {key' : ι → κ} (h : Peaked key l n m) (hkey : ∀ x ∈ l, key' x = key x) : Peaked key' l n m where
  nodup := h.nodup
  inj := fun x hx y hy he => h.inj x hx y hy (by rw [← hkey x hx, ← hkey y hy, he])
  num := h.num
  peak := by
    intro x
    rw [h.peak]
    refine and_congr_right fun hx => forall₂_congr fun y hy => ?_
    rw [hkey x hx, hkey y hy]

theorem eq_none_iff (h : Peaked key l n m) : m = none ↔ l = [] := by
  constructor
  · intro hm
    by_contra hne
    have hpeak : ∀ l' : List ι, l' ≠ [] → ∃ x, IsPeak key l' x := by
      intro l'
      induction l' with
      | nil => exact fun h => absurd rfl h
      | cons a l' ih =>
        intro _
        by_cases hl : l' = []
        · subst hl
          exact ⟨a, List.mem_singleton_self a, fun y hy => (List.mem_singleton.mp hy) ▸ le_rfl⟩
        obtain ⟨x, hx, hle⟩ := ih hl
        rcases le_total (key a) (key x) with hax | hxa
        · exact ⟨x, List.mem_cons_of_mem a hx, List.forall_mem_cons.mpr ⟨hax, hle⟩⟩
        · exact ⟨a, List.mem_cons_self, List.forall_mem_cons.mpr ⟨le_rfl, fun y hy => (hle y hy).trans hxa⟩⟩
    obtain ⟨x, hx⟩ := hpeak l hne
    rw [(h.peak x).mpr hx] at hm; exact nomatch hm
  · rintro rfl
    refine Option.eq_none_iff_forall_ne_some.mpr fun x hx => ?_
    exact nomatch ((h.peak x).mp hx).1

/-- **A new item** is compared with the peak, if there is one. -/
theorem insert {a : ι} {m' : Option ι} (h : Peaked key l n m) (hnew : ∀ x ∈ l, key x ≠ key a)
    (hfirst : m = none → m' = some a) (hnext : ∀ x, m = some x → m' = if key x < key a then some a else some x) :
    Peaked key (a :: l) (n + 1) m' where
  nodup := List.nodup_cons.mpr ⟨fun ha => hnew a ha rfl, h.nodup⟩
  inj := by
    refine List.forall_mem_cons.mpr ⟨List.forall_mem_cons.mpr ⟨fun _ => rfl, fun y hy he => ?_⟩, fun x hx => ?_⟩
    · exact absurd he.symm (hnew y hy)
    · exact List.forall_mem_cons.mpr ⟨fun he => absurd he (hnew x hx), h.inj x hx⟩
  num := by
    rw [h.num, List.length_cons]; omega
  peak := by
    intro x
    cases hm : m with
    | none =>
      rw [h.eq_none_iff.mp hm, hfirst hm, Option.some.injEq]
      constructor
      · rintro rfl; exact ⟨List.mem_cons_self, fun y hy => List.mem_singleton.mp hy ▸ le_rfl⟩
      · exact fun hx => (List.mem_singleton.mp hx.1).symm
    | some b =>
      have hb := (h.peak b).mp hm
      rw [hnext b hm]
      by_cases hlt : key b < key a
      · rw [if_pos hlt, Option.some.injEq]
        constructor
        · rintro rfl
          exact ⟨List.mem_cons_self, List.forall_mem_cons.mpr ⟨le_rfl, fun y hy => (hb.2 y hy).trans hlt.le⟩⟩
        · rintro ⟨hx, hle⟩
          rcases List.mem_cons.mp hx with rfl | hx
          · rfl
          · exact absurd ((hb.2 x hx).trans_lt hlt) (hle a List.mem_cons_self).not_gt
      · rw [if_neg hlt, ← hm, h.peak]
        constructor
        · rintro ⟨hx, hle⟩
          refine ⟨List.mem_cons_of_mem a hx, List.forall_mem_cons.mpr ⟨?_, hle⟩⟩
          exact (not_lt.mp hlt).trans (hle b hb.1)
        · rintro ⟨hx, hle⟩
          have hle' := List.forall_mem_cons.mp hle
          rcases List.mem_cons.mp hx with rfl | hx
          · exact absurd (le_antisymm (hle'.2 b hb.1) (not_lt.mp hlt)) (hnew b hb.1)
          · exact ⟨hx, hle'.2⟩

/-- **An item is taken out**: `m'` is the peak of the rest when it was the peak, and when it was the only item there is
none. -/
theorem erase [DecidableEq ι] {a : ι} {m' : Option ι} (h : Peaked key l n m) (ha : a ∈ l) (hone : n = 1 → m' = none)
    (hmax : n ≠ 1 → m = some a → ∃ x, m' = some x ∧ IsPeak key (l.erase a) x)
    (hkeep : n ≠ 1 → m ≠ some a → m' = m) : Peaked key (l.erase a) (n - 1) m' where
  nodup := h.nodup.erase a
  inj := fun x hx y hy => h.inj x (List.mem_of_mem_erase hx) y (List.mem_of_mem_erase hy)
  num := by
    have hpos := List.length_pos_of_mem ha
    rw [h.num, List.length_erase_of_mem ha]; omega
  peak := by
    intro x
    have hlen := List.length_erase_of_mem ha
    by_cases h1 : n = 1
    · have hnil : l.erase a = [] := by
        have hn := h.num
        exact List.length_eq_zero_iff.mp (by omega)
      rw [hone h1, hnil]; exact iff_of_false nofun fun hx => nomatch hx.1
    by_cases hm : m = some a
    · obtain ⟨b, hb, hpeak⟩ := hmax h1 hm
      rw [hb, Option.some.injEq]
      constructor
      · rintro rfl; exact hpeak
      · intro hx
        refine h.inj b (List.mem_of_mem_erase hpeak.1) x (List.mem_of_mem_erase hx.1) ?_
        exact le_antisymm (hx.2 b hpeak.1) (hpeak.2 x hx.1)
    · rw [hkeep h1 hm, h.peak]
      have hnm : ¬ IsPeak key l a := fun hp => hm ((h.peak a).mpr hp)
      constructor
      · rintro ⟨hx, hle⟩
        have hxa : x ≠ a := fun he => hnm (he ▸ ⟨hx, hle⟩)
        exact ⟨(List.mem_erase_of_ne hxa).mpr hx, fun y hy => hle y (List.mem_of_mem_erase hy)⟩
      · rintro ⟨hx, hle⟩
        have hx' := List.mem_of_mem_erase hx
        -- the old peak is still in the list
        obtain ⟨b, hb⟩ := Option.ne_none_iff_exists'.mp fun hm => List.ne_nil_of_mem ha (h.eq_none_iff.mp hm)
        have hpb := (h.peak b).mp hb
        have hba : b ≠ a := fun he => hnm (he ▸ hpb)
        have hbx := hle b ((List.mem_erase_of_ne hba).mpr hpb.1)
        exact ⟨hx', fun y hy => (hpb.2 y hy).trans hbx⟩

end Peaked

end Rtl8852cu.Lib
