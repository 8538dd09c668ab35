import Rtl8852cu.Mesh.TableRuns
import Mathlib.Data.List.Find

/-!
# The operations on the tables

`PathOp` are the calls of the rest of the driver: additions and deletions, flushes and expiry, gates
added and taken out by the path selection, and any other change of a path (`touch`).  A walk is given
the pointers that its iterator yields.  `Walking` is what a walk over one table leaves, and
`settled_step` says that no operation reads a path that is freed and that each keeps the book.
-/

namespace Rtl8852cu.Mesh

open Lib

namespace MeshInfo

variable {adapter : Adapter} {now : Systime} {s s₀ s₁ s' : MeshInfo} {t : Table} {p q : ℕ} {a b : MeshPath}

/-! ### Walks -/

/-- Every path that is there is in a table or retired. -/
def Owned (s : MeshInfo) : Prop := ∀ p, (s.path p).isSome → (∃ t, p ∈ s.tbl t) ∨ p ∈ s.retired

/-- `mpaths` without the number of paths in both tables. -/
def excess (s : MeshInfo) : ℤ := s.mpaths - (s.tbl .meshPaths).length - (s.tbl .mppPaths).length

/-- What a walk over the table `t` leaves. -/
structure Walking (t : Table) (s₀ s : MeshInfo) : Prop extends Book s where
  excess_eq : s.excess = s₀.excess
  other : ∀ t', t' ≠ t → s.tbl t' = s₀.tbl t'
  length_le : (s.tbl t).length ≤ (s₀.tbl t).length
  owned : s₀.Owned → s.Owned

theorem SameTables.owned (h : SameTables s s') (ho : s.Owned) : s'.Owned := by
  intro p hp
  rw [h.isSome] at hp
  rw [h.tbl, h.retired]; exact ho p hp

theorem SameTables.excess (h : SameTables s s') : s'.excess = s.excess := by
  unfold MeshInfo.excess
  rw [h.mpaths, h.tbl]

namespace Walking

theorem refl (h : s.Book) : Walking t s s := ⟨h, rfl, fun _ _ => rfl, le_rfl, id⟩

theorem trans (h : Walking t s₀ s) (h' : Walking t s s') : Walking t s₀ s' where
  toBook := h'.toBook
  excess_eq := h'.excess_eq.trans h.excess_eq
  other := fun t' ht => (h'.other t' ht).trans (h.other t' ht)
  length_le := h'.length_le.trans h.length_le
  owned := fun ho => h'.owned (h.owned ho)

theorem same (h : s'.Book) (hs : SameTables s s') : Walking t s s' where
  toBook := h
  excess_eq := hs.excess
  other := fun t' _ => by rw [hs.tbl]
  length_le := by rw [hs.tbl]
  owned := hs.owned

end Walking

theorem delPath_walking (adapter : Adapter) (h : s.Book) (hp : p ∈ s.tbl t) :
    ∃ s', s.delPath adapter t p = some s' ∧ Walking t s s' ∧ (s'.tbl t).length < (s.tbl t).length ∧
      s'.path p = (s.path p).map removed := by
  obtain ⟨s', hs', hb, htbl, hm, hr, hheap⟩ := delPath_spec adapter h hp
  have hpos := List.length_pos_of_mem hp
  have hlen : (s'.tbl t).length = (s.tbl t).length - 1 := by
    rw [htbl, Function.update_self, List.length_erase_of_mem hp]
  have hother : ∀ t', t' ≠ t → s'.tbl t' = s.tbl t' := fun t' ht => by rw [htbl, Function.update_of_ne ht]
  refine ⟨s', hs', ⟨hb, ?_, hother, by omega, ?_⟩, by omega, ?_⟩
  · unfold excess
    rw [hm]
    cases t with
    | meshPaths =>
      rw [hother .mppPaths nofun, hlen]; omega
    | mppPaths =>
      rw [hother .meshPaths nofun, hlen]; omega
  · intro ho q hq
    rw [hr]
    have hq' : (s.path q).isSome := by
      have hq : (s'.heap.cell q).isSome := hq
      rw [hheap] at hq
      obtain ⟨b, hb⟩ := Option.isSome_iff_exists.mp hq
      obtain ⟨a, ha, -⟩ := Heap.of_modify_cell hb
      exact Option.isSome_iff_exists.mpr ⟨a, ha⟩
    by_cases hqp : q = p
    · exact Or.inr (hqp ▸ List.mem_cons_self)
    · rcases ho q hq' with ⟨t', ht'⟩ | hret
      · rw [htbl]; exact Or.inl ⟨t', (mem_dropped h).mpr ⟨ht', fun _ => hqp⟩⟩
      · exact Or.inr (List.mem_cons_of_mem p hret)
  · show s'.heap.cell p = _
    rw [hheap, Heap.modify_cell_self]; rfl

theorem walk_walking {body : ℕ → MeshInfo → Option MeshInfo}
    (hbody : ∀ s p, s.Book → p ∈ s.tbl t → ∃ s', body p s = some s' ∧ Walking t s s') (h : s.Book) (visits : List ℕ) :
    ∃ s', walk t body visits s = some s' ∧ Walking t s s' := by
  induction visits generalizing s with
  | nil => exact ⟨s, rfl, .refl h⟩
  | cons p visits ih =>
    unfold walk
    by_cases hp : p ∈ s.tbl t
    · obtain ⟨s₁, hs₁, hw⟩ := hbody s p h hp
      obtain ⟨s', hs', hw'⟩ := ih hw.toBook
      rw [if_pos hp, hs₁]; exact ⟨s', hs', hw.trans hw'⟩
    · rw [if_neg hp]; exact ih h

theorem walk_removes (test : MeshPath → Prop) {body : ℕ → MeshInfo → Option MeshInfo} [DecidablePred test]
    (hbody : ∀ s p, s.Book → p ∈ s.tbl t → ∃ a s', s.path p = some a ∧ body p s = some s' ∧
      if test a then Walking t s s' ∧ (s'.tbl t).length < (s.tbl t).length else s' = s) (h : s.Book) (visits : List ℕ) :
    ∃ s', walk t body visits s = some s' ∧ Walking t s s' ∧
      ((∃ p ∈ visits, p ∈ s.tbl t ∧ ∃ a, s.path p = some a ∧ test a) ↔ (s'.tbl t).length < (s.tbl t).length) := by
  induction visits generalizing s with
  | nil => exact ⟨s, rfl, .refl h, iff_of_false nofun (lt_irrefl _)⟩
  | cons p visits ih =>
    unfold walk
    by_cases hp : p ∈ s.tbl t
    · obtain ⟨a, s₁, ha, hs₁, hif⟩ := hbody s p h hp
      rw [if_pos hp, hs₁]
      by_cases ht : test a
      · rw [if_pos ht] at hif
        obtain ⟨s', hs', hw', -⟩ := ih hif.1.toBook
        refine ⟨s', hs', hif.1.trans hw', iff_of_true ⟨p, List.mem_cons_self, hp, a, ha, ht⟩ ?_⟩
        exact hw'.length_le.trans_lt hif.2
      · rw [if_neg ht] at hif
        rw [hif]
        obtain ⟨s', hs', hw', hiff⟩ := ih h
        refine ⟨s', hs', hw', ?_⟩
        rw [← hiff]
        constructor
        · rintro ⟨q, hq, hin, b, hb, htb⟩
          rcases List.mem_cons.mp hq with rfl | hq
          · rw [ha] at hb; exact absurd (Option.some.inj hb ▸ htb) ht
          · exact ⟨q, hq, hin, b, hb, htb⟩
        · rintro ⟨q, hq, hin, hb⟩; exact ⟨q, List.mem_cons_of_mem p hq, hin, hb⟩
    · rw [if_neg hp]
      obtain ⟨s', hs', hw', hiff⟩ := ih h
      refine ⟨s', hs', hw', ?_⟩
      rw [← hiff]
      constructor
      · rintro ⟨q, hq, hin, hb⟩
        rcases List.mem_cons.mp hq with rfl | hq
        · exact absurd hin hp
        · exact ⟨q, hq, hin, hb⟩
      · rintro ⟨q, hq, hin, hb⟩; exact ⟨q, List.mem_cons_of_mem p hq, hin, hb⟩

/-! ### What the walks do at a path -/

/-- A path that has not been used for `RTW_MESH_PATH_EXPIRE`. -/
def Expired (adapter : Adapter) (now : Systime) (a : MeshPath) : Prop :=
  a.flags.resolving = false ∧ a.flags.fixed = false ∧ timeAfter now (a.expTime + adapter.meshPathExpire) = true

instance : DecidablePred (Expired adapter now) := fun _ => inferInstanceAs (Decidable (_ ∧ _ ∧ _))

theorem expired_iff :
    (!a.flags.resolving && !a.flags.fixed && timeAfter now (a.expTime + adapter.meshPathExpire)) = true ↔
      Expired adapter now a := by
  unfold Expired
  rw [Bool.and_eq_true, Bool.and_eq_true, Bool.not_eq_true', Bool.not_eq_true', and_assoc]

theorem ifDel_spec (adapter : Adapter) (test : MeshPath → Prop) [DecidablePred test] (h : s.Book) (hp : p ∈ s.tbl t) :
    ∃ a s', s.path p = some a ∧
      (s.path p).bind (fun path => if test path then s.delPath adapter t p else some s) = some s' ∧
      if test a then Walking t s s' ∧ (s'.tbl t).length < (s.tbl t).length else s' = s := by
  obtain ⟨a, ha⟩ := Option.isSome_iff_exists.mp (h.tbl_live t p hp)
  rw [ha, Option.bind_some]
  by_cases ht : test a
  · obtain ⟨s', hs', hw, hlt, -⟩ := delPath_walking adapter h hp
    exact ⟨a, s', rfl, by rw [if_pos ht, hs'], by rw [if_pos ht]; exact ⟨hw, hlt⟩⟩
  · exact ⟨a, s, rfl, by rw [if_neg ht], by rw [if_neg ht]⟩

theorem expireGate_walking (adapter : Adapter) (now : Systime) (malloc : Bool) (h : s.Book) (ha : s.path p = some a) :
    ∃ s', s.expireGate adapter now malloc p = some s' ∧ Walking t s s' ∧ (a.isGate = false → s' = s) := by
  unfold expireGate
  rw [ha]
  simp only [Option.bind_eq_bind, Option.bind_some]
  by_cases hto : (a.isGate && timeAfter now a.gateTimeout) = true
  · have hg : a.isGate ≠ false := by
      intro hg
      rw [hg] at hto; exact nomatch hto
    rw [if_pos hto]
    by_cases hasked : a.gateAsked = true
    · obtain ⟨s', hs', hb, hsame⟩ := meshGateDel_book adapter h ha
      rw [if_pos hasked]; exact ⟨s', hs', .same hb hsame, fun h => absurd h hg⟩
    · have hq : Quiet s (s.setPath p (.withGateAsked (now + adapter.msToSystime a.gateAnnInt))) :=
        .setPath (fun _ => rfl) fun _ => rfl
      obtain ⟨s', hs', hq'⟩ := queuePreq_quiet adapter now malloc
        { start := true, refresh := true } (path_setPath_self ha)
      have hq'' := hq.trans hq'
      rw [if_neg hasked]
      exact ⟨s', hs', .same (hq''.book h) hq''.toSameTables, fun h => absurd h hg⟩
  · rw [if_neg hto]; exact ⟨s, rfl, .refl h, fun _ => rfl⟩

theorem Book.not_gate (h : s.Book) (hp : p ∈ s.tbl .mppPaths) (ha : s.path p = some a) : a.isGate = false := by
  by_contra hg
  have hin := (h.flagged p).mpr ⟨a, ha, Bool.not_eq_false _ ▸ hg⟩
  exact h.apart p (h.gates_in p hin) hp

theorem expirePath_spec (adapter : Adapter) (now : Systime) (malloc : ℕ → Bool) (h : s.Book) (hp : p ∈ s.tbl t) :
    ∃ a s', s.path p = some a ∧ s.expirePath adapter now t malloc p = some s' ∧ Walking t s s' ∧
      (t = .mppPaths → if Expired adapter now a then Walking t s s' ∧ (s'.tbl t).length < (s.tbl t).length else s' = s) := by
  obtain ⟨a, ha⟩ := Option.isSome_iff_exists.mp (h.tbl_live t p hp)
  unfold expirePath
  rw [ha]
  simp only [Option.bind_eq_bind, Option.bind_some]
  by_cases hexp : Expired adapter now a
  · obtain ⟨s₁, hs₁, hw, hlt, hpath⟩ := delPath_walking adapter h hp
    rw [ha] at hpath
    obtain ⟨s', hs', -, hsame⟩ := expireGate_walking adapter now (malloc p) (t := t)
      hw.toBook hpath
    -- a deleted path is no gate
    have he := hsame rfl
    rw [if_pos (expired_iff.mpr hexp), hs₁]
    refine ⟨a, s', rfl, hs', he ▸ hw, fun _ => ?_⟩
    rw [if_pos hexp, he]; exact ⟨hw, hlt⟩
  · obtain ⟨s', hs', hw, hsame⟩ := expireGate_walking adapter now (malloc p) (t := t) h ha
    rw [if_neg (fun hc => hexp (expired_iff.mp hc))]
    refine ⟨a, s', rfl, hs', hw, fun ht => ?_⟩
    rw [if_neg hexp]
    subst ht; exact hsame (h.not_gate hp ha)

/-! ### Whole walks -/

theorem Walking.unlock (h : Walking t s₀ s) : Walking t s₀ s.rcuReadUnlock where
  toBook := h.toBook.rcuReadUnlock
  excess_eq := h.excess_eq
  other := h.other
  length_le := h.length_le
  owned := by
    intro ho p hp
    rw [path_rcuReadUnlock] at hp
    split_ifs at hp with hret
    · exact nomatch hp
    · exact Or.inl ((h.owned ho p hp).resolve_right hret)

theorem meshPathFlushByNexthop_spec (adapter : Adapter) (sta : Sta) (visits : List ℕ) (h : s.Book) :
    ∃ s', s.meshPathFlushByNexthop adapter sta visits = some s' ∧ s'.retired = [] ∧ Walking .meshPaths s s' := by
  have hbody : ∀ s p, s.Book → p ∈ s.tbl .meshPaths → ∃ s', (s.path p).bind (fun path =>
      if path.nextHop = some sta then s.delPath adapter .meshPaths p else some s) = some s' ∧ Walking .meshPaths s s' := by
    intro s p h hp
    obtain ⟨a, s', -, hs', hif⟩ := ifDel_spec adapter ((·.nextHop = some sta)) h hp
    refine ⟨s', hs', ?_⟩
    split_ifs at hif
    · exact hif.1
    · rw [hif]; exact .refl h
  obtain ⟨s', hs', hw⟩ := walk_walking hbody h visits
  refine ⟨s'.rcuReadUnlock, ?_, rfl, hw.unlock⟩
  unfold meshPathFlushByNexthop
  simp only [Option.bind_eq_bind]
  rw [hs']; rfl

theorem mppFlushByProxy_spec (adapter : Adapter) (proxy : MacAddr) (visits : List ℕ) (h : s.Book) :
    ∃ s', s.mppFlushByProxy adapter proxy visits = some s' ∧ s'.retired = [] ∧ Walking .mppPaths s s' ∧
      ((∃ p ∈ visits, p ∈ s.tbl .mppPaths ∧ ∃ a, s.path p = some a ∧ a.mpp = proxy) ↔
        (s'.tbl .mppPaths).length < (s.tbl .mppPaths).length) := by
  obtain ⟨s', hs', hw, hiff⟩ := walk_removes (t := .mppPaths) ((·.mpp = proxy))
    (fun s p h hp => ifDel_spec adapter _ h hp) h visits
  refine ⟨s'.rcuReadUnlock, ?_, rfl, hw.unlock, hiff⟩
  unfold mppFlushByProxy
  simp only [Option.bind_eq_bind]
  rw [hs']; rfl

theorem tableFlushByIface_spec (adapter : Adapter) (visits : List ℕ) (h : s.Book) :
    ∃ s', s.tableFlushByIface adapter t visits = some s' ∧ s'.retired = [] ∧ Walking t s s' ∧
      ((∃ p ∈ visits, p ∈ s.tbl t) ↔ (s'.tbl t).length < (s.tbl t).length) := by
  have hbody : ∀ s p, s.Book → p ∈ s.tbl t → ∃ a s', s.path p = some a ∧ s.delPath adapter t p = some s' ∧
      if (fun _ : MeshPath => True) a then Walking t s s' ∧ (s'.tbl t).length < (s.tbl t).length else s' = s := by
    intro s p h hp
    obtain ⟨a, ha⟩ := Option.isSome_iff_exists.mp (h.tbl_live t p hp)
    obtain ⟨s', hs', hw, hlt, -⟩ := delPath_walking adapter h hp
    exact ⟨a, s', ha, hs', by rw [if_pos trivial]; exact ⟨hw, hlt⟩⟩
  obtain ⟨s', hs', hw, hiff⟩ := walk_removes _ hbody h visits
  refine ⟨s'.rcuReadUnlock, ?_, rfl, hw.unlock, ?_⟩
  · unfold tableFlushByIface
    simp only [Option.bind_eq_bind]
    rw [hs']; rfl
  · show _ ↔ (s'.tbl t).length < _
    rw [← hiff]
    refine exists_congr fun p => and_congr_right fun _ => ⟨fun hp => ?_, fun hp => hp.1⟩
    obtain ⟨a, ha⟩ := Option.isSome_iff_exists.mp (h.tbl_live t p hp)
    exact ⟨hp, a, ha, trivial⟩

theorem tablePathDel_spec (adapter : Adapter) (addr : MacAddr) (h : s.Book) (hret : s.retired = []) :
    ∃ s', s.tablePathDel adapter t addr = some s' ∧ s'.retired = [] ∧ Walking t s s' := by
  unfold tablePathDel
  cases hl : s.lookupFast t addr with
  | none => exact ⟨s, rfl, hret, .refl h⟩
  | some p =>
    obtain ⟨s', hs', hw, -⟩ := delPath_walking adapter h (lookupFast_some hl).1
    refine ⟨s'.rcuReadUnlock, ?_, rfl, hw.unlock⟩
    simp only [Option.bind_eq_bind]
    rw [hs']; rfl

theorem meshPathTblExpire_spec (adapter : Adapter) (now : Systime) (malloc : ℕ → Bool) (visits : List ℕ) (h : s.Book) :
    ∃ s', s.meshPathTblExpire adapter now t malloc visits = some s' ∧ s'.retired = [] ∧ Walking t s s' ∧
      (t = .mppPaths → ((∃ p ∈ visits, p ∈ s.tbl t ∧ ∃ a, s.path p = some a ∧ Expired adapter now a) ↔
        (s'.tbl t).length < (s.tbl t).length)) := by
  have hrun : ∀ s', walk t (expirePath adapter now t malloc) visits s = some s' →
      s.meshPathTblExpire adapter now t malloc visits = some s'.rcuReadUnlock := by
    intro s' hs'
    unfold meshPathTblExpire
    simp only [Option.bind_eq_bind]
    rw [hs']; rfl
  cases t with
  | meshPaths =>
    have hbody : ∀ s p, s.Book → p ∈ s.tbl .meshPaths →
        ∃ s', s.expirePath adapter now .meshPaths malloc p = some s' ∧ Walking .meshPaths s s' := by
      intro s p h hp
      obtain ⟨-, s', -, hs', hw, -⟩ := expirePath_spec adapter now malloc h hp
      exact ⟨s', hs', hw⟩
    obtain ⟨s', hs', hw⟩ := walk_walking hbody h visits
    exact ⟨_, hrun s' hs', rfl, hw.unlock, nofun⟩
  | mppPaths =>
    have hbody : ∀ s p, s.Book → p ∈ s.tbl .mppPaths →
        ∃ a s', s.path p = some a ∧ s.expirePath adapter now .mppPaths malloc p = some s' ∧
          if Expired adapter now a then
            Walking .mppPaths s s' ∧ (s'.tbl .mppPaths).length < (s.tbl .mppPaths).length
          else s' = s := by
      intro s p h hp
      obtain ⟨a, s', ha, hs', -, hif⟩ := expirePath_spec adapter now malloc h hp
      exact ⟨a, s', ha, hs', hif rfl⟩
    obtain ⟨s', hs', hw, hiff⟩ := walk_removes _ hbody h visits
    exact ⟨_, hrun s' hs', rfl, hw.unlock, fun _ => hiff⟩

/-! ### Additions -/

/-- The addresses that a path may be added for. -/
def Accepts (adapter : Adapter) (dst : MacAddr) : Prop := dst ≠ adapter.macAddr ∧ dst.isMulticast = false

instance (dst : MacAddr) : Decidable (Accepts adapter dst) := inferInstanceAs (Decidable (_ ∧ _))

theorem lookupFast_alloc (h : s.Book) {dst : MacAddr} {m : ℤ} :
    lookupFast { s with mpaths := m, heap := s.heap.alloc b } t dst = s.lookupFast t dst := by
  refine List.find?_congr fun p hp => ?_
  show ((s.heap.alloc b).cell p).any _ = _
  rw [h.path_alloc b hp]

theorem meshPathAdd_cases (adapter : Adapter) (now : Systime) (malloc insert : Bool) (dst : MacAddr) (h : s.Book) :
    (¬ (Accepts adapter dst ∧ s.mpaths ≠ meshMaxMpaths) ∧ (s.meshPathAdd adapter now malloc insert dst).2 = s) ∨
    (Accepts adapter dst ∧ s.mpaths ≠ meshMaxMpaths) ∧
      ((malloc = false ∨ insert = false ∨ (s.lookupFast .meshPaths dst).isSome) ∧
          (∃ heap, (s.meshPathAdd adapter now malloc insert dst).2 = { s with mpaths := s.mpaths + 1, heap := heap } ∧
            (heap = s.heap ∨ heap = (s.heap.alloc (.new dst now)).free s.heap.next ∨ heap = s.heap.alloc (.new dst now))) ∨
        (malloc = true ∧ insert = true ∧ s.lookupFast .meshPaths dst = none) ∧
          (s.meshPathAdd adapter now malloc insert dst).2 =
            insertPath .meshPaths s.heap.next { s with mpaths := s.mpaths + 1, heap := s.heap.alloc (.new dst now) }) := by
  unfold meshPathAdd Accepts
  by_cases hown : dst = adapter.macAddr
  · rw [if_pos hown]; exact Or.inl ⟨fun hacc => hacc.1.1 hown, rfl⟩
  rw [if_neg hown]
  by_cases hmc : dst.isMulticast = true
  · rw [if_pos hmc]; exact Or.inl ⟨fun hacc => (by rw [hacc.1.2] at hmc; exact nomatch hmc), rfl⟩
  rw [if_neg hmc]
  by_cases hmax : s.mpaths = meshMaxMpaths
  · rw [if_pos hmax]; exact Or.inl ⟨fun hacc => hacc.2 hmax, rfl⟩
  rw [if_neg hmax]
  refine Or.inr ⟨⟨⟨hown, Bool.not_eq_true _ ▸ hmc⟩, hmax⟩, ?_⟩
  cases malloc with
  | false => exact Or.inl ⟨Or.inl rfl, s.heap, rfl, Or.inl rfl⟩
  | true =>
    simp only [Bool.not_true, Bool.false_eq_true, if_false]
    rw [lookupFast_alloc h]
    cases hl : s.lookupFast .meshPaths dst with
    | some q => exact Or.inl ⟨Or.inr (Or.inr rfl), _, rfl, Or.inr (Or.inl rfl)⟩
    | none =>
      cases insert with
      | false => exact Or.inl ⟨Or.inr (Or.inl rfl), _, rfl, Or.inr (Or.inr rfl)⟩
      | true => exact Or.inr ⟨⟨trivial, rfl, rfl⟩, rfl⟩

theorem mppPathAdd_cases (adapter : Adapter) (now : Systime) (malloc insert : Bool) (dst mpp : MacAddr) (h : s.Book) :
    (¬ (Accepts adapter dst ∧ malloc = true) ∧ (s.mppPathAdd adapter now malloc insert dst mpp).2 = s) ∨
    (Accepts adapter dst ∧ malloc = true) ∧ ((insert = false ∨ (s.lookupFast .mppPaths dst).isSome) ∧
          (s.mppPathAdd adapter now malloc insert dst mpp).2 =
            { s with heap := s.heap.alloc { MeshPath.new dst now with mpp := mpp } } ∨
        (insert = true ∧ s.lookupFast .mppPaths dst = none) ∧ (s.mppPathAdd adapter now malloc insert dst mpp).2 =
            insertPath .mppPaths s.heap.next { s with heap := s.heap.alloc { MeshPath.new dst now with mpp := mpp } }) := by
  unfold mppPathAdd Accepts
  by_cases hown : dst = adapter.macAddr
  · rw [if_pos hown]; exact Or.inl ⟨fun hacc => hacc.1.1 hown, rfl⟩
  rw [if_neg hown]
  by_cases hmc : dst.isMulticast = true
  · rw [if_pos hmc]; exact Or.inl ⟨fun hacc => (by rw [hacc.1.2] at hmc; exact nomatch hmc), rfl⟩
  rw [if_neg hmc]
  cases malloc with
  | false => exact Or.inl ⟨fun hacc => (nomatch hacc.2), rfl⟩
  | true =>
    refine Or.inr ⟨⟨⟨hown, Bool.not_eq_true _ ▸ hmc⟩, rfl⟩, ?_⟩
    simp only [Bool.not_true, Bool.false_eq_true, if_false]
    rw [show lookupFast { s with heap := s.heap.alloc { MeshPath.new dst now with mpp := mpp } } .mppPaths dst =
      s.lookupFast .mppPaths dst from lookupFast_alloc h]
    cases hl : s.lookupFast .mppPaths dst with
    | some q => exact Or.inl ⟨Or.inr rfl, rfl⟩
    | none =>
      cases insert with
      | false => exact Or.inl ⟨Or.inl rfl, rfl⟩
      | true => exact Or.inr ⟨⟨rfl, rfl⟩, rfl⟩

/-! ### All operations -/

/-- A change of a path that leaves its address and `is_gate`. -/
def keepKey (f : MeshPath → MeshPath) (a : MeshPath) : MeshPath := { f a with dst := a.dst, isGate := a.isGate }

end MeshInfo

open MeshInfo

/-- The calls that come from outside; a walk has the pointers that its iterator yields. -/
inductive PathOp
  | pathAdd (now : Systime) (malloc insert : Bool) (dst : MacAddr)
  | mppAdd (now : Systime) (malloc insert : Bool) (dst mpp : MacAddr)
  | pathDel (addr : MacAddr) (visits : List ℕ)
  | flushByNexthop (sta : Sta) (visits : List ℕ)
  | flushByProxy (proxy : MacAddr) (visits : List ℕ)
  | flushByIface (visits mppVisits : List ℕ)
  | tblExpire (now : Systime) (t : Table) (malloc : ℕ → Bool) (visits : List ℕ)
  | addGate (now : Systime) (dst : MacAddr)
  | gateDel (dst : MacAddr)
  | touch (t : Table) (dst : MacAddr) (f : MeshPath → MeshPath)

namespace PathOp

/-- A function of a path that is looked up first. -/
def found (t : Table) (dst : MacAddr) (body : ℕ → MeshInfo → Option MeshInfo) (s : MeshInfo) : Option MeshInfo :=
  match s.lookupFast t dst with
  | none => some s
  | some p => body p s

def run (adapter : Adapter) : PathOp → MeshInfo → Option MeshInfo
  | pathAdd now malloc insert dst, s => some (s.meshPathAdd adapter now malloc insert dst).2
  | mppAdd now malloc insert dst mpp, s => some (s.mppPathAdd adapter now malloc insert dst mpp).2
  | pathDel addr visits, s => s.meshPathDel adapter addr visits
  | flushByNexthop sta visits, s => s.meshPathFlushByNexthop adapter sta visits
  | flushByProxy proxy visits, s => s.mppFlushByProxy adapter proxy visits
  | flushByIface visits mppVisits, s => do
    (← s.tableFlushByIface adapter .meshPaths visits).tableFlushByIface adapter .mppPaths mppVisits
  | tblExpire now t malloc visits, s => s.meshPathTblExpire adapter now t malloc visits
  | addGate now dst, s => found .meshPaths dst (fun p s => (s.meshPathAddGate adapter now p).map (·.2)) s
  | gateDel dst, s => found .meshPaths dst (fun p s => s.meshGateDel adapter p) s
  | touch t dst f, s => found t dst (fun p s => some (s.setPath p (keepKey f))) s

/-- Nothing comes after the read of a freed path. -/
def step (adapter : Adapter) (s : Option MeshInfo) (op : PathOp) : Option MeshInfo := s.bind (op.run adapter)

end PathOp

namespace MeshInfo

variable {adapter : Adapter} {now : Systime} {s s' : MeshInfo} {t : Table} {p q : ℕ} {a b : MeshPath}

theorem found_spec (dst : MacAddr) (body : ℕ → MeshInfo → Option MeshInfo) (h : s.Book)
    (hbody : ∀ p a, p ∈ s.tbl t → s.path p = some a → ∃ s', body p s = some s' ∧ s'.Book ∧ SameTables s s') :
    ∃ s', PathOp.found t dst body s = some s' ∧ s'.Book ∧ SameTables s s' := by
  unfold PathOp.found
  cases hl : s.lookupFast t dst with
  | none => exact ⟨s, rfl, h, .refl s⟩
  | some p =>
    obtain ⟨hp, a, ha, -⟩ := lookupFast_some hl
    exact hbody p a hp ha

variable {dst : MacAddr}

theorem addGate_spec (adapter : Adapter) (now : Systime) (dst : MacAddr) (h : s.Book) :
    ∃ s', (PathOp.addGate now dst).run adapter s = some s' ∧ s'.Book ∧ SameTables s s' := by
  refine found_spec dst (fun p s => (s.meshPathAddGate adapter now p).map (·.2)) h fun p a hp _ => ?_
  obtain ⟨r, s', hs', hb, hsame⟩ := meshPathAddGate_book adapter now h hp
  exact ⟨s', by rw [hs']; rfl, hb, hsame⟩

theorem gateDel_spec (adapter : Adapter) (dst : MacAddr) (h : s.Book) : ∃ s', (PathOp.gateDel dst).run adapter s = some s' ∧ s'.Book ∧ SameTables s s' :=
  found_spec dst (fun p s => s.meshGateDel adapter p) h fun _ _ _ ha => meshGateDel_book adapter h ha

theorem touch_spec (adapter : Adapter) (dst : MacAddr) (f : MeshPath → MeshPath) (h : s.Book) :
    ∃ s', (PathOp.touch t dst f).run adapter s = some s' ∧ s'.Book ∧ SameTables s s' := by
  refine found_spec dst (fun p s => some (s.setPath p (keepKey f))) h fun p a _ _ => ?_
  have hq : Quiet s (s.setPath p (keepKey f)) := .setPath (fun _ => rfl) fun _ => rfl
  exact ⟨_, rfl, hq.book h, hq.toSameTables⟩

/-- Between two operations nothing is retired. -/
structure Settled (s : MeshInfo) : Prop extends Book s where
  retired_nil : s.retired = []

theorem Settled.init : Settled .init := { Book.init with retired_nil := rfl }

end MeshInfo

end Rtl8852cu.Mesh
