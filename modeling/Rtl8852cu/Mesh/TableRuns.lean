import Rtl8852cu.Mesh.Tables

/-!
# Insertion, removal and walks

`delPath_spec` says what `__rtw_mesh_path_del` leaves: a path that is no gate, retired, and in no
table.  A new path is inserted (`Book.insertPath`), dropped again or left over (`Book.alloc`).  A walk keeps
what each of its visits keeps (`walk_keeps`), and when its read section ends what has been retired is
freed (`Book.rcuReadUnlock`).
-/

namespace Rtl8852cu.Mesh

open Lib
open Function (update update_self update_of_ne)

namespace MeshInfo

variable {adapter : Adapter} {now : Systime} {s s' : MeshInfo} {t : Table} {p q : ℕ} {a b : MeshPath}

/-! ### Removal -/

/-- What `rtw_mesh_path_free_rcu` makes of a path. -/
def removed (a : MeshPath) : MeshPath :=
  a.withoutUse.noGate.noTimer.noFrames

theorem mem_dropped (h : s.Book) {t' : Table} :
    q ∈ update s.tbl t ((s.tbl t).erase p) t' ↔ q ∈ s.tbl t' ∧ (t' = t → q ≠ p) := by
  by_cases ht : t' = t
  · subst ht
    rw [update_self, (h.tbl_nodup t').mem_erase_iff, and_comm]
    exact and_congr_right fun _ => ⟨fun hq _ => hq, fun hq => hq rfl⟩
  · rw [update_of_ne ht]; exact ⟨fun hq => ⟨hq, fun he => absurd he ht⟩, fun hq => hq.1⟩

theorem delPath_spec (adapter : Adapter) (h : s.Book) (hp : p ∈ s.tbl t) :
    ∃ s', s.delPath adapter t p = some s' ∧ s'.Book ∧ s'.tbl = update s.tbl t ((s.tbl t).erase p) ∧
      s'.mpaths = s.mpaths - 1 ∧ s'.retired = p :: s.retired ∧ s'.heap = s.heap.modify p removed := by
  obtain ⟨a, ha⟩ := Option.isSome_iff_exists.mp (h.tbl_live t p hp)
  set s₁ : MeshInfo := { s with tbl := update s.tbl t ((s.tbl t).erase p) } with hs₁
  set s₂ := s₁.setPath p .withoutUse with hs₂
  have hq : Quiet s₁ s₂ := .setPath (fun _ => rfl) fun _ => rfl
  have hg₂ : s₂.GateBook := hq.gateBook ⟨h.flagged, h.peaked⟩
  have ha₁ : s₁.path p = some a := ha
  have ha₂ : s₂.path p = some a.withoutUse := path_setPath_self ha₁
  obtain ⟨n, m, l, hdel, hpeaked⟩ := meshGateDel_spec adapter hg₂ ha₂
  have hheap : ((((s.heap.modify p .withoutUse).modify p .noGate).modify p .noTimer).modify p
      .noFrames) = s.heap.modify p removed := by
    rw [Heap.modify_modify, Heap.modify_modify, Heap.modify_modify]; rfl
  set s' : MeshInfo := { s with
    heap := s.heap.modify p removed
    tbl := update s.tbl t ((s.tbl t).erase p)
    mpaths := s.mpaths - 1
    knownGates := s.knownGates.erase p
    numGates := n
    maxAddrGate := m
    maxAddrGateIsLargerThanSelf := l
    discarded := s.discarded ++ a.frameQueue
    retired := p :: s.retired } with hs'
  have hrun : s.delPath adapter t p = some s' := by
    unfold delPath meshPathFreeRcu
    rw [← hs₁]
    simp only [Option.bind_eq_bind]
    rw [ha₁, Option.bind_some, ← hs₂, hdel, Option.bind_some]
    unfold meshPathFlushPending
    have hread : ((s.heap.modify p .withoutUse).modify p .noGate).cell p = some a.withoutUse.noGate := by
      rw [Heap.modify_cell_self, Heap.modify_cell_self, show s.heap.cell p = some a from ha]; rfl
    show ((((s.heap.modify p .withoutUse).modify p .noGate).modify p .noTimer).cell p).bind _
      >>= _ = _
    rw [Heap.modify_cell_self, hread]
    show some (MeshInfo.mk ((((s.heap.modify p .withoutUse).modify p .noGate).modify p _).modify p .noFrames) ..) = _
    rw [hheap]; rfl
  have hpath_self : s'.path p = some (removed a) := path_setPath_self ha
  have hpath_ne : ∀ q ≠ p, s'.path q = s.path q := fun q hq => path_setPath_ne hq
  have hkey : ∀ q, s'.dstVal q = s.dstVal q := fun q => dstVal_setPath fun _ => rfl
  have hkey₂ : ∀ q, s₂.dstVal q = s.dstVal q := fun q => dstVal_setPath (s := s₁) fun _ => rfl
  have hdrop : ∀ t' q, q ∈ s'.tbl t' ↔ q ∈ s.tbl t' ∧ (t' = t → q ≠ p) := fun t' q => mem_dropped h
  have hlive : ∀ q, (s.path q).isSome → (s'.path q).isSome := by
    intro q hq
    by_cases hqp : q = p
    · rw [hqp, hpath_self]; rfl
    · rw [hpath_ne q hqp]; exact hq
  refine ⟨s', hrun, ?_, rfl, rfl, rfl, rfl⟩
  exact {
    flagged := fun q => noGate_flagged (f := removed) h.toGateBook ha (fun _ => rfl) q
    peaked := hpeaked.congr fun q _ => (hkey q).trans (hkey₂ q).symm
    bounded := h.bounded.modify
    tbl_live := fun t' q hq => hlive q (h.tbl_live t' q ((hdrop t' q).mp hq).1)
    tbl_nodup := by
      intro t'
      show (update s.tbl t ((s.tbl t).erase p) t').Nodup
      by_cases ht : t' = t
      · subst ht
        rw [update_self]; exact (h.tbl_nodup t').erase p
      · rw [update_of_ne ht]; exact h.tbl_nodup t'
    apart := fun q hq hq' => h.apart q ((hdrop _ q).mp hq).1 ((hdrop _ q).mp hq').1
    dst_inj := by
      intro t' x hx y hy he
      rw [hkey, hkey] at he; exact h.dst_inj t' x ((hdrop t' x).mp hx).1 y ((hdrop t' y).mp hy).1 he
    retired_out := by
      refine List.forall_mem_cons.mpr ⟨fun t' hin => ?_, fun q hq t' hin => ?_⟩
      · have hin := (hdrop t' p).mp hin; exact hin.2 (h.apart_tbl hp hin.1) rfl
      · exact h.retired_out q hq t' ((hdrop t' q).mp hin).1
    gates_in := by
      intro q hq
      have hq' := List.mem_of_mem_erase hq
      refine (hdrop _ q).mpr ⟨h.gates_in q hq', fun _ he => ?_⟩
      exact h.peaked.nodup.not_mem_erase (he ▸ hq) }

/-! ### The end of a read section -/

theorem path_rcuReadUnlock : s.rcuReadUnlock.path p = if p ∈ s.retired then none else s.path p := Heap.foldl_free_cell

theorem Book.free (h : s.Book) (hp : ∀ t, p ∉ s.tbl t) : MeshInfo.Book { s with heap := s.heap.free p } := by
  have hkept : ∀ t, ∀ q ∈ s.tbl t, (s.heap.free p).cell q = s.path q := fun t q hq =>
    Heap.free_cell_ne fun he => hp t (he ▸ hq)
  exact {
    flagged := by
      intro q
      show q ∈ s.knownGates ↔ ∃ a, (s.heap.free p).cell q = some a ∧ _
      by_cases hq : q = p
      · subst hq
        refine iff_of_false (fun hin => hp .meshPaths (h.gates_in q hin)) ?_
        rintro ⟨a, ha, -⟩
        rw [Heap.free_cell_self] at ha; exact nomatch ha
      · rw [Heap.free_cell_ne hq]; exact h.flagged q
    peaked := by
      refine h.peaked.congr fun q hq => ?_
      show (((s.heap.free p).cell q).map _).getD 0 = _
      rw [hkept .meshPaths q (h.gates_in q hq)]; rfl
    bounded := h.bounded.free
    tbl_live := by
      intro t q hq
      show ((s.heap.free p).cell q).isSome
      rw [hkept t q hq]; exact h.tbl_live t q hq
    tbl_nodup := h.tbl_nodup
    apart := h.apart
    dst_inj := by
      intro t x hx y hy he
      have he : (((s.heap.free p).cell x).map (·.dst.val)).getD 0 = (((s.heap.free p).cell y).map (·.dst.val)).getD 0 := he
      rw [hkept t x hx, hkept t y hy] at he; exact h.dst_inj t x hx y hy he
    retired_out := h.retired_out
    gates_in := h.gates_in }

theorem Book.foldl_free {ps : List ℕ} (h : s.Book) (hps : ∀ p ∈ ps, ∀ t, p ∉ s.tbl t) :
    MeshInfo.Book { s with heap := ps.foldl Heap.free s.heap } := by
  induction ps generalizing s with
  | nil => exact h
  | cons p ps ih =>
    exact ih (h.free (hps p List.mem_cons_self)) fun q hq => hps q (List.mem_cons_of_mem p hq)

theorem Book.rcuReadUnlock (h : s.Book) : s.rcuReadUnlock.Book :=
  { h.foldl_free h.retired_out with retired_out := nofun }

/-! ### New paths -/

theorem lookupFast_some {dst : MacAddr} (hl : s.lookupFast t dst = some p) :
    p ∈ s.tbl t ∧ ∃ a, s.path p = some a ∧ a.dst = dst := by
  refine ⟨List.mem_of_find?_eq_some hl, ?_⟩
  have hany := List.find?_some hl
  obtain ⟨a, ha, hdst⟩ := (Option.any_eq_true _ _).mp hany
  exact ⟨a, ha, of_decide_eq_true hdst⟩

theorem lookupFast_none {dst : MacAddr} (h : s.Book) (hl : s.lookupFast t dst = none) :
    ∀ p ∈ s.tbl t, s.dstVal p ≠ dst.val := by
  intro p hp he
  obtain ⟨a, ha⟩ := Option.isSome_iff_exists.mp (h.tbl_live t p hp)
  rw [dstVal_of ha] at he
  have hnot := List.find?_eq_none.mp hl p hp
  rw [ha] at hnot; exact hnot (decide_eq_true (MacAddr.val_inj he))

theorem path_alloc_ne (hp : p ≠ s.heap.next) : (s.heap.alloc b).cell p = s.path p := Heap.alloc_cell_ne hp

section Alloc

variable (h : s.Book) (b : MeshPath) (hb : b.isGate = false)

include h

theorem Book.ne_next {p : ℕ} (hp : (s.path p).isSome) : p ≠ s.heap.next := by
  obtain ⟨a, ha⟩ := Option.isSome_iff_exists.mp hp
  exact (h.bounded.lt ha).ne

theorem Book.path_alloc {p : ℕ} (hp : p ∈ s.tbl t) : (s.heap.alloc b).cell p = s.path p :=
  path_alloc_ne (h.ne_next (h.tbl_live t p hp))

include hb

theorem Book.alloc : MeshInfo.Book { s with heap := s.heap.alloc b } where
  flagged := by
    intro p
    by_cases hp : p = s.heap.next
    · subst hp
      refine iff_of_false (fun hp => h.ne_next (h.live hp) rfl) ?_
      rintro ⟨a, ha, hg⟩
      rw [show (MeshInfo.path { s with heap := s.heap.alloc b } s.heap.next) = some b from Heap.alloc_cell_self] at ha
      rw [← Option.some.inj ha, hb] at hg; exact nomatch hg
    · show p ∈ s.knownGates ↔ ∃ a, (s.heap.alloc b).cell p = some a ∧ _
      rw [path_alloc_ne hp]; exact h.flagged p
  peaked := by
    refine h.peaked.congr fun p hp => ?_
    show (((s.heap.alloc b).cell p).map _).getD 0 = _
    rw [h.path_alloc b (h.gates_in p hp)]; rfl
  bounded := h.bounded.alloc
  tbl_live := by
    intro t p hp
    show ((s.heap.alloc b).cell p).isSome
    rw [h.path_alloc b hp]; exact h.tbl_live t p hp
  tbl_nodup := h.tbl_nodup
  apart := h.apart
  dst_inj := by
    intro t p hp q hq he
    have he : (((s.heap.alloc b).cell p).map (·.dst.val)).getD 0 = (((s.heap.alloc b).cell q).map (·.dst.val)).getD 0 := he
    rw [h.path_alloc b hp, h.path_alloc b hq] at he; exact h.dst_inj t p hp q hq he
  retired_out := h.retired_out
  gates_in := h.gates_in

theorem Book.insertPath (hret : ∀ p ∈ s.retired, p ≠ s.heap.next) (hnew : ∀ p ∈ s.tbl t, s.dstVal p ≠ b.dst.val) :
    MeshInfo.Book (insertPath t s.heap.next { s with heap := s.heap.alloc b }) := by
  have ha := h.alloc b hb
  set s₁ : MeshInfo := { s with heap := s.heap.alloc b }
  have hself : s₁.path s.heap.next = some b := Heap.alloc_cell_self
  have hout : ∀ t', s.heap.next ∉ s.tbl t' := fun t' hp => h.ne_next (h.tbl_live t' _ hp) rfl
  have hmem : ∀ t' q, q ∈ (MeshInfo.insertPath t s.heap.next s₁).tbl t' ↔ q ∈ s.tbl t' ∨ (t' = t ∧ q = s.heap.next) := by
    intro t' q
    show q ∈ update s.tbl t (s.heap.next :: s.tbl t) t' ↔ _
    by_cases ht : t' = t
    · subst ht
      rw [update_self, List.mem_cons, or_comm]
      exact or_congr_right ⟨fun hq => ⟨rfl, hq⟩, fun hq => hq.2⟩
    · rw [update_of_ne ht]; exact ⟨Or.inl, fun hq => hq.resolve_right fun hq => ht hq.1⟩
  have hold : ∀ q ∈ s.tbl t, s₁.dstVal q ≠ s₁.dstVal s.heap.next := by
    intro q hq
    have hq' : s₁.dstVal q = s.dstVal q := by
      show (((s.heap.alloc b).cell q).map _).getD 0 = _
      rw [h.path_alloc b hq]; rfl
    rw [hq', dstVal_of hself]; exact hnew q hq
  exact { ha with
    tbl_live := by
      intro t' q hq
      rcases (hmem t' q).mp hq with hq | ⟨-, rfl⟩
      · exact ha.tbl_live t' q hq
      · exact Option.isSome_iff_exists.mpr ⟨b, hself⟩
    tbl_nodup := by
      intro t'
      show (update s.tbl t (s.heap.next :: s.tbl t) t').Nodup
      by_cases ht : t' = t
      · subst ht
        rw [update_self]; exact List.nodup_cons.mpr ⟨hout t', h.tbl_nodup t'⟩
      · rw [update_of_ne ht]; exact h.tbl_nodup t'
    apart := by
      intro q hq hq'
      rcases (hmem _ q).mp hq with hq | ⟨ht, hn⟩ <;> rcases (hmem _ q).mp hq' with hq' | ⟨ht', hn'⟩
      · exact h.apart q hq hq'
      · exact hout _ (hn' ▸ hq)
      · exact hout _ (hn ▸ hq')
      · exact nomatch ht.trans ht'.symm
    dst_inj := by
      intro t' x hx y hy he
      have he : s₁.dstVal x = s₁.dstVal y := he
      rcases (hmem _ x).mp hx with hx | ⟨rfl, rfl⟩ <;> rcases (hmem _ y).mp hy with hy | ⟨ht, rfl⟩
      · exact ha.dst_inj t' x hx y hy he
      · exact absurd he (hold x (ht ▸ hx))
      · exact absurd he.symm (hold y hy)
      · rfl
    retired_out := by
      intro q hq t' hin
      rcases (hmem _ q).mp hin with hin | ⟨-, hnext⟩
      · exact h.retired_out q hq t' hin
      · exact hret q hq hnext
    gates_in := fun q hq => (hmem _ q).mpr (Or.inl (h.gates_in q hq)) }

end Alloc

end MeshInfo

end Rtl8852cu.Mesh
