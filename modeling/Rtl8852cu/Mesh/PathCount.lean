import Rtl8852cu.Mesh.GateRuns

/-!
# The number of paths

`mpaths` is to be the number of the mesh paths, and every path that is there is to be in a table
(`Counted`).  `rtw_mesh_path_add` raises the counter before the steps that may fail and does not lower
it again, `rtw_mpp_path_add` never raises it and drops a path that it could not insert, and the
removal that both tables share always lowers it: these are the operations that are `Unbalanced`,
and a run keeps the count exactly when it has none (`paths_counted_iff`).
-/

namespace Rtl8852cu.Mesh

open Lib MeshInfo
open Function (update update_self update_of_ne)

variable {adapter : Adapter} {s s' : MeshInfo}

namespace MeshInfo

/-- The counter is right, an address is in a table once, and a path is in a table exactly as long as it is there. -/
structure Counted (s : MeshInfo) : Prop where
  mpaths_eq : s.mpaths = (s.tbl .meshPaths).length
  mpaths_le : s.mpaths ≤ meshMaxMpaths
  nodup : ∀ t, (s.tbl t).Nodup
  dst_once : ∀ t p q a b, p ∈ s.tbl t → q ∈ s.tbl t → s.path p = some a → s.path q = some b → a.dst = b.dst → p = q
  live : ∀ t, ∀ p ∈ s.tbl t, (s.path p).isSome
  owned : ∀ p, (s.path p).isSome → ∃ t, p ∈ s.tbl t

theorem Counted.init : Counted .init where
  mpaths_eq := rfl
  mpaths_le := show (0 : ℤ) ≤ 1024 by decide
  nodup := fun _ => List.nodup_nil
  dst_once := fun _ _ _ _ _ hp => nomatch hp
  live := nofun
  owned := nofun

theorem Settled.counted (h : s.Settled) (heq : s.mpaths = (s.tbl .meshPaths).length) (hle : s.mpaths ≤ meshMaxMpaths)
    (ho : s.Owned) : s.Counted where
  mpaths_eq := heq
  mpaths_le := hle
  nodup := h.tbl_nodup
  dst_once := fun t p q a b hp hq ha hb he => h.dst_inj t p hp q hq (by rw [dstVal_of ha, dstVal_of hb, he])
  live := h.tbl_live
  owned := fun p hp => (ho p hp).resolve_right fun hr => by rw [h.retired_nil] at hr; exact nomatch hr

theorem Counted.kept (hc : s.Counted) (h : s'.Settled) (hex : s'.excess = s.excess) (ho : s.Owned → s'.Owned)
    (hmpp : (s'.tbl .mppPaths).length = (s.tbl .mppPaths).length)
    (hmesh : (s'.tbl .meshPaths).length ≤ (s.tbl .meshPaths).length) : s'.Counted := by
  have heq := hc.mpaths_eq
  have hle := hc.mpaths_le
  unfold excess at hex
  exact h.counted (by omega) (by omega) (ho fun p hp => Or.inl (hc.owned p hp))

theorem Counted.lowered (hc : s.Counted) (hex : s'.excess = s.excess)
    (hmpp : (s'.tbl .mppPaths).length < (s.tbl .mppPaths).length) : ¬ s'.Counted := by
  intro hc'
  have heq := hc.mpaths_eq
  have heq' := hc'.mpaths_eq
  unfold excess at hex; omega

theorem Counted.walking {bad : Prop} (hc : s.Counted) (h : s'.Settled) (hex : s'.excess = s.excess) (ho : s.Owned → s'.Owned)
    (hle : (s'.tbl .mppPaths).length ≤ (s.tbl .mppPaths).length)
    (hmesh : (s'.tbl .meshPaths).length ≤ (s.tbl .meshPaths).length)
    (hbad : bad ↔ (s'.tbl .mppPaths).length < (s.tbl .mppPaths).length) : s'.Counted ↔ ¬ bad := by
  rw [hbad, not_lt]
  constructor
  · intro hc' 
    by_contra hlt
    exact hc.lowered hex (not_le.mp hlt) hc'
  · exact fun hge => hc.kept h hex ho (le_antisymm hle hge) hmesh

theorem Owned.insertPath (ho : ∀ p, (s.path p).isSome → ∃ t, p ∈ s.tbl t) {t : Table} {m : ℤ} {b : MeshPath} :
    Owned (MeshInfo.insertPath t s.heap.next { s with mpaths := m, heap := s.heap.alloc b }) := by
  intro p hp
  have hmem : ∀ t', p ∈ s.tbl t' → p ∈ update s.tbl t (s.heap.next :: s.tbl t) t' := by
    intro t' hin
    by_cases ht : t' = t
    · subst ht
      rw [update_self]; exact List.mem_cons_of_mem _ hin
    · rw [update_of_ne ht]; exact hin
  by_cases hn : p = s.heap.next
  · refine Or.inl ⟨t, ?_⟩
    show p ∈ update s.tbl t (s.heap.next :: s.tbl t) t
    rw [update_self, hn]; exact List.mem_cons_self
  · have hp : ((s.heap.alloc b).cell p).isSome := hp
    rw [path_alloc_ne hn] at hp
    obtain ⟨t', ht'⟩ := ho p hp
    exact Or.inl ⟨t', hmem t' ht'⟩

end MeshInfo

/-- The operations that the counter does not follow, or that lose a path: an addition that fails after the counter has
been raised, one of a proxied path that is not inserted, and the removal of a proxied path. -/
def PathOp.Unbalanced (adapter : Adapter) (s : MeshInfo) : PathOp → Prop
  | pathAdd _ malloc insert dst => (Accepts adapter dst ∧ s.mpaths ≠ meshMaxMpaths) ∧
      (malloc = false ∨ insert = false ∨ (s.lookupFast .meshPaths dst).isSome)
  | mppAdd _ malloc insert dst _ => (Accepts adapter dst ∧ malloc = true) ∧
      (insert = false ∨ (s.lookupFast .mppPaths dst).isSome)
  | pathDel addr visits => ∃ p ∈ visits, p ∈ s.tbl .mppPaths ∧ ∃ a, s.path p = some a ∧ a.mpp = addr
  | flushByProxy proxy visits => ∃ p ∈ visits, p ∈ s.tbl .mppPaths ∧ ∃ a, s.path p = some a ∧ a.mpp = proxy
  | flushByIface _ mppVisits => ∃ p ∈ mppVisits, p ∈ s.tbl .mppPaths
  | tblExpire now t _ visits =>
      t = .mppPaths ∧ ∃ p ∈ visits, p ∈ s.tbl t ∧ ∃ a, s.path p = some a ∧ Expired adapter now a
  | flushByNexthop .. | addGate .. | gateDel .. | touch .. => False

namespace MeshInfo

theorem Counted.run (h : s.Settled) (hc : s.Counted) (adapter : Adapter) (op : PathOp) :
    ∃ s', op.run adapter s = some s' ∧ s'.Settled ∧ (s'.Counted ↔ ¬ op.Unbalanced adapter s) := by
  obtain ⟨s', hs', h'⟩ := h.run adapter op
  refine ⟨s', hs', h', ?_⟩
  have hsome : ∀ s₁, op.run adapter s = some s₁ → s' = s₁ := fun s₁ h₁ => Option.some.inj (hs'.symm.trans h₁)
  have hsame : SameTables s s' → s'.Counted := fun hq =>
    hc.kept h' hq.excess hq.owned (by rw [hq.tbl]) (by rw [hq.tbl])
  cases op with
  | pathAdd now malloc insert dst =>
    have hs' := hsome _ rfl
    rcases meshPathAdd_cases adapter now malloc insert dst h.toBook
      with ⟨hnot, hr⟩ | ⟨hacc, ⟨hbad, heap, hr, -⟩ | ⟨hgood, hr⟩⟩
    · rw [hs', hr]; exact iff_of_true hc fun hb => hnot hb.1
    · rw [hs', hr]
      refine iff_of_false (fun hc' => ?_) fun hb => hb ⟨hacc, hbad⟩
      have heq := hc'.mpaths_eq
      have heq : s.mpaths + 1 = (s.tbl .meshPaths).length := heq
      have := hc.mpaths_eq
      omega
    · rw [hs', hr] at h' ⊢
      refine iff_of_true (h'.counted ?_ ?_ (.insertPath hc.owned)) ?_
      · show s.mpaths + 1 = _
        show _ = ((update s.tbl .meshPaths (s.heap.next :: s.tbl .meshPaths) .meshPaths).length : ℤ)
        rw [update_self, List.length_cons, hc.mpaths_eq]; rfl
      · show s.mpaths + 1 ≤ _
        have hle := hc.mpaths_le
        have hne := hacc.2
        omega
      · rintro ⟨-, hm | hi | hl⟩
        · exact nomatch hm.symm.trans hgood.1
        · exact nomatch hi.symm.trans hgood.2.1
        · rw [hgood.2.2] at hl; exact nomatch hl
  | mppAdd now malloc insert dst mpp =>
    have hs' := hsome _ rfl
    rcases mppPathAdd_cases adapter now malloc insert dst mpp
      h.toBook with ⟨hnot, hr⟩ | ⟨hacc, ⟨hbad, hr⟩ | ⟨hgood, hr⟩⟩
    · rw [hs', hr]; exact iff_of_true hc fun hb => hnot hb.1
    · rw [hs', hr]
      refine iff_of_false (fun hc' => ?_) fun hb => hb ⟨hacc, hbad⟩
      -- the path that was allocated is in no table
      have hlive : (MeshInfo.path { s with heap := s.heap.alloc { MeshPath.new dst now with mpp := mpp } } s.heap.next).isSome := by
        show ((s.heap.alloc _).cell s.heap.next).isSome
        rw [Heap.alloc_cell_self]; rfl
      obtain ⟨t, ht⟩ := hc'.owned s.heap.next hlive
      exact h.toBook.ne_next (h.tbl_live t s.heap.next ht) rfl
    · rw [hs', hr] at h' ⊢
      refine iff_of_true (h'.counted ?_ hc.mpaths_le (.insertPath hc.owned)) ?_
      · show s.mpaths = ((update s.tbl .mppPaths (s.heap.next :: s.tbl .mppPaths) .meshPaths).length : ℤ)
        rw [update_of_ne (by decide)]; exact hc.mpaths_eq
      · rintro ⟨-, hi | hl⟩
        · exact nomatch hi.symm.trans hgood.1
        · rw [hgood.2] at hl; exact nomatch hl
  | pathDel addr visits =>
    obtain ⟨s₁, hs₁, hr₁, hw₁, hiff⟩ :=
      mppFlushByProxy_spec adapter addr visits h.toBook
    obtain ⟨s₂, hs₂, -, hw₂⟩ := tablePathDel_spec adapter (t := .meshPaths) addr hw₁.toBook hr₁
    have hrun : (PathOp.pathDel addr visits).run adapter s = some s₂ := by
      show (s.mppFlushByProxy adapter addr visits).bind _ = _
      rw [hs₁]; exact hs₂
    rw [hsome _ hrun] at h' ⊢
    have hmpp := hw₂.other .mppPaths nofun
    refine hc.walking h' (hw₂.excess_eq.trans hw₁.excess_eq) (fun ho => hw₂.owned (hw₁.owned ho)) ?_ ?_ ?_
    · rw [hmpp]; exact hw₁.length_le
    · rw [← hw₁.other .meshPaths nofun]; exact hw₂.length_le
    · rw [hmpp]; exact hiff
  | flushByNexthop sta visits =>
    obtain ⟨s₁, hs₁, -, hw⟩ := meshPathFlushByNexthop_spec adapter sta visits h.toBook
    rw [hsome _ hs₁] at h' ⊢
    exact iff_of_true (hc.kept h' hw.excess_eq hw.owned (by rw [hw.other .mppPaths nofun]) hw.length_le) nofun
  | flushByProxy proxy visits =>
    obtain ⟨s₁, hs₁, -, hw, hiff⟩ :=
      mppFlushByProxy_spec adapter proxy visits h.toBook
    rw [hsome _ hs₁] at h' ⊢
    exact hc.walking h' hw.excess_eq hw.owned hw.length_le (by rw [hw.other .meshPaths nofun]) hiff
  | flushByIface visits mppVisits =>
    obtain ⟨s₁, hs₁, -, hw₁, -⟩ := tableFlushByIface_spec adapter (t := .meshPaths) visits h.toBook
    obtain ⟨s₂, hs₂, -, hw₂, hiff⟩ :=
      tableFlushByIface_spec adapter (t := .mppPaths) mppVisits hw₁.toBook
    have hrun : (PathOp.flushByIface visits mppVisits).run adapter s = some s₂ := by
      show (s.tableFlushByIface adapter .meshPaths visits).bind _ = _
      rw [hs₁]; exact hs₂
    rw [hsome _ hrun] at h' ⊢
    have hmpp := hw₁.other .mppPaths nofun
    refine hc.walking h' (hw₂.excess_eq.trans hw₁.excess_eq) (fun ho => hw₂.owned (hw₁.owned ho)) ?_ ?_ ?_
    · rw [← hmpp]; exact hw₂.length_le
    · rw [hw₂.other .meshPaths nofun]; exact hw₁.length_le
    · rw [hmpp] at hiff; exact hiff
  | tblExpire now t malloc visits =>
    obtain ⟨s₁, hs₁, -, hw, hiff⟩ := meshPathTblExpire_spec adapter now (t := t) malloc
      visits h.toBook
    rw [hsome _ hs₁] at h' ⊢
    cases t with
    | meshPaths =>
      exact iff_of_true (hc.kept h' hw.excess_eq hw.owned (by rw [hw.other .mppPaths nofun]) hw.length_le) nofun
    | mppPaths =>
      refine hc.walking h' hw.excess_eq hw.owned hw.length_le (by rw [hw.other .meshPaths nofun]) ?_
      rw [← hiff rfl]; exact ⟨fun hb => hb.2, fun hb => ⟨rfl, hb⟩⟩
  | addGate now dst =>
    obtain ⟨s₁, hs₁, -, hq⟩ := addGate_spec adapter now dst h.toBook
    exact iff_of_true (hsame (hsome _ hs₁ ▸ hq)) nofun
  | gateDel dst =>
    obtain ⟨s₁, hs₁, -, hq⟩ := gateDel_spec adapter dst h.toBook
    exact iff_of_true (hsame (hsome _ hs₁ ▸ hq)) nofun
  | touch t dst f =>
    obtain ⟨s₁, hs₁, -, hq⟩ := touch_spec adapter (t := t) dst (f := f) h.toBook
    exact iff_of_true (hsame (hsome _ hs₁ ▸ hq)) nofun

end MeshInfo

/-- **The count in every run** is right, and no path is lost, exactly when no operation of the run is unbalanced; none reads
a path that has been freed. -/
theorem paths_counted_iff (adapter : Adapter) (ops : List PathOp) :
    (∀ pre, pre <+: ops → ∃ s, pre.foldl (PathOp.step adapter) (some .init) = some s ∧ s.Counted) ↔
      ∀ pre op, pre ++ [op] <+: ops →
        ¬ ∃ s, pre.foldl (PathOp.step adapter) (some .init) = some s ∧ op.Unbalanced adapter s := by
  have hlegal : Legal (PathOp.step adapter) (fun _ _ => True) (some .init) ops := legal_of_forall (fun _ _ => trivial) _ ops
  refine Legal.always_iff (J := fun st => ∃ s, st = some s ∧ s.Settled ∧ s.Counted)
    (P := fun st => ∃ s, st = some s ∧ s.Counted)
    (B := fun st (op : PathOp) => ∃ s, st = some s ∧ op.Unbalanced adapter s)
    ⟨_, rfl, .init, .init⟩ ?_ ?_ ?_ hlegal
  · rintro _ ⟨s, rfl, -, hc⟩; exact ⟨s, rfl, hc⟩
  · rintro _ op ⟨s, rfl, h, hc⟩ - hnot
    obtain ⟨s', hs', h', hiff⟩ := hc.run h adapter op
    exact ⟨s', hs', h', hiff.mpr fun hb => hnot ⟨s, rfl, hb⟩⟩
  · rintro _ op ⟨s, rfl, h, hc⟩ - ⟨_, hs, hb⟩ ⟨s₁, hs₁, hc₁⟩
    obtain ⟨s', hs', -, hiff⟩ := hc.run h adapter op
    rw [← Option.some.inj hs] at hb
    have he : s' = s₁ := Option.some.inj (hs'.symm.trans hs₁)
    exact hiff.mp (he ▸ hc₁) hb

/-- A proxied path is added and expires. -/
def proxyExpires : List PathOp :=
  [.mppAdd 0 true true ⟨2, 0, 0, 0, 0, 5⟩ ⟨2, 0, 0, 0, 0, 9⟩, .tblExpire 150001 .mppPaths (fun _ => true) [0]]

def hz250 : Adapter where
  macAddr := ⟨2, 0, 0, 0, 0, 1⟩
  hz := 250
  msToSystime := fun ms => ms.setWidth 64 / 4
  pathGateTimeoutFactor := 4
  preqMinInterval := 10
  minDiscoveryTimeout := 100
  maxPreqRetries := 4
  elementTtl := 31

/-- The counter of a table without paths is `-1`. -/
theorem mpp_expiry_lowers_mpaths :
    ¬ ∀ pre, pre <+: proxyExpires → ∃ s, pre.foldl (PathOp.step hz250) (some .init) = some s ∧ s.Counted := by
  intro h
  obtain ⟨s, hs, hc⟩ := h proxyExpires List.prefix_rfl
  have hneg : ((proxyExpires.foldl (PathOp.step hz250) (some .init)).map (·.mpaths)) = some (-1) := by decide
  have hlen : (0 : ℤ) ≤ s.mpaths := hc.mpaths_eq ▸ Int.natCast_nonneg _
  rw [hs, Option.map_some, Option.some.injEq] at hneg; omega

end Rtl8852cu.Mesh
