import Rtl8852cu.Mesh.PathOps
import Rtl8852cu.Lib.Reach

/-!
# The gates in every run

Every operation finds the paths that it reads and keeps the book (`Settled.run`), so in every state
that operations lead to, the linked paths are the flagged ones, they are mesh paths, and counter and
largest gate are those of the list (`gates_known`).
-/

namespace Rtl8852cu.Mesh

open Lib MeshInfo

variable {adapter : Adapter} {s s' : MeshInfo}

namespace MeshInfo

/-! ### Each operation -/

theorem Settled.ofHeap (h : s.Settled) {heap : Heap MeshPath} {m : ℤ} {b : MeshPath} (hb : b.isGate = false)
    (hheap : heap = s.heap ∨ heap = (s.heap.alloc b).free s.heap.next ∨ heap = s.heap.alloc b) :
    Settled { s with mpaths := m, heap := heap } := by
  have halloc := h.toBook.alloc b hb
  rcases hheap with rfl | rfl | rfl
  · exact { h with }
  · have hfree := halloc.free (p := s.heap.next) fun t hp => h.toBook.ne_next (h.tbl_live t _ hp) rfl
    exact { hfree with retired_nil := h.retired_nil }
  · exact { halloc with retired_nil := h.retired_nil }

theorem Settled.insertPath (h : s.Settled) {t : Table} {m : ℤ} {b : MeshPath} (hb : b.isGate = false)
    (hnew : s.lookupFast t b.dst = none) :
    Settled (MeshInfo.insertPath t s.heap.next { s with mpaths := m, heap := s.heap.alloc b }) := by
  have hret : ∀ p ∈ s.retired, p ≠ s.heap.next := by
    rw [h.retired_nil]
    nofun
  have hins := h.toBook.insertPath b hb hret (lookupFast_none h.toBook hnew)
  exact { hins with retired_nil := h.retired_nil }

theorem Settled.same (h : s.Settled) (hb : s'.Book) (hs : SameTables s s') : s'.Settled :=
  { hb with retired_nil := hs.retired.trans h.retired_nil }

theorem Settled.run (h : s.Settled) (adapter : Adapter) (op : PathOp) : ∃ s', op.run adapter s = some s' ∧ s'.Settled := by
  cases op with
  | pathAdd now malloc insert dst =>
    refine ⟨_, rfl, ?_⟩
    rcases meshPathAdd_cases adapter now malloc insert dst h.toBook
      with ⟨-, hr⟩ | ⟨-, ⟨-, heap, hr, hheap⟩ | ⟨⟨-, -, hl⟩, hr⟩⟩
    · rw [hr]; exact h
    · rw [hr]; exact h.ofHeap rfl hheap
    · rw [hr]; exact h.insertPath rfl hl
  | mppAdd now malloc insert dst mpp =>
    refine ⟨_, rfl, ?_⟩
    rcases mppPathAdd_cases adapter now malloc insert dst mpp
      h.toBook with ⟨-, hr⟩ | ⟨-, ⟨-, hr⟩ | ⟨⟨-, hl⟩, hr⟩⟩
    · rw [hr]; exact h
    · rw [hr]; exact h.ofHeap rfl (Or.inr (Or.inr rfl))
    · rw [hr]; exact h.insertPath rfl hl
  | pathDel addr visits =>
    obtain ⟨s₁, hs₁, hr₁, hw₁, -⟩ := mppFlushByProxy_spec adapter addr visits h.toBook
    obtain ⟨s₂, hs₂, hr₂, hw₂⟩ := tablePathDel_spec adapter (t := .meshPaths) addr hw₁.toBook hr₁
    refine ⟨s₂, ?_, { hw₂.toBook with retired_nil := hr₂ }⟩
    show (s.mppFlushByProxy adapter addr visits).bind _ = _
    rw [hs₁]; exact hs₂
  | flushByNexthop sta visits =>
    obtain ⟨s', hs', hr, hw⟩ := meshPathFlushByNexthop_spec adapter sta visits h.toBook
    exact ⟨s', hs', { hw.toBook with retired_nil := hr }⟩
  | flushByProxy proxy visits =>
    obtain ⟨s', hs', hr, hw, -⟩ := mppFlushByProxy_spec adapter proxy visits h.toBook
    exact ⟨s', hs', { hw.toBook with retired_nil := hr }⟩
  | flushByIface visits mppVisits =>
    obtain ⟨s₁, hs₁, -, hw₁, -⟩ := tableFlushByIface_spec adapter (t := .meshPaths) visits h.toBook
    obtain ⟨s₂, hs₂, hr₂, hw₂, -⟩ :=
      tableFlushByIface_spec adapter (t := .mppPaths) mppVisits hw₁.toBook
    refine ⟨s₂, ?_, { hw₂.toBook with retired_nil := hr₂ }⟩
    show (s.tableFlushByIface adapter .meshPaths visits).bind _ = _
    rw [hs₁]; exact hs₂
  | tblExpire now t malloc visits =>
    obtain ⟨s', hs', hr, hw, -⟩ := meshPathTblExpire_spec adapter now (t := t) malloc
      visits h.toBook
    exact ⟨s', hs', { hw.toBook with retired_nil := hr }⟩
  | addGate now dst =>
    obtain ⟨s', hs', hb, hq⟩ := addGate_spec adapter now dst h.toBook
    exact ⟨s', hs', h.same hb hq⟩
  | gateDel dst =>
    obtain ⟨s', hs', hb, hq⟩ := gateDel_spec adapter dst h.toBook
    exact ⟨s', hs', h.same hb hq⟩
  | touch t dst f =>
    obtain ⟨s', hs', hb, hq⟩ := touch_spec adapter (t := t) dst (f := f) h.toBook
    exact ⟨s', hs', h.same hb hq⟩

theorem settled_run (adapter : Adapter) (ops : List PathOp) :
    ∃ s, ops.foldl (PathOp.step adapter) (some .init) = some s ∧ s.Settled := by
  have hreach : Reach (PathOp.step adapter) (fun _ _ => True) (some .init) (ops.foldl (PathOp.step adapter) (some .init)) :=
    .foldl ops fun _ _ _ => trivial
  refine hreach.invariant (I := fun st => ∃ s, st = some s ∧ s.Settled) ⟨_, rfl, .init⟩ ?_
  rintro _ op ⟨s, rfl, hs⟩ -
  exact hs.run adapter op

end MeshInfo

/-- **The known gates**: in every state that operations lead to, a path is linked exactly when it is flagged, a linked
path is a mesh path, `num_gates` is the length of the list, and `max_addr_gate` is the gate with the largest address. -/
theorem gates_known (adapter : Adapter) (ops : List PathOp) :
    ∃ s, ops.foldl (PathOp.step adapter) (some .init) = some s ∧
      (∀ p a, s.path p = some a → (p ∈ s.knownGates ↔ a.isGate = true)) ∧
      s.knownGates.Nodup ∧ s.numGates = s.knownGates.length ∧
      (∀ p ∈ s.knownGates, p ∈ s.tbl .meshPaths ∧ (s.path p).isSome) ∧
      (s.knownGates = [] → s.maxAddrGate = none) ∧
      (s.knownGates ≠ [] → ∃ m a, s.maxAddrGate = some m ∧ m ∈ s.knownGates ∧ s.path m = some a ∧
        ∀ q b, q ∈ s.knownGates → q ≠ m → s.path q = some b → a.dst.isLarger b.dst = true) := by
  obtain ⟨s, hs, h⟩ := settled_run adapter ops
  refine ⟨s, hs, fun p a ha => ?_, h.peaked.nodup, h.peaked.num, fun p hp => ⟨h.gates_in p hp, h.live hp⟩,
    h.peaked.eq_none_iff.mpr, fun hne => ?_⟩
  · rw [h.flagged]
    refine ⟨fun ⟨b, hb, hg⟩ => ?_, fun hg => ⟨a, ha, hg⟩⟩
    rw [ha] at hb
    rw [Option.some.inj hb]; exact hg
  · obtain ⟨m, hm⟩ := Option.ne_none_iff_exists'.mp fun hnone => hne (h.peaked.eq_none_iff.mp hnone)
    have hpeak := (h.peaked.peak m).mp hm
    obtain ⟨a, ha⟩ := Option.isSome_iff_exists.mp (h.live hpeak.1)
    refine ⟨m, a, hm, hpeak.1, ha, fun q b hq hqm hb => ?_⟩
    have hle := hpeak.2 q hq
    have hinj := h.peaked.inj q hq m hpeak.1
    rw [dstVal_of ha, dstVal_of hb] at hle hinj
    rw [MacAddr.isLarger_iff]; exact lt_of_le_of_ne hle fun he => hqm (hinj he)

/-- **The tables in every run**: a path of a table is there, it is the one that is found by its address, and in no other table. -/
theorem paths_found (adapter : Adapter) (ops : List PathOp) :
    ∃ s, ops.foldl (PathOp.step adapter) (some .init) = some s ∧
      ∀ t p, p ∈ s.tbl t ↔ ∃ a, s.path p = some a ∧ s.lookupFast t a.dst = some p ∧ ∀ t', p ∈ s.tbl t' → t' = t := by
  obtain ⟨s, hs, h⟩ := settled_run adapter ops
  refine ⟨s, hs, fun t p => ⟨fun hp => ?_, fun ⟨a, _, hl, _⟩ => (lookupFast_some hl).1⟩⟩
  obtain ⟨a, ha⟩ := Option.isSome_iff_exists.mp (h.tbl_live t p hp)
  refine ⟨a, ha, ?_, fun t' hp' => h.apart_tbl hp hp'⟩
  cases hl : s.lookupFast t a.dst with
  | none => exact absurd (dstVal_of ha) (lookupFast_none h.toBook hl p hp)
  | some q =>
    obtain ⟨hq, b, hb, hdst⟩ := lookupFast_some hl
    rw [h.dst_inj t q hq p hp (by rw [dstVal_of hb, dstVal_of ha, hdst])]

end Rtl8852cu.Mesh
