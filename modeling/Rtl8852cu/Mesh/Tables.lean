import Rtl8852cu.Mesh.Gates

/-!
# The tables with the gates

`Book` is what the path tables and the gates keep together: every pointer in a table is a path that is
there, a destination is in a table once, what has been retired is in no table, and a linked gate is
in the table of mesh paths.  `SameTables` and `Quiet` are the steps that leave the tables, and also
the gates, as they are; `delPath_spec` is the removal of a path and `Book.insertPath` the insertion
of a new one.
-/

namespace Rtl8852cu.Mesh

open Lib

namespace MeshInfo

variable {adapter : Adapter} {now : Systime} {s s' s'' : MeshInfo} {t : Table} {p q : ℕ} {a b : MeshPath}
  {f : MeshPath → MeshPath}

structure Book (s : MeshInfo) : Prop extends GateBook s where
  bounded : s.heap.Bounded
  tbl_live : ∀ t, ∀ p ∈ s.tbl t, (s.path p).isSome
  tbl_nodup : ∀ t, (s.tbl t).Nodup
  apart : ∀ p ∈ s.tbl .meshPaths, p ∉ s.tbl .mppPaths
  dst_inj : ∀ t, ∀ p ∈ s.tbl t, ∀ q ∈ s.tbl t, s.dstVal p = s.dstVal q → p = q
  retired_out : ∀ p ∈ s.retired, ∀ t, p ∉ s.tbl t
  gates_in : ∀ p ∈ s.knownGates, p ∈ s.tbl .meshPaths

theorem Book.init : Book .init where
  flagged := fun _ => ⟨nofun, fun ⟨_, ha, _⟩ => nomatch ha⟩
  peaked := .nil
  bounded := .empty
  tbl_live := nofun
  tbl_nodup := fun _ => List.nodup_nil
  apart := nofun
  dst_inj := nofun
  retired_out := nofun
  gates_in := nofun

theorem Book.apart_tbl (h : s.Book) {t' : Table} (hp : p ∈ s.tbl t) (hp' : p ∈ s.tbl t') : t' = t := by
  cases t <;> cases t'
  · rfl
  · exact absurd hp' (h.apart p hp)
  · exact absurd hp (h.apart p hp')
  · rfl

/-! ### Steps that leave the tables as they are -/

/-- The same tables, of the same paths. -/
structure SameTables (s s' : MeshInfo) : Prop where
  tbl : s'.tbl = s.tbl
  mpaths : s'.mpaths = s.mpaths
  retired : s'.retired = s.retired
  next : s'.heap.next = s.heap.next
  dst : ∀ p, (s'.path p).map (·.dst) = (s.path p).map (·.dst)

structure Quiet (s s' : MeshInfo) : Prop extends SameTables s s' where
  knownGates : s'.knownGates = s.knownGates
  numGates : s'.numGates = s.numGates
  maxAddrGate : s'.maxAddrGate = s.maxAddrGate
  isGate : ∀ p, (s'.path p).map (·.isGate) = (s.path p).map (·.isGate)

namespace SameTables

theorem refl (s : MeshInfo) : SameTables s s := ⟨rfl, rfl, rfl, rfl, fun _ => rfl⟩

theorem trans (h : SameTables s s') (h' : SameTables s' s'') : SameTables s s'' where
  tbl := h'.tbl.trans h.tbl
  mpaths := h'.mpaths.trans h.mpaths
  retired := h'.retired.trans h.retired
  next := h'.next.trans h.next
  dst := fun p => (h'.dst p).trans (h.dst p)

theorem setPath (hf : ∀ a, (f a).dst = a.dst) : SameTables s (s.setPath p f) where
  tbl := rfl
  mpaths := rfl
  retired := rfl
  next := rfl
  dst := by
    intro q
    by_cases hq : q = p
    · subst hq
      show ((s.heap.modify q f).cell q).map _ = _
      rw [Heap.modify_cell_self, Option.map_map]; exact Option.map_congr fun a _ => hf a
    · rw [path_setPath_ne hq]

variable (h : SameTables s s')

include h

theorem isSome (p : ℕ) : (s'.path p).isSome = (s.path p).isSome := by
  rw [← Option.isSome_map (f := (·.dst)), h.dst, Option.isSome_map]

theorem dstVal (p : ℕ) : s'.dstVal p = s.dstVal p := by
  have hval : ∀ s : MeshInfo, s.dstVal p = (((s.path p).map (·.dst)).map MacAddr.val).getD 0 := by
    intro s
    unfold MeshInfo.dstVal
    rw [Option.map_map]; rfl
  rw [hval, hval, h.dst]

theorem book (hb : s.Book) (hgates : s'.GateBook) (hin : ∀ p ∈ s'.knownGates, p ∈ s.tbl .meshPaths) : s'.Book where
  toGateBook := hgates
  bounded := by
    intro p hp
    rw [h.next] at hp
    have hnone := hb.bounded p hp
    have his := h.isSome p
    rw [show s.path p = none from hnone] at his
    exact Option.isNone_iff_eq_none.mp (Option.isSome_eq_false_iff.mp his)
  tbl_live := fun t p hp => by rw [h.isSome]; exact hb.tbl_live t p (by rw [← h.tbl]; exact hp)
  tbl_nodup := by rw [h.tbl]; exact hb.tbl_nodup
  apart := by rw [h.tbl]; exact hb.apart
  dst_inj := by
    intro t p hp q hq he
    rw [h.tbl] at hp hq
    rw [h.dstVal, h.dstVal] at he; exact hb.dst_inj t p hp q hq he
  retired_out := by rw [h.tbl, h.retired]; exact hb.retired_out
  gates_in := fun p hp => by rw [h.tbl]; exact hin p hp

end SameTables

namespace Quiet

theorem refl (s : MeshInfo) : Quiet s s := ⟨.refl s, rfl, rfl, rfl, fun _ => rfl⟩

theorem trans (h : Quiet s s') (h' : Quiet s' s'') : Quiet s s'' where
  toSameTables := h.toSameTables.trans h'.toSameTables
  knownGates := h'.knownGates.trans h.knownGates
  numGates := h'.numGates.trans h.numGates
  maxAddrGate := h'.maxAddrGate.trans h.maxAddrGate
  isGate := fun p => (h'.isGate p).trans (h.isGate p)

theorem setPath (hf : ∀ a, (f a).dst = a.dst) (hg : ∀ a, (f a).isGate = a.isGate) : Quiet s (s.setPath p f) where
  toSameTables := .setPath hf
  knownGates := rfl
  numGates := rfl
  maxAddrGate := rfl
  isGate := by
    intro q
    by_cases hq : q = p
    · subst hq
      show ((s.heap.modify q f).cell q).map _ = _
      rw [Heap.modify_cell_self, Option.map_map]; exact Option.map_congr fun a _ => hg a
    · rw [path_setPath_ne hq]

theorem gateBook (h : Quiet s s') (hb : s.GateBook) : s'.GateBook where
  flagged := by
    intro p
    have hiff : ∀ s : MeshInfo, (∃ a, s.path p = some a ∧ a.isGate = true) ↔ (s.path p).map (·.isGate) = some true :=
      fun s => Option.map_eq_some_iff.symm
    rw [h.knownGates, hb.flagged, hiff, hiff, h.isGate]
  peaked := by
    rw [h.knownGates, h.numGates, h.maxAddrGate]; exact hb.peaked.congr fun p _ => h.dstVal p

theorem book (h : Quiet s s') (hb : s.Book) : s'.Book :=
  h.toSameTables.book hb (h.gateBook hb.toGateBook) (by rw [h.knownGates]; exact hb.gates_in)

end Quiet

theorem queuePreq_quiet (adapter : Adapter) (now : Systime) (malloc : Bool) (flags : PreqFlags) (ha : s.path p = some a) :
    ∃ s', s.queuePreq adapter now malloc p flags = some s' ∧ Quiet s s' := by
  unfold queuePreq
  rw [ha]
  simp only [Option.bind_eq_bind, Option.bind_some]
  split
  · exact ⟨s, rfl, .refl s⟩
  split
  · exact ⟨s, rfl, .refl s⟩
  split
  · exact ⟨s, rfl, .refl s⟩
  have hq : Quiet s (s.setPath p fun path => { path with flags := { path.flags with
      reqQueued := true
      peerAka := path.flags.peerAka || flags.peerAka
      bcastPreq := path.flags.bcastPreq || flags.bcastPreq } }) := .setPath (fun _ => rfl) fun _ => rfl
  split
  · exact ⟨_, rfl, ⟨hq.tbl, hq.mpaths, hq.retired, hq.next, hq.dst⟩, hq.knownGates, hq.numGates, hq.maxAddrGate, hq.isGate⟩
  split
  · exact ⟨_, rfl, ⟨hq.tbl, hq.mpaths, hq.retired, hq.next, hq.dst⟩, hq.knownGates, hq.numGates, hq.maxAddrGate, hq.isGate⟩
  · exact ⟨_, rfl, ⟨hq.tbl, hq.mpaths, hq.retired, hq.next, hq.dst⟩, hq.knownGates, hq.numGates, hq.maxAddrGate, hq.isGate⟩

/-! ### Gates -/

theorem meshGateDel_book (adapter : Adapter) (h : s.Book) (ha : s.path p = some a) :
    ∃ s', s.meshGateDel adapter p = some s' ∧ s'.Book ∧ SameTables s s' := by
  obtain ⟨n, m, l, hdel, hpeaked⟩ := meshGateDel_spec adapter h.toGateBook ha
  refine ⟨_, hdel, ?_⟩
  have hsame : SameTables s (s.setPath p .noGate) := .setPath fun _ => rfl
  refine ⟨SameTables.book ⟨hsame.tbl, hsame.mpaths, hsame.retired, hsame.next, hsame.dst⟩ h ⟨?_, ?_⟩ ?_,
    ⟨hsame.tbl, hsame.mpaths, hsame.retired, hsame.next, hsame.dst⟩⟩
  · exact noGate_flagged h.toGateBook ha fun _ => rfl
  · exact hpeaked.congr fun q _ => hsame.dstVal q
  · exact fun q hq => h.gates_in q (List.mem_of_mem_erase hq)

theorem isMaxAddrGate_spec (hpeaked : Peaked s.dstVal s.knownGates s.numGates s.maxAddrGate)
    (hlive : ∀ q ∈ s.knownGates, (s.path q).isSome) (hnew : ∀ q ∈ s.knownGates, s.dstVal q ≠ s.dstVal p)
    (hp : s.dstVal p = b.dst.val) :
    ∃ l, s.isMaxAddrGate b = some l ∧
      Peaked s.dstVal (p :: s.knownGates) (s.numGates + 1) (if l then some p else s.maxAddrGate) := by
  unfold isMaxAddrGate
  by_cases h0 : s.numGates = 0
  · have hnone := hpeaked.eq_none_iff.mpr (hpeaked.num_eq_zero.mp h0)
    rw [if_pos h0]
    refine ⟨true, rfl, hpeaked.insert hnew (fun _ => rfl) fun x hx => ?_⟩
    rw [hnone] at hx; exact nomatch hx
  obtain ⟨x, hx⟩ := Option.ne_none_iff_exists'.mp fun hm => h0 (hpeaked.num_eq_zero.mpr (hpeaked.eq_none_iff.mp hm))
  obtain ⟨c, hc⟩ := Option.isSome_iff_exists.mp (hlive x ((hpeaked.peak x).mp hx).1)
  have hlt : b.dst.isLarger c.dst = true ↔ s.dstVal x < s.dstVal p := by
    rw [MacAddr.isLarger_iff, hp, dstVal_of hc]
  rw [if_neg h0, hx]
  refine ⟨b.dst.isLarger c.dst, ?_, hpeaked.insert hnew (fun hm => ?_) fun y hy => ?_⟩
  · show (s.path x).bind _ = _
    rw [hc]; rfl
  · rw [hx] at hm; exact nomatch hm
  · rw [hx] at hy
    rw [← Option.some.inj hy]
    by_cases hl : b.dst.isLarger c.dst = true
    · rw [if_pos hl, if_pos (hlt.mp hl)]
    · rw [if_neg hl, if_neg fun h => hl (hlt.mpr h)]

theorem linkGate_book (adapter : Adapter) (h : s.Book) (ha : s.path p = some a) (hp : p ∈ s.tbl .meshPaths) (hg : a.isGate = false)
    (hdst : b.dst = a.dst) :
    ∃ s', (s.setPath p .asGate).linkGate adapter p b = some s' ∧ s'.Book ∧ SameTables s s' := by
  have hnot : p ∉ s.knownGates := by
    intro hp
    obtain ⟨c, hc, hcg⟩ := (h.flagged p).mp hp
    rw [ha] at hc
    rw [← Option.some.inj hc, hg] at hcg; exact nomatch hcg
  have hsame : SameTables s (s.setPath p .asGate) := .setPath fun _ => rfl
  -- another gate has another address
  have hnew : ∀ q ∈ s.knownGates, s.dstVal q ≠ s.dstVal p := fun q hq he =>
    hnot (h.dst_inj .meshPaths q (h.gates_in q hq) p hp he ▸ hq)
  have hflagged : ∀ q, q ∈ p :: s.knownGates ↔ ∃ a, (s.setPath p .asGate).path q = some a ∧ a.isGate = true := by
    intro q
    by_cases hqp : q = p
    · subst hqp; exact iff_of_true List.mem_cons_self ⟨_, path_setPath_self ha, rfl⟩
    · rw [List.mem_cons, or_iff_right hqp, h.flagged, path_setPath_ne hqp]
  have hin : ∀ q ∈ p :: s.knownGates, q ∈ s.tbl .meshPaths := List.forall_mem_cons.mpr ⟨hp, h.gates_in⟩
  obtain ⟨l, hl, hpeaked⟩ := isMaxAddrGate_spec (s := s.setPath p .asGate) (b := b) (p := p)
    (h.peaked.congr fun q _ => hsame.dstVal q) (fun q hq => (hsame.isSome q).trans (h.live hq))
    (fun q hq => by rw [hsame.dstVal, hsame.dstVal]; exact hnew q hq)
    (by rw [hsame.dstVal, dstVal_of ha, hdst])
  unfold linkGate
  rw [hl]
  set s₁ : MeshInfo := { s.setPath p .asGate with numGates := s.numGates + 1, knownGates := p :: s.knownGates }
  cases l with
  | false =>
    have hst : SameTables s s₁ := ⟨rfl, rfl, rfl, rfl, hsame.dst⟩
    exact ⟨s₁, rfl, hst.book h ⟨hflagged, hpeaked⟩ hin, hst⟩
  | true =>
    have hst : SameTables s (s₁.setMaxAddrGate adapter p b) := ⟨rfl, rfl, rfl, rfl, hsame.dst⟩
    exact ⟨s₁.setMaxAddrGate adapter p b, rfl, hst.book h ⟨hflagged, hpeaked⟩ hin, hst⟩

theorem meshPathAddGate_book (adapter : Adapter) (now : Systime) (h : s.Book) (hp : p ∈ s.tbl .meshPaths) :
    ∃ r s', s.meshPathAddGate adapter now p = some (r, s') ∧ s'.Book ∧ SameTables s s' := by
  obtain ⟨a, ha⟩ := Option.isSome_iff_exists.mp (h.tbl_live .meshPaths p hp)
  have hq : Quiet s (s.setPath p (.withGateTimeout (gateTimeout adapter now a))) := .setPath (fun _ => rfl) fun _ => rfl
  unfold meshPathAddGate
  rw [ha]
  simp only [Option.bind_eq_bind, Option.bind_some]
  by_cases hg : a.isGate = true
  · rw [if_pos hg]; exact ⟨_, _, rfl, hq.book h, hq.toSameTables⟩
  rw [if_neg hg]
  obtain ⟨s', hs', hb, hsame⟩ := linkGate_book adapter (hq.book h) (path_setPath_self ha) hp
    (Bool.eq_false_iff.mpr hg) (b := a) rfl
  rw [hs']; exact ⟨none, s', rfl, hb, hq.toSameTables.trans hsame⟩

end MeshInfo

end Rtl8852cu.Mesh
