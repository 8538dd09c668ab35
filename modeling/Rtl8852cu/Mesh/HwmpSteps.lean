import Rtl8852cu.Mesh.Hwmp
import Rtl8852cu.Mesh.GateRuns

/-!
# What a handler does to the paths

`Evolves D O s s'`: the book is kept and the queue of requests is the same; a path of the table stays in it with its flags of
the discovery, only a path whose destination meets `D` changes its route, and a path before and after is in the relation `O`;
a path that is new is not in discovery.  Steps compose (`Evolves.trans`) when their relations do.
-/

namespace Rtl8852cu.Mesh

open Lib

/-- A path without what the gates and the frames use of it. -/
def MeshPath.core (path : MeshPath) : MeshPath :=
  { path with isGate := false, gateTimeout := 0, gateAnnInt := 0, gateAsked := false, frameQueue := [], frameQueueLen := 0 }

structure PathStep (D : MacAddr → Prop) (O : MeshPath → MeshPath → Prop) (a b : MeshPath) : Prop where
  dst : b.dst = a.dst
  reqQueued : b.flags.reqQueued = a.flags.reqQueued
  resolving : b.flags.resolving = a.flags.resolving
  resolved : a.flags.resolved = true → b.flags.resolved = true
  fixed : b.flags.fixed = a.flags.fixed
  deleted : b.flags.deleted = a.flags.deleted
  timer : b.timer = a.timer
  hop : (a.flags.active = true → a.nextHop ≠ none) → b.flags.active = true → b.nextHop ≠ none
  other : ¬ D a.dst → b.sn = a.sn ∧ b.metric = a.metric ∧ b.flags.active = a.flags.active ∧ b.flags.snValid = a.flags.snValid ∧
    b.expTime = a.expTime
  order : O a b

structure NewPath (b : MeshPath) : Prop where
  reqQueued : b.flags.reqQueued = false
  resolving : b.flags.resolving = false
  fixed : b.flags.fixed = false
  deleted : b.flags.deleted = false
  timer : b.timer = none
  hop : b.flags.active = true → b.nextHop ≠ none

theorem NewPath.new (dst : MacAddr) (now : Systime) : NewPath (.new dst now) := ⟨rfl, rfl, rfl, rfl, rfl, nofun⟩

variable {D D' : MacAddr → Prop} {O O' O'' : MeshPath → MeshPath → Prop} {a b c : MeshPath}

theorem NewPath.step (h : NewPath a) (hs : PathStep D O a b) : NewPath b where
  reqQueued := hs.reqQueued.trans h.reqQueued
  resolving := hs.resolving.trans h.resolving
  fixed := hs.fixed.trans h.fixed
  deleted := hs.deleted.trans h.deleted
  timer := hs.timer.trans h.timer
  hop := hs.hop h.hop

theorem PathStep.trans (h : PathStep D O a b) (h' : PathStep D' O' b c) (ho : O'' a c) :
    PathStep (fun dst => D dst ∨ D' dst) O'' a c where
  dst := h'.dst.trans h.dst
  reqQueued := h'.reqQueued.trans h.reqQueued
  resolving := h'.resolving.trans h.resolving
  resolved := fun hr => h'.resolved (h.resolved hr)
  fixed := h'.fixed.trans h.fixed
  deleted := h'.deleted.trans h.deleted
  timer := h'.timer.trans h.timer
  hop := fun ha => h'.hop (h.hop ha)
  other := by
    intro hd
    obtain ⟨h1, h2, h3, h4, h5⟩ := h.other fun hD => hd (Or.inl hD)
    obtain ⟨h1', h2', h3', h4', h5'⟩ := h'.other fun hD => hd (Or.inr (h.dst ▸ hD))
    exact ⟨h1'.trans h1, h2'.trans h2, h3'.trans h3, h4'.trans h4, h5'.trans h5⟩
  order := ho

theorem PathStep.of_core (hcore : b.core = a.core) (ho : O a b) : PathStep D O a b where
  dst := (congrArg MeshPath.dst hcore :)
  reqQueued := (congrArg (·.flags.reqQueued) hcore :)
  resolving := (congrArg (·.flags.resolving) hcore :)
  resolved := fun hr => (congrArg (·.flags.resolved) hcore :).trans hr
  fixed := (congrArg (·.flags.fixed) hcore :)
  deleted := (congrArg (·.flags.deleted) hcore :)
  timer := (congrArg MeshPath.timer hcore :)
  hop := fun ha hb => by
    have hactive : b.flags.active = a.flags.active := (congrArg (·.flags.active) hcore :)
    have hhop : b.nextHop = a.nextHop := (congrArg MeshPath.nextHop hcore :)
    rw [hhop]; exact ha (hactive ▸ hb)
  other := fun _ => ⟨(congrArg MeshPath.sn hcore :), (congrArg MeshPath.metric hcore :),
    (congrArg (·.flags.active) hcore :), (congrArg (·.flags.snValid) hcore :), (congrArg MeshPath.expTime hcore :)⟩
  order := ho

theorem PathStep.refl (ho : O a a) : PathStep D O a a := .of_core rfl ho

def Looked (now : Systime) (a b : MeshPath) : Prop := b.core = a.core ∨ mpathExpired now a = true

namespace MeshInfo

variable {adapter : HwmpAdapter} {now : Systime} {s s' s'' : MeshInfo} {p q : ℕ} {f : MeshPath → MeshPath}

/-- The table of mesh paths before and after a step. -/
structure Evolves (D : MacAddr → Prop) (O : MeshPath → MeshPath → Prop) (s s' : MeshInfo) : Prop where
  settled : s'.Settled
  preqQueue : s'.preqQueue = s.preqQueue
  preqQueueLen : s'.preqQueueLen = s.preqQueueLen
  kept : ∀ p ∈ s.tbl .meshPaths, p ∈ s'.tbl .meshPaths ∧
    ∀ a, s.path p = some a → ∃ b, s'.path p = some b ∧ PathStep D O a b
  new : ∀ p ∈ s'.tbl .meshPaths, p ∉ s.tbl .meshPaths → ∃ b, s'.path p = some b ∧ NewPath b

theorem Evolves.mono (hD : ∀ dst, D dst → D' dst) (h : Evolves D O s s') : Evolves D' O s s' where
  settled := h.settled
  preqQueue := h.preqQueue
  preqQueueLen := h.preqQueueLen
  kept := fun p hp => ⟨(h.kept p hp).1, fun a ha => by
    obtain ⟨b, hb, hs⟩ := (h.kept p hp).2 a ha
    exact ⟨b, hb, { hs with other := fun hd => hs.other fun hD' => hd (hD _ hD') }⟩⟩
  new := h.new

theorem Evolves.trans (h : Evolves D O s s') (h' : Evolves D' O' s' s'')
    (ho : ∀ a b c, PathStep D O a b → PathStep D' O' b c → O'' a c) : Evolves (fun dst => D dst ∨ D' dst) O'' s s'' where
  settled := h'.settled
  preqQueue := h'.preqQueue.trans h.preqQueue
  preqQueueLen := h'.preqQueueLen.trans h.preqQueueLen
  kept := by
    intro p hp
    obtain ⟨hp', hstep⟩ := h.kept p hp
    obtain ⟨hp'', hstep'⟩ := h'.kept p hp'
    refine ⟨hp'', fun a ha => ?_⟩
    obtain ⟨b, hb, hab⟩ := hstep a ha
    obtain ⟨c, hc, hbc⟩ := hstep' b hb
    exact ⟨c, hc, hab.trans hbc (ho a b c hab hbc)⟩
  new := by
    intro p hp hnot
    by_cases hp' : p ∈ s'.tbl .meshPaths
    · obtain ⟨b, hb, hn⟩ := h.new p hp' hnot
      obtain ⟨c, hc, hbc⟩ := (h'.kept p hp').2 b hb
      exact ⟨c, hc, hn.step hbc⟩
    · exact h'.new p hp hp'

theorem Evolves.trans_same (h : Evolves D O s s') (h' : Evolves D O' s' s'')
    (ho : ∀ a b c, PathStep D O a b → PathStep D O' b c → O'' a c) : Evolves D O'' s s'' :=
  (h.trans h' ho).mono fun _ hd => hd.elim id id

/-! ### Steps that only the gates and the frames see -/

/-- The paths but for what the gates and the frames use. -/
structure Kept (s s' : MeshInfo) : Prop where
  core : ∀ p, (s'.path p).map MeshPath.core = (s.path p).map MeshPath.core
  preqQueue : s'.preqQueue = s.preqQueue
  preqQueueLen : s'.preqQueueLen = s.preqQueueLen

theorem Kept.refl (s : MeshInfo) : Kept s s := ⟨fun _ => rfl, rfl, rfl⟩

theorem Kept.trans (h : Kept s s') (h' : Kept s' s'') : Kept s s'' :=
  ⟨fun p => (h'.core p).trans (h.core p), h'.preqQueue.trans h.preqQueue, h'.preqQueueLen.trans h.preqQueueLen⟩

theorem Kept.setPath (hf : ∀ a, (f a).core = a.core) : Kept s (s.setPath p f) := by
  refine ⟨fun q => ?_, rfl, rfl⟩
  by_cases hq : q = p
  · subst hq
    show ((s.heap.modify q f).cell q).map _ = _
    rw [Heap.modify_cell_self, Option.map_map]; exact Option.map_congr fun a _ => hf a
  · rw [path_setPath_ne hq]

theorem Kept.path (h : Kept s s') (ha : s.path p = some a) : ∃ b, s'.path p = some b ∧ b.core = a.core := by
  have hcore := h.core p
  rw [ha, Option.map_some] at hcore
  obtain ⟨b, hb, hba⟩ := Option.map_eq_some_iff.mp hcore
  exact ⟨b, hb, hba⟩

theorem Kept.evolves (h : Kept s s') (hb : s'.Settled) (ht : s'.tbl = s.tbl) (ho : ∀ a b, b.core = a.core → O a b) :
    Evolves D O s s' where
  settled := hb
  preqQueue := h.preqQueue
  preqQueueLen := h.preqQueueLen
  kept := fun p hp => ⟨ht ▸ hp, fun a ha => by
    obtain ⟨b, hb, hcore⟩ := h.path ha
    exact ⟨b, hb, .of_core hcore (ho a b hcore)⟩⟩
  new := fun p hp hnot => absurd (ht ▸ hp) hnot

theorem meshGateDel_kept (adapter : Adapter) (h : s.Book) (ha : s.path p = some a) (hs' : s.meshGateDel adapter p = some s') :
    Kept s s' := by
  obtain ⟨n, m, l, hdel, -⟩ := meshGateDel_spec adapter h.toGateBook ha
  obtain rfl := Option.some.inj (hdel.symm.trans hs')
  exact ⟨(Kept.setPath (s := s) (p := p) (f := .noGate) fun _ => rfl).core, rfl, rfl⟩

theorem linkGate_kept (adapter : Adapter) (hs' : s.linkGate adapter p a = some s') : Kept s s' := by
  unfold linkGate at hs'
  obtain ⟨l, -, hs'⟩ := Option.bind_eq_some_iff.mp hs'
  cases l with
  | false =>
    obtain rfl := Option.some.inj hs'
    exact ⟨fun _ => rfl, rfl, rfl⟩
  | true =>
    obtain rfl := Option.some.inj hs'
    exact ⟨fun _ => rfl, rfl, rfl⟩

theorem meshPathAddGate_kept (adapter : Adapter) (now : Systime) {r : Option Errno}
    (hs' : s.meshPathAddGate adapter now p = some (r, s')) : Kept s s' := by
  unfold meshPathAddGate at hs'
  obtain ⟨a, ha, hs'⟩ := Option.bind_eq_some_iff.mp hs'
  have htime : Kept s (s.setPath p (.withGateTimeout (gateTimeout adapter now a))) := .setPath fun _ => rfl
  simp only at hs'
  split at hs'
  · obtain rfl := (Prod.mk.inj (Option.some.inj hs')).2; exact htime
  · obtain ⟨s₁, hs₁, hs'⟩ := Option.bind_eq_some_iff.mp hs'
    obtain rfl := (Prod.mk.inj (Option.some.inj hs')).2
    have hgate : Kept (s.setPath p (.withGateTimeout (gateTimeout adapter now a)))
        ((s.setPath p (.withGateTimeout (gateTimeout adapter now a))).setPath p .asGate) := .setPath fun _ => rfl
    exact htime.trans (hgate.trans (linkGate_kept adapter hs₁))

theorem announceGate_spec (adapter : HwmpAdapter) (now : Systime) (isGate : Bool) (h : s.Settled) (hp : p ∈ s.tbl .meshPaths)
    (hf : ∀ a, (f a).core = a.core) (hg : ∀ a, (f a).isGate = a.isGate) :
    ∃ s', s.announceGate adapter now isGate p f = some s' ∧ s'.Settled ∧ SameTables s s' ∧ Kept s s' := by
  obtain ⟨a, ha⟩ := Option.isSome_iff_exists.mp (h.tbl_live .meshPaths p hp)
  unfold announceGate
  cases isGate with
  | true =>
    have hq : Quiet s (s.setPath p f) := .setPath (fun a => (congrArg MeshPath.dst (hf a) :)) hg
    obtain ⟨r, s', hs', hb, hsame⟩ := meshPathAddGate_book adapter.toAdapter now (hq.book h.toBook) hp
    rw [if_pos rfl, hs']
    exact ⟨s', rfl, h.same hb (hq.toSameTables.trans hsame), hq.toSameTables.trans hsame,
      (Kept.setPath hf).trans (meshPathAddGate_kept adapter.toAdapter now hs')⟩
  | false =>
    rw [if_neg nofun, ha, Option.bind_eq_bind, Option.bind_some]
    split
    · obtain ⟨s', hs', hb, hsame⟩ := meshGateDel_book adapter.toAdapter h.toBook ha
      exact ⟨s', hs', h.same hb hsame, hsame, meshGateDel_kept adapter.toAdapter h.toBook ha hs'⟩
    · exact ⟨s, rfl, h, .refl s, .refl s⟩

theorem meshPathTxPending_spec (h : s.Settled) (hp : p ∈ s.tbl .meshPaths) :
    ∃ s', s.meshPathTxPending p = some s' ∧ s'.Settled ∧ SameTables s s' ∧ Kept s s' := by
  obtain ⟨a, ha⟩ := Option.isSome_iff_exists.mp (h.tbl_live .meshPaths p hp)
  unfold meshPathTxPending
  rw [ha, Option.bind_eq_bind, Option.bind_some]
  split
  · exact ⟨s, rfl, h, .refl s, .refl s⟩
  split
  · exact ⟨s, rfl, h, .refl s, .refl s⟩
  have hq : Quiet s (s.setPath p .noFrames) := .setPath (fun _ => rfl) fun _ => rfl
  have hk : Kept s (s.setPath p .noFrames) := .setPath fun _ => rfl
  have hsame : SameTables s { s.setPath p .noFrames with
      mpathTxQueue := s.mpathTxQueue ++ a.frameQueue, mpathTxQueueLen := s.mpathTxQueueLen + a.frameQueueLen } :=
    ⟨hq.tbl, hq.mpaths, hq.retired, hq.next, hq.dst⟩
  have hquiet : Quiet s { s.setPath p .noFrames with
      mpathTxQueue := s.mpathTxQueue ++ a.frameQueue, mpathTxQueueLen := s.mpathTxQueueLen + a.frameQueueLen } :=
    ⟨hsame, hq.knownGates, hq.numGates, hq.maxAddrGate, hq.isGate⟩
  exact ⟨_, rfl, h.same (hquiet.book h.toBook) hsame, hsame, ⟨hk.core, rfl, rfl⟩⟩

/-! ### Lookups and new paths -/

theorem Evolves.refl (h : s.Settled) (ho : ∀ a, O a a) : Evolves D O s s where
  settled := h
  preqQueue := rfl
  preqQueueLen := rfl
  kept := fun _ hp => ⟨hp, fun a ha => ⟨a, ha, .refl (ho a)⟩⟩
  new := fun _ hp hnot => absurd hp hnot

theorem setPath_evolves (h : s.Settled) (ha : s.path p = some a) (hdst : ∀ a, (f a).dst = a.dst) (hg : ∀ a, (f a).isGate = a.isGate)
    (hstep : PathStep D O a (f a)) (ho : ∀ a, O a a) : Evolves D O s (s.setPath p f) := by
  have hq : Quiet s (s.setPath p f) := .setPath hdst hg
  refine ⟨h.same (hq.book h.toBook) hq.toSameTables, rfl, rfl, fun q hq => ⟨hq, fun b hb => ?_⟩, fun q hq hnot => absurd hq hnot⟩
  refine ⟨_, path_setPath hb, ?_⟩
  by_cases hqp : q = p
  · subst hqp
    obtain rfl := Option.some.inj (ha.symm.trans hb)
    rw [if_pos rfl]; exact hstep
  · rw [if_neg hqp]; exact .refl (ho b)

theorem Looked.refl (now : Systime) (a : MeshPath) : Looked now a a := Or.inl rfl

theorem inactive_step (hexp : mpathExpired now a = true) : PathStep (· = a.dst) (Looked now) a a.inactive where
  dst := rfl
  reqQueued := rfl
  resolving := rfl
  resolved := id
  fixed := rfl
  deleted := rfl
  timer := rfl
  hop := fun _ hb => nomatch hb
  other := fun hd => absurd rfl hd
  order := Or.inr hexp

/-- A path that was found: as it was, or made inactive because it had expired. -/
def WasFound (now : Systime) (p : ℕ) (a : MeshPath) (s : MeshInfo) : Prop :=
  s.path p = some a ∨ ∃ b, s.path p = some b ∧ mpathExpired now b = true ∧ a = b.inactive

theorem meshPathLookup_spec (now : Systime) (dst : MacAddr) (h : s.Settled) :
    ∃ r s', s.meshPathLookup now dst = some (r, s') ∧ Evolves (· = dst) (Looked now) s s' ∧
      (r = none ∧ s' = s ∧ s.lookupFast .meshPaths dst = none ∨
        ∃ p a, r = some p ∧ s.lookupFast .meshPaths dst = some p ∧ p ∈ s'.tbl .meshPaths ∧ s'.path p = some a ∧ a.dst = dst ∧
          s.WasFound now p a) := by
  unfold meshPathLookup
  cases hl : s.lookupFast .meshPaths dst with
  | none => exact ⟨none, s, rfl, .refl h (Looked.refl now), Or.inl ⟨rfl, rfl, rfl⟩⟩
  | some p =>
    obtain ⟨hp, a, ha, rfl⟩ := lookupFast_some hl
    simp only
    rw [ha, Option.bind_eq_bind, Option.bind_some]
    cases hexp : mpathExpired now a with
    | false => exact ⟨some p, s, rfl, .refl h (Looked.refl now), Or.inr ⟨p, a, rfl, rfl, hp, ha, rfl, Or.inl ha⟩⟩
    | true =>
      refine ⟨some p, s.setPath p .inactive, rfl, ?_,
        Or.inr ⟨p, a.inactive, rfl, rfl, hp, path_setPath_self ha, rfl, Or.inr ⟨a, ha, hexp, rfl⟩⟩⟩
      exact setPath_evolves h ha (fun _ => rfl) (fun _ => rfl) (inactive_step hexp) (Looked.refl now)

theorem meshPathAdd_evolves (adapter : Adapter) (now : Systime) (malloc insert : Bool) (dst : MacAddr) (h : s.Settled)
    (ho : ∀ a, O a a) : Evolves D O s (s.meshPathAdd adapter now malloc insert dst).2 := by
  -- a path of the table is not the new one
  have hold : ∀ heap : Heap MeshPath, (heap = s.heap ∨ heap = (s.heap.alloc (.new dst now)).free s.heap.next ∨
      heap = s.heap.alloc (.new dst now)) → ∀ p ∈ s.tbl .meshPaths, heap.cell p = s.path p := by
    intro heap hheap p hp
    have hne := h.toBook.ne_next (h.tbl_live .meshPaths p hp)
    rcases hheap with rfl | rfl | rfl
    · rfl
    · rw [Heap.free_cell_ne hne]; exact path_alloc_ne hne
    · exact path_alloc_ne hne
  have hkept : ∀ s' : MeshInfo, (∀ p ∈ s.tbl .meshPaths, s'.path p = s.path p) → ∀ p ∈ s.tbl .meshPaths, ∀ a, s.path p = some a →
      ∃ b, s'.path p = some b ∧ PathStep D O a b := fun s' hs' p hp a ha => ⟨a, (hs' p hp).trans ha, .refl (ho a)⟩
  rcases meshPathAdd_cases adapter now malloc insert dst h.toBook with ⟨-, hr⟩ | ⟨-, ⟨-, heap, hr, hheap⟩ | ⟨⟨-, -, hl⟩, hr⟩⟩
  · rw [hr]; exact .refl h ho
  · rw [hr]
    exact ⟨h.ofHeap rfl hheap, rfl, rfl, fun p hp => ⟨hp, hkept { s with mpaths := s.mpaths + 1, heap := heap } (hold heap hheap) p hp⟩,
      fun p hp hnot => absurd hp hnot⟩
  · rw [hr]
    have hmem : ∀ q, q ∈ (MeshInfo.insertPath .meshPaths s.heap.next
        { s with mpaths := s.mpaths + 1, heap := s.heap.alloc (.new dst now) }).tbl .meshPaths ↔
          q = s.heap.next ∨ q ∈ s.tbl .meshPaths := by
      intro q
      show q ∈ Function.update s.tbl .meshPaths _ .meshPaths ↔ _
      rw [Function.update_self]; exact List.mem_cons
    refine ⟨h.insertPath rfl hl, rfl, rfl, fun p hp => ⟨(hmem p).mpr (Or.inr hp), ?_⟩, fun p hp hnot => ?_⟩
    · exact hkept (MeshInfo.insertPath .meshPaths s.heap.next
        { s with mpaths := s.mpaths + 1, heap := s.heap.alloc (.new dst now) }) (hold _ (Or.inr (Or.inr rfl))) p hp
    · obtain rfl := ((hmem p).mp hp).resolve_right hnot
      exact ⟨_, Heap.alloc_cell_self, .new dst now⟩

/-- A path for the address can be added. -/
def CanAdd (adapter : Adapter) (alloc : PathAlloc) (dst : MacAddr) (s : MeshInfo) : Prop :=
  Accepts adapter dst ∧ s.mpaths ≠ meshMaxMpaths ∧ alloc.malloc = true ∧ alloc.insert = true

theorem meshPathAdd_answer (adapter : Adapter) (now : Systime) (alloc : PathAlloc) (dst : MacAddr) (h : s.Settled)
    (hl : s.lookupFast .meshPaths dst = none) :
    (∃ e, (s.meshPathAdd adapter now alloc.malloc alloc.insert dst).1 = .error e) ∧ ¬ s.CanAdd adapter alloc dst ∨
      s.CanAdd adapter alloc dst ∧ s.meshPathAdd adapter now alloc.malloc alloc.insert dst = (.ok s.heap.next,
        MeshInfo.insertPath .meshPaths s.heap.next { s with mpaths := s.mpaths + 1, heap := s.heap.alloc (.new dst now) }) := by
  obtain ⟨malloc, insert⟩ := alloc
  unfold meshPathAdd CanAdd Accepts
  by_cases hown : dst = adapter.macAddr
  · rw [if_pos hown]; exact Or.inl ⟨⟨_, rfl⟩, fun hacc => hacc.1.1 hown⟩
  rw [if_neg hown]
  by_cases hmc : dst.isMulticast = true
  · rw [if_pos hmc]; exact Or.inl ⟨⟨_, rfl⟩, fun hacc => nomatch hmc.symm.trans hacc.1.2⟩
  rw [if_neg hmc]
  by_cases hmax : s.mpaths = meshMaxMpaths
  · rw [if_pos hmax]; exact Or.inl ⟨⟨_, rfl⟩, fun hacc => hacc.2.1 hmax⟩
  rw [if_neg hmax]
  cases malloc with
  | false => exact Or.inl ⟨⟨_, rfl⟩, fun hacc => nomatch hacc.2.2.1⟩
  | true =>
    simp only [Bool.not_true, Bool.false_eq_true, if_false]
    rw [lookupFast_alloc h.toBook, hl]
    cases insert with
    | false => exact Or.inl ⟨⟨_, rfl⟩, fun hacc => nomatch hacc.2.2.2⟩
    | true => exact Or.inr ⟨⟨⟨hown, (Bool.not_eq_true _).mp hmc⟩, hmax, trivial, rfl⟩, rfl⟩

theorem meshPathGet_spec (adapter : HwmpAdapter) (now : Systime) (alloc : PathAlloc) (dst : MacAddr) (h : s.Settled) :
    ∃ r s', s.meshPathGet adapter now alloc dst = some (r, s') ∧ Evolves (· = dst) (Looked now) s s' ∧
      (r = none ∧ s.lookupFast .meshPaths dst = none ∧ ¬ s.CanAdd adapter.toAdapter alloc dst ∨
        (∃ p a, r = some (p, some a) ∧ s.lookupFast .meshPaths dst = some p ∧ p ∈ s'.tbl .meshPaths ∧ s'.path p = some a ∧
          a.dst = dst ∧ s.WasFound now p a) ∨
        ∃ p, r = some (p, none) ∧ s.lookupFast .meshPaths dst = none ∧ s.CanAdd adapter.toAdapter alloc dst ∧
          p ∈ s'.tbl .meshPaths ∧ s'.path p = some (.new dst now)) := by
  obtain ⟨r, s', hlook, hev, ⟨rfl, rfl, hl⟩ | ⟨p, a, rfl, hl, hp, ha, hdst, hfound⟩⟩ := meshPathLookup_spec now dst h
  · unfold meshPathGet
    rw [hlook, Option.bind_eq_bind, Option.bind_some]
    simp only
    have hev : Evolves (· = dst) (Looked now) s' (s'.meshPathAdd adapter.toAdapter now alloc.malloc alloc.insert dst).2 :=
      meshPathAdd_evolves adapter.toAdapter now alloc.malloc alloc.insert dst h (Looked.refl now)
    rcases meshPathAdd_answer adapter.toAdapter now alloc dst h hl with ⟨⟨e, he⟩, hnot⟩ | ⟨hcan, hadd⟩
    · generalize s'.meshPathAdd adapter.toAdapter now alloc.malloc alloc.insert dst = r at he hev
      obtain ⟨r, m⟩ := r
      obtain rfl : r = .error e := he
      exact ⟨none, m, rfl, hev, Or.inl ⟨rfl, hl, hnot⟩⟩
    · rw [hadd] at hev ⊢
      refine ⟨_, _, rfl, hev, Or.inr (Or.inr ⟨_, rfl, hl, hcan, ?_, Heap.alloc_cell_self⟩)⟩
      · show s'.heap.next ∈ Function.update s'.tbl .meshPaths _ .meshPaths
        rw [Function.update_self]; exact List.mem_cons_self
  · unfold meshPathGet
    rw [hlook, Option.bind_eq_bind, Option.bind_some]
    simp only
    rw [ha]; exact ⟨_, _, rfl, hev, Or.inr (Or.inl ⟨p, a, rfl, hl, hp, ha, hdst, hfound⟩)⟩

end MeshInfo

/-! ### Sequence numbers and metrics -/

/-- `x` comes before `y` in the serial order of sequence numbers. -/
def SnBefore (x y : BitVec 32) : Prop := x ≠ y ∧ (y - x).toNat < 2 ^ 31

theorem rtwSnGt_eq_false {x y : BitVec 32} : rtwSnGt x y = false ↔ (y - x).toNat < 2 ^ 31 := by
  unfold rtwSnGt
  rw [BitVec.msb_eq_decide, decide_eq_false_iff_not]; exact Nat.not_le

theorem rtwSnLt_eq_true {x y : BitVec 32} : rtwSnLt x y = true ↔ 2 ^ 31 ≤ (x - y).toNat := by
  unfold rtwSnLt
  rw [BitVec.msb_eq_decide, decide_eq_true_iff]

theorem not_snBefore_of {x y : BitVec 32} (h : (y - x).toNat < 2 ^ 31) : ¬ SnBefore y x := by
  rintro ⟨hne, hlt⟩
  have hneg : x - y = -(y - x) := by bv_omega
  have hpos : 0 < (y - x).toNat := by
    rw [Nat.pos_iff_ne_zero]
    intro hz
    exact hne (by bv_omega)
  rw [hneg, BitVec.toNat_neg] at hlt; omega

/-- While a path stays active with a valid sequence number, and has not expired, its sequence number does not go back, and its metric
goes up only with its sequence number. -/
def Ordered (now : Systime) (a b : MeshPath) : Prop :=
  a.flags.fixed = false → mpathExpired now a = false → a.flags.active = true → a.flags.snValid = true →
    b.flags.active = true → b.flags.snValid = true →
    ¬ SnBefore b.sn a.sn ∧ (a.metric < b.metric → SnBefore a.sn b.sn)

variable {now : Systime}

theorem Ordered.of_same (hsn : b.sn = a.sn) (hmetric : ¬ a.metric < b.metric) : Ordered now a b := by
  intro _ _ _ _ _ _
  rw [hsn]; exact ⟨fun h => h.1 rfl, fun h => absurd h hmetric⟩

theorem Ordered.refl (now : Systime) (a : MeshPath) : Ordered now a a := .of_same rfl (BitVec.lt_irrefl _)

theorem Ordered.core_right (h : Ordered now a b) (hcore : c.core = b.core) : Ordered now a c := by
  have hsn : c.sn = b.sn := (congrArg MeshPath.sn hcore :)
  have hmetric : c.metric = b.metric := (congrArg MeshPath.metric hcore :)
  have hactive : c.flags.active = b.flags.active := (congrArg (·.flags.active) hcore :)
  have hvalid : c.flags.snValid = b.flags.snValid := (congrArg (·.flags.snValid) hcore :)
  unfold Ordered
  rw [hsn, hmetric, hactive, hvalid]; exact h

theorem Ordered.looked (hl : Looked now a b) (h : Ordered now b c) : Ordered now a c := by
  rcases hl with hcore | hexp
  · have hflags : b.flags = a.flags := (congrArg MeshPath.flags hcore :)
    have hsn : b.sn = a.sn := (congrArg MeshPath.sn hcore :)
    have hmetric : b.metric = a.metric := (congrArg MeshPath.metric hcore :)
    have hexp : b.expTime = a.expTime := (congrArg MeshPath.expTime hcore :)
    unfold Ordered mpathExpired at h ⊢
    rw [hflags, hsn, hmetric, hexp] at h; exact h
  · exact fun _ hexp' => nomatch hexp.symm.trans hexp'

theorem Ordered.disjoint (hD : ∀ dst, D dst → ¬ D' dst) (h : PathStep D (Ordered now) a b) (h' : PathStep D' (Ordered now) b c) :
    Ordered now a c := by
  by_cases hd : D a.dst
  · obtain ⟨hsn, hmetric, hactive, hvalid, -⟩ := h'.other (h.dst ▸ hD _ hd)
    have hab := h.order
    unfold Ordered at hab ⊢
    rw [hsn, hmetric, hactive, hvalid]; exact hab
  · obtain ⟨hsn, hmetric, hactive, hvalid, hexp⟩ := h.other hd
    have hbc := h'.order
    unfold Ordered mpathExpired at hbc ⊢
    rw [hsn, hmetric, hactive, hvalid, hexp, h.fixed] at hbc; exact hbc

theorem originatorUpdate_step {osn metric : BitVec 32} {sta : Sta} {expTime : Systime}
    (hfresh : (a.originatorInfo osn metric).2 = true) :
    PathStep (· = a.dst) (Ordered now) a (a.originatorUpdate sta metric osn expTime) where
  dst := rfl
  reqQueued := rfl
  resolving := rfl
  resolved := fun _ => rfl
  fixed := rfl
  deleted := rfl
  timer := rfl
  hop := fun _ _ => nofun
  other := fun hd => absurd rfl hd
  order := by
    intro hfixed _ hactive hvalid _ _
    unfold MeshPath.originatorInfo at hfresh
    simp only [hfixed, hactive, hvalid, Bool.false_eq_true, if_false, Bool.and_self, if_true] at hfresh
    split at hfresh
    · exact nomatch hfresh
    rename_i hnot
    rw [Bool.or_eq_true, not_or, Bool.not_eq_true, rtwSnGt_eq_false, Bool.and_eq_true, decide_eq_true_iff, decide_eq_true_iff] at hnot
    show ¬ SnBefore osn a.sn ∧ (a.metric < metric → SnBefore a.sn osn)
    exact ⟨not_snBefore_of hnot.1, fun hlt => ⟨fun he => hnot.2 ⟨he, BitVec.le_of_lt hlt⟩, hnot.1⟩⟩

theorem transmitterUpdate_step {metric : BitVec 32} {sta : Sta} {expTime : Systime} (hkeep : a.keepsTransmitter metric = false) :
    PathStep (· = a.dst) (Ordered now) a (a.transmitterUpdate sta metric expTime) where
  dst := rfl
  reqQueued := rfl
  resolving := rfl
  resolved := fun _ => rfl
  fixed := rfl
  deleted := rfl
  timer := rfl
  hop := fun _ _ => nofun
  other := fun hd => absurd rfl hd
  order := by
    intro hfixed _ hactive _ _ _
    unfold MeshPath.keepsTransmitter at hkeep
    rw [hfixed, hactive, Bool.false_or, Bool.true_and, decide_eq_false_iff_not] at hkeep
    exact ⟨fun h => h.1 rfl, fun hlt => absurd hlt hkeep⟩

/-! ### The routes of an element -/

namespace MeshInfo

variable {adapter : HwmpAdapter} {s s' s'' : MeshInfo} {p : ℕ} {f : MeshPath → MeshPath} {dst : MacAddr}

/-- There is a route to the address, of that sequence number. -/
def HasRoute (dst : MacAddr) (sn : BitVec 32) (s : MeshInfo) : Prop :=
  ∃ p ∈ s.tbl .meshPaths, ∃ a, s.path p = some a ∧ a.dst = dst ∧ a.sn = sn ∧ a.flags.active = true ∧ a.flags.snValid = true

theorem Evolves.hasRoute (h : Evolves D O s s') {sn : BitVec 32} (hr : s.HasRoute dst sn) (hD : ¬ D dst) : s'.HasRoute dst sn := by
  obtain ⟨p, hp, a, ha, rfl, hsn, hactive, hvalid⟩ := hr
  obtain ⟨hp', hstep⟩ := h.kept p hp
  obtain ⟨b, hb, hab⟩ := hstep a ha
  obtain ⟨hsn', -, hactive', hvalid', -⟩ := hab.other hD
  exact ⟨p, hp', b, hb, hab.dst, hsn'.trans hsn, hactive'.trans hactive, hvalid'.trans hvalid⟩

theorem setRoute_spec (now : Systime) (h : s.Settled) (hp : p ∈ s.tbl .meshPaths) (ha : s.path p = some a) (hdst : ∀ a, (f a).dst = a.dst)
    (hg : ∀ a, (f a).isGate = a.isGate) (hstep : PathStep (· = a.dst) (Ordered now) a (f a)) :
    ∃ s', s.setRoute p f = some s' ∧ Evolves (· = a.dst) (Ordered now) s s' ∧ p ∈ s'.tbl .meshPaths ∧
      ∃ b, s'.path p = some b ∧ b.core = (f a).core := by
  have hset : Evolves (· = a.dst) (Ordered now) s (s.setPath p f) := setPath_evolves h ha hdst hg hstep (Ordered.refl now)
  obtain ⟨s', hs', hsettled, hsame, hkept⟩ := meshPathTxPending_spec hset.settled (p := p) hp
  have htx : Evolves (· = a.dst) (fun a b => b.core = a.core) (s.setPath p f) s' :=
    hkept.evolves hsettled hsame.tbl fun _ _ hcore => hcore
  refine ⟨s', hs', hset.trans_same htx fun a b c hab hbc => hab.order.core_right hbc.order, ?_, hkept.path (path_setPath_self ha)⟩
  rw [hsame.tbl]; exact hp

theorem originatorRoute_spec (adapter : HwmpAdapter) (now : Systime) (alloc : PathAlloc) (sta : Sta) (dst : MacAddr)
    (osn metric : BitVec 32) (expTime : Systime) (h : s.Settled) :
    ∃ r s', s.originatorRoute adapter now alloc sta dst osn metric expTime = some (r, s') ∧
      Evolves (· = dst) (Ordered now) s s' ∧
      (s.lookupFast .meshPaths dst = none → s.CanAdd adapter.toAdapter alloc dst → s'.HasRoute dst osn) := by
  obtain ⟨r, s₁, hget, hev, hr⟩ := meshPathGet_spec adapter now alloc dst h
  have hord : ∀ {s'}, Evolves (· = dst) (Ordered now) s₁ s' → Evolves (· = dst) (Ordered now) s s' := fun h' =>
    hev.trans_same h' fun _ _ _ hab hbc => hbc.order.looked hab.order
  have hsame : Evolves (· = dst) (Ordered now) s s₁ := hord (.refl hev.settled (Ordered.refl now))
  unfold originatorRoute
  rw [hget, Option.bind_eq_bind, Option.bind_some]
  rcases hr with ⟨rfl, -, hnot⟩ | ⟨p, a, rfl, hl, hp, ha, rfl, -⟩ | ⟨p, rfl, -, -, hp, ha⟩
  · exact ⟨none, s₁, rfl, hsame, fun _ hcan => absurd hcan hnot⟩
  · simp only [Option.map_some, Option.getD_some]
    have hnone : s.lookupFast .meshPaths a.dst ≠ none := fun hnone => nomatch hnone.symm.trans hl
    split
    case isTrue hfresh =>
      obtain ⟨s', hs', hroute, -⟩ := setRoute_spec now (f := .originatorUpdate sta metric osn expTime) hev.settled hp ha
        (fun _ => rfl) (fun _ => rfl) (originatorUpdate_step hfresh)
      exact ⟨_, s', by rw [hs']; rfl, hord hroute, fun he => absurd he hnone⟩
    case isFalse => exact ⟨_, s₁, rfl, hsame, fun he => absurd he hnone⟩
  · obtain ⟨s', hs', hroute, hp', b, hb, hcore⟩ := setRoute_spec now (f := .originatorUpdate sta metric osn expTime)
      hev.settled hp ha (fun _ => rfl) (fun _ => rfl) (originatorUpdate_step (a := .new dst now) rfl)
    have hmade : s'.HasRoute dst osn := ⟨p, hp', b, hb, (congrArg MeshPath.dst hcore :), (congrArg MeshPath.sn hcore :),
      (congrArg (·.flags.active) hcore :), (congrArg (·.flags.snValid) hcore :)⟩
    simp only [Option.map_none, Option.getD_none, if_true]
    exact ⟨_, s', by rw [hs']; rfl, hord hroute, fun _ _ => hmade⟩

theorem transmitterRoute_spec (adapter : HwmpAdapter) (now : Systime) (alloc : PathAlloc) (sta : Sta) (ta : MacAddr)
    (metric : BitVec 32) (expTime : Systime) (h : s.Settled) :
    ∃ r s', s.transmitterRoute adapter now alloc sta ta metric expTime = some (r, s') ∧ Evolves (· = ta) (Ordered now) s s' := by
  obtain ⟨r, s₁, hget, hev, hr⟩ := meshPathGet_spec adapter now alloc ta h
  have hord : ∀ {s'}, Evolves (· = ta) (Ordered now) s₁ s' → Evolves (· = ta) (Ordered now) s s' := fun h' =>
    hev.trans_same h' fun _ _ _ hab hbc => hbc.order.looked hab.order
  have hsame : Evolves (· = ta) (Ordered now) s s₁ := hord (.refl hev.settled (Ordered.refl now))
  unfold transmitterRoute
  rw [hget, Option.bind_eq_bind, Option.bind_some]
  rcases hr with ⟨rfl, -⟩ | ⟨p, a, rfl, -, hp, ha, rfl, -⟩ | ⟨p, rfl, -, -, hp, ha⟩
  · exact ⟨false, s₁, rfl, hsame⟩
  · simp only [Option.map_some, Option.getD_some]
    split
    case isTrue => exact ⟨true, s₁, rfl, hsame⟩
    case isFalse hkeep =>
      obtain ⟨s', hs', hroute, -⟩ := setRoute_spec now (f := .transmitterUpdate sta metric expTime) hev.settled hp ha
        (fun _ => rfl) (fun _ => rfl) (transmitterUpdate_step ((Bool.not_eq_true _).mp hkeep))
      exact ⟨true, s', by rw [hs']; rfl, hord hroute⟩
  · obtain ⟨s', hs', hroute, -⟩ := setRoute_spec now (f := .transmitterUpdate sta metric expTime)
      hev.settled hp ha (fun _ => rfl) (fun _ => rfl) (transmitterUpdate_step (a := .new ta now) rfl)
    simp only [Option.map_none, Option.getD_none, Bool.false_eq_true, if_false]
    exact ⟨true, s', by rw [hs']; rfl, hord hroute⟩

theorem hwmpRouteInfoGet_spec (adapter : HwmpAdapter) (now : Systime) (alloc taAlloc : PathAlloc) (neighbour : Option Neighbour)
    (ta dst : MacAddr) (osn lifetime metric : BitVec 32) (h : s.Settled) :
    ∃ m s', s.hwmpRouteInfoGet adapter now alloc taAlloc neighbour ta dst osn lifetime metric = some (m, s') ∧
      Evolves (fun d => d = dst ∨ d = ta) (Ordered now) s s' ∧
      (m ≠ 0 → ∃ nb, neighbour = some nb ∧ m = newMetric metric nb.linkMetric) ∧
      (neighbour.isSome → s.lookupFast .meshPaths dst = none → s.CanAdd adapter.toAdapter alloc dst → s'.HasRoute dst osn) := by
  unfold hwmpRouteInfoGet
  cases neighbour with
  | none => exact ⟨0, s, rfl, .refl h (Ordered.refl now), fun hm => absurd rfl hm, nofun⟩
  | some nb =>
    simp only
    set expTime := now + adapter.tuToSystime lifetime
    have horig : ∃ r s₁, s.originatorProcess adapter now alloc nb.sta dst osn (newMetric metric nb.linkMetric) expTime =
          some (r, s₁) ∧ Evolves (· = dst) (Ordered now) s s₁ ∧
        (s.lookupFast .meshPaths dst = none → s.CanAdd adapter.toAdapter alloc dst → s₁.HasRoute dst osn) := by
      unfold originatorProcess
      by_cases hown : dst = adapter.macAddr
      · rw [if_pos hown]
        exact ⟨_, s, rfl, .refl h (Ordered.refl now), fun _ hcan => absurd hown hcan.1.1⟩
      · rw [if_neg hown]; exact originatorRoute_spec adapter now alloc nb.sta dst osn _ expTime h
    obtain ⟨r, s₁, hr, hev, hroute⟩ := horig
    rw [hr, Option.bind_eq_bind, Option.bind_some]
    cases r with
    | none => exact ⟨0, s₁, rfl, hev.mono fun _ => Or.inl, fun hm => absurd rfl hm, fun _ => hroute⟩
    | some process =>
      unfold transmitterKnown
      simp only
      by_cases hta : dst = ta
      · rw [if_pos hta, Option.bind_eq_bind, Option.bind_some]
        refine ⟨_, s₁, rfl, hev.mono fun _ => Or.inl, fun hm => ⟨nb, rfl, ?_⟩, fun _ => hroute⟩
        exact (ite_ne_right_iff.mp hm).1 |> fun hp => if_pos hp
      · rw [if_neg hta]
        obtain ⟨got, s₂, hs₂, hev₂⟩ := transmitterRoute_spec adapter now taAlloc nb.sta ta nb.linkMetric expTime hev.settled
        rw [hs₂, Option.bind_eq_bind, Option.bind_some]
        refine ⟨_, s₂, rfl, ?_, fun hm => ⟨nb, rfl, ?_⟩, fun _ hl hcan => ?_⟩
        · exact hev.trans hev₂ fun a b c hab hbc => Ordered.disjoint (fun d hd hd' => hta (hd.symm.trans hd')) hab hbc
        · exact (ite_ne_right_iff.mp hm).1 |> fun hp => if_pos hp
        · exact hev₂.hasRoute (hroute hl hcan) hta

end MeshInfo

end Rtl8852cu.Mesh
