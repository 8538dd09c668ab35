import Rtl8852cu.Mesh.HwmpRuns
import Rtl8852cu.Mesh.Frames

/-!
# Path discovery

A discovery is driven by the flags of a path, its timer and the queue of requests.  `Hwmp.Discovers` is what must hold of them:
a path in discovery has its timer armed or a request in the queue, `RTW_MESH_PATH_REQ_QUEUED` says whether a request
is queued, and the queue is as long as it says and no longer than it may be.  `DiscoveryOp` are the calls, the timers and the
elements that change them.
-/

namespace Rtl8852cu.Mesh

open Lib MeshInfo

/-! ### Frames that are moved -/

namespace MeshInfo

variable {s s' : MeshInfo} {p gate frm : ℕ} {a : MeshPath}

/-- A step that moves frames, and no more. -/
structure FramesMoved (s s' : MeshInfo) : Prop extends SameTables s s' where
  settled : s'.Settled
  kept : Kept s s'

theorem FramesMoved.refl (h : s.Settled) : FramesMoved s s := ⟨.refl s, h, .refl s⟩

theorem FramesMoved.trans {s'' : MeshInfo} (h : FramesMoved s s') (h' : FramesMoved s' s'') : FramesMoved s s'' :=
  ⟨h.toSameTables.trans h'.toSameTables, h'.settled, h.kept.trans h'.kept⟩

theorem FramesMoved.setPath {f : MeshPath → MeshPath} (h : s.Settled) (hf : ∀ a, (f a).core = a.core)
    (hg : ∀ a, (f a).isGate = a.isGate) : FramesMoved s (s.setPath p f) := by
  have hq : Quiet s (s.setPath p f) := .setPath (fun a => (congrArg MeshPath.dst (hf a) :)) hg
  exact ⟨hq.toSameTables, h.same (hq.book h.toBook) hq.toSameTables, .setPath hf⟩

theorem meshPathMoveToQueue_moved (limit : ℕ) (copy : Bool) (h : s.Settled) (hgate : gate ∈ s.tbl .meshPaths) (hfrm : frm ∈ s.tbl .meshPaths) :
    ∃ s', s.meshPathMoveToQueue limit gate frm copy = some s' ∧ FramesMoved s s' := by
  obtain ⟨g, hg⟩ := Option.isSome_iff_exists.mp (h.tbl_live .meshPaths gate hgate)
  obtain ⟨b, hb⟩ := Option.isSome_iff_exists.mp (h.tbl_live .meshPaths frm hfrm)
  by_cases hne : gate = frm
  · exact ⟨s, if_pos hne, .refl h⟩
  cases hhop : g.nextHop with
  | none =>
    refine ⟨s, ?_, .refl h⟩
    unfold meshPathMoveToQueue
    rw [if_neg hne, hg, Option.bind_eq_bind, Option.bind_some, if_pos hhop]; rfl
  | some hop =>
    refine ⟨_, meshPathMoveToQueue_eq hne hg hhop hb, ?_⟩
    have hempty : FramesMoved s (s.setPath frm .noFrames) := .setPath h (fun _ => rfl) fun _ => rfl
    have hhalf : FramesMoved s (halfMoved limit gate frm g hop b s) := hempty.trans (.setPath hempty.settled (fun _ => rfl) fun _ => rfl)
    cases copy with
    | false => exact hhalf
    | true => exact hhalf.trans (.setPath hhalf.settled (fun _ => rfl) fun _ => rfl)

theorem meshPathTxPending_moved (h : s.Settled) (hp : p ∈ s.tbl .meshPaths) :
    ∃ s', s.meshPathTxPending p = some s' ∧ FramesMoved s s' := by
  obtain ⟨s', hs', hset, hsame, hkept⟩ := meshPathTxPending_spec h hp
  exact ⟨s', hs', hsame, hset, hkept⟩

theorem moveToGates_moved (limit : ℕ) (copy : Bool) {gates : List ℕ} (h : s.Settled) (hgates : ∀ g ∈ gates, g ∈ s.tbl .meshPaths)
    (hfrm : frm ∈ s.tbl .meshPaths) : ∃ frm' s', moveToGates limit gates frm copy s = some (frm', s') ∧ FramesMoved s s' := by
  induction gates generalizing s frm copy with
  | nil => exact ⟨frm, s, rfl, .refl h⟩
  | cons gate gates ih =>
    have hgate := hgates gate List.mem_cons_self
    have hrest : ∀ g ∈ gates, g ∈ s.tbl .meshPaths := fun g hg => hgates g (List.mem_cons_of_mem gate hg)
    obtain ⟨g, hg⟩ := Option.isSome_iff_exists.mp (h.tbl_live .meshPaths gate hgate)
    unfold moveToGates
    rw [hg, Option.bind_eq_bind, Option.bind_some]
    split
    · obtain ⟨s₁, hs₁, hm₁⟩ := meshPathMoveToQueue_moved limit copy h hgate hfrm
      obtain ⟨frm', s', hs', hm⟩ := ih true hm₁.settled (by rw [hm₁.tbl]; exact hrest) (by rw [hm₁.tbl]; exact hgate)
      rw [hs₁, Option.bind_eq_bind, Option.bind_some]; exact ⟨frm', s', hs', hm₁.trans hm⟩
    · exact ih copy h hrest hfrm

theorem txGates_moved {gates : List ℕ} (h : s.Settled) (hgates : ∀ g ∈ gates, g ∈ s.tbl .meshPaths) :
    ∃ s', txGates gates s = some s' ∧ FramesMoved s s' := by
  induction gates generalizing s with
  | nil => exact ⟨s, rfl, .refl h⟩
  | cons gate gates ih =>
    obtain ⟨s₁, hs₁, hm₁⟩ := meshPathTxPending_moved h (hgates gate List.mem_cons_self)
    obtain ⟨s', hs', hm⟩ := ih hm₁.settled fun g hg => by
      rw [hm₁.tbl]; exact hgates g (List.mem_cons_of_mem gate hg)
    unfold txGates
    rw [hs₁, Option.bind_eq_bind, Option.bind_some]; exact ⟨s', hs', hm₁.trans hm⟩

theorem meshPathSendToGates_moved (limit : ℕ) (h : s.Settled) (hp : p ∈ s.tbl .meshPaths) :
    ∃ e s', s.meshPathSendToGates limit p = some (e, s') ∧ FramesMoved s s' := by
  have hgates : ∀ g ∈ s.knownGates, g ∈ s.tbl .meshPaths := h.gates_in
  obtain ⟨frm, s₁, hs₁, hm₁⟩ := moveToGates_moved limit false h hgates hp
  obtain ⟨s', hs', hm⟩ := txGates_moved hm₁.settled hm₁.settled.gates_in
  unfold meshPathSendToGates
  rw [hs₁, Option.bind_eq_bind, Option.bind_some]
  simp only
  rw [hs', Option.bind_eq_bind, Option.bind_some]; exact ⟨_, s', rfl, hm₁.trans hm⟩

theorem meshPathFlushPending_moved (h : s.Settled) (ha : s.path p = some a) :
    ∃ s', s.meshPathFlushPending p = some s' ∧ FramesMoved s s' := by
  unfold meshPathFlushPending
  rw [ha, Option.bind_eq_bind, Option.bind_some]
  have hm : FramesMoved s (s.setPath p .noFrames) := .setPath h (fun _ => rfl) fun _ => rfl
  have hq₀ : Quiet s (s.setPath p .noFrames) := .setPath (fun _ => rfl) fun _ => rfl
  have hq : Quiet s { s.setPath p .noFrames with discarded := s.discarded ++ a.frameQueue } :=
    ⟨⟨hm.tbl, hm.mpaths, hm.retired, hm.next, hm.dst⟩, rfl, rfl, rfl, hq₀.isGate⟩
  exact ⟨_, rfl, hq.toSameTables, h.same (hq.book h.toBook) hq.toSameTables, hm.kept.core, rfl, rfl⟩

end MeshInfo

/-! ### What must hold -/

/-- The requests in the queue for a destination. -/
def MeshInfo.nodesFor (dst : MacAddr) (s : MeshInfo) : List PreqNode := s.preqQueue.filter (·.dst = dst)

/-- No path is left in discovery for ever. -/
structure MeshInfo.Discovers (s : MeshInfo) : Prop where
  resolving : ∀ p ∈ s.tbl .meshPaths, ∀ a, s.path p = some a → a.flags.resolving = true → a.flags.resolved = false →
    a.timer ≠ none ∨ s.nodesFor a.dst ≠ []
  queued : ∀ p ∈ s.tbl .meshPaths, ∀ a, s.path p = some a → (s.nodesFor a.dst).length = if a.flags.reqQueued then 1 else 0
  len : s.preqQueueLen = s.preqQueue.length
  bounded : s.preqQueueLen ≤ maxPreqQueueLen

/-! ### Operations -/

def MeshPath.expires (now : Systime) (path : MeshPath) : Bool := path.timer.any fun t => !timeBefore now t

/-- What changes the discovery of a path. -/
inductive DiscoveryOp
  | pathAdd (now : Systime) (alloc : PathAlloc) (dst : MacAddr)
  | queuePreq (now : Systime) (malloc : Bool) (p : ℕ) (flags : PreqFlags)
  | startDiscovery (now : Systime)
  | timer (now : Systime) (malloc : Bool) (p : ℕ)
  | rx (e : Rx)

namespace DiscoveryOp

variable (adapter : HwmpAdapter)

/-- A pointer that is not in the table is no path, and a timer that is not armed does not expire. -/
def run (s : Hwmp) : DiscoveryOp → Option Hwmp
  | pathAdd now alloc dst => some { s with mesh := (s.mesh.meshPathAdd adapter.toAdapter now alloc.malloc alloc.insert dst).2 }
  | queuePreq now malloc p flags =>
    if p ∈ s.mesh.tbl .meshPaths then do
      let mesh ← s.mesh.queuePreq adapter.toAdapter now malloc p flags
      return { s with mesh := mesh }
    else some s
  | startDiscovery now => (s.meshPathStartDiscovery adapter now).map (·.1)
  | timer now malloc p =>
    if p ∈ s.mesh.tbl .meshPaths ∧ (s.mesh.path p).any (·.expires now) = true then do
      let mesh ← Hwmp.meshPathTimer adapter now malloc p (s.mesh.setPath p .noTimer)
      return { s with mesh := mesh }
    else some s
  | rx e => (s.meshRxPathSelFrame adapter e).map (·.1)

/-- The state after an operation, unless a pointer was read that points to nothing. -/
def step (st : Option Hwmp) (op : DiscoveryOp) : Option Hwmp := st.bind fun s => op.run adapter s

/-- A request that is sent, and not only taken from the queue. -/
def Sends (node : PreqNode) (a : MeshPath) : Prop :=
  node.flags.start = true ∧ a.flags.resolving = false ∨
    node.flags.start = false ∧ a.flags.resolving = true ∧ a.flags.resolved = false

/-- The operation leaves a path in discovery for ever, or the queue out of step with the flags: a request that is sent with no
`element_ttl`, or a timer that expires with a request in the queue, or whose request is refused. -/
def Strands (s : MeshInfo) : DiscoveryOp → Prop
  | startDiscovery now =>
    s.preqQueueLen ≠ 0 ∧ timeBefore now (s.lastPreq + adapter.toAdapter.minPreqIntJiff) = false ∧
      ∃ node rest p a, s.preqQueue = node :: rest ∧ s.lookupFast .meshPaths node.dst = some p ∧ s.path p = some a ∧
        Sends node a ∧ adapter.elementTtl = 0 ∧ a.timer = none
  | timer now malloc p =>
    p ∈ s.tbl .meshPaths ∧ ∃ a, s.path p = some a ∧ a.expires now = true ∧ a.flags.resolving = true ∧ a.flags.resolved = false ∧
      (a.flags.reqQueued = true ∨
        a.discoveryRetries < adapter.maxPreqRetries ∧ (malloc = false ∨ s.preqQueueLen = maxPreqQueueLen))
  | _ => False

end DiscoveryOp

/-! ### The invariant -/

namespace MeshInfo

variable {adapter : HwmpAdapter} {now : Systime} {s s' s'' : MeshInfo} {p q : ℕ} {a b : MeshPath} {node : PreqNode}

/-- No order between a path before and after. -/
def AnyOrder (_ _ : MeshPath) : Prop := True

/-- What a path in discovery waits for is its timer, or a request for another try. -/
structure DiscoveryInv (s : MeshInfo) : Prop where
  settled : s.Settled
  hopped : s.Hopped
  usable : ∀ p ∈ s.tbl .meshPaths, ∀ a, s.path p = some a → a.flags.fixed = false ∧ a.flags.deleted = false
  known : ∀ node ∈ s.preqQueue, ∃ p ∈ s.tbl .meshPaths, ∃ a, s.path p = some a ∧ a.dst = node.dst
  waiting : ∀ p ∈ s.tbl .meshPaths, ∀ a, s.path p = some a → a.flags.resolving = true → a.flags.resolved = false →
    a.timer ≠ none ∨ ∃ node ∈ s.nodesFor a.dst, node.flags.start = false
  queued : ∀ p ∈ s.tbl .meshPaths, ∀ a, s.path p = some a → (s.nodesFor a.dst).length = if a.flags.reqQueued then 1 else 0
  len : s.preqQueueLen = s.preqQueue.length
  bounded : s.preqQueueLen ≤ maxPreqQueueLen

theorem DiscoveryInv.discovers (h : s.DiscoveryInv) : s.Discovers where
  resolving := fun p hp a ha hr hd => (h.waiting p hp a ha hr hd).imp id fun ⟨_, hmem, _⟩ => List.ne_nil_of_mem hmem
  queued := h.queued
  len := h.len
  bounded := h.bounded

theorem mem_nodesFor {dst : MacAddr} : node ∈ s.nodesFor dst ↔ node ∈ s.preqQueue ∧ node.dst = dst := by
  unfold nodesFor
  rw [List.mem_filter, decide_eq_true_iff]

theorem DiscoveryInv.nodesFor_nil (h : s.DiscoveryInv) {dst : MacAddr} (hnot : ∀ p ∈ s.tbl .meshPaths, ∀ a, s.path p = some a → a.dst ≠ dst) :
    s.nodesFor dst = [] := by
  refine List.eq_nil_iff_forall_not_mem.mpr fun node hmem => ?_
  obtain ⟨hqueue, rfl⟩ := mem_nodesFor.mp hmem
  obtain ⟨p, hp, a, ha, hdst⟩ := h.known node hqueue
  exact hnot p hp a ha hdst

theorem Settled.path_inj (h : s.Settled) (hp : p ∈ s.tbl .meshPaths) (hq : q ∈ s.tbl .meshPaths) (ha : s.path p = some a)
    (hb : s.path q = some b) (hdst : a.dst = b.dst) : p = q := by
  refine h.dst_inj .meshPaths p hp q hq ?_
  rw [dstVal_of ha, dstVal_of hb, hdst]

theorem DiscoveryInv.evolves {D : MacAddr → Prop} {O : MeshPath → MeshPath → Prop} (h : s.DiscoveryInv) (hev : Evolves D O s s') :
    s'.DiscoveryInv := by
  have hnodes : ∀ dst, s'.nodesFor dst = s.nodesFor dst := by
    intro dst
    unfold nodesFor
    rw [hev.preqQueue]
  -- a path of the table was there, or is new
  have hpath : ∀ p ∈ s'.tbl .meshPaths, ∀ b, s'.path p = some b →
      (∃ a, p ∈ s.tbl .meshPaths ∧ s.path p = some a ∧ PathStep D O a b) ∨ NewPath b ∧ s.nodesFor b.dst = [] := by
    intro p hp b hb
    by_cases hold : p ∈ s.tbl .meshPaths
    · obtain ⟨a, ha⟩ := Option.isSome_iff_exists.mp (h.settled.tbl_live .meshPaths p hold)
      obtain ⟨b', hb', hab⟩ := (hev.kept p hold).2 a ha
      obtain rfl := Option.some.inj (hb.symm.trans hb')
      exact Or.inl ⟨a, hold, ha, hab⟩
    · obtain ⟨b', hb', hn⟩ := hev.new p hp hold
      obtain rfl := Option.some.inj (hb.symm.trans hb')
      refine Or.inr ⟨hn, h.nodesFor_nil fun q hq c hc hdst => hold ?_⟩
      obtain ⟨hq', hstep⟩ := hev.kept q hq
      obtain ⟨c', hc', hcc⟩ := hstep c hc
      obtain rfl := hev.settled.path_inj hq' hp hc' hb (hcc.dst.trans hdst)
      exact hq
  exact {
    settled := hev.settled
    hopped := hev.hopped h.settled h.hopped
    usable := by
      intro p hp b hb
      rcases hpath p hp b hb with ⟨a, hold, ha, hab⟩ | ⟨hn, -⟩
      · rw [hab.fixed, hab.deleted]; exact h.usable p hold a ha
      · exact ⟨hn.fixed, hn.deleted⟩
    known := by
      intro node hmem
      rw [hev.preqQueue] at hmem
      obtain ⟨p, hp, a, ha, hdst⟩ := h.known node hmem
      obtain ⟨hp', hstep⟩ := hev.kept p hp
      obtain ⟨b, hb, hab⟩ := hstep a ha
      exact ⟨p, hp', b, hb, hab.dst.trans hdst⟩
    waiting := by
      intro p hp b hb hres hdone
      rcases hpath p hp b hb with ⟨a, hold, ha, hab⟩ | ⟨hn, -⟩
      · rw [hnodes, hab.dst, hab.timer]
        refine h.waiting p hold a ha (hab.resolving ▸ hres) ((Bool.not_eq_true _).mp fun hd => ?_)
        exact nomatch (hab.resolved hd).symm.trans hdone
      · exact nomatch hn.resolving.symm.trans hres
    queued := by
      intro p hp b hb
      rw [hnodes]
      rcases hpath p hp b hb with ⟨a, hold, ha, hab⟩ | ⟨hn, hnil⟩
      · rw [hab.dst, hab.reqQueued]; exact h.queued p hold a ha
      · rw [hnil, hn.reqQueued]; rfl
    len := by
      rw [hev.preqQueueLen, hev.preqQueue]; exact h.len
    bounded := by
      rw [hev.preqQueueLen]; exact h.bounded }

theorem DiscoveryInv.update (h : s.DiscoveryInv) (hs : s'.Settled) (htbl : s'.tbl .meshPaths = s.tbl .meshPaths)
    (hp : p ∈ s.tbl .meshPaths) (ha : s.path p = some a) (hb : s'.path p = some b) (hdst : b.dst = a.dst)
    (hfixed : b.flags.fixed = a.flags.fixed) (hdeleted : b.flags.deleted = a.flags.deleted)
    (hhop : (a.flags.active = true → a.nextHop ≠ none) → b.flags.active = true → b.nextHop ≠ none)
    (hother : ∀ q ∈ s.tbl .meshPaths, q ≠ p → ∀ c, s.path q = some c → ∃ c', s'.path q = some c' ∧ PathStep AnyDst AnyOrder c c')
    (hnodes : ∀ dst, dst ≠ a.dst → s'.nodesFor dst = s.nodesFor dst)
    (hwait : b.flags.resolving = true → b.flags.resolved = false →
      b.timer ≠ none ∨ ∃ node ∈ s'.nodesFor a.dst, node.flags.start = false)
    (hqueued : (s'.nodesFor a.dst).length = if b.flags.reqQueued then 1 else 0)
    (hlen : s'.preqQueueLen = s'.preqQueue.length) (hbounded : s'.preqQueueLen ≤ maxPreqQueueLen) : s'.DiscoveryInv := by
  -- another path of the table has another destination
  have hpath : ∀ q ∈ s'.tbl .meshPaths, ∀ c', s'.path q = some c' →
      (q = p ∧ c' = b) ∨ ∃ c, q ∈ s.tbl .meshPaths ∧ s.path q = some c ∧ PathStep AnyDst AnyOrder c c' ∧ c.dst ≠ a.dst := by
    intro q hq c' hc'
    rw [htbl] at hq
    by_cases hqp : q = p
    · subst hqp; exact Or.inl ⟨rfl, Option.some.inj (hc'.symm.trans hb)⟩
    · obtain ⟨c, hc⟩ := Option.isSome_iff_exists.mp (h.settled.tbl_live .meshPaths q hq)
      obtain ⟨c'', hc'', hstep⟩ := hother q hq hqp c hc
      obtain rfl := Option.some.inj (hc'.symm.trans hc'')
      exact Or.inr ⟨c, hq, hc, hstep, fun he => hqp (h.settled.path_inj hq hp hc ha he)⟩
  exact {
    settled := hs
    hopped := by
      intro q hq c' hc'
      rcases hpath q hq c' hc' with ⟨rfl, rfl⟩ | ⟨c, hq', hc, hstep, -⟩
      · exact hhop (h.hopped q hp a ha)
      · exact hstep.hop (h.hopped q hq' c hc)
    usable := by
      intro q hq c' hc'
      rcases hpath q hq c' hc' with ⟨rfl, rfl⟩ | ⟨c, hq', hc, hstep, -⟩
      · rw [hfixed, hdeleted]; exact h.usable q hp a ha
      · rw [hstep.fixed, hstep.deleted]; exact h.usable q hq' c hc
    known := by
      intro node hmem
      by_cases hd : node.dst = a.dst
      · exact ⟨p, htbl ▸ hp, b, hb, hdst.trans hd.symm⟩
      · have hmem' : node ∈ s'.nodesFor node.dst := mem_nodesFor.mpr ⟨hmem, rfl⟩
        rw [hnodes _ hd] at hmem'
        obtain ⟨q, hq, c, hc, hcd⟩ := h.known node (mem_nodesFor.mp hmem').1
        have hqp : q ≠ p := by
          rintro rfl
          obtain rfl := Option.some.inj (ha.symm.trans hc)
          exact hd hcd.symm
        obtain ⟨c', hc', hstep⟩ := hother q hq hqp c hc
        exact ⟨q, htbl ▸ hq, c', hc', hstep.dst.trans hcd⟩
    waiting := by
      intro q hq c' hc' hres hdone
      rcases hpath q hq c' hc' with ⟨rfl, rfl⟩ | ⟨c, hq', hc, hstep, hne⟩
      · rw [hdst]; exact hwait hres hdone
      · rw [hstep.dst, hstep.timer, hnodes _ hne]
        refine h.waiting q hq' c hc (hstep.resolving ▸ hres) ((Bool.not_eq_true _).mp fun hd => ?_)
        exact nomatch (hstep.resolved hd).symm.trans hdone
    queued := by
      intro q hq c' hc'
      rcases hpath q hq c' hc' with ⟨rfl, rfl⟩ | ⟨c, hq', hc, hstep, hne⟩
      · rw [hdst]; exact hqueued
      · rw [hstep.dst, hnodes _ hne, hstep.reqQueued]; exact h.queued q hq' c hc
    len := hlen
    bounded := hbounded }

end MeshInfo

end Rtl8852cu.Mesh
