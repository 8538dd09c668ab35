import Rtl8852cu.Mesh.Discovery

/-!
# Discovery along a run

Each operation keeps `DiscoveryInv` unless it strands a path (`DiscoveryOp.Strands`), and then what must hold does not.
-/

namespace Rtl8852cu.Mesh

open Lib MeshInfo

namespace MeshInfo

variable {adapter : HwmpAdapter} {now : Systime} {s s' s'' : MeshInfo} {p q : ℕ} {a b : MeshPath} {node : PreqNode}
  {f : MeshPath → MeshPath}

structure OnlyPath (p : ℕ) (s s' : MeshInfo) : Prop where
  settled : s'.Settled
  tbl : s'.tbl = s.tbl
  preqQueue : s'.preqQueue = s.preqQueue
  preqQueueLen : s'.preqQueueLen = s.preqQueueLen
  path_ne : ∀ q, q ≠ p → s'.path q = s.path q

theorem OnlyPath.trans (h : OnlyPath p s s') (h' : OnlyPath p s' s'') : OnlyPath p s s'' :=
  ⟨h'.settled, h'.tbl.trans h.tbl, h'.preqQueue.trans h.preqQueue, h'.preqQueueLen.trans h.preqQueueLen,
    fun q hq => (h'.path_ne q hq).trans (h.path_ne q hq)⟩

theorem OnlyPath.setPath (h : s.Settled) (hdst : ∀ a, (f a).dst = a.dst) (hg : ∀ a, (f a).isGate = a.isGate) :
    OnlyPath p s (s.setPath p f) := by
  have hq : Quiet s (s.setPath p f) := .setPath hdst hg
  exact ⟨h.same (hq.book h.toBook) hq.toSameTables, rfl, rfl, rfl, fun _ => path_setPath_ne⟩

theorem quiet_queue (s : MeshInfo) (queue : List PreqNode) (len : ℤ) (t : Systime) :
    Quiet s { s with preqQueue := queue, preqQueueLen := len, lastPreq := t } :=
  ⟨⟨rfl, rfl, rfl, rfl, fun _ => rfl⟩, rfl, rfl, rfl, fun _ => rfl⟩

theorem Settled.withQueue (h : s.Settled) (queue : List PreqNode) (len : ℤ) (t : Systime) :
    MeshInfo.Settled { s with preqQueue := queue, preqQueueLen := len, lastPreq := t } :=
  h.same ((quiet_queue s queue len t).book h.toBook) (quiet_queue s queue len t).toSameTables

/-! ### Requests -/

theorem nodesFor_append {dst : MacAddr} (hq : s'.preqQueue = s.preqQueue ++ [node]) (hne : dst ≠ node.dst) :
    s'.nodesFor dst = s.nodesFor dst := by
  unfold nodesFor
  rw [hq, List.filter_append, List.filter_cons_of_neg (by rw [decide_eq_true_iff]; exact fun he => hne he.symm), List.filter_nil,
    List.append_nil]

theorem nodesFor_append_self (node : PreqNode) (hq : s'.preqQueue = s.preqQueue ++ [node]) : s'.nodesFor node.dst = s.nodesFor node.dst ++ [node] := by
  unfold nodesFor
  rw [hq, List.filter_append, List.filter_cons_of_pos (by exact decide_eq_true rfl), List.filter_nil]

theorem DiscoveryInv.queuePreq (h : s.DiscoveryInv) (adapter : Adapter) (now : Systime) (malloc : Bool) (flags : PreqFlags)
    (hp : p ∈ s.tbl .meshPaths) : ∃ s', s.queuePreq adapter now malloc p flags = some s' ∧ s'.DiscoveryInv := by
  obtain ⟨a, ha⟩ := Option.isSome_iff_exists.mp (h.settled.tbl_live .meshPaths p hp)
  obtain ⟨s', hs', hset, hsame, -, hother⟩ := queuePreq_path adapter now malloc flags h.settled ha
  refine ⟨s', hs', ?_⟩
  rcases queuePreq_cases adapter now malloc flags ha with ⟨hrun, -⟩ | ⟨⟨-, hlen, hreq⟩, t, hrun⟩
  · obtain rfl := Option.some.inj (hrun.symm.trans hs'); exact h
  · obtain rfl := Option.some.inj (hrun.symm.trans hs')
    have hcount := h.queued p hp a ha
    rw [hreq, if_neg nofun] at hcount
    refine h.update hset (b := a.queued flags) (congrFun hsame.tbl .meshPaths) hp ha (path_setPath_self ha) rfl rfl rfl id ?_ ?_ ?_ ?_ ?_ ?_
    · exact fun q hq hqp c hc => ⟨c, (hother q hqp).trans hc, .refl trivial⟩
    · exact fun dst hne => nodesFor_append rfl hne
    · intro hres hdone
      refine (h.waiting p hp a ha hres hdone).imp id fun ⟨node, hmem, hstart⟩ => ⟨node, ?_, hstart⟩
      rw [List.length_eq_zero_iff.mp hcount] at hmem; exact nomatch hmem
    · rw [nodesFor_append_self (s := s) ⟨a.dst, flags⟩ rfl, List.length_append, hcount]; rfl
    · show s.preqQueueLen + 1 = ((s.preqQueue ++ [_]).length : ℤ)
      rw [h.len, List.length_append]; rfl
    · show s.preqQueueLen + 1 ≤ maxPreqQueueLen
      have hb := h.bounded
      omega

theorem DiscoveryInv.taken_nodes (h : s.DiscoveryInv) {rest : List PreqNode} (hq : s.preqQueue = node :: rest)
    (hp : p ∈ s.tbl .meshPaths) (ha : s.path p = some a) (hdst : a.dst = node.dst) :
    s.nodesFor node.dst = [node] ∧ rest.filter (·.dst = node.dst) = [] := by
  have hnodes : s.nodesFor node.dst = node :: rest.filter (·.dst = node.dst) := by
    unfold nodesFor
    rw [hq, List.filter_cons_of_pos (by exact decide_eq_true rfl)]
  have hcount := h.queued p hp a ha
  rw [hdst, hnodes, List.length_cons] at hcount
  have hnil : rest.filter (·.dst = node.dst) = [] := by
    refine List.length_eq_zero_iff.mp ?_
    split at hcount
    · exact Nat.succ.inj hcount
    · exact nomatch hcount
  exact ⟨hnodes.trans (congrArg _ hnil), hnil⟩

theorem DiscoveryInv.taken {rest : List PreqNode} {s₁ : MeshInfo} {a₁ : MeshPath} {D : MacAddr → Prop} {O : MeshPath → MeshPath → Prop}
    (h : s.DiscoveryInv) (hq : s.preqQueue = node :: rest) (hp : p ∈ s.tbl .meshPaths) (ha : s.path p = some a)
    (hdst : a.dst = node.dst) (hev : Evolves D O { s with preqQueue := rest, preqQueueLen := s.preqQueueLen - 1 } s₁)
    (htbl : s₁.tbl = s.tbl) (ha₁ : s₁.path p = some a₁) (hs' : OnlyPath p s₁ s') (hb : s'.path p = some b) (hbdst : b.dst = a₁.dst)
    (hfixed : b.flags.fixed = a₁.flags.fixed) (hdeleted : b.flags.deleted = a₁.flags.deleted)
    (hhop : (a₁.flags.active = true → a₁.nextHop ≠ none) → b.flags.active = true → b.nextHop ≠ none)
    (hreq : b.flags.reqQueued = false) (hwait : b.flags.resolving = true → b.flags.resolved = false → b.timer ≠ none) :
    s'.DiscoveryInv := by
  obtain ⟨a₂, ha₂, hstep⟩ := (hev.kept p hp).2 a ha
  obtain rfl := Option.some.inj (ha₁.symm.trans ha₂)
  obtain ⟨-, hnil⟩ := h.taken_nodes hq hp ha hdst
  have hqueue : s'.preqQueue = rest := hs'.preqQueue.trans hev.preqQueue
  refine h.update hs'.settled ((congrFun hs'.tbl _).trans (congrFun htbl _)) hp ha hb (hbdst.trans hstep.dst) (hfixed.trans hstep.fixed)
    (hdeleted.trans hstep.deleted) (fun hop => hhop (hstep.hop hop)) ?_ ?_ (fun hr hd => Or.inl (hwait hr hd)) ?_ ?_ ?_
  · intro q hq hqp c hc
    obtain ⟨c', hc', hcc⟩ := (hev.kept q hq).2 c hc
    exact ⟨c', (hs'.path_ne q hqp).trans hc', { hcc with other := fun hd => absurd trivial hd, order := trivial }⟩
  · intro dst hne
    unfold nodesFor
    rw [hqueue, hq, List.filter_cons_of_neg (by rw [decide_eq_true_iff]; exact fun he => hne (he.symm.trans hdst.symm))]
  · unfold nodesFor
    rw [hqueue, hdst, hnil, hreq]; rfl
  · rw [hs'.preqQueueLen, hev.preqQueueLen, hqueue]
    show s.preqQueueLen - 1 = rest.length
    rw [h.len, hq, List.length_cons]; omega
  · rw [hs'.preqQueueLen, hev.preqQueueLen]
    show s.preqQueueLen - 1 ≤ maxPreqQueueLen
    have hb := h.bounded
    omega

end MeshInfo

namespace Hwmp

variable {adapter : HwmpAdapter} {now : Systime} {s s' : Hwmp} {p : ℕ} {a b : MeshPath} {node : PreqNode}

theorem sendPreq_spec (adapter : HwmpAdapter) (now : Systime) (node : PreqNode) (h : s.mesh.Settled) (ha : s.mesh.path p = some a) :
    ∃ s' sent, s.sendPreq adapter now node p = some (s', sent) ∧ OnlyPath p s.mesh s'.mesh ∧
      s'.mesh.path p = some (if adapter.elementTtl = 0 then a else a.armed now) := by
  have hquiet : OnlyPath p s.mesh { s.mesh with lastPreq := now } :=
    ⟨h.withQueue s.mesh.preqQueue s.mesh.preqQueueLen now, rfl, rfl, rfl, fun _ _ => rfl⟩
  have hmesh : (Hwmp.updateSn adapter now { s with mesh := { s.mesh with lastPreq := now } }).mesh = { s.mesh with lastPreq := now } :=
    updateSn_mesh
  unfold sendPreq
  simp only
  by_cases hz : adapter.elementTtl = 0
  · rw [if_pos hz, if_pos hz]
    refine ⟨_, [], rfl, ?_, ?_⟩
    · rw [hmesh]; exact hquiet
    · rw [hmesh]; exact ha
  · rw [if_neg hz, if_neg hz, hmesh]
    have ha' : MeshInfo.path { s.mesh with lastPreq := now } p = some a := ha
    rw [ha', Option.bind_eq_bind, Option.bind_some]
    exact ⟨_, _, rfl, hquiet.trans (.setPath hquiet.settled (fun _ => rfl) fun _ => rfl), path_setPath_self ha'⟩

end Hwmp

/-- What sending a request makes of its path. -/
def MeshPath.sent (adapter : HwmpAdapter) (now : Systime) (a : MeshPath) : MeshPath := if adapter.elementTtl = 0 then a else a.armed now

/-- What a request that is taken makes of its path. -/
def MeshPath.requested (adapter : HwmpAdapter) (now : Systime) (node : PreqNode) (a : MeshPath) : MeshPath :=
  if node.flags.start then
    if a.flags.resolving then a.notQueued
    else (a.notQueued.startResolving (adapter.msToSystime (.ofNat 32 adapter.minDiscoveryTimeout.toNat))).sent adapter now
  else if !a.flags.resolving || a.flags.resolved then a.notQueued.notResolving
  else a.notQueued.sent adapter now

/-- The fields of a path that a request leaves alone. -/
structure MeshPath.SameRoute (a b : MeshPath) : Prop where
  dst : b.dst = a.dst
  fixed : b.flags.fixed = a.flags.fixed
  deleted : b.flags.deleted = a.flags.deleted
  active : b.flags.active = a.flags.active
  nextHop : b.nextHop = a.nextHop
  isGate : b.isGate = a.isGate

theorem MeshPath.sent_flags (adapter : HwmpAdapter) (now : Systime) (a : MeshPath) : (a.sent adapter now).flags = a.flags := by
  unfold sent
  split
  · rfl
  · rfl

theorem MeshPath.SameRoute.sent {a b : MeshPath} (h : a.SameRoute b) (adapter : HwmpAdapter) (now : Systime) :
    a.SameRoute (b.sent adapter now) := by
  unfold MeshPath.sent
  split
  · exact h
  · exact ⟨h.dst, h.fixed, h.deleted, h.active, h.nextHop, h.isGate⟩

theorem MeshPath.requested_same (adapter : HwmpAdapter) (now : Systime) (node : PreqNode) (a : MeshPath) :
    a.SameRoute (a.requested adapter now node) := by
  unfold requested
  split
  · split
    · exact ⟨rfl, rfl, rfl, rfl, rfl, rfl⟩
    · refine SameRoute.sent ?_ adapter now; exact ⟨rfl, rfl, rfl, rfl, rfl, rfl⟩
  · split
    · exact ⟨rfl, rfl, rfl, rfl, rfl, rfl⟩
    · refine SameRoute.sent ?_ adapter now; exact ⟨rfl, rfl, rfl, rfl, rfl, rfl⟩

theorem MeshPath.requested_reqQueued (adapter : HwmpAdapter) (now : Systime) (node : PreqNode) (a : MeshPath) :
    (a.requested adapter now node).flags.reqQueued = false := by
  unfold requested
  split
  · split
    · rfl
    · rw [sent_flags]; rfl
  · split
    · rfl
    · rw [sent_flags]; rfl

theorem MeshPath.sent_timer {adapter : HwmpAdapter} {now : Systime} {a : MeshPath} :
    (a.sent adapter now).timer = none ↔ adapter.elementTtl = 0 ∧ a.timer = none := by
  unfold sent
  split
  case isTrue hz => exact (and_iff_right hz).symm
  case isFalse hz => exact iff_of_false nofun fun h => hz h.1

theorem MeshPath.requested_waits {adapter : HwmpAdapter} {now : Systime} {node : PreqNode} {a : MeshPath} :
    ((a.requested adapter now node).flags.resolving = true ∧ (a.requested adapter now node).flags.resolved = false ∧
        (a.requested adapter now node).timer = none) ↔
      (DiscoveryOp.Sends node a ∧ adapter.elementTtl = 0 ∧ a.timer = none) ∨
        (node.flags.start = true ∧ a.flags.resolving = true ∧ a.flags.resolved = false ∧ a.timer = none) := by
  unfold requested DiscoveryOp.Sends
  cases hstart : node.flags.start with
  | true =>
    rw [if_pos rfl]
    cases hres : a.flags.resolving with
    | true =>
      rw [if_pos rfl]
      show a.flags.resolving = true ∧ a.flags.resolved = false ∧ a.timer = none ↔ _
      rw [hres]; simp
    | false =>
      rw [if_neg nofun, sent_flags, sent_timer]
      show true = true ∧ false = false ∧ adapter.elementTtl = 0 ∧ a.timer = none ↔ _
      simp
  | false =>
    rw [if_neg nofun]
    cases hres : a.flags.resolving with
    | false =>
      simp only [Bool.not_false, Bool.true_or, if_true]
      refine iff_of_false (fun h => nomatch h.1) ?_
      rintro (⟨⟨h, -⟩ | ⟨-, h, -⟩, -⟩ | ⟨h, -⟩)
      · exact nomatch h
      · exact nomatch h
      · exact nomatch h
    | true =>
      cases hdone : a.flags.resolved with
      | true =>
        simp only [Bool.not_true, Bool.or_true, if_true]
        refine iff_of_false (fun h => nomatch h.1) ?_
        rintro (⟨⟨h, -⟩ | ⟨-, -, h⟩, -⟩ | ⟨h, -⟩)
        · exact nomatch h
        · exact nomatch h
        · exact nomatch h
      | false =>
        rw [if_neg nofun, sent_flags, sent_timer]
        show a.flags.resolving = true ∧ a.flags.resolved = false ∧ adapter.elementTtl = 0 ∧ a.timer = none ↔ _
        rw [hres, hdone]; simp

namespace MeshInfo

theorem meshPathLookup_tbl {now : Systime} {dst : MacAddr} {s s' : MeshInfo} {r : Option ℕ}
    (hrun : s.meshPathLookup now dst = some (r, s')) : s'.tbl = s.tbl := by
  unfold meshPathLookup at hrun
  split at hrun
  · rw [← (Prod.mk.inj (Option.some.inj hrun)).2]
  · obtain ⟨a, -, hrun⟩ := Option.bind_eq_some_iff.mp hrun
    rw [← (Prod.mk.inj (Option.some.inj hrun)).2]
    split
    · rfl
    · rfl

end MeshInfo

namespace Hwmp

variable {adapter : HwmpAdapter} {now : Systime} {s s' : Hwmp} {p : ℕ} {a b : MeshPath} {node : PreqNode}

theorem discover_spec (adapter : HwmpAdapter) (now : Systime) (node : PreqNode) (h : s.mesh.Settled)
    (hl : s.mesh.lookupFast .meshPaths node.dst = some p) (ha : s.mesh.path p = some a) (hfixed : a.flags.fixed = false)
    (hdeleted : a.flags.deleted = false) :
    ∃ mesh₁ a₁ s' sent, s.discover adapter now node = some (s', sent) ∧ Evolves (· = node.dst) (Looked now) s.mesh mesh₁ ∧
      mesh₁.tbl = s.mesh.tbl ∧ mesh₁.path p = some a₁ ∧ s.mesh.WasFound now p a₁ ∧ OnlyPath p mesh₁ s'.mesh ∧
      s'.mesh.path p = some (a₁.requested adapter now node) := by
  obtain ⟨r, mesh₁, hlook, hev, hr⟩ := meshPathLookup_spec now node.dst h
  have htbl := meshPathLookup_tbl hlook
  obtain ⟨rfl, -, hnone⟩ | ⟨p', a₁, rfl, hl', hp, ha₁, -, hfound⟩ := hr
  · exact nomatch hnone.symm.trans hl
  obtain rfl := Option.some.inj (hl.symm.trans hl')
  obtain ⟨a₂, ha₂, hstep⟩ := (hev.kept p (htbl ▸ hp)).2 a ha
  obtain rfl := Option.some.inj (ha₁.symm.trans ha₂)
  have hset : ∀ f : MeshPath → MeshPath, (∀ a, (f a).dst = a.dst) → (∀ a, (f a).isGate = a.isGate) →
      ∀ mesh, mesh.Settled → OnlyPath p mesh (mesh.setPath p f) := fun f hd hg mesh hm => .setPath hm hd hg
  have h₁ := hset .notQueued (fun _ => rfl) (fun _ => rfl) mesh₁ hev.settled
  have hb₁ : (mesh₁.setPath p .notQueued).path p = some a₁.notQueued := path_setPath_self ha₁
  refine ⟨mesh₁, a₁, ?_⟩
  unfold discover
  rw [hlook, Option.bind_eq_bind, Option.bind_some]
  simp only
  rw [ha₁, Option.bind_eq_bind, Option.bind_some, hstep.fixed, hstep.deleted, hfixed, hdeleted, if_neg nofun]
  unfold MeshPath.requested
  cases hstart : node.flags.start with
  | true =>
    rw [if_pos rfl, if_pos rfl]
    cases hres : a₁.flags.resolving with
    | true =>
      rw [if_pos rfl, if_pos rfl]; exact ⟨_, [], rfl, hev, htbl, rfl, hfound, h₁, hb₁⟩
    | false =>
      rw [if_neg Bool.false_ne_true, if_neg Bool.false_ne_true]
      set timeout := adapter.msToSystime (.ofNat 32 adapter.minDiscoveryTimeout.toNat)
      set mesh₂ := (mesh₁.setPath p .notQueued).setPath p (.startResolving timeout)
      have h₂ : OnlyPath p (mesh₁.setPath p .notQueued) mesh₂ :=
        hset (.startResolving timeout) (fun _ => rfl) (fun _ => rfl) _ h₁.settled
      obtain ⟨s', sent, hsend, honly, hb⟩ :=
        sendPreq_spec (s := { s with mesh := mesh₂ }) adapter now node h₂.settled (path_setPath_self hb₁)
      exact ⟨s', sent, hsend, hev, htbl, rfl, hfound, h₁.trans (h₂.trans honly), hb⟩
  | false =>
    rw [if_neg Bool.false_ne_true, if_neg Bool.false_ne_true]
    cases hover : (!a₁.flags.resolving || a₁.flags.resolved) with
    | true =>
      rw [if_pos rfl, if_pos rfl]
      have h₂ := hset .notResolving (fun _ => rfl) (fun _ => rfl) _ h₁.settled
      exact ⟨_, [], rfl, hev, htbl, rfl, hfound, h₁.trans h₂, path_setPath_self hb₁⟩
    | false =>
      rw [if_neg Bool.false_ne_true, if_neg Bool.false_ne_true]
      obtain ⟨s', sent, hsend, honly, hb⟩ := sendPreq_spec (s := { s with mesh := mesh₁.setPath p .notQueued }) adapter now node
        h₁.settled hb₁
      exact ⟨s', sent, hsend, hev, htbl, rfl, hfound, h₁.trans honly, hb⟩

theorem found_discovery {mesh : MeshInfo} {a₁ : MeshPath} (h : mesh.WasFound now p a₁) (ha : mesh.path p = some a) :
    a₁.flags.resolving = a.flags.resolving ∧ a₁.flags.resolved = a.flags.resolved ∧ a₁.timer = a.timer := by
  rcases h with h | ⟨b, hb, -, rfl⟩
  · obtain rfl := Option.some.inj (ha.symm.trans h); exact ⟨rfl, rfl, rfl⟩
  · obtain rfl := Option.some.inj (ha.symm.trans hb); exact ⟨rfl, rfl, rfl⟩

theorem startDiscovery_spec (adapter : HwmpAdapter) (now : Systime) (h : s.mesh.DiscoveryInv) :
    ∃ s' sent, s.meshPathStartDiscovery adapter now = some (s', sent) ∧
      (¬ DiscoveryOp.Strands adapter s.mesh (.startDiscovery now) → s'.mesh.DiscoveryInv) ∧
      (DiscoveryOp.Strands adapter s.mesh (.startDiscovery now) → ¬ s'.mesh.Discovers) := by
  unfold meshPathStartDiscovery
  split
  case isTrue hskip =>
    refine ⟨s, [], rfl, fun _ => h, fun hs => ?_⟩
    obtain ⟨hlen, htime, -⟩ := hs
    exact absurd hskip (not_or.mpr ⟨hlen, fun ht => nomatch ht.symm.trans htime⟩)
  case isFalse hskip =>
  obtain ⟨hlen, htime⟩ := not_or.mp hskip
  rw [Bool.not_eq_true] at htime
  cases hq : s.mesh.preqQueue with
  | nil =>
    refine absurd ?_ hlen
    rw [h.len, hq]; rfl
  | cons node rest =>
    simp only
    obtain ⟨p₀, hp₀, a₀, ha₀, hdst₀⟩ := h.known node (hq ▸ List.mem_cons_self)
    obtain ⟨p, hl⟩ : ∃ p, s.mesh.lookupFast .meshPaths node.dst = some p := by
      refine Option.ne_none_iff_exists'.mp fun hnone => ?_
      refine lookupFast_none h.settled.toBook hnone p₀ hp₀ ?_
      rw [dstVal_of ha₀, hdst₀]
    obtain ⟨hp, a, ha, hdst⟩ := lookupFast_some hl
    obtain ⟨hfixed, hdeleted⟩ := h.usable p hp a ha
    set popped : MeshInfo := { s.mesh with preqQueue := rest, preqQueueLen := s.mesh.preqQueueLen - 1 }
    have hpopped : popped.Settled := h.settled.withQueue rest (s.mesh.preqQueueLen - 1) s.mesh.lastPreq
    obtain ⟨mesh₁, a₁, s', sent, hrun, hev, htbl, ha₁, hfound, honly, hb⟩ :=
      discover_spec (s := { s with mesh := popped }) adapter now node hpopped hl ha hfixed hdeleted
    obtain ⟨hres, hdone, htimer⟩ := found_discovery hfound ha
    obtain ⟨hnodes, hnil⟩ := h.taken_nodes hq hp ha hdst
    have hsame := a₁.requested_same adapter now node
    -- the path waits for nothing afterwards exactly when the request strands it
    have hwaits : ((a₁.requested adapter now node).flags.resolving = true ∧ (a₁.requested adapter now node).flags.resolved = false ∧
        (a₁.requested adapter now node).timer = none) ↔ DiscoveryOp.Strands adapter s.mesh (.startDiscovery now) := by
      rw [MeshPath.requested_waits]
      unfold DiscoveryOp.Sends
      rw [hres, hdone, htimer]
      constructor
      · rintro (⟨hsends, httl, hnone⟩ | ⟨hstart, hr, hd, hnone⟩)
        · exact ⟨hlen, htime, node, rest, p, a, hq, hl, ha, hsends, httl, hnone⟩
        · -- a path in discovery without a timer has a request for another try
          rcases h.waiting p hp a ha hr hd with ht | ⟨node', hmem, hstart'⟩
          · exact absurd hnone ht
          · rw [hdst, hnodes] at hmem
            obtain rfl := List.mem_singleton.mp hmem
            exact nomatch hstart.symm.trans hstart'
      · rintro ⟨-, -, node', rest', p', a', hq', hl', ha', hsends, httl, hnone⟩
        obtain ⟨rfl, rfl⟩ := List.cons.inj (hq.symm.trans hq')
        obtain rfl := Option.some.inj (hl.symm.trans hl')
        obtain rfl := Option.some.inj (ha.symm.trans ha')
        exact Or.inl ⟨hsends, httl, hnone⟩
    refine ⟨s', sent, hrun, fun hgood => ?_, fun hbad hdisc => ?_⟩
    · refine h.taken hq hp ha hdst hev htbl ha₁ honly hb hsame.dst hsame.fixed hsame.deleted ?_ (a₁.requested_reqQueued adapter now node)
        fun hr hd hnone => hgood (hwaits.mp ⟨hr, hd, hnone⟩)
      rw [hsame.active, hsame.nextHop]; exact id
    · obtain ⟨hr, hd, hnone⟩ := hwaits.mpr hbad
      have hp' : p ∈ s'.mesh.tbl .meshPaths := by
        rw [honly.tbl, htbl]; exact hp
      rcases hdisc.resolving p hp' _ hb hr hd with ht | hne
      · exact ht hnone
      · refine hne ?_
        obtain ⟨a₂, ha₂, hstep⟩ := (hev.kept p hp).2 a ha
        obtain rfl := Option.some.inj (ha₁.symm.trans ha₂)
        unfold nodesFor
        rw [honly.preqQueue, hev.preqQueue, hsame.dst, hstep.dst, hdst]; exact hnil

end Hwmp

namespace MeshInfo

variable {adapter : HwmpAdapter} {now : Systime} {s s' s₁ : MeshInfo} {p : ℕ} {a b : MeshPath} {malloc : Bool}

theorem DiscoveryInv.only (h : s.DiscoveryInv) (hp : p ∈ s.tbl .meshPaths) (ha : s.path p = some a) (h₁ : OnlyPath p s s₁)
    (h' : FramesMoved s₁ s') (hb : s₁.path p = some b) (hsame : a.SameRoute b) (hreq : b.flags.reqQueued = a.flags.reqQueued)
    (hres : b.flags.resolving = false) : s'.DiscoveryInv := by
  obtain ⟨c, hc, hcore⟩ := h'.kept.path hb
  have hflags : c.flags = b.flags := (congrArg MeshPath.flags hcore :)
  have hhop : c.nextHop = b.nextHop := (congrArg MeshPath.nextHop hcore :)
  have hdst : c.dst = b.dst := (congrArg MeshPath.dst hcore :)
  have hqueue : s'.preqQueue = s.preqQueue := h'.kept.preqQueue.trans h₁.preqQueue
  have hlen : s'.preqQueueLen = s.preqQueueLen := h'.kept.preqQueueLen.trans h₁.preqQueueLen
  have hnodes : ∀ dst, s'.nodesFor dst = s.nodesFor dst := by
    intro dst
    unfold nodesFor
    rw [hqueue]
  refine h.update h'.settled ((congrFun h'.tbl _).trans (congrFun h₁.tbl _)) hp ha hc (hdst.trans hsame.dst) ?_ ?_ ?_ ?_
    (fun dst _ => hnodes dst) ?_ ?_ ?_ ?_
  · rw [hflags]; exact hsame.fixed
  · rw [hflags]; exact hsame.deleted
  · rw [hflags, hhop, hsame.active, hsame.nextHop]; exact id
  · intro q hq hqp x hx
    obtain ⟨y, hy, hyx⟩ := h'.kept.path ((h₁.path_ne q hqp).trans hx)
    exact ⟨y, hy, .of_core hyx trivial⟩
  · rw [hflags]; exact fun hr => nomatch hr.symm.trans hres
  · rw [hnodes, hflags, hreq]; exact h.queued p hp a ha
  · rw [hlen, hqueue]; exact h.len
  · rw [hlen]; exact h.bounded

theorem not_discovers (hp : p ∈ s.tbl .meshPaths) (hb : s.path p = some b)
    (hne : (s.nodesFor b.dst).length ≠ if b.flags.reqQueued then 1 else 0) : ¬ s.Discovers :=
  fun h => hne (h.queued p hp b hb)

theorem retry_spec (adapter : HwmpAdapter) (now : Systime) (malloc : Bool) (h : s.DiscoveryInv) (hp : p ∈ s.tbl .meshPaths)
    (ha : s.path p = some a) (hres : a.flags.resolving = true) (hdone : a.flags.resolved = false) :
    ∃ s', (((s.setPath p .noTimer).setPath p .retried).queuePreq adapter.toAdapter now malloc p { refresh := a.gateAsked }) = some s' ∧
      (¬ (a.flags.reqQueued = true ∨ malloc = false ∨ s.preqQueueLen = maxPreqQueueLen) → s'.DiscoveryInv) ∧
      (a.flags.reqQueued = true ∨ malloc = false ∨ s.preqQueueLen = maxPreqQueueLen → ¬ s'.Discovers) := by
  set s₁ := (s.setPath p .noTimer).setPath p .retried with hs₁
  have h₀ : OnlyPath p s (s.setPath p .noTimer) := .setPath h.settled (fun _ => rfl) fun _ => rfl
  have h₁ : OnlyPath p s s₁ := h₀.trans (.setPath h₀.settled (fun _ => rfl) fun _ => rfl)
  have hb : s₁.path p = some a.noTimer.retried := path_setPath_self (path_setPath_self ha)
  have hp₁ : p ∈ s₁.tbl .meshPaths := hp
  have hnodes : s₁.nodesFor a.dst = s.nodesFor a.dst := rfl
  have hcount := h.queued p hp a ha
  obtain ⟨s', hs', hset, hsame, -, hother⟩ := queuePreq_path adapter.toAdapter now malloc { refresh := a.gateAsked } h₁.settled hb
  have hp' : p ∈ s'.tbl .meshPaths := by
    rw [hsame.tbl]; exact hp₁
  refine ⟨s', hs', ?_⟩
  rcases queuePreq_cases adapter.toAdapter now malloc { refresh := a.gateAsked } hb with ⟨hrun, hrefused⟩ | ⟨⟨hmalloc, hlen, -⟩, t, hrun⟩
  · -- refused
    obtain rfl := Option.some.inj (hrun.symm.trans hs')
    have hbad : malloc = false ∨ s.preqQueueLen = maxPreqQueueLen :=
      hrefused.imp id fun hr => hr.resolve_right nofun
    refine ⟨fun hgood => absurd (Or.inr hbad) hgood, fun _ hdisc => ?_⟩
    cases hreq : a.flags.reqQueued with
    | true =>
      rw [hreq, if_pos rfl] at hcount
      refine not_discovers hp₁ hb ?_ hdisc
      rw [show a.noTimer.retried.dst = a.dst from rfl, hnodes, hcount]; exact nofun
    | false =>
      rw [hreq, if_neg nofun] at hcount
      rcases hdisc.resolving p hp₁ _ hb hres hdone with ht | hne
      · exact ht rfl
      · exact hne (List.length_eq_zero_iff.mp hcount)
  · obtain rfl := Option.some.inj (hrun.symm.trans hs')
    set flags : PreqFlags := { refresh := a.gateAsked }
    have hself : (s₁.withRequest p a.noTimer.retried.dst flags t).nodesFor a.dst = s.nodesFor a.dst ++ [⟨a.dst, flags⟩] :=
      nodesFor_append_self ⟨a.dst, flags⟩ rfl
    have hb' : (s₁.withRequest p a.noTimer.retried.dst flags t).path p = some (a.noTimer.retried.queued flags) := path_setPath_self hb
    refine ⟨fun hgood => ?_, fun hbad => ?_⟩
    · have hreq : a.flags.reqQueued = false := (Bool.not_eq_true _).mp fun hr => hgood (Or.inl hr)
      rw [hreq, if_neg nofun] at hcount
      refine h.update hset (congrFun hsame.tbl .meshPaths) hp ha hb' rfl rfl rfl id ?_ ?_ ?_ ?_ ?_ ?_
      · exact fun q hq hqp c hc => ⟨c, (hother q hqp).trans ((h₁.path_ne q hqp).trans hc), .refl trivial⟩
      · exact fun dst hne => nodesFor_append rfl hne
      · intro _ _
        refine Or.inr ⟨⟨a.dst, flags⟩, ?_, rfl⟩
        rw [hself]; exact List.mem_append_right _ List.mem_cons_self
      · rw [hself, List.length_append, hcount]; rfl
      · show s.preqQueueLen + 1 = ((s.preqQueue ++ [_]).length : ℤ)
        rw [h.len, List.length_append]; rfl
      · show s.preqQueueLen + 1 ≤ maxPreqQueueLen
        have hb := h.bounded
        have hne : s.preqQueueLen ≠ maxPreqQueueLen := hlen
        omega
    · -- the request that was queued before is still there
      have hreq : a.flags.reqQueued = true := by
        rcases hbad with hr | hm | hl
        · exact hr
        · exact nomatch hm.symm.trans hmalloc
        · exact absurd hl hlen
      rw [hreq, if_pos rfl] at hcount
      refine not_discovers hp' hb' ?_
      rw [show (a.noTimer.retried.queued flags).dst = a.dst from rfl, hself, List.length_append, hcount]
      exact nofun

theorem meshPathTimer_spec (adapter : HwmpAdapter) (now : Systime) (malloc : Bool) (h : s.DiscoveryInv) (hp : p ∈ s.tbl .meshPaths)
    (ha : s.path p = some a) (hexp : a.expires now = true) :
    ∃ s', Hwmp.meshPathTimer adapter now malloc p (s.setPath p .noTimer) = some s' ∧
      (¬ DiscoveryOp.Strands adapter s (.timer now malloc p) → s'.DiscoveryInv) ∧
      (DiscoveryOp.Strands adapter s (.timer now malloc p) → ¬ s'.Discovers) := by
  have h₀ : OnlyPath p s (s.setPath p .noTimer) := .setPath h.settled (fun _ => rfl) fun _ => rfl
  have ha₀ : (s.setPath p .noTimer).path p = some a.noTimer := path_setPath_self ha
  have hstrands : DiscoveryOp.Strands adapter s (.timer now malloc p) ↔ a.flags.resolving = true ∧ a.flags.resolved = false ∧
      (a.flags.reqQueued = true ∨ a.discoveryRetries < adapter.maxPreqRetries ∧ (malloc = false ∨ s.preqQueueLen = maxPreqQueueLen)) := by
    constructor
    · rintro ⟨-, a', ha', -, hbad⟩
      obtain rfl := Option.some.inj (ha.symm.trans ha')
      exact hbad
    · exact fun hbad => ⟨hp, a, ha, hexp, hbad⟩
  rw [hstrands]
  unfold Hwmp.meshPathTimer
  rw [ha₀, Option.bind_eq_bind, Option.bind_some]
  split
  case isTrue hover =>
    -- resolved, or no discovery
    have h₁ : OnlyPath p s ((s.setPath p .noTimer).setPath p .settled) := h₀.trans (.setPath h₀.settled (fun _ => rfl) fun _ => rfl)
    refine ⟨_, rfl, fun _ => ?_, fun ⟨hres, hdone, _⟩ => ?_⟩
    · exact h.only hp ha h₁ (.refl h₁.settled) (path_setPath_self ha₀) ⟨rfl, rfl, rfl, rfl, rfl, rfl⟩ rfl rfl
    · rcases (Bool.or_eq_true _ _).mp hover with hd | hr
      · exact nomatch hdone.symm.trans hd
      · exact nomatch hres.symm.trans ((Bool.not_eq_true' _).mp hr)
  case isFalse hover =>
  rw [Bool.or_eq_true, not_or, Bool.not_eq_true, Bool.not_eq_true', Bool.not_eq_false] at hover
  obtain ⟨hdone, hres⟩ : a.flags.resolved = false ∧ a.flags.resolving = true := hover
  rw [hres, hdone]
  simp only [true_and]
  split
  case isTrue hretry =>
    have hretry : a.discoveryRetries < adapter.maxPreqRetries := hretry
    obtain ⟨s', hs', hgood, hbad⟩ := retry_spec adapter now malloc h hp ha hres hdone
    refine ⟨s', hs', fun hn => hgood fun hb => hn ?_, fun hb => hbad ?_⟩
    · exact hb.imp id fun hb => ⟨hretry, hb⟩
    · exact hb.imp id fun hb => hb.2
  case isFalse hretry =>
    have hretry : ¬ a.discoveryRetries < adapter.maxPreqRetries := hretry
    set s₁ := (s.setPath p .noTimer).setPath p (.failed now)
    have h₁ : OnlyPath p s s₁ := h₀.trans (.setPath h₀.settled (fun _ => rfl) fun _ => rfl)
    have hb : s₁.path p = some (a.noTimer.failed now) := path_setPath_self ha₀
    obtain ⟨s', hs', hm⟩ : ∃ s', (if (!a.noTimer.isGate && decide (0 < s₁.numGates)) = true then
        (s₁.meshPathSendToGates meshFrameQueueLen p).map (·.2) else s₁.meshPathFlushPending p) = some s' ∧ FramesMoved s₁ s' := by
      split
      · obtain ⟨e, s', hs', hm⟩ := meshPathSendToGates_moved meshFrameQueueLen h₁.settled (p := p) hp
        rw [hs']; exact ⟨s', rfl, hm⟩
      · exact meshPathFlushPending_moved h₁.settled hb
    refine ⟨s', hs', fun hn => ?_, fun hbad hdisc => ?_⟩
    · have hreq : a.flags.reqQueued = false := (Bool.not_eq_true _).mp fun hr => hn (Or.inl hr)
      exact h.only hp ha h₁ hm hb ⟨rfl, rfl, rfl, rfl, rfl, rfl⟩ hreq.symm rfl
    · have hreq : a.flags.reqQueued = true := hbad.resolve_right fun hr => hretry hr.1
      obtain ⟨c, hc, hcore⟩ := hm.kept.path hb
      have hflags : c.flags = (a.noTimer.failed now).flags := (congrArg MeshPath.flags hcore :)
      have hdst : c.dst = a.dst := (congrArg MeshPath.dst hcore :)
      have hcount := h.queued p hp a ha
      rw [hreq, if_pos rfl] at hcount
      have hp' : p ∈ s'.tbl .meshPaths := by
        rw [hm.tbl]; exact hp
      have hnodes : s'.nodesFor a.dst = s.nodesFor a.dst := by
        unfold nodesFor
        rw [hm.kept.preqQueue]; rfl
      refine not_discovers hp' hc ?_ hdisc
      rw [hdst, hnodes, hcount, hflags]; exact nofun

end MeshInfo

/-! ### Runs -/

namespace DiscoveryOp

variable {adapter : HwmpAdapter} {s : Hwmp} {op : DiscoveryOp}

theorem rx_inv (adapter : HwmpAdapter) (rx : Rx) (h : s.mesh.DiscoveryInv) :
    ∃ s' sent, s.meshRxPathSelFrame adapter rx = some (s', sent) ∧ s'.mesh.DiscoveryInv := by
  obtain ⟨m, mid, hroute, hev⟩ := rxRoute_spec adapter rx h.settled
  have hmid : mid.mesh.DiscoveryInv := h.evolves hev
  obtain ⟨s', sent, hprocess, mesh₁, mesh₂, ⟨dst, hlook⟩, hq, hev'⟩ := rxProcess_steps adapter rx m ⟨hmid.settled, hmid.hopped⟩
  have h₁ : mesh₁.DiscoveryInv := hmid.evolves hlook
  have h₂ : mesh₂.DiscoveryInv := by
    rcases hq with rfl | ⟨p, hp, hrun⟩
    · exact h₁
    · obtain ⟨mesh, hmesh, hinv⟩ := h₁.queuePreq adapter.toAdapter rx.now rx.malloc { start := true, refresh := true } hp
      obtain rfl := Option.some.inj (hrun.symm.trans hmesh)
      exact hinv
  refine ⟨s', sent, ?_, h₂.evolves hev'⟩
  unfold Hwmp.meshRxPathSelFrame
  rw [hroute, Option.bind_eq_bind, Option.bind_some]; exact hprocess

theorem run_spec (adapter : HwmpAdapter) (op : DiscoveryOp) (h : s.mesh.DiscoveryInv) :
    ∃ s', op.run adapter s = some s' ∧ (¬ op.Strands adapter s.mesh → s'.mesh.DiscoveryInv) ∧
      (op.Strands adapter s.mesh → ¬ s'.mesh.Discovers) := by
  cases op with
  | pathAdd now alloc dst =>
    refine ⟨_, rfl, fun _ => ?_, fun hbad => hbad.elim⟩
    have hev : Evolves AnyDst AnyOrder s.mesh (s.mesh.meshPathAdd adapter.toAdapter now alloc.malloc alloc.insert dst).2 :=
      meshPathAdd_evolves adapter.toAdapter now alloc.malloc alloc.insert dst h.settled fun _ => trivial
    exact h.evolves hev
  | queuePreq now malloc p flags =>
    simp only [run]
    split
    case isTrue hp =>
      obtain ⟨mesh, hrun, hinv⟩ := h.queuePreq adapter.toAdapter now malloc flags hp
      rw [hrun]; exact ⟨_, rfl, fun _ => hinv, fun hbad => hbad.elim⟩
    case isFalse => exact ⟨s, rfl, fun _ => h, fun hbad => hbad.elim⟩
  | startDiscovery now =>
    obtain ⟨s', sent, hrun, hspec⟩ := Hwmp.startDiscovery_spec adapter now h
    refine ⟨s', ?_, hspec⟩
    simp only [run]
    rw [hrun]; rfl
  | timer now malloc p =>
    simp only [run]
    split
    case isTrue hp =>
      obtain ⟨a, ha, hexp⟩ := (Option.any_eq_true _ _).mp hp.2
      obtain ⟨mesh, hrun, hspec⟩ := meshPathTimer_spec adapter now malloc h hp.1 ha hexp
      rw [hrun]; exact ⟨_, rfl, hspec⟩
    case isFalse hnot =>
      refine ⟨s, rfl, fun _ => h, fun ⟨hp, a, ha, hexp, _⟩ => absurd ⟨hp, ?_⟩ hnot⟩
      rw [ha]; exact hexp
  | rx rx =>
    obtain ⟨s', sent, hrun, hinv⟩ := rx_inv adapter rx h
    refine ⟨s', ?_, fun _ => hinv, fun hbad => hbad.elim⟩
    simp only [run]
    rw [hrun]; rfl

end DiscoveryOp

theorem MeshInfo.DiscoveryInv.init (now : Systime) : (Hwmp.init now).mesh.DiscoveryInv where
  settled := (Hwmp.Sound.init now).settled
  hopped := (Hwmp.Sound.init now).hopped
  usable := fun _ hp => nomatch hp
  known := fun _ hn => nomatch hn
  waiting := fun _ hp => nomatch hp
  queued := fun _ hp => nomatch hp
  len := rfl
  bounded := show (0 : ℤ) ≤ maxPreqQueueLen by decide

/-- **No path is left in discovery for ever.**  In every state of a run a path in discovery has its timer armed or a request in the
queue, the flags say what is queued and the queue is bounded, exactly when no operation of the run strands a path. -/
theorem discovers_iff (adapter : HwmpAdapter) (now : Systime) (ops : List DiscoveryOp) :
    (∀ done, done <+: ops → ∃ s, done.foldl (DiscoveryOp.step adapter) (some (Hwmp.init now)) = some s ∧ s.mesh.Discovers) ↔
      ∀ done op, done ++ [op] <+: ops →
        ¬ ∃ s, done.foldl (DiscoveryOp.step adapter) (some (Hwmp.init now)) = some s ∧ op.Strands adapter s.mesh := by
  have hlegal : Legal (DiscoveryOp.step adapter) (fun _ _ => True) (some (Hwmp.init now)) ops := legal_of_forall (fun _ _ => trivial) _ _
  refine Legal.always_iff (J := fun st => ∃ s, st = some s ∧ s.mesh.DiscoveryInv) (P := fun st => ∃ s, st = some s ∧ s.mesh.Discovers)
    (B := fun st op => ∃ s, st = some s ∧ op.Strands adapter s.mesh) ⟨_, rfl, .init now⟩ ?_ ?_ ?_ hlegal
  · rintro _ ⟨s, rfl, h⟩; exact ⟨s, rfl, h.discovers⟩
  · rintro _ op ⟨s, rfl, h⟩ - hgood
    obtain ⟨s', hs', hinv, -⟩ := DiscoveryOp.run_spec adapter op h
    exact ⟨s', hs', hinv fun hbad => hgood ⟨s, rfl, hbad⟩⟩
  · rintro _ op ⟨s, rfl, h⟩ - ⟨s₁, hs₁, hbad⟩ ⟨s₂, hs₂, hdisc⟩
    obtain rfl := Option.some.inj hs₁
    obtain ⟨s', hs', -, hnot⟩ := DiscoveryOp.run_spec adapter op h
    obtain rfl := Option.some.inj (hs₂.symm.trans hs')
    exact hnot hbad hdisc

/-- A path that is asked for once; its timer expires when no request can be allocated. -/
def refusedRetry : List DiscoveryOp :=
  [.pathAdd 0 { malloc := true, insert := true } ⟨2, 0, 0, 0, 0, 9⟩, .queuePreq 0 true 0 { start := true }, .startDiscovery 1000,
    .timer 2000 false 0]

/-- It stays in discovery, with no timer and no request. -/
theorem path_is_stranded : ¬ ∀ done, done <+: refusedRetry →
      ∃ s, done.foldl (DiscoveryOp.step meshStation) (some (Hwmp.init 0)) = some s ∧ s.mesh.Discovers := by
  intro h
  obtain ⟨s, hs, hdisc⟩ := h refusedRetry (List.prefix_refl _)
  have hrun : (refusedRetry.foldl (DiscoveryOp.step meshStation) (some (Hwmp.init 0))).map (fun s => (s.mesh.preqQueue,
      s.mesh.tbl .meshPaths, (s.mesh.path 0).map fun a => (a.flags.resolving, a.flags.resolved, a.timer))) =
        some ([], [0], some (true, false, none)) := by rfl
  rw [hs] at hrun
  obtain ⟨hq, hrest⟩ := Prod.mk.inj (Option.some.inj hrun)
  obtain ⟨htbl, hpath⟩ := Prod.mk.inj hrest
  obtain ⟨a, ha, hflags⟩ := Option.map_eq_some_iff.mp hpath
  obtain ⟨hres, hrest⟩ := Prod.mk.inj hflags
  obtain ⟨hdone, htimer⟩ := Prod.mk.inj hrest
  have hp : 0 ∈ s.mesh.tbl .meshPaths := by
    rw [htbl]; exact List.mem_cons_self
  rcases hdisc.resolving 0 hp a ha hres hdone with ht | hne
  · exact ht htimer
  · refine hne ?_
    unfold nodesFor
    rw [hq]; rfl

end Rtl8852cu.Mesh
