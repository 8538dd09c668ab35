import Rtl8852cu.Mesh.HwmpSteps

/-!
# What the handlers do

One statement for each handler: from a settled mesh whose active paths have a next hop it succeeds, the mesh evolves, and what is
forwarded has a smaller `ttl` (`Forwards`).
-/

namespace Rtl8852cu.Mesh

open Lib

def AnyDst (_ : MacAddr) : Prop := True

variable {D D' : MacAddr → Prop} {O : MeshPath → MeshPath → Prop} {a b c : MeshPath} {now : Systime} {sn metric : BitVec 32}

theorem withSn_step (h : a.flags.snValid = false ∨ rtwSnLt a.sn sn = true) : PathStep AnyDst (Ordered now) a (a.withSn sn) where
  dst := rfl
  reqQueued := rfl
  resolving := rfl
  resolved := id
  fixed := rfl
  deleted := rfl
  timer := rfl
  hop := id
  other := fun hd => absurd trivial hd
  order := by
    intro _ _ _ hvalid _ _
    rcases h with h | h
    · exact nomatch h.symm.trans hvalid
    · exact ⟨fun hb => absurd (rtwSnLt_eq_true.mp h) (Nat.not_le.mpr hb.2), fun hlt => absurd hlt (BitVec.lt_irrefl _)⟩

theorem broken_step : PathStep AnyDst (Ordered now) a (a.broken sn) where
  dst := rfl
  reqQueued := rfl
  resolving := rfl
  resolved := id
  fixed := rfl
  deleted := rfl
  timer := rfl
  hop := fun _ hb => nomatch hb
  other := fun hd => absurd trivial hd
  order := fun _ _ _ _ hb => nomatch hb

theorem rootUpdate_step {ta : MacAddr} {e : RannElem} (h : Hwmp.rannNew e a = true) :
    PathStep AnyDst (Ordered now) a (a.rootUpdate e.seq metric ta) where
  dst := rfl
  reqQueued := rfl
  resolving := rfl
  resolved := id
  fixed := rfl
  deleted := rfl
  timer := rfl
  hop := id
  other := fun hd => absurd trivial hd
  order := by
    intro _ _ _ _ _ _
    refine ⟨fun hb => ?_, fun hlt => absurd hlt (BitVec.lt_irrefl _)⟩
    rcases (Bool.or_eq_true _ _).mp h with hlt | heq
    · exact absurd (rtwSnLt_eq_true.mp hlt) (Nat.not_le.mpr hb.2)
    · exact hb.1 (of_decide_eq_true ((Bool.and_eq_true _ _).mp heq).1).symm

namespace MeshInfo

variable {adapter : HwmpAdapter} {s s' s'' : MeshInfo} {p : ℕ} {dst : MacAddr}

def Hopped (s : MeshInfo) : Prop :=
  ∀ p ∈ s.tbl .meshPaths, ∀ a, s.path p = some a → a.flags.active = true → a.nextHop ≠ none

theorem Evolves.hopped (h : Evolves D O s s') (h₀ : s.Settled) (hs : s.Hopped) : s'.Hopped := by
  intro p hp b hb
  by_cases hold : p ∈ s.tbl .meshPaths
  · obtain ⟨a, ha⟩ := Option.isSome_iff_exists.mp (h₀.tbl_live .meshPaths p hold)
    obtain ⟨b', hb', hab⟩ := (h.kept p hold).2 a ha
    obtain rfl := Option.some.inj (hb.symm.trans hb')
    exact hab.hop (hs p hold a ha)
  · obtain ⟨b', hb', hn⟩ := h.new p hp hold
    obtain rfl := Option.some.inj (hb.symm.trans hb')
    exact hn.hop

theorem Evolves.looked_trans (h : Evolves (· = dst) (Looked now) s s') (h' : Evolves AnyDst (Ordered now) s' s'') :
    Evolves AnyDst (Ordered now) s s'' :=
  (h.trans h' fun _ _ _ hab hbc => hbc.order.looked hab.order).mono fun _ _ => trivial

theorem Evolves.looked (h : Evolves (· = dst) (Looked now) s s') : Evolves AnyDst (Ordered now) s s' :=
  h.looked_trans (.refl h.settled (Ordered.refl now))

theorem Evolves.kept_trans (h : Evolves AnyDst (Ordered now) s s') (hs : s''.Settled) (ht : SameTables s' s'') (hk : Kept s' s'') :
    Evolves AnyDst (Ordered now) s s'' := by
  have h' : Evolves AnyDst (fun a b => b.core = a.core) s' s'' := hk.evolves hs ht.tbl fun _ _ hcore => hcore
  exact h.trans_same h' fun _ _ _ hab hbc => hab.order.core_right hbc.order

end MeshInfo

/-! ### Frames -/

/-- The elements of one kind that are sent have a smaller `ttl` and the metric. -/
def Forwards (action : MpathFrameType) (ttl : UInt8) (metric : BitVec 32) (sent : List Sent) : Prop :=
  ∀ frame, .sel frame ∈ sent → frame.action = action → frame.ttl < ttl ∧ frame.metric = metric

theorem forwards_nil {action : MpathFrameType} {ttl : UInt8} : Forwards action ttl metric [] := fun _ hmem => nomatch hmem

theorem ttl_sub_one_lt {ttl : UInt8} (h : 1 < ttl) : ttl - 1 < ttl := by
  rw [UInt8.lt_iff_toNat_lt] at h ⊢
  rw [UInt8.toNat_sub_of_le _ _ (UInt8.le_iff_toNat_le.mpr h.le)]
  exact Nat.sub_lt (Nat.lt_of_lt_of_le Nat.one_pos h.le) Nat.one_pos

theorem forwards_one {frame : SelFrame} {action : MpathFrameType} {ttl : UInt8} (httl : 1 < ttl) (hframe : frame.ttl = ttl - 1)
    (hmetric : frame.metric = metric) : Forwards action ttl metric [.sel frame] := by
  intro frame' hmem _
  obtain rfl := Sent.sel.inj (List.mem_singleton.mp hmem)
  rw [hframe]; exact ⟨ttl_sub_one_lt httl, hmetric⟩

namespace Hwmp

variable {adapter : HwmpAdapter} {s s' : Hwmp} {ta : MacAddr} {m : BitVec 32}

open MeshInfo

/-! ### PREQ -/

@[simp] theorem updateSn_mesh : (s.updateSn adapter now).mesh = s.mesh := by
  unfold updateSn
  split
  · rfl
  · rfl

theorem preqProactive_spec (adapter : HwmpAdapter) (now : Systime) (e : PreqElem) (h : s.mesh.Settled) :
    ∃ answer, s.preqProactive adapter now e = some answer ∧ Evolves AnyDst (Ordered now) s.mesh answer.s.mesh ∧
      ∀ p, answer.path = some p → p ∈ answer.s.mesh.tbl .meshPaths := by
  obtain ⟨r, mesh, hlook, hev, ⟨rfl, -, -⟩ | ⟨p, a, rfl, -, hp, -, -⟩⟩ := meshPathLookup_spec now e.origAddr h
  · unfold preqProactive
    rw [hlook, Option.bind_eq_bind, Option.bind_some]; exact ⟨_, rfl, hev.looked, nofun⟩
  · unfold preqProactive
    rw [hlook, Option.bind_eq_bind, Option.bind_some]
    obtain ⟨mesh', hrun, hs, hsame, hkept⟩ := announceGate_spec adapter now (e.flags.getLsbD 0)
      (f := MeshPath.withGateAnnInt e.lifetime) hev.settled hp (fun _ => rfl) fun _ => rfl
    have hp' : p ∈ mesh'.tbl .meshPaths := by
      rw [hsame.tbl]; exact hp
    simp only
    split
    · rw [hrun, Option.bind_eq_bind, Option.bind_some]
      exact ⟨_, rfl, hev.looked.kept_trans hs hsame hkept, fun q hq => Option.some.inj hq ▸ hp'⟩
    · rw [hrun, Option.bind_eq_bind, Option.bind_some]
      exact ⟨_, rfl, hev.looked.kept_trans hs hsame hkept, fun q hq => Option.some.inj hq ▸ hp'⟩

theorem preqForOther_spec (now : Systime) (e : PreqElem) (h : s.mesh.Settled) :
    ∃ answer, s.preqForOther now e = some answer ∧ Evolves AnyDst (Ordered now) s.mesh answer.s.mesh ∧
      ∀ p, answer.path = some p → p ∈ answer.s.mesh.tbl .meshPaths := by
  obtain ⟨r, mesh, hlook, hev, ⟨rfl, -, -⟩ | ⟨p, a, rfl, -, hp, ha, -⟩⟩ := meshPathLookup_spec now e.targetAddr h
  · unfold preqForOther
    rw [hlook, Option.bind_eq_bind, Option.bind_some]; exact ⟨_, rfl, hev.looked, nofun⟩
  · unfold preqForOther
    rw [hlook, Option.bind_eq_bind, Option.bind_some]
    simp only
    rw [ha, Option.bind_eq_bind, Option.bind_some]
    split
    case isTrue hnew =>
      rw [Bool.or_eq_true, Bool.not_eq_true'] at hnew
      have hset : Evolves AnyDst (Ordered now) mesh (mesh.setPath p (.withSn e.targetSn)) :=
        setPath_evolves hev.settled ha (fun _ => rfl) (fun _ => rfl) (withSn_step hnew) (Ordered.refl now)
      exact ⟨_, rfl, hev.looked_trans hset, fun q hq => Option.some.inj hq ▸ hp⟩
    case isFalse =>
      split
      · exact ⟨_, rfl, hev.looked, fun q hq => Option.some.inj hq ▸ hp⟩
      · exact ⟨_, rfl, hev.looked, fun q hq => Option.some.inj hq ▸ hp⟩

theorem preqAnswer_spec (adapter : HwmpAdapter) (now : Systime) (e : PreqElem) (h : s.mesh.Settled) :
    ∃ answer, s.preqAnswer adapter now e = some answer ∧ Evolves AnyDst (Ordered now) s.mesh answer.s.mesh ∧
      ∀ p, answer.path = some p → p ∈ answer.s.mesh.tbl .meshPaths := by
  unfold preqAnswer
  split
  · refine ⟨_, rfl, ?_, nofun⟩
    show Evolves AnyDst (Ordered now) s.mesh (s.updateSn adapter now).mesh
    rw [updateSn_mesh]; exact .refl h (Ordered.refl now)
  split
  · exact preqProactive_spec adapter now e h
  · exact preqForOther_spec now e h

theorem preqReply_action {e : PreqElem} {answer : PreqAnswer} {frame : SelFrame}
    (hmem : .sel frame ∈ preqReply adapter ta e answer) : frame.action = .prep := by
  unfold preqReply at hmem
  split at hmem
  · obtain rfl := Sent.sel.inj (List.mem_singleton.mp hmem); rfl
  · exact nomatch hmem

theorem preqForward_spec (adapter : HwmpAdapter) (e : PreqElem) (m : BitVec 32) {answer : PreqAnswer} (h : answer.s.mesh.Settled)
    (hp : ∀ p, answer.path = some p → p ∈ answer.s.mesh.tbl .meshPaths) :
    ∃ sent, preqForward adapter e m answer = some sent ∧ Forwards .preq e.ttl m sent := by
  unfold preqForward
  split
  case isTrue hfwd =>
    have httl : 1 < e.ttl := of_decide_eq_true ((Bool.and_eq_true _ _).mp hfwd).2
    cases hpath : answer.path with
    | none => exact ⟨_, rfl, forwards_one httl rfl rfl⟩
    | some p =>
      obtain ⟨a, ha⟩ := Option.isSome_iff_exists.mp (h.tbl_live .meshPaths p (hp p hpath))
      simp only [Option.elim_some]
      rw [ha, Option.map_some, Option.bind_eq_bind, Option.bind_some]
      exact ⟨_, rfl, forwards_one httl rfl rfl⟩
  case isFalse => exact ⟨[], rfl, forwards_nil⟩

theorem preqFrameProcess_spec (adapter : HwmpAdapter) (now : Systime) (ta : MacAddr) (e : PreqElem) (m : BitVec 32)
    (h : s.mesh.Settled) :
    ∃ s' sent, s.preqFrameProcess adapter now ta e m = some (s', sent) ∧ Evolves AnyDst (Ordered now) s.mesh s'.mesh ∧
      Forwards .preq e.ttl m sent := by
  obtain ⟨answer, hans, hev, hp⟩ := preqAnswer_spec adapter now e h
  obtain ⟨sent, hsent, hfwd⟩ := preqForward_spec adapter e m hev.settled hp
  unfold preqFrameProcess
  rw [hans, Option.bind_eq_bind, Option.bind_some, hsent, Option.bind_eq_bind, Option.bind_some]
  refine ⟨_, _, rfl, hev, fun frame hmem hact => ?_⟩
  rcases List.mem_append.mp hmem with hmem | hmem
  · exact nomatch (preqReply_action hmem).symm.trans hact
  · exact hfwd frame hmem hact

/-! ### PREP and PERR -/

theorem prepForUs_spec (adapter : HwmpAdapter) (now : Systime) (e : PrepElem) (h : s.mesh.Settled) :
    ∃ s', s.prepForUs adapter now e = some s' ∧ Evolves AnyDst (Ordered now) s.mesh s'.mesh := by
  obtain ⟨r, mesh, hlook, hev, ⟨rfl, -, -⟩ | ⟨p, a, rfl, -, hp, ha, -⟩⟩ := meshPathLookup_spec now e.targetAddr h
  · unfold prepForUs
    rw [hlook, Option.bind_eq_bind, Option.bind_some]; exact ⟨_, rfl, hev.looked⟩
  · unfold prepForUs
    rw [hlook, Option.bind_eq_bind, Option.bind_some]
    simp only
    rw [ha, Option.bind_eq_bind, Option.bind_some]
    split
    · have hq : Quiet mesh (mesh.setPath p .notAsked) := .setPath (fun _ => rfl) fun _ => rfl
      have hk : Kept mesh (mesh.setPath p .notAsked) := .setPath fun _ => rfl
      have hs : (mesh.setPath p .notAsked).Settled := hev.settled.same (hq.book hev.settled.toBook) hq.toSameTables
      split
      · exact ⟨_, rfl, hev.looked.kept_trans hs hq.toSameTables hk⟩
      · obtain ⟨mesh', hdel, hb, hsame⟩ := meshGateDel_book adapter.toAdapter hs.toBook (path_setPath_self ha)
        rw [hdel]
        exact ⟨_, rfl, hev.looked.kept_trans (hs.same hb hsame) (hq.toSameTables.trans hsame)
          (hk.trans (meshGateDel_kept adapter.toAdapter hs.toBook (path_setPath_self ha) hdel))⟩
    · exact ⟨_, rfl, hev.looked⟩

theorem prepForward_spec (now : Systime) (e : PrepElem) (m : BitVec 32) (h : s.mesh.Settled) (hhop : s.mesh.Hopped)
    (httl : 1 < e.ttl) :
    ∃ s' sent, s.prepForward now e m = some (s', sent) ∧ Evolves AnyDst (Ordered now) s.mesh s'.mesh ∧
      Forwards .prep e.ttl m sent := by
  obtain ⟨r, mesh, hlook, hev, ⟨rfl, -, -⟩ | ⟨p, a, rfl, -, hp, ha, -⟩⟩ := meshPathLookup_spec now e.origAddr h
  · unfold prepForward
    rw [hlook, Option.bind_eq_bind, Option.bind_some]; exact ⟨_, _, rfl, hev.looked, forwards_nil⟩
  · unfold prepForward
    rw [hlook, Option.bind_eq_bind, Option.bind_some]
    simp only
    rw [ha, Option.bind_eq_bind, Option.bind_some]
    split
    case isTrue => exact ⟨_, _, rfl, hev.looked, forwards_nil⟩
    case isFalse hactive =>
      rw [Bool.not_eq_true', Bool.not_eq_false] at hactive
      obtain ⟨sta, hsta⟩ := Option.ne_none_iff_exists'.mp (hev.hopped h hhop p hp a ha hactive)
      rw [hsta, Option.bind_eq_bind, Option.bind_some]
      exact ⟨_, _, rfl, hev.looked, forwards_one httl rfl rfl⟩

theorem prepFrameProcess_spec (adapter : HwmpAdapter) (now : Systime) (e : PrepElem) (m : BitVec 32) (h : s.mesh.Settled)
    (hhop : s.mesh.Hopped) :
    ∃ s' sent, s.prepFrameProcess adapter now e m = some (s', sent) ∧ Evolves AnyDst (Ordered now) s.mesh s'.mesh ∧
      Forwards .prep e.ttl m sent := by
  have hsame : Evolves AnyDst (Ordered now) s.mesh s.mesh := .refl h (Ordered.refl now)
  unfold prepFrameProcess
  split
  · obtain ⟨s', hs', hev⟩ := prepForUs_spec adapter now e h
    rw [hs']; exact ⟨s', [], rfl, hev, forwards_nil⟩
  split
  · exact ⟨s, [], rfl, hsame, forwards_nil⟩
  split
  · exact ⟨s, [], rfl, hsame, forwards_nil⟩
  · rename_i httl
    exact prepForward_spec now e m h hhop (UInt8.not_le.mp httl)

@[simp] theorem pathErrorTx_mesh {ttl : UInt8} {target : MacAddr} {reasonCode : BitVec 16} {ra : MacAddr} :
    (s.pathErrorTx adapter now ttl target sn reasonCode ra).1.mesh = s.mesh := by
  unfold pathErrorTx
  split
  · rfl
  · rfl

theorem pathErrorTx_ttl {ttl ttl' : UInt8} {target target' ra ra' : MacAddr} {sn' : BitVec 32} {reasonCode reasonCode' : BitVec 16}
    (hmem : .perr ttl' target' sn' reasonCode' ra' ∈ (s.pathErrorTx adapter now ttl target sn reasonCode ra).2) : ttl' = ttl := by
  unfold pathErrorTx at hmem
  split at hmem
  · exact nomatch hmem
  · exact (Sent.perr.inj (List.mem_singleton.mp hmem)).1

/-- The PERRs that are sent have a smaller `ttl`. -/
def ForwardsPerr (ttl : UInt8) (sent : List Sent) : Prop :=
  ∀ ttl' target sn reasonCode ra, .perr ttl' target sn reasonCode ra ∈ sent → ttl' < ttl

theorem perrFrameProcess_spec (adapter : HwmpAdapter) (now : Systime) (ta : MacAddr) (e : PerrElem) (h : s.mesh.Settled)
    (hhop : s.mesh.Hopped) :
    ∃ s' sent, s.perrFrameProcess adapter now ta e = some (s', sent) ∧ Evolves AnyDst (Ordered now) s.mesh s'.mesh ∧
      ForwardsPerr e.ttl sent := by
  have hnil : ForwardsPerr e.ttl [] := fun _ _ _ _ _ hmem => nomatch hmem
  unfold perrFrameProcess
  split
  case isTrue => exact ⟨s, [], rfl, .refl h (Ordered.refl now), hnil⟩
  case isFalse httl =>
    obtain ⟨r, mesh, hlook, hev, ⟨rfl, -, -⟩ | ⟨p, a, rfl, -, hp, ha, -⟩⟩ := meshPathLookup_spec now e.targetAddr h
    · rw [hlook, Option.bind_eq_bind, Option.bind_some]; exact ⟨_, _, rfl, hev.looked, hnil⟩
    · rw [hlook, Option.bind_eq_bind, Option.bind_some]
      simp only
      rw [ha, Option.bind_eq_bind, Option.bind_some]
      split
      case isTrue => exact ⟨_, _, rfl, hev.looked, hnil⟩
      case isFalse hactive =>
        rw [Bool.not_eq_true', Bool.not_eq_false] at hactive
        obtain ⟨sta, hsta⟩ := Option.ne_none_iff_exists'.mp (hev.hopped h hhop p hp a ha hactive)
        rw [hsta, Option.bind_eq_bind, Option.bind_some]
        have hset : ∀ sn, Evolves AnyDst (Ordered now) s.mesh (mesh.setPath p (.broken sn)) := fun sn =>
          hev.looked_trans (setPath_evolves hev.settled ha (fun _ => rfl) (fun _ => rfl) broken_step (Ordered.refl now))
        split
        · split
          · refine ⟨_, _, congrArg some (Prod.eta _).symm, ?_, fun ttl' _ _ _ _ hmem => ?_⟩
            · rw [pathErrorTx_mesh]; exact hset _
            · rw [pathErrorTx_ttl hmem]; exact ttl_sub_one_lt (UInt8.not_le.mp httl)
          · exact ⟨_, _, rfl, hset _, hnil⟩
        · exact ⟨_, _, rfl, hev.looked, hnil⟩

end Hwmp

/-! ### RANN -/

/-- What the freshness of a path depends on. -/
def MeshPath.rank (path : MeshPath) : BitVec 32 × BitVec 32 × Bool × Bool × Bool × Systime :=
  (path.sn, path.metric, path.flags.active, path.flags.snValid, path.flags.fixed, path.expTime)

theorem Ordered.rank_left (h : Ordered now b c) (hrank : b.rank = a.rank) : Ordered now a c := by
  simp only [MeshPath.rank, Prod.mk.injEq] at hrank
  obtain ⟨hsn, hmetric, hactive, hvalid, hfixed, hexp⟩ := hrank
  unfold Ordered mpathExpired at h ⊢
  rw [hsn, hmetric, hactive, hvalid, hfixed, hexp] at h; exact h

/-- A path with a request in the queue. -/
def MeshPath.queued (flags : PreqFlags) (path : MeshPath) : MeshPath :=
  { path with flags := { path.flags with
    reqQueued := true
    peerAka := path.flags.peerAka || flags.peerAka
    bcastPreq := path.flags.bcastPreq || flags.bcastPreq } }

theorem withLastPreqToRoot_step : PathStep AnyDst (fun a b => b.rank = a.rank) a (a.withLastPreqToRoot now) where
  dst := rfl
  reqQueued := rfl
  resolving := rfl
  resolved := id
  fixed := rfl
  deleted := rfl
  timer := rfl
  hop := id
  other := fun hd => absurd trivial hd
  order := rfl

namespace MeshInfo

variable {s s' : MeshInfo} {p q : ℕ}

/-- A path whose request has been queued. -/
def withRequest (p : ℕ) (dst : MacAddr) (flags : PreqFlags) (t : Systime) (s : MeshInfo) : MeshInfo :=
  { s.setPath p (.queued flags) with
    preqQueue := s.preqQueue ++ [⟨dst, flags⟩], preqQueueLen := s.preqQueueLen + 1, lastPreq := t }

theorem queuePreq_cases (adapter : Adapter) (now : Systime) (malloc : Bool) (flags : PreqFlags) (ha : s.path p = some a) :
    (s.queuePreq adapter now malloc p flags = some s ∧
        (malloc = false ∨ s.preqQueueLen = maxPreqQueueLen ∨ a.flags.reqQueued = true)) ∨
      (malloc = true ∧ s.preqQueueLen ≠ maxPreqQueueLen ∧ a.flags.reqQueued = false) ∧
        ∃ t, s.queuePreq adapter now malloc p flags = some (s.withRequest p a.dst flags t) := by
  unfold queuePreq
  rw [ha, Option.bind_eq_bind, Option.bind_some]
  cases malloc with
  | false => exact Or.inl ⟨rfl, Or.inl rfl⟩
  | true =>
    simp only [Bool.not_true, Bool.false_eq_true, if_false]
    by_cases hlen : s.preqQueueLen = maxPreqQueueLen
    · rw [if_pos hlen]; exact Or.inl ⟨rfl, Or.inr (Or.inl hlen)⟩
    rw [if_neg hlen]
    cases hreq : a.flags.reqQueued with
    | true => exact Or.inl ⟨rfl, Or.inr (Or.inr rfl)⟩
    | false =>
      refine Or.inr ⟨⟨trivial, hlen, rfl⟩, ?_⟩
      simp only [Bool.false_eq_true, if_false]
      split
      · exact ⟨_, rfl⟩
      split
      · exact ⟨_, rfl⟩
      · exact ⟨_, rfl⟩

theorem queuePreq_path (adapter : Adapter) (now : Systime) (malloc : Bool) (flags : PreqFlags) (h : s.Settled)
    (ha : s.path p = some a) :
    ∃ s', s.queuePreq adapter now malloc p flags = some s' ∧ s'.Settled ∧ SameTables s s' ∧
      (s'.path p = some a ∨ s'.path p = some (a.queued flags)) ∧ ∀ q, q ≠ p → s'.path q = s.path q := by
  obtain ⟨s', hs', hq⟩ := queuePreq_quiet adapter now malloc flags ha
  refine ⟨s', hs', h.same (hq.book h.toBook) hq.toSameTables, hq.toSameTables, ?_⟩
  rcases queuePreq_cases adapter now malloc flags ha with ⟨hrun, -⟩ | ⟨-, t, hrun⟩
  · obtain rfl := Option.some.inj (hrun.symm.trans hs'); exact ⟨Or.inl ha, fun _ _ => rfl⟩
  · obtain rfl := Option.some.inj (hrun.symm.trans hs')
    exact ⟨Or.inr (path_setPath_self ha), fun _ hne => path_setPath_ne hne⟩

end MeshInfo

namespace Hwmp

open MeshInfo

variable {adapter : HwmpAdapter} {s s' : Hwmp} {mesh : MeshInfo} {p : ℕ} {ta : MacAddr} {e : RannElem} {m : BitVec 32}

/-- There is a path to the root, of that sequence number. -/
def HasRoot (dst : MacAddr) (seq : BitVec 32) (mesh : MeshInfo) : Prop :=
  ∃ p ∈ mesh.tbl .meshPaths, ∃ a, mesh.path p = some a ∧ a.dst = dst ∧ a.sn = seq ∧ a.isRoot = true

/-- A mesh before and after a RANN: it evolves, but that a request may be queued in between. -/
def RannSteps (adapter : Adapter) (now : Systime) (malloc : Bool) (mesh mesh' : MeshInfo) : Prop :=
  ∃ mesh₁ mesh₂, (∃ dst, Evolves (· = dst) (Looked now) mesh mesh₁) ∧ (mesh₂ = mesh₁ ∨ ∃ p ∈ mesh₁.tbl .meshPaths,
      mesh₁.queuePreq adapter now malloc p { start := true, refresh := true } = some mesh₂) ∧
    Evolves AnyDst (Ordered now) mesh₂ mesh'

theorem rannUpdate_spec (adapter : HwmpAdapter) (now : Systime) (ta : MacAddr) (e : RannElem) (m : BitVec 32) (h : mesh.Settled)
    (hp : p ∈ mesh.tbl .meshPaths) (ha : mesh.path p = some a) (hnew : rannNew e a = true) :
    ∃ mesh', (mesh.setPath p (.rootUpdate e.seq m ta)).announceGate adapter now (e.flags.getLsbD 0) p (.withGateAnnInt e.interval) =
        some mesh' ∧ Evolves AnyDst (Ordered now) mesh mesh' ∧ HasRoot a.dst e.seq mesh' := by
  have hset : Evolves AnyDst (Ordered now) mesh (mesh.setPath p (.rootUpdate e.seq m ta)) :=
    setPath_evolves h ha (fun _ => rfl) (fun _ => rfl) (rootUpdate_step hnew) (Ordered.refl now)
  obtain ⟨mesh', hrun, hs, hsame, hkept⟩ := announceGate_spec adapter now (e.flags.getLsbD 0) (f := .withGateAnnInt e.interval)
    hset.settled (p := p) hp (fun _ => rfl) fun _ => rfl
  obtain ⟨b, hb, hcore⟩ := hkept.path (path_setPath_self ha)
  refine ⟨mesh', hrun, hset.kept_trans hs hsame hkept, p, ?_, b, hb, (congrArg MeshPath.dst hcore :),
    (congrArg MeshPath.sn hcore :), (congrArg MeshPath.isRoot hcore :)⟩
  rw [hsame.tbl]; exact hp

theorem rannRoute_spec (adapter : HwmpAdapter) (now : Systime) (malloc : Bool) (ta : MacAddr) (e : RannElem) (m : BitVec 32)
    (h : mesh.Settled) (hp : p ∈ mesh.tbl .meshPaths) (ha : mesh.path p = some a) (hnew : rannNew e a = true) :
    ∃ mesh', rannRoute adapter now malloc p a ta e m mesh = some mesh' ∧
      (∃ mesh₁, (mesh₁ = mesh ∨ ∃ p ∈ mesh.tbl .meshPaths,
        mesh.queuePreq adapter.toAdapter now malloc p { start := true, refresh := true } = some mesh₁) ∧
        Evolves AnyDst (Ordered now) mesh₁ mesh') ∧ HasRoot a.dst e.seq mesh' := by
  unfold rannRoute rannRequest
  split
  · obtain ⟨mesh₁, hq, hs₁, hsame, hpath, -⟩ := queuePreq_path adapter.toAdapter now malloc { start := true, refresh := true } h ha
    -- the request leaves what the freshness depends on
    obtain ⟨b, hb, hdst, hb'⟩ : ∃ b, mesh₁.path p = some b ∧ b.dst = a.dst ∧ rannNew e (b.withLastPreqToRoot now) = true :=
      hpath.elim (fun hb => ⟨a, hb, rfl, hnew⟩) fun hb => ⟨_, hb, rfl, hnew⟩
    have hp₁ : p ∈ mesh₁.tbl .meshPaths := by
      rw [hsame.tbl]; exact hp
    have hset : Evolves AnyDst (fun a b => b.rank = a.rank) mesh₁ (mesh₁.setPath p (.withLastPreqToRoot now)) :=
      setPath_evolves hs₁ hb (fun _ => rfl) (fun _ => rfl) withLastPreqToRoot_step fun _ => rfl
    obtain ⟨mesh', hrun, hev, hroot⟩ :=
      rannUpdate_spec adapter now ta e (e.metric + m) hset.settled (p := p) hp₁ (path_setPath_self hb) hb'
    rw [hq, Option.bind_eq_bind, Option.bind_some]
    refine ⟨mesh', hrun, ⟨mesh₁, Or.inr ⟨p, hp, hq⟩, ?_⟩, ?_⟩
    · exact hset.trans_same hev fun _ _ _ hab hbc => hbc.order.rank_left hab.order
    · rw [← hdst]; exact hroot
  · obtain ⟨mesh', hrun, hev, hroot⟩ := rannUpdate_spec adapter now ta e (e.metric + m) h hp ha hnew
    exact ⟨mesh', hrun, ⟨mesh, Or.inl rfl, hev⟩, hroot⟩

/-- The path that a RANN is compared with: the one that is there, or one that is added. -/
def Compared (adapter : HwmpAdapter) (now : Systime) (alloc : PathAlloc) (dst : MacAddr) (path : MeshPath) (mesh : MeshInfo) : Prop :=
  (∃ p, mesh.lookupFast .meshPaths dst = some p ∧ mesh.path p = some path) ∨
    mesh.lookupFast .meshPaths dst = none ∧ mesh.CanAdd adapter.toAdapter alloc dst ∧ path = .new dst now

theorem Compared.unique {alloc : PathAlloc} {dst : MacAddr} (ha : Compared adapter now alloc dst a mesh)
    (hb : Compared adapter now alloc dst b mesh) : a = b := by
  rcases ha with ⟨p, hp, ha⟩ | ⟨hp, -, rfl⟩
  · rcases hb with ⟨q, hq, hb⟩ | ⟨hq, -⟩
    · obtain rfl := Option.some.inj (hp.symm.trans hq); exact Option.some.inj (ha.symm.trans hb)
    · exact nomatch hp.symm.trans hq
  · rcases hb with ⟨q, hq, -⟩ | ⟨-, -, rfl⟩
    · exact nomatch hp.symm.trans hq
    · rfl

theorem rannNew_found {e : RannElem} (h : mesh.WasFound now p a) : ∃ b, mesh.path p = some b ∧ rannNew e b = rannNew e a :=
  h.elim (fun ha => ⟨a, ha, rfl⟩) fun ⟨b, hb, _, he⟩ => ⟨b, hb, he ▸ rfl⟩

/-- A RANN that is heard: it is of another station, and its transmitter is known. -/
structure Heard (adapter : HwmpAdapter) (now : Systime) (alloc : PathAlloc) (neighbour : Option Neighbour) (e : RannElem)
    (nb : Neighbour) (path : MeshPath) (mesh : MeshInfo) : Prop where
  other : e.addr ≠ adapter.macAddr
  neighbour : neighbour = some nb
  compared : Compared adapter now alloc e.addr path mesh

theorem rannFrameProcess_spec (adapter : HwmpAdapter) (now : Systime) (alloc : PathAlloc) (malloc : Bool)
    (neighbour : Option Neighbour) (ta : MacAddr) (e : RannElem) (h : s.mesh.Settled) :
    ∃ s' sent, s.rannFrameProcess adapter now alloc malloc neighbour ta e = some (s', sent) ∧
      RannSteps adapter.toAdapter now malloc s.mesh s'.mesh ∧
      ((∃ nb path, Heard adapter now alloc neighbour e nb path s.mesh ∧ rannNew e path = true ∧
          sent = rannForward adapter e nb.linkMetric ∧ HasRoot e.addr e.seq s'.mesh) ∨
        sent = [] ∧ ∀ nb path, Heard adapter now alloc neighbour e nb path s.mesh → rannNew e path = false ∧
          (s.mesh.lookupFast .meshPaths e.addr = none → ¬ HasRoot e.addr e.seq s'.mesh)) := by
  have hsame : RannSteps adapter.toAdapter now malloc s.mesh s.mesh :=
    ⟨s.mesh, s.mesh, ⟨e.addr, .refl h (Looked.refl now)⟩, Or.inl rfl, .refl h (Ordered.refl now)⟩
  unfold rannFrameProcess
  split
  case isTrue hown => exact ⟨s, [], rfl, hsame, Or.inr ⟨rfl, fun _ _ hh => absurd hown hh.other⟩⟩
  case isFalse hown =>
  cases neighbour with
  | none => exact ⟨s, [], rfl, hsame, Or.inr ⟨rfl, fun _ _ hh => nomatch hh.neighbour⟩⟩
  | some nb =>
    simp only
    obtain ⟨r, mesh, hget, hev, hr⟩ := meshPathGet_spec adapter now alloc e.addr h
    rw [hget, Option.bind_eq_bind, Option.bind_some]
    -- a RANN that is not new changes nothing more
    have hstop : RannSteps adapter.toAdapter now malloc s.mesh mesh :=
      ⟨mesh, mesh, ⟨e.addr, hev⟩, Or.inl rfl, .refl hev.settled (Ordered.refl now)⟩
    rcases hr with ⟨rfl, hl, hnot⟩ | ⟨p, a, rfl, hl, hp, ha, hdst, hfound⟩ | ⟨p, rfl, hl, hcan, hp, ha⟩
    · refine ⟨_, _, rfl, hstop, Or.inr ⟨rfl, fun nb' path hh => ?_⟩⟩
      rcases hh.compared with ⟨p, hp, -⟩ | ⟨-, hcan, -⟩
      · exact nomatch hl.symm.trans hp
      · exact absurd hcan hnot
    · simp only
      rw [ha, Option.bind_eq_bind, Option.bind_some]
      obtain ⟨b, hb, hnewb⟩ := rannNew_found (e := e) hfound
      have hheard : Heard adapter now alloc (some nb) e nb b s.mesh := ⟨hown, rfl, Or.inl ⟨p, hl, hb⟩⟩
      split
      case isTrue hnew =>
        obtain ⟨mesh', hrun, ⟨mesh₁, hq, hev'⟩, hroot⟩ :=
          rannRoute_spec adapter now malloc ta e nb.linkMetric hev.settled hp ha hnew
        rw [hrun, Option.bind_eq_bind, Option.bind_some]
        exact ⟨_, _, rfl, ⟨mesh, mesh₁, ⟨e.addr, hev⟩, hq, hev'⟩,
          Or.inl ⟨nb, b, hheard, hnewb.trans hnew, rfl, hdst ▸ hroot⟩⟩
      case isFalse hnew =>
        refine ⟨_, _, rfl, hstop, Or.inr ⟨rfl, fun nb' path hh => ⟨?_, fun hl' => nomatch hl'.symm.trans hl⟩⟩⟩
        rw [hh.compared.unique hheard.compared, hnewb]; exact (Bool.not_eq_true _).mp hnew
    · simp only
      rw [ha, Option.bind_eq_bind, Option.bind_some]
      have hheard : Heard adapter now alloc (some nb) e nb (.new e.addr now) s.mesh := ⟨hown, rfl, Or.inr ⟨hl, hcan, rfl⟩⟩
      split
      case isTrue hnew =>
        obtain ⟨mesh', hrun, ⟨mesh₁, hq, hev'⟩, hroot⟩ :=
          rannRoute_spec adapter now malloc ta e nb.linkMetric hev.settled hp ha hnew
        rw [hrun, Option.bind_eq_bind, Option.bind_some]
        exact ⟨_, _, rfl, ⟨mesh, mesh₁, ⟨e.addr, hev⟩, hq, hev'⟩, Or.inl ⟨nb, _, hheard, hnew, rfl, hroot⟩⟩
      case isFalse hnew =>
        refine ⟨_, _, rfl, hstop, Or.inr ⟨rfl, fun nb' path hh => ⟨?_, fun _ => ?_⟩⟩⟩
        · rw [hh.compared.unique hheard.compared]; exact (Bool.not_eq_true _).mp hnew
        · -- the path that was added is no root
          rintro ⟨q, hq, b, hb, hdst, -, hroot⟩
          have hkey : mesh.dstVal q = mesh.dstVal p := by
            unfold MeshInfo.dstVal
            rw [hb, ha]; exact congrArg MacAddr.val hdst
          obtain rfl := hev.settled.dst_inj .meshPaths q hq p hp hkey
          obtain rfl := Option.some.inj (ha.symm.trans hb)
          exact nomatch hroot

end Hwmp

end Rtl8852cu.Mesh
