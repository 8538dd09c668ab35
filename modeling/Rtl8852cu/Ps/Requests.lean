import Rtl8852cu.Ps.Handlers

/-!
# The power requests of the handlers

What a message does to the queue of power requests and to the calls of `_enter_ps`.

* `Msg.asksPower`, `Msg.endsPower`: the messages that request power and those that give it back;
* `Calm`: the requests stay, and power saving is entered only under a condition; one lemma for each handler;
* `psMdlHdlEvt_asks`, `psMdlHdlEvt_ends`, `psMdlHdlEvt_other`: the three kinds of messages.
-/

namespace Rtl8852cu.Ps

/-- The messages that request power in their pre-phase. -/
def Msg.asksPower (m : Msg) : Bool :=
  match m.evt with
  | .ext _ => m.mdl = .general
  | .phyOn => m.mdl = .general || m.mdl = .powerMgnt
  | .pktEvtNtfy => m.mdl = .general && m.pkt = some .eapolStart
  | _ => false

/-- The messages that give power back in their post-phase. -/
def Msg.endsPower (m : Msg) : Bool :=
  match m.evt with
  | .ext _ => m.mdl = .general
  | .phyIdle => m.mdl = .general || m.mdl = .powerMgnt
  | .pktEvtNtfy => m.mdl = .general && m.pkt = some .eapolEnd
  | _ => false

/-- In this phase the message neither requests power nor gives it back. -/
def Msg.Neutral (m : Msg) : Prop := (m.pre = true → m.asksPower = false) ∧ (m.pre = false → m.endsPower = false)

/-- The debug commands and RF off are left out. -/
def Msg.Included (m : Msg) : Prop := ¬(m.mdl = .powerMgnt ∧ m.evt = .psDbgCmd) ∧ ¬(m.mdl = .general ∧ m.evt = .rfOff)

def Call.enters : Call → Bool
  | .enterPs _ _ _ _ => true
  | _ => false

/-- `_enter_ps` is carried out between two states. -/
def EntersPs (s s' : CmdPs) : Prop := ∃ new, s'.calls = s.calls ++ new ∧ ∃ c ∈ new, Call.enters c = true

/-- No AP, no mesh and no GC is in a link. -/
def NoneLinked (roles : List WRole) : Prop :=
  ∀ r ∈ roles, r.active = true → r.isApCategory = true ∨ r.type = .mesh ∨ r.type = .p2pGc → r.mstate = .noLink

/-- The requests stay as they are, and power saving is entered only when `P` holds. -/
structure Calm (P : Prop) (s s' : CmdPs) : Prop where
  busy : s'.busy = s.busy
  idle : s'.idle = s.idle
  calls : ∃ new, s'.calls = s.calls ++ new ∧ ∀ c ∈ new, Call.enters c = true → P

theorem Calm.refl (P : Prop) (s : CmdPs) : Calm P s s :=
  ⟨rfl, rfl, [], (List.append_nil _).symm, fun _ hc => absurd hc List.not_mem_nil⟩

variable {P : Prop} {s t : CmdPs}

theorem Calm.trans {u : CmdPs} (h : Calm P s t) (h' : Calm P t u) : Calm P s u := by
  obtain ⟨new, hnew, hP⟩ := h.calls
  obtain ⟨new', hnew', hP'⟩ := h'.calls
  refine ⟨h'.busy.trans h.busy, h'.idle.trans h.idle, new ++ new', by rw [hnew', hnew, List.append_assoc], fun c hc he => ?_⟩
  rcases List.mem_append.mp hc with hc | hc
  · exact hP c hc he
  · exact hP' c hc he

theorem Calm.mono {Q : Prop} (hPQ : P → Q) (h : Calm P s t) : Calm Q s t := by
  obtain ⟨new, hnew, hP⟩ := h.calls
  exact ⟨h.busy, h.idle, new, hnew, fun c hc he => hPQ (hP c hc he)⟩

theorem Calm.same (hbusy : t.busy = s.busy) (hidle : t.idle = s.idle) (hcalls : t.calls = s.calls) :
    Calm P s t := ⟨hbusy, hidle, [], by rw [hcalls, List.append_nil], fun _ hc => absurd hc List.not_mem_nil⟩

theorem Calm.log {c : Call} (hc : Call.enters c = true → P) (hbusy : t.busy = s.busy)
    (hidle : t.idle = s.idle) (hcalls : t.calls = s.calls ++ [c]) : Calm P s t :=
  ⟨hbusy, hidle, [c], hcalls, fun _ hd => List.mem_singleton.mp hd ▸ hc⟩

theorem Calm.quiet {c : Call} (hc : Call.enters c = false) (hbusy : t.busy = s.busy)
    (hidle : t.idle = s.idle) (hcalls : t.calls = s.calls ++ [c]) : Calm P s t :=
  .log (fun he => Bool.noConfusion (hc.symm.trans he)) hbusy hidle hcalls

theorem Calm.of_enters (h : Calm P s t) (he : EntersPs s t) : P := by
  obtain ⟨new, hnew, hP⟩ := h.calls
  obtain ⟨new', hnew', c, hc, hent⟩ := he
  have heq : new = new' := List.append_cancel_left (hnew.symm.trans hnew')
  exact hP c (heq ▸ hc) hent

theorem EntersPs.of_calm {u : CmdPs} (h : Calm P s t) (he : EntersPs t u) : EntersPs s u := by
  obtain ⟨new, hnew, -⟩ := h.calls
  obtain ⟨new', hnew', c, hc, hent⟩ := he
  exact ⟨new ++ new', by rw [hnew', hnew, List.append_assoc], c, List.mem_append_right _ hc, hent⟩

namespace CmdPs

variable {s : CmdPs} {w : World} {m : Msg}

/-- The world grants power to a message that requests it, when the module listens to it. -/
def grantable (s : CmdPs) (w : World) : Bool := !s.rejPwrReq && (s.psState = .leaved || w.leaveOk && s.psMode ≠ .none)

/-- The macid for which LPS is entered. -/
def lpsChoice (s : CmdPs) (m : Msg) (w : World) : Option ℕ :=
  if m.pre then none
  else if m.mdl = .general ∧ m.evt = .hwWatchdog then (s.chkLpsEnter w).2
  else if m.mdl = .powerMgnt ∧ m.evt = .psPeriodChk then ({ s with wdgLeavePs := false }.chkLpsEnter w).2
  else none

def IpsMay (s : CmdPs) (w : World) : Prop := s.busy = [] ∧ NoneLinked w.roles

/-! ### Leave and enter -/

theorem leavePs_calm (s : CmdPs) (w : World) (leaveProto : Bool) : Calm False s (s.leavePs w leaveProto).1 := by
  unfold leavePs
  split
  · exact .refl _ _
  split
  · exact .refl _ _
  extract_lets proto ok t
  split
  · unfold left
    split
    · exact .quiet rfl rfl rfl rfl
    · exact .quiet rfl rfl rfl rfl
  · exact .quiet rfl rfl rfl rfl

theorem leavePs_ok (s : CmdPs) (w : World) :
    (s.leavePs w true).2 = (decide (s.psState = .leaved) || w.leaveOk && decide (s.psMode ≠ .none)) := by
  unfold leavePs
  by_cases hl : s.psState = .leaved
  · rw [if_pos hl, decide_eq_true hl, Bool.true_or]
  · rw [if_neg hl, if_neg (fun h => absurd h.2.1 nofun), decide_eq_false hl, Bool.false_or]
    dsimp only
    by_cases hok : (w.leaveOk && decide (s.psMode ≠ .none)) = true
    · rw [if_pos hok]; exact hok.symm
    · rw [if_neg hok]; exact (Bool.eq_false_iff.mpr hok).symm

theorem leaveSuccessHdlr_calm (s : CmdPs) : Calm False s s.leaveSuccessHdlr := by
  unfold leaveSuccessHdlr
  split
  · exact .quiet rfl rfl rfl rfl
  · exact .refl _ _

theorem leaveFailHdlr_calm (s : CmdPs) (w : World) : Calm False s (s.leaveFailHdlr w).1 := by
  unfold leaveFailHdlr
  dsimp only
  split <;> split <;> split
  all_goals first | exact .quiet rfl rfl rfl rfl | exact .same rfl rfl rfl

theorem leaveFailHdlr_ret (s : CmdPs) (w : World) : (s.leaveFailHdlr w).2 ≠ .success := by
  unfold leaveFailHdlr
  dsimp only
  split <;> split <;> nofun

theorem leaveAnd_calm (g : CmdPs → CmdPs) (hg : ∀ t, Calm False t (g t)) : Calm False s (s.leaveAnd w g).1 := by
  have hleave := leavePs_calm s w true
  unfold leaveAnd
  generalize s.leavePs w true = r at hleave ⊢
  obtain ⟨t, ok⟩ := r
  cases ok with
  | true => exact hleave.trans (hg t)
  | false => exact hleave.trans (leaveFailHdlr_calm t w)

theorem enterPs_enters {mode : PsMode} {macid : Option ℕ} (h : s.psState ≠ .entered) : EntersPs s (s.enterPs w mode macid) := by
  unfold enterPs
  rw [if_neg h]
  dsimp only
  split
  · exact ⟨_, rfl, _, List.mem_singleton_self _, rfl⟩
  · exact ⟨_, rfl, _, List.mem_singleton_self _, rfl⟩

theorem enterPs_calm {P : Prop} (hP : P) (mode : PsMode) (macid : Option ℕ) : Calm P s (s.enterPs w mode macid) := by
  unfold enterPs
  split
  · exact .refl _ _
  dsimp only
  split
  · exact .log (fun _ => hP) rfl rfl rfl
  · exact .log (fun _ => hP) rfl rfl rfl

theorem noneLinked_of_all {roles : List WRole} (h : chkRoleAllNoLink roles = true) : NoneLinked roles := by
  rintro r hr hactive -
  have hrole := List.all_eq_true.mp h r hr
  rw [hactive] at hrole; exact of_decide_eq_true hrole

theorem tryIps_calm (s : CmdPs) (w : World) : Calm (s.IpsMay w) s (s.tryIps w) := by
  unfold tryIps
  split
  · rename_i macid hchk
    refine enterPs_calm ?_ _ _
    unfold chkIpsEnter at hchk
    split at hchk
    · cases hchk
    · rename_i hbar
      constructor
      · by_contra hbusy
        apply hbar
        unfold psBarred
        rw [show s.busy.isEmpty = false from Bool.eq_false_iff.mpr fun hemp => hbusy (List.isEmpty_iff.mp hemp)]
        simp
      · unfold chkWroleWithPsMode at hchk
        split at hchk
        · cases hchk
        · split at hchk
          · cases hchk
          · rename_i hall
            exact noneLinked_of_all (Bool.of_not_eq_false fun hno => hall ⟨rfl, hno⟩)
  · exact .refl _ _

/-! ### LPS -/

theorem lpsPermitted_barred {macid : ℕ} (h : s.lpsPermitted w = some macid) : s.busy = [] ∧ s.psState ≠ .entered := by
  unfold lpsPermitted at h
  split at h
  · cases h
  · rename_i hbar
    constructor
    · by_contra hbusy
      apply hbar
      unfold psBarred
      rw [show s.busy.isEmpty = false from Bool.eq_false_iff.mpr fun hemp => hbusy (List.isEmpty_iff.mp hemp)]
      simp
    · have hjudge := (Option.filter_eq_some_iff.mp h).2
      unfold lpsJudgeEnter at hjudge
      split at hjudge
      · cases hjudge
      · exact of_decide_eq_true (Bool.and_eq_true_iff.mp hjudge).1

theorem chkLpsEnter_calm (s : CmdPs) (w : World) : Calm False s (s.chkLpsEnter w).1 := by
  unfold chkLpsEnter
  split
  · exact .refl _ _
  split
  · unfold stopDatapathTx
    dsimp only
    cases w.pauseOk with
    | true => exact .quiet rfl rfl rfl rfl
    | false => exact .quiet rfl rfl rfl rfl
  · exact .refl _ _

theorem chkLpsEnter_some {macid : ℕ} (h : (s.chkLpsEnter w).2 = some macid) :
    s.busy = [] ∧ (s.chkLpsEnter w).1.psState ≠ .entered := by
  unfold chkLpsEnter at h ⊢
  cases hp : s.lpsPermitted w with
  | none =>
    rw [hp] at h; cases h
  | some macid' =>
    obtain ⟨hbusy, hne⟩ := lpsPermitted_barred hp
    refine ⟨hbusy, ?_⟩
    dsimp only
    split
    · unfold stopDatapathTx
      dsimp only
      cases w.pauseOk with
      | true => exact hne
      | false => exact hne
    · exact hne

end CmdPs
namespace CmdPs

variable {s : CmdPs} {w : World} {m : Msg}

/-! ### Messages that leave the requests alone -/

theorem chkRssiDiffReachThld_calm (s : CmdPs) (w : World) : Calm False s (s.chkRssiDiffReachThld w).1 := by
  unfold chkRssiDiffReachThld
  split
  · exact .same rfl rfl rfl
  split
  · exact .refl _ _
  · exact .same rfl rfl rfl

theorem lpsJudgeLeave_calm (s : CmdPs) (w : World) : Calm False s (s.lpsJudgeLeave w).1 := by
  unfold lpsJudgeLeave
  split
  · exact .refl _ _
  split
  · exact .refl _ _
  · exact chkRssiDiffReachThld_calm s w

theorem psWatchdogPreHdlr_calm (s : CmdPs) (w : World) : Calm False s (s.psWatchdogPreHdlr w).1 := by
  have hfirst : Calm False s { s with wdgLeavePs := false } := .same rfl rfl rfl
  unfold psWatchdogPreHdlr
  dsimp only
  split
  · exact hfirst
  split
  · exact hfirst
  split
  · exact hfirst
  have hjudge := hfirst.trans (lpsJudgeLeave_calm { s with wdgLeavePs := false } w)
  generalize { s with wdgLeavePs := false }.lpsJudgeLeave w = r at hjudge ⊢
  obtain ⟨t, changed⟩ := r
  dsimp only at hjudge ⊢
  have hseen : Calm False s (if changed then t else { t with wdgLeave := false }) := by
    split
    · exact hjudge
    · exact hjudge.trans (.same rfl rfl rfl)
  generalize (if changed then t else { t with wdgLeave := false }) = u at hseen ⊢
  split
  · have hleave := hseen.trans (leavePs_calm u w true)
    generalize u.leavePs w true = r at hleave ⊢
    obtain ⟨v, ok⟩ := r
    cases ok with
    | true =>
      have hset : Calm False v { v with wdgLeavePs := true } := .same rfl rfl rfl
      exact (hleave.trans hset).trans (leaveSuccessHdlr_calm _)
    | false => exact hleave.trans (leaveFailHdlr_calm v w)
  · exact hseen

theorem psLeaveDeferRson_calm (s : CmdPs) (m : Msg) (w : World) : Calm False s (s.psLeaveDeferRson m w).1 := by
  unfold psLeaveDeferRson
  split
  · exact .refl _ _
  split
  · have hleave := leavePs_calm s w true
    generalize s.leavePs w true = r at hleave ⊢
    obtain ⟨t, ok⟩ := r
    cases ok with
    | true => exact hleave.trans (leaveSuccessHdlr_calm t)
    | false => exact hleave.trans (leaveFailHdlr_calm t w)
  · exact .refl _ _

theorem psPingPktHdlr_calm (s : CmdPs) (m : Msg) (w : World) (type : PktEvt) : Calm False s (s.psPingPktHdlr m w type).1 := by
  cases type with
  | txPingReq =>
    unfold psPingPktHdlr
    dsimp only
    split
    · have htime : Calm False s { s with lastTxPingTime := w.now } := .same rfl rfl rfl
      exact htime.trans (psLeaveDeferRson_calm _ m w)
    · exact .refl _ _
  | rxPingRsp => exact .refl _ _
  | eapolStart => exact .refl _ _
  | eapolEnd => exact .refl _ _
  | other => exact .refl _ _

theorem txPwrReqMsgHdlr_calm (s : CmdPs) (m : Msg) (w : World) : Calm False s (s.txPwrReqMsgHdlr m w).1 := by
  unfold txPwrReqMsgHdlr
  split
  · exact .refl _ _
  split
  · have hleave := leavePs_calm s w false
    generalize s.leavePs w false = r at hleave ⊢
    obtain ⟨t, ok⟩ := r
    cases ok with
    | true => exact hleave.trans (leaveSuccessHdlr_calm t)
    | false => exact hleave.trans (leaveFailHdlr_calm t w)
  · exact .refl _ _

theorem linuxCmdWkardHdlr_calm (s : CmdPs) (w : World) : Calm False s (s.linuxCmdWkardHdlr w).1 := by
  unfold linuxCmdWkardHdlr
  split
  · exact .refl _ _
  · exact leaveAnd_calm _ leaveSuccessHdlr_calm

theorem psCapChgMsgHdlr_calm (s : CmdPs) (m : Msg) (w : World) : Calm (s.IpsMay w) s (s.psCapChgMsgHdlr m w).1 := by
  unfold psCapChgMsgHdlr
  dsimp only
  split
  · split
    · exact .refl _ _
    · generalize (if m.psAllow = true then s.rtStopRson &&& ~~~m.rtRson else s.rtStopRson ||| m.rtRson) = rson
      have hset : Calm False s { s with rtStopRson := rson } := .same rfl rfl rfl
      refine Calm.mono False.elim ?_
      split
      · exact hset
      split
      · exact hset.trans (leaveAnd_calm _ leaveSuccessHdlr_calm)
      · exact hset
  · split
    · exact tryIps_calm s w
    · exact .refl _ _

theorem mrcMdlMsgHdlr_calm (s : CmdPs) (m : Msg) (w : World) : Calm False s (s.mrcMdlMsgHdlr m w).1 := by
  unfold mrcMdlMsgHdlr
  split
  · dsimp only
    split
    · exact .same rfl rfl rfl
    · exact .refl _ _
  · exact .refl _ _

theorem serMdlMsgHdlr_calm (s : CmdPs) (m : Msg) : Calm False s (s.serMdlMsgHdlr m).1 := by
  unfold serMdlMsgHdlr
  split
  · exact .refl _ _
  split
  · exact .refl _ _
  · exact .refl _ _

theorem datapathMdlMsgHdlr_calm (s : CmdPs) (m : Msg) (w : World) : Calm False s (s.datapathMdlMsgHdlr m w).1 := by
  unfold datapathMdlMsgHdlr
  split
  · exact txPwrReqMsgHdlr_calm s m w
  · exact .refl _ _

/-! ### Messages that request power -/

/-- A request for power, of whatever message. -/
def askPower (s : CmdPs) (w : World) (e : Evt) : CmdPs × Ret :=
  if s.rejPwrReq then (s, .cannotIo) else s.leaveAnd w fun s => (s.addPwrReq e).leaveSuccessHdlr

theorem askPower_granted {e : Evt} (h : s.grantable w = true) : (s.askPower w e).2 = .success ∧
      ∃ t, Calm False s t ∧ Calm False (t.addPwrReq e) (s.askPower w e).1 := by
  obtain ⟨hrej, hok⟩ := Bool.and_eq_true_iff.mp h
  rw [← leavePs_ok] at hok
  have hleave := leavePs_calm s w true
  unfold askPower
  rw [if_neg (by rw [Bool.not_eq_true', ← Bool.not_eq_true] at hrej; exact hrej)]
  unfold leaveAnd
  generalize s.leavePs w true = r at hok hleave ⊢
  obtain ⟨t, ok⟩ := r
  cases hok
  exact ⟨rfl, t, hleave, leaveSuccessHdlr_calm _⟩

theorem askPower_denied {e : Evt} (h : s.grantable w = false) :
    (s.askPower w e).2 ≠ .success ∧ Calm False s (s.askPower w e).1 := by
  unfold askPower
  split
  · exact ⟨nofun, .refl _ _⟩
  · rename_i hrej
    have hok : (s.leavePs w true).2 = false := by
      rw [leavePs_ok]
      unfold grantable at h
      rw [Bool.eq_false_iff.mpr hrej] at h; exact h
    have hleave := leavePs_calm s w true
    unfold leaveAnd
    generalize s.leavePs w true = r at hok hleave ⊢
    obtain ⟨t, ok⟩ := r
    cases hok
    exact ⟨leaveFailHdlr_ret t w, hleave.trans (leaveFailHdlr_calm t w)⟩

theorem psAddPwrReqCmn_pre (h : m.pre = true) : s.psAddPwrReqCmn m w = s.askPower w m.evt := by
  unfold psAddPwrReqCmn askPower
  rw [if_pos h]

theorem psMdlHdlEvt_asks (hpre : m.pre = true) (hasks : m.asksPower = true) : s.psMdlHdlEvt m w = s.askPower w m.evt := by
  unfold Msg.asksPower at hasks
  split at hasks
  · rename_i e hevt
    have hmdl := of_decide_eq_true hasks
    unfold psMdlHdlEvt psMdlHdlExternalEvt generalMdlMsgHdlr
    rw [hmdl, hevt]
    dsimp only
    rw [if_pos hpre]; rfl
  · rename_i hevt
    rcases Bool.or_eq_true_iff.mp hasks with hmdl | hmdl
    · have hmdl := of_decide_eq_true hmdl
      rw [← psAddPwrReqCmn_pre hpre]
      unfold psMdlHdlEvt psMdlHdlExternalEvt generalMdlMsgHdlr
      rw [hmdl, hevt]; rfl
    · have hmdl := of_decide_eq_true hmdl
      rw [← psAddPwrReqCmn_pre hpre]
      unfold psMdlHdlEvt psMdlHdlInternalEvt
      rw [hmdl, hevt]; rfl
  · rename_i hevt
    obtain ⟨hmdl, hpkt⟩ := Bool.and_eq_true_iff.mp hasks
    have hmdl := of_decide_eq_true hmdl
    have hpkt := of_decide_eq_true hpkt
    rw [← psAddPwrReqCmn_pre hpre]
    unfold psMdlHdlEvt psMdlHdlExternalEvt generalMdlMsgHdlr psPktEvtHdlr
    rw [hmdl, hevt, hpkt]
  · cases hasks

/-! ### Messages that give power back -/

theorem psCancelPwrReqCmn_post (h : m.pre = false) : s.psCancelPwrReqCmn m w = ((s.cancelPwrReq m.evt).tryIps w, .success) := by
  unfold psCancelPwrReqCmn
  rw [if_neg (by rw [h]; decide)]

theorem psMdlHdlEvt_ends (hpre : m.pre = false) (hends : m.endsPower = true) :
    s.psMdlHdlEvt m w = ((s.cancelPwrReq m.evt).tryIps w, .success) := by
  unfold Msg.endsPower at hends
  split at hends
  · rename_i e hevt
    have hmdl := of_decide_eq_true hends
    unfold psMdlHdlEvt psMdlHdlExternalEvt generalMdlMsgHdlr
    rw [hmdl, hevt]
    dsimp only
    rw [if_neg (by rw [hpre]; decide)]
    rfl
  · rename_i hevt
    rcases Bool.or_eq_true_iff.mp hends with hmdl | hmdl
    · have hmdl := of_decide_eq_true hmdl
      rw [← psCancelPwrReqCmn_post hpre]
      unfold psMdlHdlEvt psMdlHdlExternalEvt generalMdlMsgHdlr
      rw [hmdl, hevt]; rfl
    · have hmdl := of_decide_eq_true hmdl
      rw [← psCancelPwrReqCmn_post hpre]
      unfold psMdlHdlEvt psMdlHdlInternalEvt
      rw [hmdl, hevt]; rfl
  · rename_i hevt
    obtain ⟨hmdl, hpkt⟩ := Bool.and_eq_true_iff.mp hends
    have hmdl := of_decide_eq_true hmdl
    have hpkt := of_decide_eq_true hpkt
    rw [← psCancelPwrReqCmn_post hpre]
    unfold psMdlHdlEvt psMdlHdlExternalEvt generalMdlMsgHdlr psPktEvtHdlr
    rw [hmdl, hevt, hpkt]
  · cases hends

/-! ### The other messages -/

/-- When power saving may be entered by a message that neither requests power nor gives it back. -/
def EnterMay (s : CmdPs) (m : Msg) (w : World) : Prop := s.busy = [] ∧ (NoneLinked w.roles ∨ s.lpsChoice m w ≠ none)

structure Other (s : CmdPs) (m : Msg) (w : World) (s' : CmdPs) : Prop where
  calm : Calm (s.EnterMay m w) s s'
  enters : s.lpsChoice m w ≠ none → EntersPs s s'

theorem other_of_calm {s' : CmdPs} (hno : s.lpsChoice m w = none) (h : Calm (s.IpsMay w) s s') : Other s m w s' :=
  ⟨h.mono fun hi => ⟨hi.1, .inl hi.2⟩, fun hlps => absurd hno hlps⟩

theorem other_of_quiet {s' : CmdPs} (hno : s.lpsChoice m w = none) (h : Calm False s s') : Other s m w s' :=
  other_of_calm hno (h.mono False.elim)

theorem other_of_lps {macid : ℕ} {s' t : CmdPs} (ht : Calm False s t) (hlps : s.lpsChoice m w = some macid)
    (hchk : (t.chkLpsEnter w).2 = some macid) (hs' : s' = (t.chkLpsEnter w).1.enterPs w .lps (some macid)) : Other s m w s' := by
  obtain ⟨hbusy, hne⟩ := chkLpsEnter_some hchk
  have hcalm : Calm False s (t.chkLpsEnter w).1 := ht.trans (chkLpsEnter_calm t w)
  have hmay : s.EnterMay m w := ⟨ht.busy ▸ hbusy, .inr (by rw [hlps]; nofun)⟩
  rw [hs']
  exact ⟨(hcalm.mono False.elim).trans (enterPs_calm hmay _ _), fun _ => (enterPs_enters hne).of_calm hcalm⟩

theorem lpsChoice_pre (h : m.pre = true) : s.lpsChoice m w = none := if_pos h

theorem lpsChoice_none (hgen : m.mdl = .general → m.evt ≠ .hwWatchdog) (hpwr : m.mdl = .powerMgnt → m.evt ≠ .psPeriodChk) :
    s.lpsChoice m w = none := by
  unfold lpsChoice
  rw [if_neg (fun h : m.mdl = .general ∧ m.evt = .hwWatchdog => hgen h.1 h.2),
    if_neg (fun h : m.mdl = .powerMgnt ∧ m.evt = .psPeriodChk => hpwr h.1 h.2), ite_self]

theorem watchdog_other (hmdl : m.mdl = .general) (hevt : m.evt = .hwWatchdog) (hpre : m.pre = false) :
    Other s m w (s.psWatchdogPostHdlr w).1 := by
  have hchoice : s.lpsChoice m w = (s.chkLpsEnter w).2 := by
    unfold lpsChoice
    rw [if_neg (by rw [hpre]; decide), if_pos ⟨hmdl, hevt⟩]
  have hchk := chkLpsEnter_calm s w
  cases hlps : (s.chkLpsEnter w).2 with
  | some macid =>
    refine other_of_lps (.refl _ _) (hchoice.trans hlps) hlps ?_
    unfold psWatchdogPostHdlr
    generalize s.chkLpsEnter w = r at hlps ⊢
    obtain ⟨t, x⟩ := r
    cases hlps
    rfl
  | none =>
    refine other_of_calm (hchoice.trans hlps) ?_
    unfold psWatchdogPostHdlr
    generalize s.chkLpsEnter w = r at hlps hchk ⊢
    obtain ⟨t, x⟩ := r
    cases hlps
    refine (hchk.mono False.elim).trans ((tryIps_calm t w).mono fun h => ⟨hchk.busy ▸ h.1, h.2⟩)

theorem periodChk_other (hmdl : m.mdl = .powerMgnt) (hevt : m.evt = .psPeriodChk) : Other s m w (s.psPeriodChkHdlr m w).1 := by
  unfold psPeriodChkHdlr
  by_cases hpre : m.pre = true
  · rw [if_pos hpre]; exact other_of_quiet (lpsChoice_pre hpre) (.refl _ _)
  · have hset : Calm False s { s with wdgLeavePs := false } := .same rfl rfl rfl
    have hchoice : s.lpsChoice m w = ({ s with wdgLeavePs := false }.chkLpsEnter w).2 := by
      unfold lpsChoice
      rw [if_neg hpre, if_neg (by rw [hmdl]; exact fun h => nomatch h.1), if_pos ⟨hmdl, hevt⟩]
    have hchk := hset.trans (chkLpsEnter_calm { s with wdgLeavePs := false } w)
    rw [if_neg hpre]
    dsimp only
    cases hlps : ({ s with wdgLeavePs := false }.chkLpsEnter w).2 with
    | some macid =>
      have hne : s.psState ≠ .entered := fun hent => by
        unfold chkLpsEnter at hlps
        cases hp : { s with wdgLeavePs := false }.lpsPermitted w with
        | none =>
          rw [hp] at hlps; cases hlps
        | some macid' => exact (lpsPermitted_barred hp).2 hent
      refine other_of_lps hset (hchoice.trans hlps) hlps ?_
      rw [if_pos hne]
      generalize { s with wdgLeavePs := false }.chkLpsEnter w = r at hlps ⊢
      obtain ⟨t, x⟩ := r
      cases hlps
      rfl
    | none =>
      refine other_of_quiet (hchoice.trans hlps) ?_
      split
      · generalize { s with wdgLeavePs := false }.chkLpsEnter w = r at hlps hchk ⊢
        obtain ⟨t, x⟩ := r
        cases hlps
        exact hchk
      · exact hset

end CmdPs
namespace CmdPs

variable {s : CmdPs} {w : World} {m : Msg}

theorem psAddPwrReqCmn_post (h : m.pre = false) : (s.psAddPwrReqCmn m w).1 = s := by
  unfold psAddPwrReqCmn
  split
  · rfl
  · rw [if_neg (by rw [h]; decide)]

theorem psCancelPwrReqCmn_pre (h : m.pre = true) : (s.psCancelPwrReqCmn m w).1 = s := by
  unfold psCancelPwrReqCmn
  rw [if_pos h]

theorem neutral_absurd {P : Prop} (hn : m.Neutral) (hasks : m.asksPower = true) (hends : m.endsPower = true) : P := by
  cases hpre : m.pre with
  | true => exact nomatch hasks.symm.trans (hn.1 hpre)
  | false => exact nomatch hends.symm.trans (hn.2 hpre)

theorem psPktEvtHdlr_calm (hn : m.Neutral) (hmdl : m.mdl = .general) (hevt : m.evt = .pktEvtNtfy) :
    Calm False s (s.psPktEvtHdlr m w).1 := by
  unfold psPktEvtHdlr
  split
  · exact .refl _ _
  · exact psPingPktHdlr_calm s m w _
  · exact psPingPktHdlr_calm s m w _
  · rename_i hpkt
    have hpre : m.pre = false := by
      by_contra hpre
      have hasks := hn.1 (Bool.of_not_eq_false hpre)
      unfold Msg.asksPower at hasks
      rw [hevt, hmdl, hpkt] at hasks; cases hasks
    rw [psAddPwrReqCmn_post hpre]; exact .refl _ _
  · rename_i hpkt
    have hpre : m.pre = true := by
      by_contra hpre
      have hends := hn.2 (Bool.eq_false_iff.mpr hpre)
      unfold Msg.endsPower at hends
      rw [hevt, hmdl, hpkt] at hends; cases hends
    rw [psCancelPwrReqCmn_pre hpre]; exact .refl _ _
  · exact .refl _ _

theorem phyOn_calm (hn : m.Neutral) (hmdl : m.mdl = .general ∨ m.mdl = .powerMgnt) (hevt : m.evt = .phyOn) :
    Calm False s (s.phyOnMsgHdlr m w).1 := by
  have hpre : m.pre = false := by
    by_contra hpre
    have hasks := hn.1 (Bool.of_not_eq_false hpre)
    unfold Msg.asksPower at hasks
    rw [hevt] at hasks
    rcases hmdl with hmdl | hmdl
    · rw [hmdl] at hasks; cases hasks
    · rw [hmdl] at hasks; cases hasks
  unfold phyOnMsgHdlr
  rw [psAddPwrReqCmn_post hpre]; exact .refl _ _

theorem phyIdle_calm (hn : m.Neutral) (hmdl : m.mdl = .general ∨ m.mdl = .powerMgnt) (hevt : m.evt = .phyIdle) :
    Calm False s (s.phyIdleMsgHdlr m w).1 := by
  have hpre : m.pre = true := by
    by_contra hpre
    have hends := hn.2 (Bool.eq_false_iff.mpr hpre)
    unfold Msg.endsPower at hends
    rw [hevt] at hends
    rcases hmdl with hmdl | hmdl
    · rw [hmdl] at hends; cases hends
    · rw [hmdl] at hends; cases hends
  unfold phyIdleMsgHdlr
  rw [psCancelPwrReqCmn_pre hpre]; exact .refl _ _

theorem generalMdlMsgHdlr_other (hn : m.Neutral) (hmdl : m.mdl = .general) (hrf : m.evt ≠ .rfOff) :
    Other s m w (s.generalMdlMsgHdlr m w).1 := by
  have hno : m.evt ≠ .hwWatchdog → s.lpsChoice m w = none := fun hne =>
    lpsChoice_none (fun _ => hne) fun hpwr => nomatch hmdl.symm.trans hpwr
  unfold generalMdlMsgHdlr
  split
  · rename_i hevt
    exact other_of_quiet (hno (by rw [hevt]; nofun)) (.refl _ _)
  · rename_i hevt
    exact other_of_quiet (hno (by rw [hevt]; nofun)) (.refl _ _)
  · rename_i hevt
    exact other_of_quiet (hno (by rw [hevt]; nofun)) (.refl _ _)
  · rename_i e hevt
    have hasks : m.asksPower = true := by
      unfold Msg.asksPower
      rw [hevt, hmdl]; rfl
    have hends : m.endsPower = true := by
      unfold Msg.endsPower
      rw [hevt, hmdl]; rfl
    exact neutral_absurd hn hasks hends
  · rename_i hevt
    refine other_of_quiet (hno (by rw [hevt]; nofun)) ?_
    split
    · exact linuxCmdWkardHdlr_calm s w
    · exact .refl _ _
  · rename_i hevt
    split
    · rename_i hpre
      refine other_of_quiet (lpsChoice_pre hpre) ?_
      have hcalm := psWatchdogPreHdlr_calm s w
      generalize s.psWatchdogPreHdlr w = r at hcalm ⊢
      obtain ⟨t, ret⟩ := r
      cases ret with
      | success => exact hcalm.trans (.same rfl rfl rfl)
      | fail => exact hcalm
      | cannotIo => exact hcalm
      | pending => exact hcalm
      | ignore => exact hcalm
    · rename_i hpre
      exact watchdog_other hmdl hevt (Bool.eq_false_iff.mpr hpre)
  · rename_i hevt
    refine other_of_quiet (hno (by rw [hevt]; nofun)) ?_
    dsimp only
    split
    · exact .refl _ _
    · exact .same rfl rfl rfl
  · rename_i hevt
    exact absurd hevt hrf
  · rename_i hevt
    exact other_of_quiet (hno (by rw [hevt]; nofun)) (phyOn_calm hn (.inl hmdl) hevt)
  · rename_i hevt
    exact other_of_quiet (hno (by rw [hevt]; nofun)) (phyIdle_calm hn (.inl hmdl) hevt)
  · rename_i hevt
    exact other_of_quiet (hno (by rw [hevt]; nofun)) (psPktEvtHdlr_calm hn hmdl hevt)
  · rename_i hwdg _ _ _ _ _
    exact other_of_quiet (hno hwdg) (.refl _ _)

theorem psMdlHdlInternalEvt_other (hn : m.Neutral) (hmdl : m.mdl = .powerMgnt) (hdbg : m.evt ≠ .psDbgCmd) :
    Other s m w (s.psMdlHdlInternalEvt m w).1 := by
  have hno : m.evt ≠ .psPeriodChk → s.lpsChoice m w = none := fun hne =>
    lpsChoice_none (fun hgen => nomatch hmdl.symm.trans hgen) fun _ => hne
  unfold psMdlHdlInternalEvt
  split
  · rename_i hevt
    exact other_of_quiet (hno (by rw [hevt]; nofun)) (phyOn_calm hn (.inr hmdl) hevt)
  · rename_i hevt
    exact other_of_quiet (hno (by rw [hevt]; nofun)) (phyIdle_calm hn (.inr hmdl) hevt)
  · rename_i hevt
    exact other_of_calm (hno (by rw [hevt]; nofun)) (psCapChgMsgHdlr_calm s m w)
  · rename_i hevt
    exact periodChk_other hmdl hevt
  · rename_i hevt
    exact absurd hevt hdbg
  · rename_i hevt
    exact other_of_quiet (hno (by rw [hevt]; nofun)) (.refl _ _)
  · rename_i hper _ _
    exact other_of_quiet (hno hper) (.refl _ _)

theorem psMdlHdlEvt_other (hn : m.Neutral) (hincl : m.Included) : Other s m w (s.psMdlHdlEvt m w).1 := by
  unfold psMdlHdlEvt
  split
  · rename_i hmdl
    exact psMdlHdlInternalEvt_other hn hmdl fun hevt => hincl.1 ⟨hmdl, hevt⟩
  · rename_i hpwr
    have hno : m.mdl ≠ .general → s.lpsChoice m w = none := fun hne =>
      lpsChoice_none (fun hgen => absurd hgen hne) fun h => absurd h hpwr
    unfold psMdlHdlExternalEvt
    split
    · rename_i hmdl
      exact other_of_quiet (hno (by rw [hmdl]; nofun)) (.refl _ _)
    · rename_i hmdl
      exact other_of_quiet (hno (by rw [hmdl]; nofun)) (.refl _ _)
    · rename_i hmdl
      exact generalMdlMsgHdlr_other hn hmdl fun hevt => hincl.2 ⟨hmdl, hevt⟩
    · rename_i hmdl
      exact other_of_quiet (hno (by rw [hmdl]; nofun)) (mrcMdlMsgHdlr_calm s m w)
    · rename_i hmdl
      exact other_of_quiet (hno (by rw [hmdl]; nofun)) (datapathMdlMsgHdlr_calm s m w)
    · rename_i hmdl
      exact other_of_quiet (hno (by rw [hmdl]; nofun)) (datapathMdlMsgHdlr_calm s m w)
    · rename_i hmdl
      exact other_of_quiet (hno (by rw [hmdl]; nofun)) (serMdlMsgHdlr_calm s m)
    · rename_i hgen _ _ _ _
      exact other_of_quiet (hno hgen) (.refl _ _)

end CmdPs

end Rtl8852cu.Ps
