import Rtl8852cu.Dispr.Runs

/-!
# The thread leaves

A dispatcher that is not started takes neither messages nor requests, so the loops of
`dispr_thread_leave_hdl` only ever shorten its queues.
-/

namespace Rtl8852cu.Dispr

variable {N : ℕ} {e e' e'' : Eng N} {i j : Fin 2} {k : Fin N}

/-! ### A dispatcher that is not started -/

/-- The queues of dispatcher `i` are the same, and it is started or not as before. -/
structure Parked (i : Fin 2) (e e' : Eng N) : Prop where
  started : (e'.d i).status.started = false
  idle : (e'.d i).msgs.idle = (e.d i).msgs.idle
  wait : (e'.d i).msgs.wait = (e.d i).msgs.wait
  pend : (e'.d i).msgs.pend = (e.d i).msgs.pend
  reqIdle : (e'.d i).tok.reqIdle = (e.d i).tok.reqIdle
  reqWait : (e'.d i).tok.reqWait = (e.d i).tok.reqWait
  cur : (e'.d i).tok.curCmdReq = (e.d i).tok.curCmdReq

/-- A function that leaves the queues of `i` alone while it is not started. -/
def Parks (i : Fin 2) (f : Eng N → Eng N) : Prop :=
  ∀ e, (e.d i).status.started = false → Parked i e (f e)

theorem Parked.refl (h : (e.d i).status.started = false) : Parked i e e := ⟨h, rfl, rfl, rfl, rfl, rfl, rfl⟩

theorem Parked.trans (h : Parked i e e') (h' : Parked i e' e'') : Parked i e e'' :=
  ⟨h'.started, h'.idle.trans h.idle, h'.wait.trans h.wait, h'.pend.trans h.pend,
    h'.reqIdle.trans h.reqIdle, h'.reqWait.trans h.reqWait, h'.cur.trans h.cur⟩

theorem Parked.of_eq (h : (e.d i).status.started = false) (hd : e'.d i = e.d i) : Parked i e e' :=
  ⟨hd ▸ h, by rw [hd], by rw [hd], by rw [hd], by rw [hd], by rw [hd], by rw [hd]⟩

theorem Parks.comp {f g : Eng N → Eng N} (hg : Parks i g) (hf : Parks i f) :
    Parks i fun e => g (f e) := fun e he => (hf e he).trans (hg _ (hf e he).started)

theorem Parks.modify {f : CmdDispatcher N → CmdDispatcher N}
    (hst : ∀ d, d.status.started = false → (f d).status.started = false)
    (hidle : ∀ d, (f d).msgs.idle = d.msgs.idle) (hwait : ∀ d, (f d).msgs.wait = d.msgs.wait)
    (hpend : ∀ d, (f d).msgs.pend = d.msgs.pend) (hri : ∀ d, (f d).tok.reqIdle = d.tok.reqIdle)
    (hrw : ∀ d, (f d).tok.reqWait = d.tok.reqWait)
    (hcur : ∀ d, (f d).tok.curCmdReq = d.tok.curCmdReq) :
    Parks i fun e : Eng N => e.modify j f := by
  intro e he
  rcases eq_or_ne i j with rfl | hij
  · constructor <;> simp [*]
  · exact .of_eq he (by simp [hij])

theorem Parks.onStatus {f : DisprStatus → DisprStatus} (hf : ∀ s, s.started = false → (f s).started = false) :
    Parks i fun e : Eng N => e.onStatus j f :=
  .modify (fun d => hf d.status) (fun _ => rfl) (fun _ => rfl) (fun _ => rfl) (fun _ => rfl)
    (fun _ => rfl) fun _ => rfl

theorem Parks.onEx {f : PhlDisprMsgEx → PhlDisprMsgEx} : Parks i fun e : Eng N => e.onEx j k f :=
  .modify (f := fun d => { d with msgs := d.msgs.onEx k f }) (fun _ h => h) (fun _ => rfl)
    (fun _ => rfl) (fun _ => rfl) (fun _ => rfl) (fun _ => rfl) fun _ => rfl

theorem OnlyMsgs.parked (h : OnlyMsgs j e e') (hij : i ≠ j)
    (he : (e.d i).status.started = false) : Parked i e e' := by
  refine ⟨Bool.eq_false_iff.2 fun hst => ?_, ?_, ?_, ?_, ?_, ?_, ?_⟩
  · simp [(h.flags i).started hst] at he
  all_goals first | rw [h.msgs i hij] | rw [h.tok]

theorem Parked.logEv (h : (e.d i).status.started = false) (ev : Ev N) : Parked i e (e.logEv ev) := .of_eq h rfl

variable {msg : PhlMsg} {attr : Option PhlMsgAttribute}

theorem logSent_parks {d : CmdDispatcher N}
    {sts : PhlStatus} {hdl : Option ℕ} : Parks i (logSent j d msg attr sts hdl) := fun e he => by
  have hcount : Parks i fun e : Eng N => e.onMsgs j fun q => { q with nsend := q.nsend + 1 } :=
    .modify (fun _ h => h) (fun _ => rfl) (fun _ => rfl) (fun _ => rfl) (fun _ => rfl)
      (fun _ => rfl) fun _ => rfl
  exact (hcount e he).trans (.logEv (hcount e he).started _)

theorem Signals.parked (hs : Signals e e') (h : (e.d i).status.started = false) : Parked i e e' := by
  obtain ⟨hsame, -⟩ := (hs.tok i).sameReqs
  refine ⟨(hs.started i).trans h, ?_, ?_, ?_, hsame.reqIdle, hsame.reqWait, hsame.curCmdReq⟩
  all_goals rw [hs.msgs]

theorem retireMsg_parked (hij : i ≠ j) : Parks i (retireMsg (N := N) j k) := fun e he => by
  have hsig := abortSignal_signals e j k
  have hp := hsig.parked he
  obtain ⟨-, -, htok, -, hst⟩ := retireMsg_parts e j i k
  have hmsgs := retireMsg_ne e k hij
  have hmsgs' := hsig.msgs i
  exact ⟨by rw [hst]; exact hp.started, by rw [hmsgs], by rw [hmsgs], by rw [hmsgs],
    by rw [htok]; exact hp.reqIdle, by rw [htok]; exact hp.reqWait, by rw [htok]; exact hp.cur⟩

theorem sendErr_stopped {d : CmdDispatcher N}
    (h : d.status.started = false) : sendErr d msg attr = some .unexpectedError := by
  simp [sendErr, h]

theorem disprSendMsg_parks {cb : Eng N → Eng N} (hcb : Parks i cb)
    : Parks i fun e => (disprSendMsg cb j msg attr e).1 := by
  intro e he
  simp only [disprSendMsg]
  rcases eq_or_ne i j with rfl | hij
  · rw [sendErr_stopped he]; exact logSent_parks e he
  · cases sendErr (e.d j) msg attr with
    | some sts => exact logSent_parks e he
    | none =>
      cases (e.d j).msgs.idle with
      | nil => exact logSent_parks e he
      | cons k idle =>
        simp only
        split
        · have htake : Parked i e (takeDropped j msg attr k e) := takeDropped_onlyMsgs.parked hij he
          refine htake.trans ?_
          unfold pushBackIdleMsg
          split
          · have hcomp : Parked i _ (completeMsg j k (takeDropped j msg attr k e)) :=
              (OnlyMsgs.onMsgs.trans (.logEv _)).parked hij htake.started
            have hback := (Parks.onEx (k := k) (j := j) (f := clearNotify)).comp hcb _ hcomp.started
            exact (hcomp.trans hback).trans (retireMsg_parked hij _ hback.started)
          · exact retireMsg_parked hij _ htake.started
        · exact sendAccepted_onlyMsgs.parked hij he

theorem ApiCall.run_parks (c : ApiCall) : Parks i fun e : Eng N => c.run j e := by
  have hpend : Parks i fun e : Eng N => disprClrPendingMsg j e := .onStatus fun _ h => h
  have hne : ∀ {e e' : Eng N}, (e.d i).status.started = false → (i ≠ j → e'.d i = e.d i) →
      (i = j → e' = e) → Parked i e e' := fun he hne heq => by
    by_cases hij : i = j
    · obtain rfl := heq hij; exact .refl he
    · exact .of_eq he (hne hij)
  intro e he
  cases c with
  | cancelMsg hdl =>
    rcases disprCancelMsg_cases j hdl e with ⟨heq, -⟩ | ⟨k, -, -, heq⟩
    · simp only [ApiCall.run, heq]; exact .refl he
    · simp only [ApiCall.run, heq]; exact Parks.onEx e he
  | clrPendingMsg => exact hpend e he
  | addTokenReq rq wantHdl =>
    refine hne he (fun hij => ?_) fun hij => ?_
    · rcases disprAddTokenReq_cases j rq wantHdl e with heq | ⟨r, t, x, -, -, heq⟩
      · simp [ApiCall.run, heq]
      · simp [ApiCall.run, heq, hij]
    · subst hij; cases rq <;> simp [ApiCall.run, disprAddTokenReq, he]
  | cancelTokenReq hdl =>
    refine hne he (fun hij => ?_) fun hij => ?_
    · rcases disprCancelTokenReq_cases j hdl e with ⟨heq, -⟩ | ⟨r, -, -, heq⟩
      · simp [ApiCall.run, heq]
      · simp [ApiCall.run, heq, hij]
    · subst hij; cases hdl <;> simp [ApiCall.run, disprCancelTokenReq, he]
  | freeToken hdl =>
    refine hne he (fun hij => ?_) fun hij => ?_
    · rcases disprFreeToken_cases j hdl e with ⟨heq, -⟩ | ⟨r, -, -, heq⟩
      · simp [ApiCall.run, heq]
      · simp [ApiCall.run, heq, hij]
    · subst hij; cases hdl <;> simp [ApiCall.run, disprFreeToken, he]
  | notifyDevIoStatus mdlId allowIo =>
    have hset : ∀ (b : Bool) (m : ℕ), Parks i fun e : Eng N => e.modify j fun d =>
        { d with status := { d.status with cannotIo := b }, exclusiveMdl := m } := fun b m =>
      .modify (fun _ h => h) (fun _ => rfl) (fun _ => rfl) (fun _ => rfl) (fun _ => rfl)
        (fun _ => rfl) fun _ => rfl
    have hsend : ∀ b, Parks i fun e : Eng N => (sendDevIoStatusChange j b e).1 := fun b =>
      disprSendMsg_parks fun e he => .refl he
    simp only [ApiCall.run, disprNotifyDevIoStatus]
    split
    · split
      · exact (hsend _).comp (hset true mdlId) e he
      · exact .refl he
    · split
      · exact hpend.comp ((hsend _).comp (hset false phlMdlIdMax)) e he
      · exact .refl he
  | notifyShallStop =>
    simp only [ApiCall.run, disprNotifyShallStop]
    split
    · exact .refl he
    · exact hpend.comp (Parks.onStatus (f := fun s => { s with shallStop := true }) fun _ h => h) e he
  | stopPrior =>
    have hstop : Parks i fun e : Eng N => e.modify j fun d => { d with
        status := { d.status with started := false, ctrlPresent := false }
        mdls := { d.mdls with controller := { d.mdls.controller with started := false } }
        tok := cancelAllCmdReq d.tok
        msgs := cancelRunningMsg d.msgs } :=
      .modify (fun _ _ => rfl) (fun _ => rfl) (fun _ => rfl) (fun _ => rfl) (fun _ => rfl)
        (fun _ => rfl) fun _ => rfl
    have hp := hstop e he
    simp [Eng.modify] at hp
    simpa [ApiCall.run, disprThreadStopPriorHdl, Eng.onStatus, Eng.onMdls, Eng.onTok, Eng.onMsgs, Eng.modify] using hp

theorem callback_parks : Parks i fun e : Eng N => (callback e).2 := by
  have hscript : ∀ s : Script, Parks i (runScript s : Eng N → Eng N) := fun s => by
    induction s with
    | done => exact fun e he => .refl he
    | send j msg attr cb k ihcb ihk => exact ihk.comp (disprSendMsg_parks ihcb)
    | api j c k ihk => exact ihk.comp c.run_parks
  intro e he
  simp only [callback]
  cases e.env with
  | nil => exact .refl he
  | cons resp env =>
    have henv : Parked i e { e with env := env } := .of_eq he rfl
    exact henv.trans (hscript resp.script _ henv.started)

/-! ### The loops -/

theorem Move.started (hm : Move e e') (j : Fin 2) (h : (e'.d j).status.started) : (e.d j).status.started := by
  have hend : ∀ (i : Fin 2) (r : ReqIdx) (e : Eng N),
      ((pushBackIdleReq i r (dropCur i e)).d j).status = (e.d j).status :=
    fun i r e => by simp [pushBackIdleReq, dropCur]
  cases hm with
  | sendAccepted i msg attr k idle herr hidle hdrop =>
    have hflags := (sendAccepted_onlyMsgs : OnlyMsgs i e (Dispr.sendAccepted i msg attr k e)).flags j
    exact hflags.started h
  | retire i k hk hn hr =>
    rw [(retireMsg_parts e i j k).2.2.2.2, (abortSignal_signals e i k).started] at h; exact h
  | endCur i r hr hrun hp ho =>
    split at h
    · rwa [hend] at h
    · rwa [Signals.tokenComplete.started, hend] at h
  | acquire i hx hcnt => rwa [Signals.clearanceAcquire.started] at h
  | ready i hc hcnt hw => rwa [Signals.exclusiveReady.started] at h
  | gate i hc hcnt => rwa [Signals.exclusiveReady.started] at h
  | tokenComplete i hr hw => rwa [Signals.tokenComplete.started] at h
  | misc i f hm ht hd hc hx hw hs =>
    rcases eq_or_ne j i with rfl | hj
    · exact hs _ (by simpa using h)
    · simpa [hj] using h
  | _ =>
    simpa [logSent, takeDropped, takeIdle, completeMsg, andBitmaps, Dispr.makeCur, pushBackIdleReq] using h

theorem Steps.stopped (hs : Steps e e') (h : (e.d j).status.started = false) : (e'.d j).status.started = false :=
  hs.keeps (I := fun e => (e.d j).status.started = false) (fun _ _ hm h =>
    Bool.eq_false_iff.2 fun hst => by simp [hm.started j hst] at h) h

/-- The thread leaves dispatcher `i`: it has no current request, and gets nothing new. -/
structure Leaving (i : Fin 2) (e : Eng N) : Prop where
  rest : Rest i [] [] none e
  left : .left i ∈ e.log
  started : (e.d i).status.started = false
  cur : (e.d i).tok.curCmdReq = none

theorem Leaving.recycle {q : MsgQs N} (he : Leaving i e) (hpop : (e.d i).msgs.popFrontWaitMsg = some (k, q))
    (heq : e' = recycleMsg i k (e.onMsgs i fun _ => q)) :
    Steps e e' ∧ Leaving i e' ∧ (e.d i).msgs.wait = k :: (e'.d i).msgs.wait ∧
      (e'.d i).msgs.pend = (e.d i).msgs.pend ∧ (e'.d i).tok.reqWait = (e.d i).tok.reqWait := by
  subst heq
  have hs₁ : Steps e (e.onMsgs i fun _ => q) := .single (.popWait i k q hpop)
  obtain ⟨hheld, hwait, hpend⟩ := he.rest.popWait hpop
  obtain ⟨hs₂, hrest⟩ := recycleMsg_leads _ hheld
  have hst₁ : ((e.onMsgs i fun _ => q).d i).status.started = false := by simpa using he.started
  -- the completion routine leaves the queues alone
  have hcb : ∃ e₁, recycleMsg i k (e.onMsgs i fun _ => q) = retireMsg i k e₁ ∧
      Parked i (e.onMsgs i fun _ => q) e₁ := by
    unfold recycleMsg pushBackIdleMsg
    split
    · have hcomp : Parks i (completeMsg (N := N) i k) := fun e he =>
        (Parks.onEx e he).trans (.logEv (Parks.onEx e he).started _)
      exact ⟨_, rfl, Parks.onEx.comp (callback_parks.comp hcomp) _ hst₁⟩
    · exact ⟨_, rfl, .refl hst₁⟩
  obtain ⟨e₁, heq, hp⟩ := hcb
  have hsig := (abortSignal_signals e₁ i k).parked hp.started
  have htok := (retireMsg_parts e₁ i i k).2.2.1
  refine ⟨hs₁.trans hs₂, ⟨hrest, (Steps.log (hs₁.trans hs₂)).subset he.left,
    Steps.stopped (hs₁.trans hs₂) he.started, ?_⟩, ?_, ?_, ?_⟩
  · rw [heq, htok, hsig.cur, hp.cur]; simpa using he.cur
  · rw [heq, retireMsg_self]; simp [MsgQs.pushIdle, hp.wait, hwait]
  · rw [heq, retireMsg_self]; simp [MsgQs.pushIdle, hp.pend, hpend]
  · rw [heq, htok, hsig.reqWait, hp.reqWait]; simp

theorem pushBackWait_pending {q q' : MsgQs N} (h : q.popFrontPendingMsg = some (k, q')) : ∃ pend, q.pend = k :: pend ∧
      q'.pushBackWaitMsg k = { q.setEnq k with pend := pend, wait := q.wait ++ [k] } := by
  unfold MsgQs.popFrontPendingMsg at h
  cases hp : q.pend with
  | nil => simp [hp] at h
  | cons l pend =>
    simp only [hp, Option.some.injEq, Prod.mk.injEq] at h
    obtain ⟨rfl, rfl⟩ := h
    exact ⟨pend, rfl, by simp [MsgQs.pushBackWaitMsg, MsgQs.setEnq, MsgQs.onEx]⟩

/-- The message loops leave no message behind; the requests that wait are not theirs. -/
structure Drained (i : Fin 2) (e e' : Eng N) : Prop where
  steps : Steps e e'
  leaving : Leaving i e'
  wait : (e'.d i).msgs.wait = []
  reqWait : (e'.d i).tok.reqWait = (e.d i).tok.reqWait

theorem drainWait_leaves (fuel : ℕ) : ∀ e : Eng N, Leaving i e → (e.d i).msgs.wait.length < fuel →
    ∃ e', drainMsg.drainWait i fuel e = some e' ∧ Drained i e e' ∧ (e'.d i).msgs.pend = (e.d i).msgs.pend := by
  induction fuel with
  | zero => exact fun e _ h => absurd h (Nat.not_lt_zero _)
  | succ fuel ih =>
    intro e he hlen
    rcases hpop : (e.d i).msgs.popFrontWaitMsg with _ | ⟨k, q⟩
    · refine ⟨e, by simp [drainMsg.drainWait, hpop], ⟨.refl, he, ?_, rfl⟩, rfl⟩
      cases hw : (e.d i).msgs.wait with
      | nil => rfl
      | cons l w => simp [MsgQs.popFrontWaitMsg, hw] at hpop
    · obtain ⟨hs₁, he₁, hwait, hpend, hreq⟩ := he.recycle hpop rfl
      rw [hwait, List.length_cons] at hlen
      obtain ⟨e', heq, hd, hpend'⟩ := ih _ he₁ (by omega)
      exact ⟨e', by simp [drainMsg.drainWait, hpop, heq],
        ⟨hs₁.trans hd.steps, hd.leaving, hd.wait, hd.reqWait.trans hreq⟩, hpend'.trans hpend⟩

theorem drainMsg_leaves (fuel : ℕ) : ∀ e : Eng N, Leaving i e →
    2 * (e.d i).msgs.pend.length + (e.d i).msgs.wait.length < fuel →
    ∃ e', drainMsg i fuel e = some e' ∧ Drained i e e' ∧ (e'.d i).msgs.pend = [] := by
  induction fuel with
  | zero => exact fun e _ h => absurd h (Nat.not_lt_zero _)
  | succ fuel ih =>
    intro e he hlen
    rcases hpop : (e.d i).msgs.popFrontPendingMsg with _ | ⟨k, q⟩
    · have hpend : (e.d i).msgs.pend = [] := by
        cases hp : (e.d i).msgs.pend with
        | nil => rfl
        | cons l w => simp [MsgQs.popFrontPendingMsg, hp] at hpop
      -- with nothing pending it is the loop over the waiting ones
      have hloop : drainMsg i (fuel + 1) e = drainMsg.drainWait i (fuel + 1) e := by
        simp [drainMsg, drainMsg.drainWait, hpop]
      obtain ⟨e', heq, hd, hpend'⟩ := drainWait_leaves (fuel + 1) e he (by omega)
      exact ⟨e', hloop.trans heq, hd, hpend'.trans hpend⟩
    · obtain ⟨pend, hp, hq⟩ := pushBackWait_pending hpop
      set e₁ := e.onMsgs i fun _ => q.pushBackWaitMsg k with heq₁
      have hs₁ : Steps e e₁ := by
        have hmove : Move e (e.onMsgs i fun q =>
            { q.setEnq k with pend := pend, wait := (e.d i).msgs.wait ++ [k] }) :=
          .toWait i k pend _ hp (List.perm_append_singleton ..)
        rw [heq₁, hq]; exact .single hmove
      have he₁ : Leaving i e₁ := by
        refine ⟨he.rest.next hs₁ ?_ (fun j hj => by simp [heq₁, hj]) fun j => by
          simp [heq₁, QuietTok.refl], he.left, by simpa [heq₁] using he.started, by
          simpa [heq₁] using he.cur⟩
        simp [heq₁, hq, MsgQs.setEnq, he.rest.hand]
      rw [hp, List.length_cons] at hlen
      obtain ⟨e', heq, hd, hpend⟩ := ih e₁ he₁ (by
        simp only [heq₁, hq, Eng.onMsgs_self, List.length_append, List.length_singleton]
        omega)
      exact ⟨e', by simp [drainMsg, hpop, ← heq₁, heq],
        ⟨hs₁.trans hd.steps, hd.leaving, hd.wait, hd.reqWait.trans (by simp [heq₁])⟩, hpend⟩

theorem Leaving.idle (he : Leaving i e) (hw : (e.d i).msgs.wait = [])
    (hp : (e.d i).msgs.pend = []) : (e.d i).msgs.idle.Perm (List.finRange N) := by
  have hparts := (he.rest.sound.msgs i).parts
  simpa [hw, hp, he.rest.hand] using hparts

variable {fuel : ℕ}

theorem clearWaitingMsg_leaves (he : Leaving i e) (hfuel : 2 * N + 2 < fuel) :
    ∃ e', clearWaitingMsg i fuel e = some e' ∧ Drained i e e' ∧ (e'.d i).msgs.pend = [] := by
  have hlen := (he.rest.sound.msgs i).parts.length_eq
  simp only [List.length_append, List.length_finRange, he.rest.hand, List.length_nil] at hlen
  obtain ⟨fuel, rfl⟩ : ∃ n, fuel = n + 2 := ⟨fuel - 2, by omega⟩
  by_cases hidle : (e.d i).msgs.idle.length = N
  · refine ⟨e, by simp [clearWaitingMsg, hidle], ⟨.refl, he, ?_, rfl⟩, ?_⟩
    all_goals exact List.eq_nil_of_length_eq_zero (by omega)
  · obtain ⟨e', heq, hd, hpend⟩ := drainMsg_leaves (fuel + 1) e he (by omega)
    have hidle' : (e'.d i).msgs.idle.length = N := by
      simpa using (hd.leaving.idle hd.wait hpend).length_eq
    exact ⟨e', by simp [clearWaitingMsg, hidle, heq, hidle'], hd, hpend⟩

/-! ### The requests -/

/-- All messages of dispatcher `i` and all its requests are in their pools. -/
structure AllIdle (i : Fin 2) (e : Eng N) : Prop where
  idle : (e.d i).msgs.idle.Perm (List.finRange N)
  wait : (e.d i).msgs.wait = []
  pend : (e.d i).msgs.pend = []
  reqIdle : (e.d i).tok.reqIdle.Perm (List.finRange maxCmdReqNum)
  reqWait : (e.d i).tok.reqWait = []
  cur : (e.d i).tok.curCmdReq = none

theorem Leaving.abort {r : ReqIdx} {t : TokenQs} (he : Leaving i e) (hpop : (e.d i).tok.popFrontWaitReq = some (r, t))
    (heq : e' = abortWaiting i r (e.onTok i fun _ => t)) :
    Steps e e' ∧ Leaving i e' ∧ (e.d i).tok.reqWait = r :: (e'.d i).tok.reqWait ∧
      (e'.d i).msgs.wait = (e.d i).msgs.wait ∧ (e'.d i).msgs.pend = (e.d i).msgs.pend := by
  subst heq
  obtain ⟨wait, hw, ht⟩ := popFrontWaitReq_eq hpop
  have hs₁ : Steps e (e.onTok i fun _ => t) := .single (.takeReq i r t hpop fun _ => .inr he.left)
  have hrest₁ : Rest i [] [r] none (e.onTok i fun _ => t) := by
    refine ⟨hs₁.sound he.rest.sound, by simpa using he.rest.hand, by simp [ht, he.rest.reqHand],
      by simpa [ht] using he.rest.handling, fun j hj => by simpa [hj] using he.rest.others j hj,
      fun j => ?_⟩
    rcases eq_or_ne j i with rfl | hj
    · intro s hs; simp [ht, he.cur] at hs
    · simpa [hj] using he.rest.curRuns j
  have hst₁ : ((e.onTok i fun _ => t).d i).status.started = false := by simpa using he.started
  obtain ⟨hs₂, hrest₂⟩ := abortWaiting_leads hrest₁ (.inr he.left) fun _ => he.left
  have hp : Parked i (e.onTok i fun _ => t) _ := callback_parks _ hst₁
  refine ⟨hs₁.trans hs₂, ⟨hrest₂, (Steps.log (hs₁.trans hs₂)).subset he.left,
    Steps.stopped (hs₁.trans hs₂) he.started, ?_⟩, ?_, ?_, ?_⟩
  · have hcur := hp.cur
    rw [abortWaiting, pushBackIdleReq_tok]
    simpa [TokenQs.pushIdle, ht, he.cur] using hcur
  · have hwait := hp.reqWait
    rw [abortWaiting, pushBackIdleReq_tok, hw]
    simpa [TokenQs.pushIdle, ht] using hwait.symm
  · simpa [abortWaiting, pushBackIdleReq] using hp.wait
  · simpa [abortWaiting, pushBackIdleReq] using hp.pend

theorem drainReq_leaves (fuel : ℕ) : ∀ e : Eng N, Leaving i e → (e.d i).tok.reqWait.length < fuel →
    ∃ e', drainReq i fuel e = some e' ∧ Steps e e' ∧ Leaving i e' ∧ (e'.d i).tok.reqWait = [] ∧
      (e'.d i).msgs.wait = (e.d i).msgs.wait ∧ (e'.d i).msgs.pend = (e.d i).msgs.pend := by
  induction fuel with
  | zero => exact fun e _ h => absurd h (Nat.not_lt_zero _)
  | succ fuel ih =>
    intro e he hlen
    rcases hpop : (e.d i).tok.popFrontWaitReq with _ | ⟨r, t⟩
    · refine ⟨e, by simp [drainReq, hpop], .refl, he, ?_, rfl, rfl⟩
      cases hw : (e.d i).tok.reqWait with
      | nil => rfl
      | cons l w => simp [TokenQs.popFrontWaitReq, hw] at hpop
    · obtain ⟨hs₁, he₁, hreq, hwait, hpend⟩ := he.abort hpop rfl
      rw [hreq, List.length_cons] at hlen
      obtain ⟨e', heq, hs₂, he₂, hnil, hwait', hpend'⟩ := ih _ he₁ (by omega)
      exact ⟨e', by simp [drainReq, hpop, heq], hs₁.trans hs₂, he₂, hnil, hwait'.trans hwait, hpend'.trans hpend⟩

theorem clearWatingReq_leaves (he : Leaving i e) (hw : (e.d i).msgs.wait = [])
    (hp : (e.d i).msgs.pend = []) (hfuel : maxCmdReqNum + 2 < fuel) :
    ∃ e', clearWatingReq i fuel e = some e' ∧ Steps e e' ∧ Leaving i e' ∧ AllIdle i e' := by
  have hparts : ∀ e : Eng N, Leaving i e →
      ((e.d i).tok.reqIdle ++ (e.d i).tok.reqWait).Perm (List.finRange maxCmdReqNum) :=
    fun e he => by simpa [he.rest.reqHand, he.cur] using (he.rest.sound.tok i).reqs.parts
  have hlen := (hparts e he).length_eq
  simp only [List.length_append, List.length_finRange] at hlen
  obtain ⟨fuel, rfl⟩ : ∃ n, fuel = n + 2 := ⟨fuel - 2, by omega⟩
  by_cases hidle : (e.d i).tok.reqIdle.length = maxCmdReqNum
  · have hnil : (e.d i).tok.reqWait = [] := List.eq_nil_of_length_eq_zero (by omega)
    exact ⟨e, by simp [clearWatingReq, hidle], .refl, he, he.idle hw hp, hw, hp,
      by simpa [hnil] using hparts e he, hnil, he.cur⟩
  · obtain ⟨e', heq, hs, he', hnil, hw', hp'⟩ := drainReq_leaves (fuel + 1) e he (by omega)
    have hreqs : (e'.d i).tok.reqIdle.Perm (List.finRange maxCmdReqNum) := by
      simpa [hnil] using hparts e' he'
    have hidle' : (e'.d i).tok.reqIdle.length = maxCmdReqNum := by simpa using hreqs.length_eq
    exact ⟨e', by simp [clearWatingReq, hidle, heq, hidle'], hs, he',
      he'.idle (hw'.trans hw) (hp'.trans hp), hw'.trans hw, hp'.trans hp, hreqs, hnil, he'.cur⟩

/-! ### The end of the thread -/

/-- As many rounds as the loops may take. -/
def leaveFuel (N : ℕ) : ℕ := 2 * N + maxCmdReqNum + 3

theorem disprThreadLeaveHdl_leaves (he : AtRest e) (hst : (e.d i).status.started = false)
    (hfuel : leaveFuel N ≤ fuel) :
    ∃ e', disprThreadLeaveHdl i fuel e = some e' ∧ Steps e e' ∧ AtRest e' ∧ AllIdle i e' := by
  unfold leaveFuel maxCmdReqNum at hfuel
  have hs₁ : Steps e (e.logEv (.left i)) := .single (.left i)
  have hrest₁ := (he.rest i).still hs₁ (Quiet.logEv _ _).toStill
  obtain ⟨hs₂, hrest₂, hcur⟩ := deregisterCurCmdReq_leads hrest₁
    fun r _ => .inr (.inl (by simp))
  have hleft : Leaving i (deregisterCurCmdReq i true (e.logEv (.left i))) :=
    ⟨hrest₂, (Steps.log hs₂).subset (by simp), Steps.stopped (hs₁.trans hs₂) hst, hcur⟩
  obtain ⟨e₃, heq₃, hd, hpend⟩ := clearWaitingMsg_leaves hleft (show 2 * N + 2 < fuel by omega)
  obtain ⟨e₄, heq₄, hs₄, hleft₄, hall⟩ := clearWatingReq_leaves hd.leaving hd.wait hpend
    (show maxCmdReqNum + 2 < fuel by unfold maxCmdReqNum; omega)
  exact ⟨e₄, by simp [disprThreadLeaveHdl, heq₃, heq₄], ((hs₁.trans hs₂).trans hd.steps).trans hs₄,
    hleft₄.rest.atRest, hall⟩

theorem shareThreadLeave_leaves (hfuel : leaveFuel N ≤ fuel) (js : List (Fin 2)) :
    ∀ e : Eng N, AtRest e → (∀ j ∈ js ++ [i], (e.d j).status.started = false) →
      ∃ e', shareThreadLeave fuel (js ++ [i]) e = some e' ∧ Steps e e' ∧ AtRest e' ∧ AllIdle i e' := by
  induction js with
  | nil =>
    intro e he hst
    obtain ⟨e', heq, h⟩ := disprThreadLeaveHdl_leaves he (hst i (by simp)) hfuel
    exact ⟨e', by simp [shareThreadLeave, heq], h⟩
  | cons j js ih =>
    intro e he hst
    obtain ⟨e₁, heq₁, hs₁, he₁, -⟩ := disprThreadLeaveHdl_leaves he (hst j (by simp)) hfuel
    obtain ⟨e', heq, hs₂, h⟩ := ih e₁ he₁ fun l hl => hs₁.stopped (hst l (by simp_all))
    exact ⟨e', by simp [shareThreadLeave, heq₁, heq], hs₁.trans hs₂, h⟩

/-! ### The pool of messages -/

theorem AtRest.count (he : AtRest e) (i : Fin 2) (k : Fin N) :
    ((e.d i).msgs.idle ++ (e.d i).msgs.wait ++ (e.d i).msgs.pend).count k = 1 := by
  have hparts := ((he.sound.msgs i).parts).count_eq k
  rw [(he.rest i).hand, List.append_nil, ← List.append_assoc] at hparts
  rw [hparts]; exact List.count_eq_one_of_mem (List.nodup_finRange N) (List.mem_finRange k)

/-- **Every message is in one queue, and goes home in the end.**  In every state of every run each
entry of the pool is in exactly one of the queues of idle, waiting and pending messages.  When the
dispatchers are stopped and the thread leaves them, one after the other, `dispr_thread_leave_hdl`
ends for each, with every message and every request in its pool. -/
theorem every_msg_in_one_queue {phyNum : ℕ} {ctrl : Fin 2 → Bool}
    (h : Run (fun _ _ => True) (Eng.start phyNum ctrl) e) :
    (∀ i k, ((e.d i).msgs.idle ++ (e.d i).msgs.wait ++ (e.d i).msgs.pend).count k = 1) ∧
      ∀ js i env fuel, (∀ j ∈ js ++ [i], (e.d j).status.started = false) → leaveFuel N ≤ fuel →
        ∃ e', shareThreadLeave fuel (js ++ [i]) { e with env := env } = some e' ∧ AllIdle i e' := by
  obtain ⟨-, he⟩ := Run.steps .start h
  refine ⟨he.count, fun js i env fuel hst hfuel => ?_⟩
  obtain ⟨-, he'⟩ := env_leads env e he
  obtain ⟨e', heq, -, -, hall⟩ := shareThreadLeave_leaves hfuel js _ he' hst
  exact ⟨e', heq, hall⟩

/-- Two messages are sent, and the dispatcher is stopped before either is dispatched. -/
theorem every_msg_in_one_queue_stopped :
    let send := Op.send 0 ⟨{ MsgId.zero with mdlId := phlMdlPhyMgnt }, none⟩ none .done
    let e : Eng 2 := [send, send, .api 0 .stopPrior].foldl Op.run (Eng.start 1 fun _ => true)
    (e.d 0).msgs.wait = [0, 1] ∧
      ∃ e', shareThreadLeave (leaveFuel 2) [0] { e with env := [] } = some e' ∧ AllIdle 0 e' := by
  intro send e
  have hrun : Run (fun _ _ => True) (Eng.start 1 fun _ => true) e :=
    Lib.Reach.foldl _ fun _ _ _ => trivial
  exact ⟨by decide, (every_msg_in_one_queue hrun).2 [] 0 [] _ (by decide) le_rfl⟩

end Rtl8852cu.Dispr
