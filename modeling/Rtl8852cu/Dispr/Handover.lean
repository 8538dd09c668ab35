import Rtl8852cu.Dispr.Feed

/-!
# Handing the token on is a run of moves

* `deregisterCurCmdReq_leads`: the current request ends;
* `processTokenReq_leads`: the next one is taken;
* `tokenOp_leads`: a token operation is handled.
-/

namespace Rtl8852cu.Dispr

variable {N : ℕ} {e e' e'' : Eng N} {i j : Fin 2} {k : Fin N}

/-! ### The messages are sorted -/

/-- A run of moves after which only the messages of dispatcher `i` have changed, and not those that
are held. -/
def Sorts (i : Fin 2) (f : Eng N → Eng N) : Prop :=
  ∀ e, Steps e (f e) ∧ OnlyMsgs i e (f e) ∧ ((f e).d i).msgs.hand = (e.d i).msgs.hand

theorem Sorts.comp {f g : Eng N → Eng N} (hg : Sorts i g) (hf : Sorts i f) : Sorts i fun e => g (f e) := fun e => by
  obtain ⟨hs, ho, hh⟩ := hf e
  obtain ⟨hs', ho', hh'⟩ := hg (f e)
  exact ⟨hs.trans hs', ho.trans ho', hh'.trans hh⟩

theorem OnlyMsgs.refl (e : Eng N) : OnlyMsgs i e e :=
  ⟨rfl, fun _ _ => rfl, fun _ => rfl, fun _ => rfl, fun _ => .refl _⟩

theorem Sorts.when {f : Eng N → Eng N} (hf : Sorts i f) (c : Eng N → Prop) [DecidablePred c] :
    Sorts i fun e => if c e then f e else e := by
  intro e
  beta_reduce
  split
  · exact hf e
  · exact ⟨.refl, .refl e, rfl⟩

theorem sorts_onStatus {f : DisprStatus → DisprStatus} (hf : ∀ s, QuietFlags s (f s))
    (hw : ∀ s, (f s).waitAbortMsgDone = s.waitAbortMsgDone) :
    Sorts i fun e : Eng N => e.onStatus i f := fun e =>
  ⟨.single (.misc i _ (fun _ => rfl) (fun _ => rfl) (fun _ => rfl)
    (fun d => (hf d.status).clearance) (fun d => (hf d.status).exclusiveUse)
    (fun d => hw d.status) fun d => (hf d.status).started), .onStatus hf, by simp⟩

theorem sorts_reviseEx {f : PhlDisprMsgEx → PhlDisprMsgEx} (hf : ∀ x, Revised x (f x)) :
    Sorts i fun e : Eng N => e.onEx i k f := fun e =>
  ⟨.single (.reviseEx (hf _)), .onMsgs, by simp⟩

theorem enqueue_pending {q : MsgQs N} {k : Fin N} {q' : MsgQs N}
    (h : q.popFrontPendingMsg = some (k, q')) : ∃ pend w, q.pend = k :: pend ∧
      w.Perm (k :: q.wait) ∧ q'.enqueueMsg k = { q.setEnq k with pend := pend, wait := w } := by
  unfold MsgQs.popFrontPendingMsg at h
  cases hp : q.pend with
  | nil => simp [hp] at h
  | cons l pend =>
    simp only [hp, Option.some.injEq, Prod.mk.injEq] at h
    obtain ⟨rfl, rfl⟩ := h
    obtain ⟨w, hw, heq⟩ := MsgQs.enqueueMsg_eq { q with pend := pend, hand := l :: q.hand } l
    exact ⟨pend, w, rfl, hw, by rw [heq]; simp [MsgQs.setEnq, MsgQs.onEx]⟩

theorem sorts_clearPending (n : ℕ) : Sorts i fun e : Eng N => e.onMsgs i (MsgQs.clearPending n) := by
  induction n with
  | zero =>
    intro e
    have heq : e.onMsgs i (MsgQs.clearPending 0) = e := by
      simp [Eng.onMsgs, Eng.modify, MsgQs.clearPending]
    beta_reduce
    rw [heq]; exact ⟨.refl, .refl e, rfl⟩
  | succ n ih =>
    intro e
    rcases hpop : (e.d i).msgs.popFrontPendingMsg with _ | ⟨k, q⟩
    · have heq : e.onMsgs i (MsgQs.clearPending (n + 1)) = e := by
        simp [Eng.onMsgs, Eng.modify, MsgQs.clearPending, hpop]
      beta_reduce
      rw [heq]; exact ⟨.refl, .refl e, rfl⟩
    · obtain ⟨pend, w, hp, hw, hq⟩ := enqueue_pending hpop
      have hs : Steps e (e.onMsgs i fun q => { q.setEnq k with pend := pend, wait := w }) :=
        .single (.toWait i k pend w hp hw)
      have heq : e.onMsgs i (MsgQs.clearPending (n + 1)) =
          (e.onMsgs i fun q => { q.setEnq k with pend := pend, wait := w }).onMsgs i
            (MsgQs.clearPending n) := by
        simp [Eng.onMsgs, Eng.modify, MsgQs.clearPending, hpop, hq]
      obtain ⟨hs', ho, hh⟩ := ih (e.onMsgs i fun q => { q.setEnq k with pend := pend, wait := w })
      beta_reduce
      rw [heq]; exact ⟨hs.trans hs', OnlyMsgs.onMsgs.trans ho, hh.trans (by simp [MsgQs.setEnq])⟩

theorem sorts_clearPendingMsg : Sorts (N := N) i (clearPendingMsg i) := by
  intro e
  unfold clearPendingMsg
  split
  · obtain ⟨hs, ho, hh⟩ := sorts_onStatus (i := i) (f := fun s => { s with clrPendMsg := false })
      (fun _ => ⟨rfl, rfl, id, id⟩) (fun _ => rfl) e
    obtain ⟨hs', ho', hh'⟩ := sorts_clearPending (i := i) (e.d i).msgs.pend.length
      (e.onStatus i fun s => { s with clrPendMsg := false })
    have heq : ((e.onStatus i fun s => { s with clrPendMsg := false }).onMsgs i fun q =>
        q.clearPending q.pend.length) = (e.onStatus i fun s => { s with clrPendMsg := false }).onMsgs i
          (MsgQs.clearPending (e.d i).msgs.pend.length) := by
      simp [Eng.onMsgs, Eng.modify, Eng.onStatus]
    rw [heq]; exact ⟨hs.trans hs', ho.trans ho', hh'.trans hh⟩
  · exact ⟨.refl, .refl e, rfl⟩

theorem sorts_cancelOwned (id : ℕ) (ks : List (Fin N)) : Sorts i (cancelOwned i id ks) := by
  induction ks with
  | nil => exact fun e => ⟨.refl, .refl e, rfl⟩
  | cons k ks ih =>
    have hclear : Sorts i fun e : Eng N => clearPendingMsg i (disprClrPendingMsg i e) :=
      sorts_clearPendingMsg.comp
        (sorts_onStatus (fun _ => ⟨rfl, rfl, fun h => h, fun h => h⟩) fun _ => rfl)
    have hcancel : Sorts i fun e : Eng N => e.onEx i k fun ex =>
        cancelMsg { ex with status := { ex.status with ownerReq := false } } :=
      sorts_reviseEx fun x => ⟨rfl, rfl, rfl, rfl, rfl, rfl, rfl, rfl, rfl, fun _ => rfl,
        fun h => h, .inr ⟨rfl, rfl, rfl⟩⟩
    intro e
    simp only [cancelOwned]
    split
    · exact ih e
    · exact ih.comp ((hclear.when fun e => (e.ex i k).status.pending).comp hcancel) e

/-! ### The end of the current request -/

section End

variable {rh : List ReqIdx} {op : Option (OpRef × ℕ)} {r : ReqIdx} {notify : Bool}

/-- The current request `r` of dispatcher `i` has stopped running. -/
structure Stopping (i : Fin 2) (rh : List ReqIdx) (op : Option (OpRef × ℕ)) (r : ReqIdx)
    (call : ℕ) (e : Eng N) : Prop where
  sound : Sound e
  hand : ∀ j, (e.d j).msgs.hand = []
  reqHand : (e.d i).tok.reqHand = rh
  handling : (e.d i).tok.handling = op
  others : ∀ j, j ≠ i → (e.d j).tok.reqHand = [] ∧ (e.d j).tok.handling = none ∧ CurRuns (e.d j).tok
  cur : (e.d i).tok.curCmdReq = some r
  run : (e.req i r).status.run = false
  call : (e.req i r).call = call

variable {call : ℕ}

theorem Rest.hands (he : Rest i [] rh op e) (j : Fin 2) : (e.d j).msgs.hand = [] := by
  rcases eq_or_ne j i with rfl | hj
  · exact he.hand
  · exact (he.others j hj).1

section

variable (he : Stopping i rh op r call e)

include he

theorem Stopping.not_idle : r ∉ (e.d i).tok.reqIdle :=
  (he.sound.tok i).reqs.not_idle (by simp [he.cur])

theorem Stopping.still (hs : Steps e e') (hst : Still e e') : Stopping i rh op r call e' where
  sound := hs.sound he.sound
  hand j := (hst.hand j).trans (he.hand j)
  reqHand := (hst.tok i).reqHand.trans he.reqHand
  handling := (hst.tok i).handling.trans he.handling
  others j hj := by
    obtain ⟨hr, hh, hc⟩ := he.others j hj
    exact ⟨(hst.tok j).reqHand.trans hr, (hst.tok j).handling.trans hh, (hst.tok j).curRuns (he.sound.tok j).reqs hc⟩
  cur := (hst.tok i).curCmdReq.trans he.cur
  run := ((hst.tok i).reqs r he.not_idle).run.trans he.run
  call := ((hst.tok i).reqs r he.not_idle).call.trans he.call

theorem Stopping.permit (b : Bool) :
    Steps e (e.onReq i r fun ex => { ex with status := { ex.status with lastPermit := b } }) ∧ Stopping i rh op r call
        (e.onReq i r fun ex => { ex with status := { ex.status with lastPermit := b } }) := by
  have hs : Steps e (e.onReq i r fun ex => { ex with status := { ex.status with lastPermit := b } }) :=
    .single (.permit i r b he.cur he.run)
  refine ⟨hs, hs.sound he.sound, fun j => by simpa using he.hand j, ?_, ?_, fun j hj => ?_, ?_, ?_, ?_⟩
  · simpa [Eng.onReq_tok] using he.reqHand
  · simpa [Eng.onReq_tok] using he.handling
  · simpa [hj] using he.others j hj
  · simpa [Eng.onReq_tok] using he.cur
  · simpa using he.run
  · simpa using he.call

theorem Stopping.abort (hp : (e.req i r).status.lastPermit = false) :
    Steps e (if notify then abortCur i r e else e) ∧ Stopping i rh op r call (if notify then abortCur i r e else e) ∧
      ((if notify then abortCur i r e else e).req i r).status.lastPermit = false := by
  cases notify with
  | false => exact ⟨.refl, he, hp⟩
  | true =>
    obtain ⟨hs₁, he₁⟩ := he.permit true
    obtain ⟨hs₂, hq⟩ := callback_tame _ he₁.sound
    obtain ⟨hs₃, he₃⟩ := (he₁.still hs₂ hq.toStill).permit false
    exact ⟨(hs₁.trans hs₂).trans hs₃, he₃, by simp [abortCur]⟩

theorem Stopping.endCur (hp : (e.req i r).status.lastPermit = false)
    (ho : op = some (.free r, call) ∨ .left i ∈ e.log ∨ .acquireFailed i r (e.d i).tok.opQ ∈ e.log)
    (heq : e' = pushBackIdleReq i r (dropCur i (e.logEv (.ended i r e.d)))) :
    Steps e (if (e'.d i).status.waitAbortMsgDone then e' else cmdTokenComplete i e') ∧
      Rest i [] rh op (if (e'.d i).status.waitAbortMsgDone then e' else cmdTokenComplete i e') ∧
      ((if (e'.d i).status.waitAbortMsgDone then e' else cmdTokenComplete i e').d i).tok.curCmdReq = none := by
  have hst : (e'.d i).status = (e.d i).status := by simp [heq, pushBackIdleReq, dropCur]
  have hend : Ending e i r ∨ .acquireFailed i r (e.d i).tok.opQ ∈ e.log := by
    rcases ho with ho | ho | ho
    · exact .inl (.inl (by rw [he.handling, ho, he.call]))
    · exact .inl (.inr ho)
    · exact .inr ho
  have hs : Steps e (if (e'.d i).status.waitAbortMsgDone then e' else cmdTokenComplete i e') := by
    rw [hst, heq]; exact .single (.endCur i r he.cur he.run hp hend)
  have htok : (e'.d i).tok = { e.d i |>.tok with
      tokenCnt := (e.d i).tok.tokenCnt - 1, curCmdReq := none
      reqHand := r :: (e.d i).tok.reqHand }.pushIdle r := by
    rw [heq, pushBackIdleReq_tok]
    simp [dropCur, he.cur]
  have hne : ∀ j, j ≠ i → (e'.d j).tok = (e.d j).tok := fun j hj => by
    rw [heq, pushBackIdleReq_tok_ne hj]
    simp [dropCur, hj]
  have hmsgs : ∀ j, (e'.d j).msgs.hand = [] := fun j => by
    simpa [heq, pushBackIdleReq, dropCur] using he.hand j
  -- the signals change neither what is held nor what is current
  have hsig : Signals e' (if (e'.d i).status.waitAbortMsgDone then e' else cmdTokenComplete i e') := by
    split
    · exact .refl
    · exact .tokenComplete
  have hquiet : ∀ j, QuietTok (e'.d j).tok ((if (e'.d i).status.waitAbortMsgDone then e'
      else cmdTokenComplete i e').d j).tok := fun j =>
    .of_sameReqs (hsig.tok j).sameReqs.1 (hsig.tok j).sameReqs.2
  have hcur : ((if (e'.d i).status.waitAbortMsgDone then e' else cmdTokenComplete i e').d
      i).tok.curCmdReq = none := by
    rw [(hquiet i).curCmdReq, htok]; rfl
  refine ⟨hs, ⟨hs.sound he.sound, ?_, ?_, ?_, fun j hj => ⟨?_, ?_, ?_⟩, fun j => ?_⟩, hcur⟩
  · rw [hsig.msgs]; exact hmsgs i
  · rw [(hquiet i).reqHand, htok]; simp [TokenQs.pushIdle, he.reqHand]
  · rw [(hquiet i).handling, htok]; exact he.handling
  · rw [hsig.msgs]; exact hmsgs j
  · rw [(hquiet j).reqHand, hne j hj]; exact (he.others j hj).1
  · rw [(hquiet j).handling, hne j hj]; exact (he.others j hj).2.1
  · rcases eq_or_ne j i with rfl | hj
    · intro s hs; simp [hcur] at hs
    · intro s hs
      rw [(hsig.tok j).sameReqs.1.curCmdReq, hne j hj] at hs
      rw [(hsig.tok j).sameReqs.1.status, hne j hj]; exact (he.others j hj).2.2 s hs

end

theorem Rest.stopRun (he : Rest i [] rh op e) (hcur : (e.d i).tok.curCmdReq = some r)
    (heq : e' = e.onReq i r fun ex => { ex with status := { ex.status with run := false } }) :
    Steps e e' ∧ Stopping i rh op r (e.req i r).call e' ∧
      (e'.req i r).status.lastPermit = false ∧ (e'.d i).tok.opQ = (e.d i).tok.opQ := by
  subst heq
  have hs : Steps e (e.onReq i r fun ex => { ex with status := { ex.status with run := false } }) :=
    .single (.stopRun i r hcur)
  have hp : (e.req i r).status.lastPermit = false := by
    have hrun := he.curRuns i r hcur
    by_contra hl
    have hnot := (((he.sound.tok i).reqs.flags r).permit (by simpa [Eng.req] using hl)).2
    simp [hnot] at hrun
  refine ⟨hs, ⟨hs.sound he.sound, fun j => by simpa using he.hands j, ?_, ?_, fun j hj => ?_, ?_, ?_,
    ?_⟩, by simpa using hp, by simp [Eng.onReq_tok]⟩
  · simpa [Eng.onReq_tok] using he.reqHand
  · simpa [Eng.onReq_tok] using he.handling
  · rw [Eng.onReq_ne _ _ _ hj]; exact ⟨(he.others j hj).2.1, (he.others j hj).2.2, he.curRuns j⟩
  · simpa [Eng.onReq_tok] using hcur
  · simp
  · simp

theorem deregisterCurCmdReq_leads (he : Rest i [] rh op e)
    (ho : ∀ r, (e.d i).tok.curCmdReq = some r → op = some (.free r, (e.req i r).call) ∨
      .left i ∈ e.log ∨ notify = false ∧ .acquireFailed i r (e.d i).tok.opQ ∈ e.log) :
    Steps e (deregisterCurCmdReq i notify e) ∧ Rest i [] rh op (deregisterCurCmdReq i notify e) ∧
      ((deregisterCurCmdReq i notify e).d i).tok.curCmdReq = none := by
  unfold deregisterCurCmdReq
  cases hcur : (e.d i).tok.curCmdReq with
  | none =>
    simp only
    split
    · exact ⟨.refl, he, hcur⟩
    · rename_i hw
      have hs : Steps e (cmdTokenComplete i e) := .single (.tokenComplete i hcur (by simpa using hw))
      exact ⟨hs, he.signals hs .tokenComplete, (Signals.tokenComplete.tok i).sameReqs.1.curCmdReq.trans hcur⟩
  | some r =>
    simp only
    obtain ⟨hs₁, hstop, hp, htok⟩ := he.stopRun hcur rfl
    set e₁ := e.onReq i r fun ex => { ex with status := { ex.status with run := false } }
    obtain ⟨hs₂, hom, hh⟩ := sorts_cancelOwned (e₁.req i r).req.moduleId (List.finRange N) e₁
    set e₂ := cancelOwned i (e₁.req i r).req.moduleId (List.finRange N) e₁
    have hstop₂ := hstop.still hs₂ (hom.still hh)
    have hp₂ : (e₂.req i r).status.lastPermit = false := by
      simpa only [Eng.req, hom.tok] using hp
    obtain ⟨hs₃, hstop₃, hp₃⟩ := hstop₂.abort hp₂
    have ho₃ : op = some (.free r, (e.req i r).call) ∨ .left i ∈ (if notify then abortCur i r e₂ else e₂).log ∨
          .acquireFailed i r ((if notify then abortCur i r e₂ else e₂).d i).tok.opQ ∈
            (if notify then abortCur i r e₂ else e₂).log := by
      have hlog := Steps.log ((hs₁.trans hs₂).trans hs₃)
      rcases ho r hcur with hop | hleft | ⟨hn, hacq⟩
      · exact .inl hop
      · exact .inr (.inl (hlog.subset hleft))
      · refine .inr (.inr (hlog.subset ?_))
        rw [hn, if_neg (by simp), hom.tok, htok]; exact hacq
    obtain ⟨hs₄, hrest, hnone⟩ := hstop₃.endCur hp₃ ho₃ rfl
    exact ⟨((hs₁.trans hs₂).trans hs₃).trans hs₄, hrest, hnone⟩

/-! ### The next request -/

theorem sentInLastPermit_of_none {d : CmdDispatcher N} {msg : PhlMsg}
    (h : d.tok.curCmdReq = none) : sentInLastPermit d msg = false := by
  simp [sentInLastPermit, getCurCmdReqId, h, ReqStatus.zero]

theorem sendOwn_wait {id evt : ℕ} (h : (e.d i).tok.curCmdReq = none) :
    ((sendOwn i id evt e).1.d i).status.waitAbortMsgDone = (e.d i).status.waitAbortMsgDone := by
  have hlog : ∀ (d : CmdDispatcher N) msg attr sts hdl (e : Eng N),
      ((logSent i d msg attr sts hdl e).d i).status = (e.d i).status := fun _ _ _ _ _ _ => by
    simp [logSent]
  simp only [sendOwn, disprSendMsg]
  cases sendErr (e.d i) ⟨{ MsgId.zero with mdlId := id, evtId := evt }, none⟩ (some .zero) with
  | some sts => simp only [hlog]
  | none =>
    cases (e.d i).msgs.idle with
    | nil => simp only [hlog]
    | cons k idle =>
      simp only [sendDropped, sentInLastPermit_of_none h, Bool.false_and, Bool.false_eq_true, if_false,
        sendAccepted, Eng.onMsgs_status, hlog, takeIdle]

/-- A held request that may become the current one. -/
structure Prepared (i : Fin 2) (op : Option (OpRef × ℕ)) (r : ReqIdx) (e : Eng N) : Prop where
  rest : Rest i [] [r] op e
  enq : (e.req i r).status.enq = false
  count : (e.d i).tok.tokenCnt = 0
  clearance : (e.d i).status.clearance = false
  wait : (e.d i).status.waitAbortMsgDone = false
  exclusive : (e.req i r).req.opt = fgCmdOptExclusive → (e.d i).status.exclusiveUse

theorem Prepared.still (he : Prepared i op r e) (hs : Steps e e') (hst : Still e e')
    (hw : (e'.d i).status.waitAbortMsgDone = false) : Prepared i op r e' := by
  have hr : r ∉ (e.d i).tok.reqIdle :=
    (he.rest.sound.tok i).reqs.not_idle (by simp [he.rest.reqHand])
  have hk := (hst.tok i).reqs r hr
  refine ⟨he.rest.still hs hst, hk.enq.trans he.enq, (hst.tok i).tokenCnt.trans he.count,
    (hst.flags i).clearance.trans he.clearance, hw, fun hx => ?_⟩
  rw [(hst.flags i).exclusiveUse]; exact he.exclusive (hk.req ▸ hx)

theorem Prepared.phyOn (he : Prepared i op r e) (heq : e' = if (e.d i).status.notifyIdle then
    sendBkMsgPhyOn i (e.onStatus i fun s => { s with notifyIdle := false }) else e) :
    Steps e e' ∧ Prepared i op r e' := by
  subst heq
  split
  · have hset : Tame fun e : Eng N => e.onStatus i fun s => { s with notifyIdle := false } :=
      onStatus_tame (fun _ => ⟨rfl, rfl, fun h => h, fun h => h⟩) fun _ => rfl
    obtain ⟨hs, hq⟩ := (sendOwn_tame.comp hset) e he.rest.sound
    refine ⟨hs, he.still hs hq.toStill ?_⟩
    have hnone := (he.rest.sound.tok i).reqs.cur_eq_none he.count
    rw [sendBkMsgPhyOn, sendOwn_wait (by simpa using hnone)]
    simpa using he.wait
  · exact ⟨.refl, he⟩

theorem registerCurCmdReq_leads (he : Prepared i op r e) :
    Steps e (registerCurCmdReq i r e).1 ∧ Rest i [] [] op (registerCurCmdReq i r e).1 := by
  have hs₁ : Steps e (makeCur i r e) := .single (.makeCur i r (by simp [he.rest.reqHand]) he.enq
    he.count he.clearance he.wait he.exclusive)
  have hcur₁ : ((makeCur i r e).d i).tok.curCmdReq = some r := by simp [makeCur]
  have hrest₁ : Rest i [] [] op (makeCur i r e) := by
    refine ⟨hs₁.sound he.rest.sound, by simpa [makeCur] using he.rest.hand, ?_, ?_, fun j hj => ?_, fun j => ?_⟩
    · simp [makeCur, Eng.onReq_tok, he.rest.reqHand]
    · simpa [makeCur, Eng.onReq_tok] using he.rest.handling
    · simpa [makeCur, hj] using he.rest.others j hj
    · rcases eq_or_ne j i with rfl | hj
      · intro s hs
        obtain rfl : r = s := Option.some.inj (hcur₁.symm.trans hs)
        simp [makeCur, Eng.onReq_tok]
      · simpa [makeCur, hj] using he.rest.curRuns j
  obtain ⟨hs₂, hq⟩ := callback_tame _ hrest₁.sound
  have hrest₂ := hrest₁.still hs₂ hq.toStill
  have hcur₂ := (hq.tok i).curCmdReq.trans hcur₁
  simp only [registerCurCmdReq]
  split
  · rename_i hfail
    have hs₃ : Steps (callback (makeCur i r e)).2 _ := .single (.acquireFailed i r hcur₂)
    have hrest₃ := hrest₂.still hs₃ (Quiet.logEv _ _).toStill
    obtain ⟨hs₄, hrest₄, -⟩ := deregisterCurCmdReq_leads hrest₃ fun s hs => by
      obtain rfl : r = s := Option.some.inj (hcur₂.symm.trans hs)
      exact .inr (.inr ⟨rfl, by simp⟩)
    exact ⟨((hs₁.trans hs₂).trans hs₃).trans hs₄, hrest₄⟩
  · exact ⟨hs₁.trans hs₂, hrest₂⟩

theorem popFrontWaitReq_eq {t t' : TokenQs} (h : t.popFrontWaitReq = some (r, t')) :
    ∃ wait, t.reqWait = r :: wait ∧ t' = { t with
      reqWait := wait, reqHand := r :: t.reqHand }.onReq r fun ex =>
        { ex with status := { ex.status with prepare := true, enq := false } } := by
  unfold TokenQs.popFrontWaitReq at h
  cases hw : t.reqWait with
  | nil => simp [hw] at h
  | cons s wait =>
    simp only [hw, Option.some.injEq, Prod.mk.injEq] at h
    obtain ⟨rfl, rfl⟩ := h
    exact ⟨wait, rfl, rfl⟩

theorem takeReq_leads {t : TokenQs} (he : Rest i [] [] op e) (hm : mayProcess (e.d i))
    (hc : (e.d i).status.clearance = false)
    (hx : ¬ ((e.d i).tok.frontReqWithExclusiveOpt ∧ ¬ (e.d i).status.exclusiveUse))
    (hpop : (e.d i).tok.popFrontWaitReq = some (r, t)) :
    Steps e (e.onTok i fun _ => t) ∧ Prepared i op r (e.onTok i fun _ => t) := by
  obtain ⟨wait, hw, rfl⟩ := popFrontWaitReq_eq hpop
  simp only [mayProcess, Bool.and_eq_true, Bool.not_eq_true', decide_eq_true_eq] at hm
  obtain ⟨⟨-, hcnt⟩, hwait⟩ := hm
  have hexcl : ((e.d i).tok.reqPool r).req.opt = fgCmdOptExclusive → (e.d i).status.exclusiveUse := fun hopt => by
    by_contra hE
    exact hx ⟨by simp [TokenQs.frontReqWithExclusiveOpt, hw, hopt], hE⟩
  have hs : Steps e (e.onTok i fun _ => _) :=
    .single (.takeReq i r _ hpop fun hopt => .inl (hexcl hopt))
  have hnone := (he.sound.tok i).reqs.cur_eq_none hcnt
  refine ⟨hs, ⟨hs.sound he.sound, by simpa using he.hand, by simp [he.reqHand],
    by simpa using he.handling, fun j hj => by simpa [hj] using he.others j hj, fun j => ?_⟩,
    by simp [Eng.req], by simpa using hcnt, by simpa using hc, by simpa using hwait, ?_⟩
  · rcases eq_or_ne j i with rfl | hj
    · intro s hs; simp [hnone] at hs
    · simpa [hj] using he.curRuns j
  · simpa [Eng.req] using hexcl

theorem processTokenReq_leads (fuel : ℕ) :
    Leads (Rest i [] [] op) (Rest i [] [] op : Eng N → Prop) (processTokenReq i fuel) := by
  induction fuel with
  | zero => exact fun e he => ⟨.refl, he⟩
  | succ fuel ih =>
    intro e he
    unfold processTokenReq
    by_cases hm : mayProcess (e.d i) = true
    swap
    · rw [if_pos hm]; exact ⟨.refl, he⟩
    rw [if_neg (not_not.2 hm)]
    have hm' := hm
    simp only [mayProcess, Bool.and_eq_true, Bool.not_eq_true', decide_eq_true_eq] at hm'
    by_cases hc : (e.d i).status.clearance = true
    · rw [if_pos hc]
      have hs : Steps e (phlDispEngExclusiveReady (ntfyidx i) e) :=
        .single (.ready i hc hm'.1.2 hm'.2)
      exact ⟨hs, he.signals hs .exclusiveReady⟩
    rw [if_neg hc]
    by_cases hx : (e.d i).tok.frontReqWithExclusiveOpt ∧ ¬ (e.d i).status.exclusiveUse
    · rw [if_pos hx]
      have hs : Steps e (phlDispEngClearanceAcquire (ntfyidx i) e) :=
        .single (.acquire i hx.1 hm'.1.2)
      exact ⟨hs, he.signals hs .clearanceAcquire⟩
    rw [if_neg hx]
    rcases hpop : (e.d i).tok.popFrontWaitReq with _ | ⟨r, t⟩
    · simp only
      split
      · exact ⟨.refl, he⟩
      · have hset : Tame fun e : Eng N => e.onStatus i fun s => { s with notifyIdle := true } :=
          onStatus_tame (fun _ => ⟨rfl, rfl, fun h => h, fun h => h⟩) fun _ => rfl
        exact (sendOwn_tame.comp hset).leads Rest.lasting (fun _ he => he.sound) e he
    · obtain ⟨hs₁, hp₁⟩ := takeReq_leads he hm (by simpa using hc) hx hpop
      obtain ⟨hs₂, hp₂⟩ := hp₁.phyOn rfl
      obtain ⟨hs₃, hrest⟩ := registerCurCmdReq_leads hp₂
      simp only
      rcases hreg : registerCurCmdReq i r _ with ⟨e₃, b⟩
      rw [hreg] at hs₃ hrest
      cases b with
      | true => exact ⟨(hs₁.trans hs₂).trans hs₃, hrest⟩
      | false =>
        obtain ⟨hs₄, hrest₄⟩ := ih e₃ hrest
        exact ⟨((hs₁.trans hs₂).trans hs₃).trans hs₄, hrest₄⟩

/-! ### The token operations -/

theorem pushBackIdleReq_leads (he : Rest i [] (r :: rh) op e) (ho : Ending e i r)
    (hp : (e.req i r).status.prepare → .left i ∈ e.log) :
    Steps e (pushBackIdleReq i r e) ∧ Rest i [] rh op (pushBackIdleReq i r e) := by
  have hr : r ∈ (e.d i).tok.reqHand := by simp [he.reqHand]
  have hs : Steps e (pushBackIdleReq i r e) := .single (.endReq i r hr ho hp)
  refine ⟨hs, hs.sound he.sound, by simpa [pushBackIdleReq] using he.hand, ?_, ?_, fun j hj => ?_, fun j => ?_⟩
  · rw [pushBackIdleReq_tok]; simp [TokenQs.pushIdle, he.reqHand]
  · rw [pushBackIdleReq_tok]; exact he.handling
  · rw [pushBackIdleReq_tok_ne hj]; simpa [pushBackIdleReq] using he.others j hj
  · rcases eq_or_ne j i with rfl | hj
    · intro s hs
      rw [pushBackIdleReq_tok] at hs ⊢
      have hsr : s ≠ r := fun heq =>
        (he.sound.tok j).reqs.not_cur_of_hand hr (heq ▸ hs)
      simpa [TokenQs.pushIdle, hsr] using he.curRuns j s hs
    · rw [pushBackIdleReq_tok_ne hj]; exact he.curRuns j

theorem abortWaiting_leads (he : Rest i [] [r] op e) (ho : op = some (.free r, (e.req i r).call) ∨ .left i ∈ e.log)
    (hp : (e.req i r).status.prepare → .left i ∈ e.log) :
    Steps e (abortWaiting i r e) ∧ Rest i [] [] op (abortWaiting i r e) := by
  obtain ⟨hs₁, hq⟩ := callback_tame e he.sound
  have hr : r ∉ (e.d i).tok.reqIdle := (he.sound.tok i).reqs.not_idle (by simp [he.reqHand])
  have hk := (hq.tok i).reqs r hr
  have hlog := hs₁.log
  have hend : Ending (callback e).2 i r := ho.imp
    (fun h => by
      rw [(hq.tok i).handling, he.handling, h]
      exact congrArg (fun n => some (OpRef.free r, n)) hk.call.symm)
    fun h => hlog.subset h
  obtain ⟨hs₂, hrest⟩ := pushBackIdleReq_leads (he.still hs₁ hq.toStill) hend fun h =>
    hlog.subset (hp (hk.prepare ▸ h))
  exact ⟨hs₁.trans hs₂, hrest⟩

section

variable (he : Rest i [] [] (some (.free r, (e.req i r).call)) e)

include he

theorem dropAndProcess_leads (hrun : (e.req i r).status.run) :
    Steps e (disprProcessTokenReq i (deregisterCurCmdReq i notify e)) ∧
      Rest i [] [] (some (.free r, (e.req i r).call))
        (disprProcessTokenReq i (deregisterCurCmdReq i notify e)) := by
  have hcur := ((he.sound.tok i).reqs.flags r).run hrun
  obtain ⟨hs₁, hrest, -⟩ := deregisterCurCmdReq_leads he fun s hs => by
    obtain rfl : r = s := Option.some.inj (hcur.symm.trans hs)
    exact .inl rfl
  obtain ⟨hs₂, hrest₂⟩ := processTokenReq_leads _ _ hrest
  exact ⟨hs₁.trans hs₂, hrest₂⟩

theorem handleFree_leads : Steps e (handleFree i r e) ∧
      Rest i [] [] (some (.free r, (e.req i r).call)) (handleFree i r e) := by
  unfold handleFree
  split
  · exact ⟨.refl, he⟩
  · rename_i hrun
    exact dropAndProcess_leads he (not_not.1 hrun)

theorem handleCancel_leads : Steps e (handleCancel i r e) ∧
      Rest i [] [] (some (.free r, (e.req i r).call)) (handleCancel i r e) := by
  obtain ⟨hs₁, hq⟩ := markReq_tame (e := e) (i := i) (r := r)
  have he₁ := he.still hs₁ hq.toStill
  unfold handleCancel
  set e₁ := e.onReq i r fun ex => { ex with status := { ex.status with cancel := true } } with heq
  have hcall : (e.req i r).call = (e₁.req i r).call := by simp [heq]
  rw [hcall] at he₁ ⊢
  simp only
  split
  · rename_i henq
    have hflags := (he₁.sound.tok i).reqs.flags r
    have hwait : r ∈ (e₁.d i).tok.reqWait := by simpa [he₁.reqHand] using hflags.enq henq
    have hs₂ : Steps e₁ ((e₁.logEv (.withdrawn i r e₁.d)).onTok i fun t => t.delWaitReq r) :=
      .single (.withdraw i r hwait)
    have he₂ : Rest i [] [r] (some (.free r, (e₁.req i r).call))
        ((e₁.logEv (.withdrawn i r e₁.d)).onTok i fun t => t.delWaitReq r) := by
      refine ⟨hs₂.sound he₁.sound, by simpa using he₁.hand, by simp [TokenQs.delWaitReq, he₁.reqHand],
        by simpa [TokenQs.delWaitReq] using he₁.handling, fun j hj => ?_, fun j => ?_⟩
      · rw [Eng.onTok_ne _ _ hj]; exact he₁.others j hj
      · rcases eq_or_ne j i with rfl | hj
        · simpa [TokenQs.delWaitReq, CurRuns] using he₁.curRuns j
        · rw [Eng.onTok_ne _ _ hj]; exact he₁.curRuns j
    obtain ⟨hs₃, hrest⟩ := abortWaiting_leads he₂
      (.inl (by simp [Eng.req, TokenQs.delWaitReq])) fun hprep => by
        have hin := hflags.prepare (by simpa [Eng.req, TokenQs.delWaitReq] using hprep)
        simp [he₁.reqHand] at hin
    exact ⟨(hs₁.trans hs₂).trans hs₃, hrest⟩
  · split
    · rename_i hrun
      obtain ⟨hs₂, hrest⟩ := dropAndProcess_leads he₁ hrun
      exact ⟨hs₁.trans hs₂, hrest⟩
    · exact ⟨hs₁, he₁⟩

end

theorem handleTokenOpInfo_leads {o : OpRef} {x : PhlTokenOpInfo}
    (he : Rest i [] [] (some (o, (e.d i).tok.callOf o)) e) (hx : InfoOk o x) :
    Steps e (handleTokenOpInfo i x e) ∧ Rest i [] [] (some (o, (e.d i).tok.callOf o)) (handleTokenOpInfo i x e) := by
  have hnone : x.type = none → handleTokenOpInfo i x e = e := fun h => by
    simp [handleTokenOpInfo, h]
  have hnext : x.type = some .addCmdReq ∨ x.type = some .renewCmdReq →
      handleTokenOpInfo i x e = disprProcessTokenReq i e := by
    rintro (h | h) <;> simp [handleTokenOpInfo, h]
  cases o with
  | add r =>
    rcases hx with h | h
    · exact (hnone h).symm ▸ ⟨.refl, he⟩
    · rw [hnext (.inl h)]; exact processTokenReq_leads _ e he
  | renew =>
    rcases hx with h | h
    · exact (hnone h).symm ▸ ⟨.refl, he⟩
    · rw [hnext (.inr h)]; exact processTokenReq_leads _ e he
  | free r =>
    rcases hx with h | ⟨h | h, hdata⟩
    · exact (hnone h).symm ▸ ⟨.refl, he⟩
    · have heq : handleTokenOpInfo i x e = handleFree i r e := by
        simp [handleTokenOpInfo, h, hdata]
      rw [heq]; exact handleFree_leads he
    · have heq : handleTokenOpInfo i x e = handleCancel i r e := by
        simp [handleTokenOpInfo, h, hdata]
      rw [heq]; exact handleCancel_leads he

theorem tokenOp_leads : Leads (Rest i [] [] none) (Rest i [] [] none : Eng N → Prop) (tokenOp i) := by
  intro e he
  unfold tokenOp
  cases hop : (e.d i).tok.opQ with
  | nil => exact ⟨.refl, he⟩
  | cons o q =>
    simp only
    set e₁ := e.onTok i fun t => { t with opQ := q, handling := some (o, t.callOf o) } with heq
    have hs₁ : Steps e e₁ := .single (.popOp i o q hop)
    have htok : (e₁.d i).tok = { (e.d i).tok with
        opQ := q, handling := some (o, (e.d i).tok.callOf o) } := by simp [heq]
    have hcall : (e₁.d i).tok.callOf o = (e.d i).tok.callOf o := by
      rw [htok]; cases o <;> rfl
    have he₁ : Rest i [] [] (some (o, (e₁.d i).tok.callOf o)) e₁ := by
      refine ⟨hs₁.sound he.sound, by simpa [heq] using he.hand, by simpa [htok] using he.reqHand,
        by rw [hcall]; simp [htok], fun j hj => by simpa [heq, hj] using he.others j hj, fun j => ?_⟩
      rcases eq_or_ne j i with rfl | hj
      · rw [htok]; exact he.curRuns j
      · simpa [heq, hj] using he.curRuns j
    obtain ⟨hs₂, he₂⟩ := handleTokenOpInfo_leads he₁ ((he₁.sound.tok i).infos o)
    set e₂ := handleTokenOpInfo i ((e₁.d i).tok.info o) e₁
    have hs₃ : Steps e₂ (e₂.onTok i fun t =>
        { t.setInfo o { t.info o with used := false } with handling := none }) :=
      .single (.doneOp i o _ he₂.handling)
    have hsame := (e₂.d i).tok.setInfo_sameReqs o { (e₂.d i).tok.info o with used := false }
    refine ⟨(hs₁.trans hs₂).trans hs₃, hs₃.sound he₂.sound, by simpa using he₂.hand, ?_, by simp,
      fun j hj => by simpa [hj] using he₂.others j hj, fun j => ?_⟩
    · simpa [hsame.reqHand] using he₂.reqHand
    · rcases eq_or_ne j i with rfl | hj
      · intro s hs
        simp only [Eng.onTok_self, hsame.curCmdReq] at hs ⊢
        rw [hsame.status]; exact he₂.curRuns j s hs
      · simpa [hj] using he₂.curRuns j

theorem tokenGate_leads : Leads (Rest i [] [] none) (Rest i [] [] none : Eng N → Prop) (tokenGate i) := by
  intro e he
  unfold tokenGate
  split
  · rename_i h
    have hs : Steps e (phlDispEngExclusiveReady (ntfyidx i) (e.logEv (.gate i (e.d i)))) :=
      .single (.gate i h.1 h.2.2)
    have hsig : Signals (e.logEv (.gate i (e.d i))) _ := .exclusiveReady (i := ntfyidx i)
    exact ⟨hs, he.next hs ((congrArg (·.hand) (hsig.msgs i)).trans he.hand)
      (fun j _ => congrArg (·.hand) (hsig.msgs j))
      fun j => .of_sameReqs (hsig.tok j).sameReqs.1 (hsig.tok j).sameReqs.2⟩
  · exact ⟨.refl, he⟩

end End

end Rtl8852cu.Dispr
