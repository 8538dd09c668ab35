import Rtl8852cu.Dispr.Thread
import Mathlib.Logic.Relation

/-!
# What an update leaves alone

The simp lemmas of the updates of an engine, one for each update and part, and what the signals
between the dispatchers change.
-/

namespace Rtl8852cu.Dispr

variable {N : ℕ}

namespace Eng

variable (e : Eng N) (i j : Fin 2)

/-! ### The parts of an updated engine -/

section Parts

variable (f : CmdDispatcher N → CmdDispatcher N) (ev : Ev N) (k : Fin N) (r : ReqIdx) (m n : ℕ)
  (g : MsgQs N → MsgQs N) (t : TokenQs → TokenQs) (u : Modules → Modules)
  (s : DisprStatus → DisprStatus) (x : PhlDisprMsgEx → PhlDisprMsgEx)
  (y : PhlCmdTokenReqEx → PhlCmdTokenReqEx)

@[simp] theorem logEv_d : (e.logEv ev).d = e.d := rfl
@[simp] theorem logEv_log : (e.logEv ev).log = e.log ++ [ev] := rfl
@[simp] theorem logEv_phyNum : (e.logEv ev).phyNum = e.phyNum := rfl
@[simp] theorem logEv_env : (e.logEv ev).env = e.env := rfl
@[simp] theorem logEv_ex : (e.logEv ev).ex i k = e.ex i k := rfl
@[simp] theorem logEv_req : (e.logEv ev).req i r = e.req i r := rfl

@[simp] theorem modify_self : (e.modify i f).d i = f (e.d i) := by simp [modify]

@[simp] theorem modify_ne {i j : Fin 2} (h : j ≠ i) : (e.modify i f).d j = e.d j := by
  simp [modify, h]

@[simp] theorem modify_log : (e.modify i f).log = e.log := rfl
@[simp] theorem modify_phyNum : (e.modify i f).phyNum = e.phyNum := rfl
@[simp] theorem modify_env : (e.modify i f).env = e.env := rfl

theorem modify_part {α : Type*} (p : CmdDispatcher N → α) (h : ∀ d, p (f d) = p d) :
    p ((e.modify i f).d j) = p (e.d j) := by
  rcases eq_or_ne j i with rfl | hj
  · simp [h]
  · simp [hj]

@[simp] theorem onMsgs_log : (e.onMsgs i g).log = e.log := rfl
@[simp] theorem onMsgs_phyNum : (e.onMsgs i g).phyNum = e.phyNum := rfl
@[simp] theorem onMsgs_env : (e.onMsgs i g).env = e.env := rfl
@[simp] theorem onMsgs_tok : ((e.onMsgs i g).d j).tok = (e.d j).tok :=
  modify_part e i j _ (·.tok) fun _ => rfl
@[simp] theorem onMsgs_mdls : ((e.onMsgs i g).d j).mdls = (e.d j).mdls :=
  modify_part e i j _ (·.mdls) fun _ => rfl
@[simp] theorem onMsgs_status : ((e.onMsgs i g).d j).status = (e.d j).status :=
  modify_part e i j _ (·.status) fun _ => rfl
@[simp] theorem onMsgs_pendingEvtId : ((e.onMsgs i g).d j).pendingEvtId = (e.d j).pendingEvtId :=
  modify_part e i j _ (·.pendingEvtId) fun _ => rfl
@[simp] theorem onMsgs_self : ((e.onMsgs i g).d i).msgs = g (e.d i).msgs := by simp [onMsgs]
@[simp] theorem onMsgs_ne {i j : Fin 2} (h : j ≠ i) : (e.onMsgs i g).d j = e.d j := by
  simp [onMsgs, h]
@[simp] theorem onMsgs_req : (e.onMsgs i g).req j r = e.req j r := by simp [req]

@[simp] theorem onTok_log : (e.onTok i t).log = e.log := rfl
@[simp] theorem onTok_phyNum : (e.onTok i t).phyNum = e.phyNum := rfl
@[simp] theorem onTok_env : (e.onTok i t).env = e.env := rfl
@[simp] theorem onTok_msgs : ((e.onTok i t).d j).msgs = (e.d j).msgs :=
  modify_part e i j _ (·.msgs) fun _ => rfl
@[simp] theorem onTok_mdls : ((e.onTok i t).d j).mdls = (e.d j).mdls :=
  modify_part e i j _ (·.mdls) fun _ => rfl
@[simp] theorem onTok_status : ((e.onTok i t).d j).status = (e.d j).status :=
  modify_part e i j _ (·.status) fun _ => rfl
@[simp] theorem onTok_pendingEvtId : ((e.onTok i t).d j).pendingEvtId = (e.d j).pendingEvtId :=
  modify_part e i j _ (·.pendingEvtId) fun _ => rfl
@[simp] theorem onTok_self : ((e.onTok i t).d i).tok = t (e.d i).tok := by simp [onTok]
@[simp] theorem onTok_ne {i j : Fin 2} (h : j ≠ i) : (e.onTok i t).d j = e.d j := by
  simp [onTok, h]
@[simp] theorem onTok_ex : (e.onTok i t).ex j k = e.ex j k := by simp [ex]

@[simp] theorem onMdls_log : (e.onMdls i u).log = e.log := rfl
@[simp] theorem onMdls_phyNum : (e.onMdls i u).phyNum = e.phyNum := rfl
@[simp] theorem onMdls_env : (e.onMdls i u).env = e.env := rfl
@[simp] theorem onMdls_msgs : ((e.onMdls i u).d j).msgs = (e.d j).msgs :=
  modify_part e i j _ (·.msgs) fun _ => rfl
@[simp] theorem onMdls_tok : ((e.onMdls i u).d j).tok = (e.d j).tok :=
  modify_part e i j _ (·.tok) fun _ => rfl
@[simp] theorem onMdls_status : ((e.onMdls i u).d j).status = (e.d j).status :=
  modify_part e i j _ (·.status) fun _ => rfl
@[simp] theorem onMdls_self : ((e.onMdls i u).d i).mdls = u (e.d i).mdls := by simp [onMdls]
@[simp] theorem onMdls_ne {i j : Fin 2} (h : j ≠ i) : (e.onMdls i u).d j = e.d j := by
  simp [onMdls, h]
@[simp] theorem onMdls_ex : (e.onMdls i u).ex j k = e.ex j k := by simp [ex]
@[simp] theorem onMdls_req : (e.onMdls i u).req j r = e.req j r := by simp [req]

@[simp] theorem onStatus_log : (e.onStatus i s).log = e.log := rfl
@[simp] theorem onStatus_phyNum : (e.onStatus i s).phyNum = e.phyNum := rfl
@[simp] theorem onStatus_env : (e.onStatus i s).env = e.env := rfl
@[simp] theorem onStatus_msgs : ((e.onStatus i s).d j).msgs = (e.d j).msgs :=
  modify_part e i j _ (·.msgs) fun _ => rfl
@[simp] theorem onStatus_tok : ((e.onStatus i s).d j).tok = (e.d j).tok :=
  modify_part e i j _ (·.tok) fun _ => rfl
@[simp] theorem onStatus_mdls : ((e.onStatus i s).d j).mdls = (e.d j).mdls :=
  modify_part e i j _ (·.mdls) fun _ => rfl
@[simp] theorem onStatus_self : ((e.onStatus i s).d i).status = s (e.d i).status := by
  simp [onStatus]
@[simp] theorem onStatus_ne {i j : Fin 2} (h : j ≠ i) : (e.onStatus i s).d j = e.d j := by
  simp [onStatus, h]
@[simp] theorem onStatus_ex : (e.onStatus i s).ex j k = e.ex j k := by simp [ex]
@[simp] theorem onStatus_req : (e.onStatus i s).req j r = e.req j r := by simp [req]

@[simp] theorem setCurPendingEvt_log : (e.setCurPendingEvt i m n).log = e.log := rfl
@[simp] theorem setCurPendingEvt_phyNum : (e.setCurPendingEvt i m n).phyNum = e.phyNum := rfl
@[simp] theorem setCurPendingEvt_env : (e.setCurPendingEvt i m n).env = e.env := rfl
@[simp] theorem setCurPendingEvt_msgs : ((e.setCurPendingEvt i m n).d j).msgs = (e.d j).msgs :=
  modify_part e i j _ (·.msgs) fun _ => rfl
@[simp] theorem setCurPendingEvt_tok : ((e.setCurPendingEvt i m n).d j).tok = (e.d j).tok :=
  modify_part e i j _ (·.tok) fun _ => rfl
@[simp] theorem setCurPendingEvt_mdls : ((e.setCurPendingEvt i m n).d j).mdls = (e.d j).mdls :=
  modify_part e i j _ (·.mdls) fun _ => rfl
@[simp] theorem setCurPendingEvt_status : ((e.setCurPendingEvt i m n).d j).status = (e.d j).status :=
  modify_part e i j _ (·.status) fun _ => rfl
@[simp] theorem setCurPendingEvt_ex : (e.setCurPendingEvt i m n).ex j k = e.ex j k := by simp [ex]
@[simp] theorem setCurPendingEvt_req : (e.setCurPendingEvt i m n).req j r = e.req j r := by
  simp [req]

@[simp] theorem onEx_log : (e.onEx i k x).log = e.log := rfl
@[simp] theorem onEx_phyNum : (e.onEx i k x).phyNum = e.phyNum := rfl
@[simp] theorem onEx_env : (e.onEx i k x).env = e.env := rfl
@[simp] theorem onEx_tok : ((e.onEx i k x).d j).tok = (e.d j).tok := onMsgs_tok ..
@[simp] theorem onEx_mdls : ((e.onEx i k x).d j).mdls = (e.d j).mdls := onMsgs_mdls ..
@[simp] theorem onEx_status : ((e.onEx i k x).d j).status = (e.d j).status := onMsgs_status ..
@[simp] theorem onEx_req : (e.onEx i k x).req j r = e.req j r := onMsgs_req ..
@[simp] theorem onEx_ex : (e.onEx i k x).ex i k = x (e.ex i k) := by simp [ex, onEx, MsgQs.onEx]
theorem onEx_msgs : ((e.onEx i k x).d i).msgs = (e.d i).msgs.onEx k x := by simp [onEx]
@[simp] theorem onEx_hand : ((e.onEx i k x).d j).msgs.hand = (e.d j).msgs.hand := by
  rcases eq_or_ne j i with rfl | hj
  · rw [onEx_msgs]; rfl
  · simp [onEx, hj]
@[simp] theorem onEx_ex_ne {k l : Fin N} (h : l ≠ k) : (e.onEx i k x).ex i l = e.ex i l := by
  simp [ex, onEx, MsgQs.onEx, h]
@[simp] theorem onEx_ne {i j : Fin 2} (h : j ≠ i) : (e.onEx i k x).d j = e.d j := onMsgs_ne _ _ h

@[simp] theorem onReq_log : (e.onReq i r y).log = e.log := rfl
@[simp] theorem onReq_phyNum : (e.onReq i r y).phyNum = e.phyNum := rfl
@[simp] theorem onReq_env : (e.onReq i r y).env = e.env := rfl
@[simp] theorem onReq_msgs : ((e.onReq i r y).d j).msgs = (e.d j).msgs := onTok_msgs ..
@[simp] theorem onReq_mdls : ((e.onReq i r y).d j).mdls = (e.d j).mdls := onTok_mdls ..
@[simp] theorem onReq_status : ((e.onReq i r y).d j).status = (e.d j).status := onTok_status ..
@[simp] theorem onReq_ex : (e.onReq i r y).ex j k = e.ex j k := onTok_ex ..
@[simp] theorem onReq_req : (e.onReq i r y).req i r = y (e.req i r) := by
  simp [req, onReq, TokenQs.onReq]
@[simp] theorem onReq_ne {i j : Fin 2} (h : j ≠ i) : (e.onReq i r y).d j = e.d j := onTok_ne _ _ h
theorem onReq_tok : ((e.onReq i r y).d i).tok = (e.d i).tok.onReq r y := by simp [onReq]

end Parts

end Eng

/-! ### The queues of messages -/

namespace MsgQs

variable (q : MsgQs N) {k l : Fin N} (f : PhlDisprMsgEx → PhlDisprMsgEx)

@[simp] theorem onEx_idle : (q.onEx k f).idle = q.idle := rfl
@[simp] theorem onEx_wait : (q.onEx k f).wait = q.wait := rfl
@[simp] theorem onEx_pend : (q.onEx k f).pend = q.pend := rfl
@[simp] theorem onEx_hand : (q.onEx k f).hand = q.hand := rfl
@[simp] theorem onEx_nsend : (q.onEx k f).nsend = q.nsend := rfl
@[simp] theorem onEx_self : (q.onEx k f).pool k = f (q.pool k) := by simp [onEx]
@[simp] theorem onEx_ne (h : l ≠ k) : (q.onEx k f).pool l = q.pool l := by simp [onEx, h]

theorem pqInsert_perm {α : Type*} (g : α → Bool) (x : α) (w : List α) : (pqInsert g x w).Perm (x :: w) := by
  induction w with
  | nil => exact .refl _
  | cons y ys ih =>
    simp only [pqInsert]
    split
    · exact .refl _
    · exact (ih.cons y).trans (.swap ..)

theorem enqueueMsg_eq (k : Fin N) : ∃ w, w.Perm (k :: q.wait) ∧
    q.enqueueMsg k = { q.setEnq k with wait := w, hand := q.hand.erase k } := by
  unfold enqueueMsg
  split
  · exact ⟨_, pqInsert_perm .., rfl⟩
  · exact ⟨q.wait ++ [k], List.perm_append_singleton .., rfl⟩

end MsgQs

/-! ### The signals -/

theorem ntfyidx_ne : ∀ i : Fin 2, ntfyidx i ≠ i := by decide

theorem ntfyidx_ntfyidx : ∀ i : Fin 2, ntfyidx (ntfyidx i) = i := by decide

theorem eq_ntfyidx : ∀ {i j : Fin 2}, j ≠ i → j = ntfyidx i := by decide

/-- `renew_req_info` is queued. -/
def TokenQs.pushRenew (t : TokenQs) : TokenQs := (t.pushBackTokenOpInfo .renew .renewCmdReq 0xff).1

/-- `renew_req_info` is queued any number of times; all but the first do nothing. -/
abbrev Renewed : TokenQs → TokenQs → Prop := Relation.ReflTransGen fun t t' => t' = t.pushRenew

/-- A signal: only flags and the operations of the dispatchers are touched. -/
structure Signals (e e' : Eng N) : Prop where
  log : e'.log = e.log
  phyNum : e'.phyNum = e.phyNum
  env : e'.env = e.env
  msgs : ∀ j, (e'.d j).msgs = (e.d j).msgs
  mdls : ∀ j, (e'.d j).mdls = (e.d j).mdls
  pendingEvtId : ∀ j, (e'.d j).pendingEvtId = (e.d j).pendingEvtId
  tok : ∀ j, Renewed (e.d j).tok (e'.d j).tok
  started : ∀ j, (e'.d j).status.started = (e.d j).status.started

namespace Signals

variable {e e' e'' : Eng N} {i : Fin 2}

theorem refl : Signals e e := ⟨rfl, rfl, rfl, fun _ => rfl, fun _ => rfl, fun _ => rfl, fun _ => .refl, fun _ => rfl⟩

theorem trans (h : Signals e e') (h' : Signals e' e'') : Signals e e'' where
  log := h'.log.trans h.log
  phyNum := h'.phyNum.trans h.phyNum
  env := h'.env.trans h.env
  msgs j := (h'.msgs j).trans (h.msgs j)
  mdls j := (h'.mdls j).trans (h.mdls j)
  pendingEvtId j := (h'.pendingEvtId j).trans (h.pendingEvtId j)
  tok j := (h.tok j).trans (h'.tok j)
  started j := (h'.started j).trans (h.started j)

theorem flag {s : DisprStatus → DisprStatus} (hs : ∀ x, (s x).started = x.started) : Signals e (e.onStatus i s) where
  log := rfl
  phyNum := rfl
  env := rfl
  msgs j := by simp
  mdls j := by simp
  pendingEvtId j := Eng.modify_part e i j _ (·.pendingEvtId) fun _ => rfl
  tok j := by simp [Renewed, Relation.ReflTransGen.refl]
  started j := Eng.modify_part e i j _ (·.status.started) fun d => hs d.status

theorem renew : Signals e (enqueueRenew i e) where
  log := rfl
  phyNum := rfl
  env := rfl
  msgs j := by simp [enqueueRenew, disprEnqueueTokenOpInfo]
  mdls j := by simp [enqueueRenew, disprEnqueueTokenOpInfo]
  pendingEvtId j := by simp [enqueueRenew, disprEnqueueTokenOpInfo]
  tok j := by
    rcases eq_or_ne j i with rfl | hj
    · refine .single ?_; simp [enqueueRenew, disprEnqueueTokenOpInfo, TokenQs.pushRenew]
    · simp [enqueueRenew, disprEnqueueTokenOpInfo, hj, Relation.ReflTransGen.refl]
  started j := by simp [enqueueRenew, disprEnqueueTokenOpInfo]

theorem onBand {f : Eng N → Eng N} (h : Signals e (f e)) : Signals e (onBand i f e) := by
  unfold Dispr.onBand
  split
  · exact h
  · exact refl

theorem clearanceAcquire : Signals e (phlDispEngClearanceAcquire i e) := onBand (flag fun _ => rfl)

theorem clearanceRelease : Signals e (phlDispEngClearanceRelease i e) :=
  onBand ((flag (i := i) (s := fun s => { s with clearance := false }) fun _ => rfl).trans renew)

theorem exclusiveReady : Signals e (phlDispEngExclusiveReady i e) := by
  refine onBand ?_
  unfold disprExclusiveReady
  split
  · exact refl
  · exact (flag (i := i) (s := fun s => { s with exclusiveUse := true }) fun _ => rfl).trans renew

theorem tokenComplete : Signals e (cmdTokenComplete i e) := by
  have hrel : Signals e (releaseExclusive i e) := by
    unfold releaseExclusive
    split
    · exact (flag (i := i) (s := fun s => { s with exclusiveUse := false }) fun _ => rfl).trans
        clearanceRelease
    · exact refl
  have hready : ∀ e : Eng N, Signals e (signalReady i e) := fun e => by
    unfold signalReady
    split
    · exact exclusiveReady
    · exact refl
  unfold cmdTokenComplete
  split
  · exact refl
  · exact hrel.trans (hready _)

theorem abortMsgComplete : Signals e (onAbortMsgComplete i e) :=
  ((flag (i := i) (s := fun s => { s with waitAbortMsgDone := false }) fun _ => rfl).trans
    tokenComplete).trans renew

end Signals

/-! ### The end of a message -/

section Retire

variable (e : Eng N) (i j : Fin 2) (k : Fin N)

theorem abortSignal_signals : Signals e (abortSignal i k e) := by
  unfold abortSignal
  split
  · exact .abortMsgComplete
  · exact .refl

theorem endPendingEvt_parts (id : MsgId) : (endPendingEvt i id e).log = e.log ∧
    (endPendingEvt i id e).phyNum = e.phyNum ∧
    ((endPendingEvt i id e).d j).msgs = (e.d j).msgs ∧
    ((endPendingEvt i id e).d j).tok = (e.d j).tok ∧
    ((endPendingEvt i id e).d j).mdls = (e.d j).mdls ∧
    ((endPendingEvt i id e).d j).status = (e.d j).status := by
  unfold endPendingEvt
  split <;> simp

theorem retireMsg_parts : (retireMsg i k e).log = e.log ∧ (retireMsg i k e).phyNum = e.phyNum ∧
    ((retireMsg i k e).d j).tok = ((abortSignal i k e).d j).tok ∧
    ((retireMsg i k e).d j).mdls = (e.d j).mdls ∧
    ((retireMsg i k e).d j).status = ((abortSignal i k e).d j).status := by
  have hs := abortSignal_signals e i k
  obtain ⟨hlog, hphy, -, htok, hmdls, hst⟩ :=
    endPendingEvt_parts (abortSignal i k e) i j ((abortSignal i k e).ex i k).msg.msgId
  simp only [retireMsg, Eng.onMsgs_log, Eng.onMsgs_phyNum, Eng.onMsgs_tok, Eng.onMsgs_mdls, Eng.onMsgs_status]
  exact ⟨hlog.trans hs.log, hphy.trans hs.phyNum, htok, hmdls.trans (hs.mdls j), hst⟩

theorem retireMsg_self : ((retireMsg i k e).d i).msgs = (e.d i).msgs.pushIdle k := by
  simp only [retireMsg, Eng.onMsgs_self]
  rw [(endPendingEvt_parts ..).2.2.1, (abortSignal_signals e i k).msgs]

theorem retireMsg_ne {i j : Fin 2} (hj : j ≠ i) : ((retireMsg i k e).d j).msgs = (e.d j).msgs := by
  simp only [retireMsg, Eng.onMsgs_ne _ _ hj]
  rw [(endPendingEvt_parts ..).2.2.1, (abortSignal_signals e i k).msgs]

end Retire

theorem makeCur_eq {e : Eng N} {i : Fin 2} {r : ReqIdx} : makeCur i r e = e.onTok i fun t => { t.onReq r fun ex =>
      { ex with status := { ex.status with run := true, prepare := false } } with
        curCmdReq := some r, tokenCnt := t.tokenCnt + 1, reqHand := t.reqHand.erase r } := by
  simp [makeCur, Eng.onReq, Eng.onTok, Eng.modify, TokenQs.onReq]

end Rtl8852cu.Dispr
