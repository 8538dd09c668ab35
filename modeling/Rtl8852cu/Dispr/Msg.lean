import Rtl8852cu.Dispr.Signal

/-!
# Sending and cancelling messages

The queues of messages and `dispr_send_msg`, `dispr_cancel_msg`, `dispr_clr_pending_msg` of
`phl_cmd_dispatcher.c`.

A function that takes an entry from a queue puts it in `hand`, one that pushes it on a queue takes
it from there.  `dispr_send_msg` runs a callback in one case, the completion routine of a message it
gives back to the pool; its argument `cb` is what that routine does.  Each call has a number, the
count of the calls before it, and is logged when it returns.
-/

namespace Rtl8852cu.Dispr

variable {N : ℕ}

/-! ### The queues -/

/-- `pq_insert`, before the first element that `input` has priority over. -/
def pqInsert {α : Type*} (higher : α → Bool) (input : α) : List α → List α
  | [] => [input]
  | x :: xs => if higher x then input :: x :: xs else x :: pqInsert higher input xs

namespace MsgQs

def popFrontWaitMsg (q : MsgQs N) : Option (Fin N × MsgQs N) :=
  match q.wait with
  | [] => none
  | k :: wait => some (k, { q with wait := wait, hand := k :: q.hand }.onEx k fun ex =>
      { ex with status := { ex.status with run := true, enq := false, pending := false } })

/-- The flags `ENQ` and `RUN` of a message put in a queue. -/
def setEnq (q : MsgQs N) (k : Fin N) : MsgQs N :=
  q.onEx k fun ex => { ex with status := { ex.status with enq := true, run := false } }

def pushBackWaitMsg (q : MsgQs N) (k : Fin N) : MsgQs N :=
  { q.setEnq k with wait := q.wait ++ [k], hand := q.hand.erase k }

def isHigherPriority (q : MsgQs N) (input obj : Fin N) : Bool :=
  isDisprCtrl (q.pool input).msg.msgId.mdlId && !isDisprCtrl (q.pool obj).msg.msgId.mdlId

def insertMsgByPriority (q : MsgQs N) (k : Fin N) : MsgQs N :=
  { q.setEnq k with wait := pqInsert (q.isHigherPriority k) k q.wait, hand := q.hand.erase k }

/-- Put a message in the wait queue, the controller's first. -/
def enqueueMsg (q : MsgQs N) (k : Fin N) : MsgQs N :=
  if isDisprCtrl (q.pool k).msg.msgId.mdlId then q.insertMsgByPriority k else q.pushBackWaitMsg k

def popFrontPendingMsg (q : MsgQs N) : Option (Fin N × MsgQs N) :=
  match q.pend with
  | [] => none
  | k :: pend => some (k, { q with pend := pend, hand := k :: q.hand })

/-- The loop of `clear_pending_msg`, for as many messages as are pending. -/
def clearPending : ℕ → MsgQs N → MsgQs N
  | 0, q => q
  | n + 1, q =>
    match q.popFrontPendingMsg with
    | none => q
    | some (k, q) => clearPending n (q.enqueueMsg k)

/-- The part of `push_back_idle_msg` after its callbacks. -/
def pushIdle (q : MsgQs N) (k : Fin N) : MsgQs N :=
  { q.onEx k fun ex => { ex with status := .zero, msg := { ex.msg with msgId := .zero } } with
    idle := q.idle ++ [k], hand := q.hand.erase k }

end MsgQs

def pushBackPendingMsg (i : Fin 2) (k : Fin N) (e : Eng N) : Eng N :=
  let id := (e.ex i k).msg.msgId
  let e := if (e.ex i k).status.clrSndrMsgIfPending then e.setCurPendingEvt i id.mdlId id.evtId else e
  e.onMsgs i fun q => { q.setEnq k with pend := q.pend ++ [k], hand := q.hand.erase k }

def clearPendingMsg (i : Fin 2) (e : Eng N) : Eng N :=
  if (e.d i).status.clrPendMsg then
    (e.onStatus i fun s => { s with clrPendMsg := false }).onMsgs i fun q =>
      q.clearPending q.pend.length
  else e

/-- The completion routine of a message is called. -/
def completeMsg (i : Fin 2) (k : Fin N) (e : Eng N) : Eng N :=
  (e.onEx i k fun ex => { ex with
    fired := true
    msg := { ex.msg with
      msgId := { ex.msg.msgId with cancel := ex.msg.msgId.cancel || ex.status.cancel } } }).logEv
    (.complete i (e.ex i k).call)

/-- `CLEAR_STATUS_FLAG(ex->status, MSG_STATUS_NOTIFY_COMPLETE)`. -/
def clearNotify (ex : PhlDisprMsgEx) : PhlDisprMsgEx :=
  { ex with status := { ex.status with notifyComplete := false } }

/-- A message sent in an abort signals its end. -/
def abortSignal (i : Fin 2) (k : Fin N) (e : Eng N) : Eng N :=
  if (e.ex i k).status.forAbort then onAbortMsgComplete i e else e

/-- The event a message was pending on is no longer the one its sender waits for. -/
def endPendingEvt (i : Fin 2) (id : MsgId) (e : Eng N) : Eng N :=
  if (e.d i).pendingEvtId id.mdlId = id.evtId then e.setCurPendingEvt i id.mdlId msgEvtMax else e

/-- The end of `push_back_idle_msg`, after the completion routine. -/
def retireMsg (i : Fin 2) (k : Fin N) (e : Eng N) : Eng N :=
  let e := abortSignal i k e
  (endPendingEvt i (e.ex i k).msg.msgId e).onMsgs i fun q => q.pushIdle k

/-- `push_back_idle_msg`; `cb` is what the completion routine does. -/
def pushBackIdleMsg (cb : Eng N → Eng N) (i : Fin 2) (k : Fin N) (e : Eng N) : Eng N :=
  retireMsg i k <|
    if (e.ex i k).status.notifyComplete ∧ (e.ex i k).completion then
      (cb (completeMsg i k e)).onEx i k clearNotify
    else e

/-! ### Cancelling -/

def cancelMsg (ex : PhlDisprMsgEx) : PhlDisprMsgEx :=
  { ex with premap := ∅, postmap := ∅, status := { ex.status with cancel := true } }

def cancelRunningMsg (q : MsgQs N) : MsgQs N :=
  { q with pool := fun k => if (q.pool k).status.run then cancelMsg (q.pool k) else q.pool k }

/-- `dispr_cancel_msg`; the last component is the handle as it is left to the caller. -/
def disprCancelMsg (i : Fin 2) (msgHdl : Option ℕ) (e : Eng N) : Eng N × PhlStatus × Option ℕ :=
  match msgHdl with
  | none => (e, .unexpectedError, none)
  | some hdl =>
    if ¬ (e.d i).status.started then (e, .unexpectedError, some hdl)
    else if ¬ isHdlValid hdl then (e, .failure, some hdl)
    else if h : getMsgIdxFromHdl hdl < N then
      if ¬ (e.ex i ⟨_, h⟩).status.enq ∧ ¬ (e.ex i ⟨_, h⟩).status.run then (e, .failure, some 0)
      else (e.onEx i ⟨_, h⟩ cancelMsg, .success, some 0)
    else (e, .failure, some hdl)

def disprClrPendingMsg (i : Fin 2) (e : Eng N) : Eng N :=
  e.onStatus i fun s => { s with clrPendMsg := true }

/-! ### Sending -/

/-- `get_cur_cmd_req_id`: the module of the running request, and the status of the current one. -/
def getCurCmdReqId (t : TokenQs) : ℕ × ReqStatus :=
  match t.curCmdReq with
  | none => (phlMdlIdMax, .zero)
  | some r =>
    let ex := t.reqPool r
    if ¬ ex.status.run ∨ ex.status.cancel then (phlMdlIdMax, ex.status)
    else (ex.req.moduleId, ex.status)

def getModuleById (d : CmdDispatcher N) (id : ℕ) : Option ℕ :=
  if isDisprCtrl id then if d.status.ctrlPresent then some d.mdls.controller.id else none
  else if ¬ chkBitmapBit d.mdls.bitmap id then none
  else if [MdlPri.role, .optional, .mandatory].any fun p => (d.mdls.moduleQ p).any (·.id == id) then
    some id
  else none

def setMsgBitmap (m : Modules) (mdlId : ℕ) (ex : PhlDisprMsgEx) : PhlDisprMsgEx :=
  let ex := { ex with premap := m.bitmap, postmap := m.bitmap }
  if chkBitmapBit m.bitmap mdlId then
    { ex with premap := addBitmapBit ex.premap [mdlId], postmap := addBitmapBit ex.postmap [mdlId] }
  else ex

def setMsgCustomBitmap (m : Modules) (attr : PhlMsgAttribute) (mdlId : ℕ) (ex : PhlDisprMsgEx) : PhlDisprMsgEx :=
  let ids := (attr.idArr.getD []).take attr.len
  let ex := if attr.skipNotifyOptMdl then { ex with premap := m.basemap, postmap := m.basemap } else ex
  let ex :=
    if attr.blistPresent then
      { ex with premap := clrBitmapBit ex.premap ids, postmap := clrBitmapBit ex.postmap ids }
    else { ex with premap := addBitmapBit ex.premap ids, postmap := addBitmapBit ex.postmap ids }
  if chkBitmapBit m.bitmap mdlId then
    { ex with premap := addBitmapBit ex.premap [mdlId], postmap := addBitmapBit ex.postmap [mdlId] }
  else ex

/-- The error `dispr_send_msg` returns before it takes an entry from the pool. -/
def sendErr (d : CmdDispatcher N) (msg : PhlMsg) (attr : Option PhlMsgAttribute) : Option PhlStatus :=
  let mdlId := msg.msgId.mdlId
  let (curId, st) := getCurCmdReqId d.tok
  if ¬ d.status.started then some .unexpectedError
  else if d.status.shallStop then some .unexpectedError
  else if attr.any fun a => a.idArr.isNone && decide (a.len ≠ 0) then some .invalidParam
  else if ¬ isDisprCtrl mdlId ∧ ¬ chkBitmapBit d.mdls.bitmap mdlId ∧
      ((curId ≠ phlMdlIdMax ∧ curId ≠ mdlId) ∨ (curId = phlMdlIdMax ∧ st = .zero) ∨
        (curId = phlMdlIdMax ∧ ¬ st.lastPermit)) then some .invalidParam
  else none

/-- The module that sends is the requestor of the current request. -/
def sentByReq (d : CmdDispatcher N) (msg : PhlMsg) : Bool :=
  let mdlId := msg.msgId.mdlId
  let (curId, st) := getCurCmdReqId d.tok
  (getModuleById d mdlId).isNone &&
    (decide (curId = mdlId) || (decide (curId = phlMdlIdMax) && st.lastPermit))

/-- The entry as `dispr_send_msg` fills it in for its call `n`. -/
def fillMsg (d : CmdDispatcher N) (msg : PhlMsg) (attr : Option PhlMsgAttribute) (n : ℕ) : PhlDisprMsgEx :=
  let mdlId := msg.msgId.mdlId
  let ex := setMsgBitmap d.mdls mdlId { PhlDisprMsgEx.zero with msg := msg, call := n }
  let ex :=
    match attr with
    | none => ex
    | some a =>
      let ex := setMsgCustomBitmap d.mdls a mdlId ex
      { ex with
        completion := a.completion
        status := { ex.status with
          notifyComplete := a.completion
          clrSndrMsgIfPending := a.clrSndrMsgIfPending
          pendingDuringCannotIo := a.pendingDuringCannotIo } }
  { ex with
    module := getModuleById d mdlId
    status := { ex.status with
      ownerBkMdl := (getModuleById d mdlId).isSome
      ownerReq := sentByReq d msg } }

/-- The requestor of the current request sends in its last-permit phase. -/
def sentInLastPermit (d : CmdDispatcher N) (msg : PhlMsg) : Bool :=
  sentByReq d msg && (getCurCmdReqId d.tok).2.lastPermit

/-- The message is given back to the pool: the current request is about to unload, and the message
is not marked as one to be sent in its abort. -/
def sendDropped (d : CmdDispatcher N) (msg : PhlMsg) (attr : Option PhlMsgAttribute) : Bool :=
  sentInLastPermit d msg && !attr.any (·.sendInAbort)

/-- The call, made in state `d`, is observed and counted. -/
def logSent (i : Fin 2) (d : CmdDispatcher N) (msg : PhlMsg) (attr : Option PhlMsgAttribute)
    (sts : PhlStatus) (hdl : Option ℕ) (e : Eng N) : Eng N :=
  (e.onMsgs i fun q => { q with nsend := q.nsend + 1 }).logEv
    (.sent i d.msgs.nsend d msg attr sts hdl)

/-- `pop_front_idle_msg`, and the entry `k` it returns filled in. -/
def takeIdle (i : Fin 2) (msg : PhlMsg) (attr : Option PhlMsgAttribute) (k : Fin N)
    (f : PhlDisprMsgEx → PhlDisprMsgEx) (e : Eng N) : Eng N :=
  e.onMsgs i fun q =>
    { q with idle := q.idle.tail, hand := k :: q.hand }.onEx k fun _ =>
      f (fillMsg (e.d i) msg attr q.nsend)

/-- `dispr_send_msg` up to the point where it gives the entry back. -/
def takeDropped (i : Fin 2) (msg : PhlMsg) (attr : Option PhlMsgAttribute) (k : Fin N) (e : Eng N) : Eng N :=
  logSent i (e.d i) msg attr .failure none <| takeIdle i msg attr k (fun ex =>
    { ex with msg := { ex.msg with msgId := { ex.msg.msgId with fail := true } } }) e

/-- `dispr_send_msg` when the message is put in the wait queue. -/
def sendAccepted (i : Fin 2) (msg : PhlMsg) (attr : Option PhlMsgAttribute) (k : Fin N) (e : Eng N) : Eng N :=
  let forAbort := sentInLastPermit (e.d i) msg
  let e := logSent i (e.d i) msg attr .success (some (genValidHdl k)) <|
    takeIdle i msg attr k (fun ex =>
      { ex with status := { ex.status with forAbort := forAbort, prePhase := true } }) e
  let e := if forAbort then e.onStatus i fun s => { s with waitAbortMsgDone := true } else e
  e.onMsgs i fun q => q.enqueueMsg k

/-- `dispr_send_msg`: the status and, on success, the handle. -/
def disprSendMsg (cb : Eng N → Eng N) (i : Fin 2) (msg : PhlMsg) (attr : Option PhlMsgAttribute)
    (e : Eng N) : Eng N × PhlStatus × Option ℕ :=
  match sendErr (e.d i) msg attr with
  | some sts => (logSent i (e.d i) msg attr sts none e, sts, none)
  | none =>
    match (e.d i).msgs.idle with
    | [] => (logSent i (e.d i) msg attr .resource none e, .resource, none)
    | k :: _ =>
      if sendDropped (e.d i) msg attr then
        (pushBackIdleMsg cb i k (takeDropped i msg attr k e), .failure, none)
      else (sendAccepted i msg attr k e, .success, some (genValidHdl k))

/-- A message of the dispatcher itself: `send_bk_msg_phy_on` and its like.  No completion routine. -/
def sendOwn (i : Fin 2) (mdlId evtId : ℕ) (e : Eng N) : Eng N × PhlStatus :=
  let p := disprSendMsg id i ⟨{ MsgId.zero with mdlId := mdlId, evtId := evtId }, none⟩
    (some .zero) e
  (p.1, p.2.1)

def sendBkMsgPhyOn (i : Fin 2) (e : Eng N) : Eng N := (sendOwn i phlMdlPowerMgnt msgEvtPhyOn e).1

def sendBkMsgPhyIdle (i : Fin 2) (e : Eng N) : Eng N :=
  (sendOwn i phlMdlPowerMgnt msgEvtPhyIdle e).1

def sendDevIoStatusChange (i : Fin 2) (allowIo : Bool) (e : Eng N) : Eng N × PhlStatus :=
  sendOwn i phlMdlPhyMgnt (if allowIo then msgEvtDevResumeIo else msgEvtDevCannotIo) e

def disprNotifyDevIoStatus (i : Fin 2) (mdlId : ℕ) (allowIo : Bool) (e : Eng N) : Eng N × PhlStatus :=
  if ¬ allowIo then
    if ¬ (e.d i).status.cannotIo then
      let e := e.modify i fun d => { d with
        status := { d.status with cannotIo := true }, exclusiveMdl := mdlId }
      sendDevIoStatusChange i allowIo e
    else (e, .success)
  else
    if (e.d i).status.cannotIo then
      let e := e.modify i fun d => { d with
        status := { d.status with cannotIo := false }, exclusiveMdl := phlMdlIdMax }
      let p := sendDevIoStatusChange i allowIo e
      (disprClrPendingMsg i p.1, p.2)
    else (e, .success)

def disprNotifyShallStop (i : Fin 2) (e : Eng N) : Eng N :=
  if (e.d i).status.shallStop then e
  else disprClrPendingMsg i (e.onStatus i fun s => { s with shallStop := true })

end Rtl8852cu.Dispr
