import Rtl8852cu.Dispr.Token

/-!
# Dispatching a message

`feed_mdl_msg` and what follows from a module's answer, the two phases, and `msg_dispatch` of
`phl_cmd_dispatcher.c`.  The module queues cannot change while a message is dispatched (modules are
registered and deregistered between the steps of the thread), so a phase goes over the list of the
modules as it is when it begins.
-/

namespace Rtl8852cu.Dispr

variable {N : ℕ}

def stopDispatchMsg (ret : MdlRet) : Bool := decide (ret ≠ .success ∧ ret ≠ .ignore)

/-- `push_back_idle_msg`, called by the thread. -/
def recycleMsg (i : Fin 2) (k : Fin N) (e : Eng N) : Eng N :=
  pushBackIdleMsg (fun e => (callback e).2) i k e

def curReqHdl (i : Fin 2) (k : Fin N) (e : Eng N) : Eng N :=
  match (e.d i).tok.curCmdReq with
  | none => e
  | some r =>
    if ¬ (e.req i r).status.run ∨ (e.req i r).status.cancel then e
    else if (e.ex i k).status.forAbort then e
    else (callback e).2

def notifyMsgFail (i : Fin 2) (k : Fin N) (ret : MdlRet) (e : Eng N) : Eng N :=
  let e := e.onEx i k fun ex => { ex with
    status := { ex.status with fail := true }
    msg := { ex.msg with
      msgId := { ex.msg.msgId with
        fail := true, cannotIo := ex.msg.msgId.cannotIo || decide (ret = .cannotIo) } } }
  let ex := e.ex i k
  let e :=
    if ex.status.ownerBkMdl ∧ (isDisprCtrl ex.msg.msgId.mdlId ∨
        ex.module.any (chkBitmapBit (e.d i).mdls.bitmap ·)) then (callback e).2
    else e
  if (e.ex i k).status.ownerReq then curReqHdl i k e else e

/-- What `feed_mdl_msg` makes of the answer of a module. -/
def mdlAnswer (i : Fin 2) (mdlId : ℕ) (k : Fin N) (ret : MdlRet) (e : Eng N) : Eng N :=
  match ret with
  | .fail | .cannotIo =>
    notifyMsgFail i k ret (e.onEx i k fun ex => { ex with msg := { ex.msg with rsvd0 := some mdlId } })
  | .pending => e.onEx i k fun ex => { ex with status := { ex.status with pending := true } }
  | .success | .ignore =>
    if (e.ex i k).msg.msgId.prePhase then
      e.onEx i k fun ex => { ex with premap := clrBitmapBit ex.premap [mdlId] }
    else e.onEx i k fun ex => { ex with postmap := clrBitmapBit ex.postmap [mdlId] }

def feedMdlMsg (i : Fin 2) (mdlId : ℕ) (k : Fin N) (e : Eng N) : Eng N × MdlRet :=
  let (ret, e) := callback e
  let ex := e.ex i k
  (mdlAnswer i mdlId k ret (e.logEv (.answer i ex.call mdlId ex.msg.msgId.prePhase ret)), ret)

def PhlDisprMsgEx.map (ex : PhlDisprMsgEx) (pre : Bool) : Finset ℕ :=
  if pre then ex.premap else ex.postmap

/-- The loop over the modules of one priority.  The second component says that the dispatch of the
message stops. -/
def feedModules (pre : Bool) (i : Fin 2) (k : Fin N) : List PhlBkModule → Eng N → Eng N × Bool
  | [], e => (e, false)
  | mdl :: q, e =>
    if ¬ chkBitmapBit ((e.ex i k).map pre) mdl.id ∨ ¬ mdl.started then feedModules pre i k q e
    else
      let (e, ret) := feedMdlMsg i mdl.id k e
      if stopDispatchMsg ret then (e, true) else feedModules pre i k q e

/-- The module that sent the message comes first in its priority. -/
def feedOwner (pre : Bool) (i : Fin 2) (k : Fin N) (p : MdlPri) (e : Eng N) : Eng N × Bool :=
  match (e.ex i k).module with
  | none => (e, false)
  | some id =>
    if getMdlPriority id = some p ∧ chkBitmapBit ((e.ex i k).map pre) id then
      let (e, ret) := feedMdlMsg i id k e
      (e, stopDispatchMsg ret)
    else (e, false)

/-- The loop over the priorities; `order` is the order within a queue. -/
def phaseHdl (pre : Bool) (order : List PhlBkModule → List PhlBkModule) (i : Fin 2) (k : Fin N) :
    List MdlPri → Eng N → Eng N
  | [], e => e
  | p :: ps, e =>
    match feedOwner pre i k p e with
    | (e, true) => e
    | (e, false) =>
      match feedModules pre i k (order ((e.d i).mdls.moduleQ p)) e with
      | (e, true) => e
      | (e, false) => phaseHdl pre order i k ps e

/-- `msg_pre_phase_hdl`: from `PHL_MDL_PRI_MAX - 1` down to `PHL_MDL_PRI_ROLE`. -/
def msgPrePhaseHdl (i : Fin 2) (k : Fin N) (e : Eng N) : Eng N :=
  phaseHdl true id i k [.mandatory, .optional, .role] e

/-- `msg_post_phase_hdl`: from `PHL_MDL_PRI_ROLE` up, each queue from its tail. -/
def msgPostPhaseHdl (i : Fin 2) (k : Fin N) (e : Eng N) : Eng N :=
  phaseHdl false List.reverse i k [.role, .optional, .mandatory] e

def notifyDisprController (i : Fin 2) (k : Fin N) (e : Eng N) : Eng N :=
  if (e.d i).status.ctrlPresent then (feedMdlMsg i (e.d i).mdls.controller.id k e).1 else e

/-- The end of `msg_dispatch` at `recycle`. -/
def recycle (i : Fin 2) (k : Fin N) (e : Eng N) : Eng N :=
  recycleMsg i k (e.logEv (.finished i (e.ex i k).call (e.ex i k).status))

/-- `SET_STATUS_FLAG(ex->status, MSG_STATUS_CANCEL)`. -/
def setCancel (ex : PhlDisprMsgEx) : PhlDisprMsgEx :=
  { ex with status := { ex.status with cancel := true } }

/-- `MSG_REDIRECT_CHK`: a failed or cancelled message is recycled, a pending one rescheduled, and
with any other the dispatch goes on. -/
def msgRedirectChk (i : Fin 2) (k : Fin N) (go : Eng N → Eng N) (e : Eng N) : Eng N :=
  if (e.ex i k).status.fail ∨ (e.ex i k).status.cancel then recycle i k e
  else if (e.ex i k).status.pending then pushBackPendingMsg i k e
  else go e

/-- `get_msg_bitmap`: the indicator of the phase; the map itself is `map` of `prePhase`. -/
def getMsgBitmap (i : Fin 2) (k : Fin N) (e : Eng N) : Eng N :=
  e.onEx i k fun ex =>
    { ex with msg := { ex.msg with msgId := { ex.msg.msgId with prePhase := ex.status.prePhase } } }

/-- The end of `msg_dispatch`: every module has answered, or the map is not as it should be. -/
def dispatchEnd (pre : Bool) (i : Fin 2) (k : Fin N) (e : Eng N) : Eng N :=
  if (e.ex i k).map pre = ∅ then recycle i k (curReqHdl i k e)
  else recycle i k (e.onEx i k setCancel)

/-- The post-protocol phase of `msg_dispatch`; `pre` says which map `bitmap` points to. -/
def dispatchPost (pre : Bool) (i : Fin 2) (k : Fin N) (e : Eng N) : Eng N :=
  msgRedirectChk i k (dispatchEnd pre i k)
    (if (e.ex i k).map pre = ∅ then e else msgPostPhaseHdl i k e)

/-- After the pre-protocol phase: switch to the post-protocol phase. -/
def switchPhase (i : Fin 2) (k : Fin N) (e : Eng N) : Eng N :=
  if (e.ex i k).premap = ∅ then
    let e := e.onEx i k fun ex => { ex with status := { ex.status with prePhase := false } }
    dispatchPost false i k (getMsgBitmap i k e)
  else recycle i k (e.onEx i k setCancel)

/-- The phases of `msg_dispatch`. -/
def dispatchPhases (i : Fin 2) (k : Fin N) (e : Eng N) : Eng N :=
  let pre := (e.ex i k).status.prePhase
  if (e.ex i k).msg.msgId.prePhase ∧ (e.ex i k).map pre ≠ ∅ then
    msgRedirectChk i k (switchPhase i k) (msgPrePhaseHdl i k e)
  else dispatchPost pre i k e

def msgDispatch (i : Fin 2) (k : Fin N) (e : Eng N) : Eng N :=
  msgRedirectChk i k (fun e => msgRedirectChk i k (dispatchPhases i k) (notifyDisprController i k e))
    (getMsgBitmap i k e)

/-! ### The message part of the thread's loop -/

def isSpecialMsg (d : CmdDispatcher N) (id : MsgId) : Bool :=
  d.status.cannotIo &&
    (decide (d.exclusiveMdl = id.mdlId) || decide (id.evtId = msgEvtDevCannotIo) ||
      decide (id.evtId = msgEvtDevResumeIo) || decide (id.evtId = msgEvtPhyOn) ||
      decide (id.evtId = msgEvtPhyIdle))

def isMsgCanceled (i : Fin 2) (k : Fin N) (e : Eng N) : Eng N × Bool :=
  let d := e.d i
  let ex := e.ex i k
  let id := ex.msg.msgId
  if ¬ d.status.started ∨ ex.status.cancel then (e, true)
  else if d.pendingEvtId id.mdlId ≠ msgEvtMax ∧ d.pendingEvtId id.mdlId ≠ id.evtId then
    (e.onEx i k fun ex =>
      setCancel { ex with msg := { ex.msg with msgId := { id with clrSndr := true } } }, true)
  else if d.status.shallStop then
    (e.onEx i k fun ex =>
      setCancel { ex with msg := { ex.msg with msgId := { id with cannotIo := true } } }, true)
  else if d.status.cannotIo then
    if isSpecialMsg d id then
      (e.onEx i k fun ex =>
        { ex with msg := { ex.msg with msgId := { id with cannotIo := true } } }, false)
    else if ¬ ex.status.pendingDuringCannotIo then
      (e.onEx i k fun ex =>
        setCancel { ex with msg := { ex.msg with msgId := { id with cannotIo := true } } }, true)
    else
      (e.onEx i k fun ex => { ex with status := { ex.status with pending := true } }, false)
  else (e, false)

/-- `_and_bitmaps` with the modules there are, for both maps. -/
def andBitmaps (i : Fin 2) (k : Fin N) (e : Eng N) : Eng N :=
  e.onEx i k fun ex => { ex with
    premap := ex.premap ∩ (e.d i).mdls.bitmap
    postmap := ex.postmap ∩ (e.d i).mdls.bitmap }

/-- The part of `dispr_thread_loop_hdl` that takes one message. -/
def dispatchWaitMsg (i : Fin 2) (e : Eng N) : Eng N :=
  match (e.d i).msgs.popFrontWaitMsg with
  | none => e
  | some (k, q) =>
    let e := e.onMsgs i fun _ => q
    match isMsgCanceled i k e with
    | (e, true) => recycleMsg i k e
    | (e, false) =>
      let e := andBitmaps i k e
      let ex := e.ex i k
      msgDispatch i k (e.logEv (.taken i ex.call ex.status.prePhase ex.premap ex.postmap))

end Rtl8852cu.Dispr
