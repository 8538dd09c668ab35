import Mathlib.Algebra.Ring.Nat
import Mathlib.Data.Finset.Basic
import Mathlib.Logic.Function.Basic

/-!
# The data of the command dispatcher

The structures of `phl_cmd_dispatcher.c`, `phl_cmd_dispatch.h` and the part of `phl_def.h` they use.

A `CmdDispatcher` falls into the message pool with its three queues (`MsgQs`), the pool of command
requests with the token and the queue of token operations (`TokenQs`), and the registered modules
(`Modules`).  Pool entries are referred to by their index; a queue is the list of the indices linked
in it, a module bitmap the set of the module ids whose bit is set, and a word of status flags a
record of booleans.  The pool of messages has `N` entries (`MAX_PHL_MSG_NUM`).

An engine (`Eng`) is the pair of dispatchers, one a band, served by one shared thread.  Callbacks
(message handlers, `acquired`, `abort`, completion routines) are code outside the dispatcher: a
`Resp` is what one callback does, the value it returns and the `Script` of calls that are made into
the dispatchers while it runs, by itself or by another thread.

`call`, `fired`, `hand`, `nsend`, `nreq`, `handling`, `relinked` and the log belong to the observer:
which call an entry was taken for, whether its completion routine was called, which entries a running function holds, how many
calls there were, which token operation is being handled, and what has happened.  No function of the source reads them.
-/

namespace Rtl8852cu.Dispr

/-- The bands are literals of `Fin 2`, all with this one proof. -/
instance neZeroTwo : NeZero 2 := ⟨by decide⟩

/-! ### Constants -/

abbrev maxCmdReqNum : ℕ := 8

/-- `MODL_MASK_LEN`: `PHL_BK_MDL_END/8`, in bytes. -/
def modlMaskLen : ℕ := 16

def phlMdlPhyMgnt : ℕ := 1
def phlBkMdlRoleStart : ℕ := 10
def phlBkMdlRoleEnd : ℕ := 40
def phlMdlPowerMgnt : ℕ := 41
def phlBkMdlMdryEnd : ℕ := 70
def phlBkMdlOptEnd : ℕ := 127
def phlBkMdlEnd : ℕ := 128
def phlFgMdlStart : ℕ := 129
def phlMdlIdMax : ℕ := 255
def msgEvtMax : ℕ := 0x7fff
def msgEvtPhyOn : ℕ := 1
def msgEvtPhyIdle : ℕ := 2
def msgEvtDevCannotIo : ℕ := 60
def msgEvtDevResumeIo : ℕ := 61

def fgCmdOptExclusive : ℕ := 1

/-! ### Results -/

/-- `enum phl_mdl_ret_code`. -/
inductive MdlRet where
  | success
  | fail
  | ignore
  | pending
  | cannotIo
  deriving DecidableEq, Repr

/-- The values of `enum rtw_phl_status` the dispatcher returns. -/
inductive PhlStatus where
  | success
  | failure
  | resource
  | pending
  | invalidParam
  | unexpectedError
  deriving DecidableEq, Repr

/-! ### Messages -/

/-- `msg_id`: the module, the event and the indicators of `enum phl_msg_indicator`. -/
structure MsgId where
  mdlId : ℕ
  evtId : ℕ
  prePhase : Bool
  fail : Bool
  cancel : Bool
  cannotIo : Bool
  clrSndr : Bool
  deriving DecidableEq, Repr

/-- `msg_id = 0`. -/
def MsgId.zero : MsgId := ⟨0, 0, false, false, false, false, false⟩

/-- `struct phl_msg`, as far as the dispatcher looks at it: `rsvd[0]` is the module that failed. -/
structure PhlMsg where
  msgId : MsgId
  rsvd0 : Option ℕ
  deriving DecidableEq, Repr

/-- `struct phl_msg_attribute` with the options of `enum phl_msg_opt`: `idArr` is
`notify.id_arr`, `completion` says that a completion routine is given. -/
structure PhlMsgAttribute where
  skipNotifyOptMdl : Bool
  blistPresent : Bool
  clrSndrMsgIfPending : Bool
  sendInAbort : Bool
  pendingDuringCannotIo : Bool
  idArr : Option (List ℕ)
  len : ℕ
  completion : Bool
  deriving DecidableEq, Repr

def PhlMsgAttribute.zero : PhlMsgAttribute :=
  ⟨false, false, false, false, false, none, 0, false⟩

structure MsgStatus where
  enq : Bool
  run : Bool
  notifyComplete : Bool
  cancel : Bool
  prePhase : Bool
  fail : Bool
  ownerBkMdl : Bool
  ownerReq : Bool
  clrSndrMsgIfPending : Bool
  pending : Bool
  forAbort : Bool
  pendingDuringCannotIo : Bool
  deriving DecidableEq, Repr

/-- `status = 0`. -/
def MsgStatus.zero : MsgStatus :=
  ⟨false, false, false, false, false, false, false, false, false, false, false, false⟩

/-- `struct phl_dispr_msg_ex`, with the number of the call it was taken for and whether its
completion routine has been called. -/
structure PhlDisprMsgEx where
  status : MsgStatus
  msg : PhlMsg
  premap : Finset ℕ
  postmap : Finset ℕ
  completion : Bool
  module : Option ℕ
  call : ℕ
  fired : Bool
  deriving DecidableEq

/-- A pool entry after `_os_mem_set`. -/
def PhlDisprMsgEx.zero : PhlDisprMsgEx := ⟨.zero, ⟨.zero, none⟩, ∅, ∅, false, none, 0, false⟩

/-- `msg_ex_pool` and the queues of messages. -/
structure MsgQs (N : ℕ) where
  pool : Fin N → PhlDisprMsgEx
  idle : List (Fin N)
  wait : List (Fin N)
  pend : List (Fin N)
  hand : List (Fin N)
  nsend : ℕ

/-- Change entry `k` of the pool. -/
def MsgQs.onEx {N : ℕ} (q : MsgQs N) (k : Fin N) (f : PhlDisprMsgEx → PhlDisprMsgEx) : MsgQs N :=
  { q with pool := Function.update q.pool k (f (q.pool k)) }

/-! ### Command requests and token operations -/

/-- `struct phl_cmd_token_req`: `ops` says that its function pointers are set. -/
structure PhlCmdTokenReq where
  moduleId : ℕ
  opt : ℕ
  ops : Bool
  deriving DecidableEq, Repr

/-- `enum cmd_req_status`. -/
structure ReqStatus where
  enq : Bool
  run : Bool
  cancel : Bool
  lastPermit : Bool
  prepare : Bool
  deriving DecidableEq, Repr

/-- `status = 0`. -/
def ReqStatus.zero : ReqStatus := ⟨false, false, false, false, false⟩

inductive TokenOpType where
  | addCmdReq
  | freeCmdReq
  | cancelCmdReq
  | renewCmdReq
  deriving DecidableEq, Repr

/-- `struct phl_token_op_info`; a `type` of zero is none of the operations. -/
structure PhlTokenOpInfo where
  used : Bool
  type : Option TokenOpType
  data : ℕ
  deriving DecidableEq, Repr

/-- A `struct phl_token_op_info` of zeros. -/
def PhlTokenOpInfo.zero : PhlTokenOpInfo := ⟨false, none, 0⟩

/-- `struct phl_cmd_token_req_ex`, with the number of the call it was taken for. -/
structure PhlCmdTokenReqEx where
  status : ReqStatus
  req : PhlCmdTokenReq
  addReqInfo : PhlTokenOpInfo
  freeReqInfo : PhlTokenOpInfo
  call : ℕ
  deriving DecidableEq, Repr

/-- A request after `_os_mem_set`. -/
def PhlCmdTokenReqEx.zero : PhlCmdTokenReqEx := ⟨.zero, ⟨0, 0, false⟩, .zero, .zero, 0⟩

/-- The index of a request in `token_req_ex_pool`. -/
abbrev ReqIdx := Fin maxCmdReqNum

/-- A `struct phl_token_op_info` by where it is: in a request, or `renew_req_info`. -/
inductive OpRef where
  | add (r : ReqIdx)
  | free (r : ReqIdx)
  | renew
  deriving DecidableEq, Repr

/-- `token_req_ex_pool`, the queues of requests, the token, and the queue of token operations. -/
structure TokenQs where
  reqPool : ReqIdx → PhlCmdTokenReqEx
  reqIdle : List ReqIdx
  reqWait : List ReqIdx
  reqHand : List ReqIdx
  opQ : List OpRef
  tokenCnt : ℕ
  curCmdReq : Option ReqIdx
  renewReqInfo : PhlTokenOpInfo
  nreq : ℕ
  handling : Option (OpRef × ℕ)
  relinked : Bool

/-- Change request `r` of the pool. -/
def TokenQs.onReq (t : TokenQs) (r : ReqIdx) (f : PhlCmdTokenReqEx → PhlCmdTokenReqEx) : TokenQs :=
  { t with reqPool := Function.update t.reqPool r (f (t.reqPool r)) }

/-! ### Modules -/

/-- `enum phl_bk_module_priority`. -/
inductive MdlPri where
  | role
  | optional
  | mandatory
  deriving DecidableEq, Repr

/-- `struct phl_bk_module` with the flags of `enum phl_mdl_status`. -/
structure PhlBkModule where
  id : ℕ
  init : Bool
  started : Bool
  deriving DecidableEq, Repr

/-- The module queues, the controller and the bitmaps of loaded modules. -/
structure Modules where
  moduleQ : MdlPri → List PhlBkModule
  controller : PhlBkModule
  bitmap : Finset ℕ
  basemap : Finset ℕ

/-! ### The dispatcher -/

/-- `enum dispatcher_status`. -/
structure DisprStatus where
  started : Bool
  shallStop : Bool
  notifyIdle : Bool
  clrPendMsg : Bool
  ctrlPresent : Bool
  waitAbortMsgDone : Bool
  cannotIo : Bool
  clearance : Bool
  exclusiveUse : Bool
  deriving DecidableEq, Repr

structure CmdDispatcher (N : ℕ) where
  status : DisprStatus
  msgs : MsgQs N
  tok : TokenQs
  mdls : Modules
  pendingEvtId : ℕ → ℕ
  exclusiveMdl : ℕ

/-! ### Callbacks -/

/-- The calls into a dispatcher that run no callback of their own.  A handle is `none` for a null
pointer. -/
inductive ApiCall where
  | cancelMsg (msgHdl : Option ℕ)
  | clrPendingMsg
  | addTokenReq (req : Option PhlCmdTokenReq) (wantHdl : Bool)
  | cancelTokenReq (reqHdl : Option ℕ)
  | freeToken (reqHdl : Option ℕ)
  | notifyDevIoStatus (mdlId : ℕ) (allowIo : Bool)
  | notifyShallStop
  | stopPrior
  deriving DecidableEq, Repr

/-- The calls made into the dispatchers while a callback runs.  `dispr_send_msg` can itself call a
completion routine; `cb` is what that does. -/
inductive Script where
  | done
  | send (i : Fin 2) (msg : PhlMsg) (attr : Option PhlMsgAttribute) (cb k : Script)
  | api (i : Fin 2) (c : ApiCall) (k : Script)
  deriving Repr

structure Resp where
  ret : MdlRet
  script : Script
  deriving Repr

/-! ### The engine -/

inductive Ev (N : ℕ) where
  /-- `dispr_send_msg` was called in state `d`; it returns `sts` and, on success, the handle. -/
  | sent (i : Fin 2) (call : ℕ) (d : CmdDispatcher N) (msg : PhlMsg)
    (attr : Option PhlMsgAttribute) (sts : PhlStatus) (hdl : Option ℕ)
  /-- The completion routine of a message was called. -/
  | complete (i : Fin 2) (call : ℕ)
  /-- A message was taken from the wait queue to be dispatched, with these maps. -/
  | taken (i : Fin 2) (call : ℕ) (pre : Bool) (premap postmap : Finset ℕ)
  /-- A module answered a message. -/
  | answer (i : Fin 2) (call : ℕ) (mdl : ℕ) (pre : Bool) (ret : MdlRet)
  /-- The dispatch of a message ended with this status. -/
  | finished (i : Fin 2) (call : ℕ) (status : MsgStatus)
  /-- A module was deregistered. -/
  | gone (i : Fin 2) (mdl : ℕ)
  /-- `dispr_add_token_req` took a request from the pool and returned the handle. -/
  | added (i : Fin 2) (call : ℕ) (hdl : ℕ)
  /-- `acquired` failed for a request while these operations were linked. -/
  | acquireFailed (i : Fin 2) (r : ReqIdx) (opQ : List OpRef)
  /-- A request that waited was cancelled. -/
  | withdrawn (i : Fin 2) (r : ReqIdx) (d : Fin 2 → CmdDispatcher N)
  /-- The current request was deregistered; its abort, if any, has returned. -/
  | ended (i : Fin 2) (r : ReqIdx) (d : Fin 2 → CmdDispatcher N)
  /-- The thread, with no operation to handle, reported that the other dispatcher may run. -/
  | gate (i : Fin 2) (d : CmdDispatcher N)
  /-- The thread left. -/
  | left (i : Fin 2)

/-- `struct phl_cmd_dispatch_engine` with its dispatchers, what the callbacks of the running step
will do, and the log. -/
structure Eng (N : ℕ) where
  d : Fin 2 → CmdDispatcher N
  phyNum : ℕ
  env : List Resp
  log : List (Ev N)

namespace Eng

variable {N : ℕ}

def modify (e : Eng N) (i : Fin 2) (f : CmdDispatcher N → CmdDispatcher N) : Eng N :=
  { e with d := Function.update e.d i (f (e.d i)) }

def onMsgs (e : Eng N) (i : Fin 2) (f : MsgQs N → MsgQs N) : Eng N :=
  e.modify i fun d => { d with msgs := f d.msgs }

def onTok (e : Eng N) (i : Fin 2) (f : TokenQs → TokenQs) : Eng N :=
  e.modify i fun d => { d with tok := f d.tok }

def onMdls (e : Eng N) (i : Fin 2) (f : Modules → Modules) : Eng N :=
  e.modify i fun d => { d with mdls := f d.mdls }

def onStatus (e : Eng N) (i : Fin 2) (f : DisprStatus → DisprStatus) : Eng N :=
  e.modify i fun d => { d with status := f d.status }

def setCurPendingEvt (e : Eng N) (i : Fin 2) (mdlId evt : ℕ) : Eng N :=
  e.modify i fun d => { d with pendingEvtId := Function.update d.pendingEvtId mdlId evt }

def logEv (e : Eng N) (ev : Ev N) : Eng N := { e with log := e.log ++ [ev] }

/-- The message in pool entry `k`. -/
def ex (e : Eng N) (i : Fin 2) (k : Fin N) : PhlDisprMsgEx := (e.d i).msgs.pool k

/-- Change pool entry `k`. -/
def onEx (e : Eng N) (i : Fin 2) (k : Fin N) (f : PhlDisprMsgEx → PhlDisprMsgEx) : Eng N :=
  e.onMsgs i fun q => q.onEx k f

/-- The request in pool entry `r`. -/
def req (e : Eng N) (i : Fin 2) (r : ReqIdx) : PhlCmdTokenReqEx := (e.d i).tok.reqPool r

/-- Change request `r`. -/
def onReq (e : Eng N) (i : Fin 2) (r : ReqIdx) (f : PhlCmdTokenReqEx → PhlCmdTokenReqEx) : Eng N :=
  e.onTok i fun t => t.onReq r f

end Eng

end Rtl8852cu.Dispr
