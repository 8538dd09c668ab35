import Rtl8852cu.Dispr.Dispatch
import Rtl8852cu.Lib.Reach

/-!
# The shared thread and the runs of the engine

How the thread hands the token on (`dispr_process_token_req`, `register_cur_cmd_req`,
`deregister_cur_cmd_req`), its loop and its end, and the registration of modules.

The loops of `dispr_thread_loop_hdl` are cut where the source takes the next element from a queue:
the thread's steps are `clear_pending_msg`, the test of `token_op_hanler` before its loop
(`tokenGate`), one token operation (`tokenOp`), and one message (`dispatch`).  Between any two of
them the other threads may call in.

The loop of `dispr_process_token_req` goes round again only when an `acquired` callback fails, so
the callbacks still to come bound its rounds.  The loops of `dispr_thread_leave_hdl` get a bound as
an argument and are `none` when it does not suffice.
-/

namespace Rtl8852cu.Dispr

variable {N : ℕ}

/-! ### Handing the token on -/

/-- The loop of `deregister_cur_cmd_req` over the messages of the module that held the token. -/
def cancelOwned (i : Fin 2) (moduleId : ℕ) : List (Fin N) → Eng N → Eng N
  | [], e => e
  | k :: ks, e =>
    if moduleId ≠ (e.ex i k).msg.msgId.mdlId then cancelOwned i moduleId ks e
    else
      let e := e.onEx i k fun ex =>
        cancelMsg { ex with status := { ex.status with ownerReq := false } }
      let e :=
        if (e.ex i k).status.pending then clearPendingMsg i (disprClrPendingMsg i e) else e
      cancelOwned i moduleId ks e

/-- The abort of the current request: it may send until it returns. -/
def abortCur (i : Fin 2) (r : ReqIdx) (e : Eng N) : Eng N :=
  let e := e.onReq i r fun ex => { ex with status := { ex.status with lastPermit := true } }
  let e := (callback e).2
  e.onReq i r fun ex => { ex with status := { ex.status with lastPermit := false } }

/-- The current request is no longer current. -/
def dropCur (i : Fin 2) (e : Eng N) : Eng N :=
  e.onTok i fun t => { t with
    tokenCnt := t.tokenCnt - 1
    curCmdReq := none
    reqHand := t.curCmdReq.toList ++ t.reqHand }

def deregisterCurCmdReq (i : Fin 2) (notify : Bool) (e : Eng N) : Eng N :=
  let e :=
    match (e.d i).tok.curCmdReq with
    | none => e
    | some r =>
      let e := e.onReq i r fun ex => { ex with status := { ex.status with run := false } }
      let e := cancelOwned i (e.req i r).req.moduleId (List.finRange N) e
      let e := if notify then abortCur i r e else e
      pushBackIdleReq i r (dropCur i (e.logEv (.ended i r e.d)))
  if (e.d i).status.waitAbortMsgDone then e else cmdTokenComplete i e

/-- The request becomes the current one. -/
def makeCur (i : Fin 2) (r : ReqIdx) (e : Eng N) : Eng N :=
  let e := e.onReq i r fun ex =>
    { ex with status := { ex.status with run := true, prepare := false } }
  e.onTok i fun t => { t with
    curCmdReq := some r
    tokenCnt := t.tokenCnt + 1
    reqHand := t.reqHand.erase r }

def registerCurCmdReq (i : Fin 2) (r : ReqIdx) (e : Eng N) : Eng N × Bool :=
  let (ret, e) := callback (makeCur i r e)
  if ret = .fail then
    (deregisterCurCmdReq i false (e.logEv (.acquireFailed i r (e.d i).tok.opQ)), false)
  else (e, true)

/-- The tests of `dispr_process_token_req` before it takes a request: it returns when one fails. -/
def mayProcess (d : CmdDispatcher N) : Bool :=
  d.status.started && !d.status.shallStop && decide (d.tok.tokenCnt = 0) &&
    !d.status.waitAbortMsgDone

/-- `dispr_process_token_req`, with a bound on the rounds of its loop. -/
def processTokenReq (i : Fin 2) : ℕ → Eng N → Eng N
  | 0, e => e
  | fuel + 1, e =>
    if ¬ mayProcess (e.d i) then e
    else if (e.d i).status.clearance then phlDispEngExclusiveReady (ntfyidx i) e
    else if (e.d i).tok.frontReqWithExclusiveOpt ∧ ¬ (e.d i).status.exclusiveUse then
      phlDispEngClearanceAcquire (ntfyidx i) e
    else
      match (e.d i).tok.popFrontWaitReq with
      | none =>
        if (e.d i).status.notifyIdle then e
        else sendBkMsgPhyIdle i (e.onStatus i fun s => { s with notifyIdle := true })
      | some (r, t) =>
        let e := e.onTok i fun _ => t
        let e :=
          if (e.d i).status.notifyIdle then
            sendBkMsgPhyOn i (e.onStatus i fun s => { s with notifyIdle := false })
          else e
        match registerCurCmdReq i r e with
        | (e, true) => e
        | (e, false) => processTokenReq i fuel e

def disprProcessTokenReq (i : Fin 2) (e : Eng N) : Eng N := processTokenReq i (e.env.length + 1) e

def abortWaiting (i : Fin 2) (r : ReqIdx) (e : Eng N) : Eng N :=
  pushBackIdleReq i r (callback e).2

/-- `TOKEN_OP_FREE_CMD_REQ`. -/
def handleFree (i : Fin 2) (r : ReqIdx) (e : Eng N) : Eng N :=
  if ¬ (e.req i r).status.run then e
  else disprProcessTokenReq i (deregisterCurCmdReq i false e)

/-- `TOKEN_OP_CANCEL_CMD_REQ`. -/
def handleCancel (i : Fin 2) (r : ReqIdx) (e : Eng N) : Eng N :=
  let e := e.onReq i r fun ex => { ex with status := { ex.status with cancel := true } }
  if (e.req i r).status.enq then
    abortWaiting i r ((e.logEv (.withdrawn i r e.d)).onTok i fun t => t.delWaitReq r)
  else if (e.req i r).status.run then disprProcessTokenReq i (deregisterCurCmdReq i true e)
  else e

def handleTokenOpInfo (i : Fin 2) (info : PhlTokenOpInfo) (e : Eng N) : Eng N :=
  match info.type with
  | none => e
  | some .renewCmdReq | some .addCmdReq => disprProcessTokenReq i e
  | some .freeCmdReq => if h : info.data < maxCmdReqNum then handleFree i ⟨_, h⟩ e else e
  | some .cancelCmdReq => if h : info.data < maxCmdReqNum then handleCancel i ⟨_, h⟩ e else e

/-- The test of `token_op_hanler` before its loop. -/
def tokenGate (i : Fin 2) (e : Eng N) : Eng N :=
  if (e.d i).status.clearance ∧ (e.d i).tok.opQ = [] ∧ (e.d i).tok.tokenCnt = 0 then
    phlDispEngExclusiveReady (ntfyidx i) (e.logEv (.gate i (e.d i)))
  else e

/-- One round of the loop of `token_op_hanler`. -/
def tokenOp (i : Fin 2) (e : Eng N) : Eng N :=
  match (e.d i).tok.opQ with
  | [] => e
  | o :: q =>
    let e := e.onTok i fun t => { t with opQ := q, handling := some (o, t.callOf o) }
    let e := handleTokenOpInfo i ((e.d i).tok.info o) e
    e.onTok i fun t => { t.setInfo o { t.info o with used := false } with handling := none }

/-! ### The thread -/

/-- `token_op_hanler`, for at most `fuel` token operations. -/
def tokenOpHanler (i : Fin 2) (fuel : ℕ) (e : Eng N) : Eng N := (tokenOp i)^[fuel] (tokenGate i e)

def disprThreadLoopHdl (i : Fin 2) (fuel : ℕ) (e : Eng N) : Eng N :=
  dispatchWaitMsg i (tokenOpHanler i fuel (clearPendingMsg i e))

/-- The inner loops of `clear_waiting_msg`: over the pending messages, then over the waiting ones. -/
def drainMsg (i : Fin 2) : ℕ → Eng N → Option (Eng N)
  | 0, _ => none
  | fuel + 1, e =>
    match (e.d i).msgs.popFrontPendingMsg with
    | some (k, q) => drainMsg i fuel (e.onMsgs i fun _ => q.pushBackWaitMsg k)
    | none =>
      match (e.d i).msgs.popFrontWaitMsg with
      | some (k, q) => drainWait i fuel (recycleMsg i k (e.onMsgs i fun _ => q))
      | none => some e
where
  drainWait (i : Fin 2) : ℕ → Eng N → Option (Eng N)
    | 0, _ => none
    | fuel + 1, e =>
      match (e.d i).msgs.popFrontWaitMsg with
      | some (k, q) => drainWait i fuel (recycleMsg i k (e.onMsgs i fun _ => q))
      | none => some e

def clearWaitingMsg (i : Fin 2) : ℕ → Eng N → Option (Eng N)
  | 0, _ => none
  | fuel + 1, e =>
    if (e.d i).msgs.idle.length = N then some e
    else (drainMsg i fuel e).bind (clearWaitingMsg i fuel)

/-- The inner loop of `clear_wating_req`. -/
def drainReq (i : Fin 2) : ℕ → Eng N → Option (Eng N)
  | 0, _ => none
  | fuel + 1, e =>
    match (e.d i).tok.popFrontWaitReq with
    | some (r, t) => drainReq i fuel (abortWaiting i r (e.onTok i fun _ => t))
    | none => some e

def clearWatingReq (i : Fin 2) : ℕ → Eng N → Option (Eng N)
  | 0, _ => none
  | fuel + 1, e =>
    if (e.d i).tok.reqIdle.length = maxCmdReqNum then some e
    else (drainReq i fuel e).bind (clearWatingReq i fuel)

def disprThreadLeaveHdl (i : Fin 2) (fuel : ℕ) (e : Eng N) : Option (Eng N) :=
  (clearWaitingMsg i fuel (deregisterCurCmdReq i true (e.logEv (.left i)))).bind
    (clearWatingReq i fuel)

/-- The end of `share_thread_hdl`, for the dispatchers `is`. -/
def shareThreadLeave (fuel : ℕ) : List (Fin 2) → Eng N → Option (Eng N)
  | [], e => some e
  | i :: is, e => (disprThreadLeaveHdl i fuel e).bind (shareThreadLeave fuel is)

/-! ### Modules -/

/-- `bk_module_init`; the callback is `ops.init`. -/
def bkModuleInit (mdl : PhlBkModule) (e : Eng N) : PhlBkModule × Bool × Eng N :=
  if mdl.init then (mdl, false, e)
  else
    let (ret, e) := callback e
    if ret = .success then ({ mdl with init := true }, true, e) else (mdl, false, e)

/-- `bk_module_start`; the callback is `ops.start`. -/
def bkModuleStart (mdl : PhlBkModule) (e : Eng N) : PhlBkModule × Bool × Eng N :=
  if ¬ mdl.init ∨ mdl.started then (mdl, false, e)
  else
    let (ret, e) := callback e
    if ret = .success then ({ mdl with started := true }, true, e) else (mdl, false, e)

/-- Replace the last module of a queue, the one that was pushed. -/
def setLast (q : List PhlBkModule) (mdl : PhlBkModule) : List PhlBkModule := q.dropLast ++ [mdl]

/-- `dispr_register_module`; `ops` says that `chk_module_ops` holds and that there is memory for the
module.  A module that cannot be initialised or started is freed but stays linked. -/
def disprRegisterModule (i : Fin 2) (id : ℕ) (ops : Bool) (e : Eng N) : Eng N × PhlStatus :=
  match getMdlPriority id with
  | none => (e, .failure)
  | some p =>
    if ¬ ops ∨ chkBitmapBit (e.d i).mdls.bitmap id then (e, .failure)
    else
      let setMdl (mdl : PhlBkModule) (e : Eng N) : Eng N :=
        e.onMdls i fun m => { m with
          moduleQ := Function.update m.moduleQ p (setLast (m.moduleQ p) mdl) }
      let mdl : PhlBkModule := ⟨id, false, false⟩
      let e := e.onMdls i fun m => { m with
        moduleQ := Function.update m.moduleQ p (m.moduleQ p ++ [mdl]) }
      let (mdl, ret, e) := bkModuleInit mdl e
      let e := setMdl mdl e
      if ret ∧ (e.d i).status.started then
        let (mdl, ret, e) := bkModuleStart mdl e
        if ret then
          let e := setMdl mdl e
          let e := e.onMdls i fun m => { m with
            bitmap := addBitmapBit m.bitmap [id]
            basemap := if p = .optional then m.basemap else addBitmapBit m.basemap [id] }
          (e, .success)
        else (setMdl { mdl with init := false } e, .failure)
      else if ret then (e, .success)
      else (setMdl { mdl with init := false } e, .failure)

def disprDeregisterModule (i : Fin 2) (id : ℕ) (e : Eng N) : Eng N × PhlStatus :=
  match getMdlPriority id with
  | none => (e, .failure)
  | some p =>
    match ((e.d i).mdls.moduleQ p).find? (·.id == id) with
    | none => (e, .failure)
    | some mdl =>
      let e := (e.logEv (.gone i id)).onMdls i fun m => { m with
        moduleQ := Function.update m.moduleQ p ((m.moduleQ p).eraseP (·.id == id))
        bitmap := clrBitmapBit m.bitmap [id]
        basemap := clrBitmapBit m.basemap [id] }
      let e := if mdl.started then (callback e).2 else e
      let e := if mdl.init then (callback e).2 else e
      (e, .success)

/-! ### Runs -/

/-- What happens to the engine: a call from another thread, a registration, a step of the shared
thread.  `env` is what the callbacks of the step do. -/
inductive Op where
  | api (i : Fin 2) (c : ApiCall)
  | send (i : Fin 2) (msg : PhlMsg) (attr : Option PhlMsgAttribute) (cb : Script)
  | register (i : Fin 2) (id : ℕ) (ops : Bool) (env : List Resp)
  | deregister (i : Fin 2) (id : ℕ) (env : List Resp)
  | clearPending (i : Fin 2)
  | tokenGate (i : Fin 2)
  | tokenOp (i : Fin 2) (env : List Resp)
  | dispatch (i : Fin 2) (env : List Resp)
  deriving Repr

def Op.run (e : Eng N) : Op → Eng N
  | .api i c => c.run i e
  | .send i msg attr cb => (disprSendMsg (runScript cb) i msg attr e).1
  | .register i id ops env => (disprRegisterModule i id ops { e with env := env }).1
  | .deregister i id env => (disprDeregisterModule i id { e with env := env }).1
  | .clearPending i => clearPendingMsg i e
  | .tokenGate i => Dispr.tokenGate i e
  | .tokenOp i env => Dispr.tokenOp i { e with env := env }
  | .dispatch i env => dispatchWaitMsg i { e with env := env }

/-- A dispatcher after `dispr_init` and `dispr_start`; `ctrl` says that its controller started,
`excl` is `dispr_exclusive_ready` of an engine with one dispatcher. -/
def CmdDispatcher.start (ctrl excl : Bool) : CmdDispatcher N where
  status :=
    { started := true, shallStop := false, notifyIdle := true, clrPendMsg := false
      ctrlPresent := ctrl, waitAbortMsgDone := false, cannotIo := false, clearance := false
      exclusiveUse := excl }
  msgs :=
    { pool := fun _ => .zero, idle := List.finRange N, wait := [], pend := [], hand := []
      nsend := 0 }
  tok :=
    { reqPool := fun _ => .zero, reqIdle := List.finRange maxCmdReqNum, reqWait := []
      reqHand := [], opQ := [], tokenCnt := 0, curCmdReq := none, renewReqInfo := .zero
      nreq := 1, handling := none, relinked := false }
  mdls := ⟨fun _ => [], ⟨phlMdlPhyMgnt, true, ctrl⟩, ∅, ∅⟩
  pendingEvtId := fun _ => msgEvtMax
  exclusiveMdl := phlMdlIdMax

/-- The engine after `phl_disp_eng_start`. -/
def Eng.start (phyNum : ℕ) (ctrl : Fin 2 → Bool) : Eng N where
  d := fun i => .start (ctrl i) (decide (phyNum = 1 ∧ i = 0))
  phyNum := phyNum
  env := []
  log := []

/-- The states of the runs of an engine whose steps meet `ok`. -/
abbrev Run (ok : Eng N → Op → Prop) (e₀ : Eng N) : Eng N → Prop := Lib.Reach Op.run ok e₀

end Rtl8852cu.Dispr
