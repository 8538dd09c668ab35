import Rtl8852cu.Dispr.Msg

/-!
# Command requests and callbacks

The queues of command requests, the calls that add, cancel and free a request, and `runScript`, what
a callback does to the dispatchers.  The functions of the shared thread that hand the token on follow
in `Thread`.
-/

namespace Rtl8852cu.Dispr

variable {N : ℕ}

/-! ### The queues -/

namespace TokenQs

def popFrontIdleReq (t : TokenQs) : Option (ReqIdx × TokenQs) :=
  match t.reqIdle with
  | [] => none
  | r :: idle => some (r, { t with
      reqIdle := idle
      reqHand := r :: t.reqHand
      reqPool := Function.update t.reqPool r .zero })

def popFrontWaitReq (t : TokenQs) : Option (ReqIdx × TokenQs) :=
  match t.reqWait with
  | [] => none
  | r :: wait => some (r, { t with reqWait := wait, reqHand := r :: t.reqHand }.onReq r fun ex =>
      { ex with status := { ex.status with prepare := true, enq := false } })

def frontReqWithExclusiveOpt (t : TokenQs) : Bool :=
  match t.reqWait with
  | [] => false
  | r :: _ => decide ((t.reqPool r).req.opt = fgCmdOptExclusive)

def pushBackWaitReq (t : TokenQs) (r : ReqIdx) : TokenQs :=
  { t with reqWait := t.reqWait ++ [r], reqHand := t.reqHand.erase r }.onReq r fun ex =>
    { ex with status := { ex.status with enq := true } }

/-- A request that was taken from the pool is filled in and waits. -/
def fillReq (t : TokenQs) (r : ReqIdx) (rq : PhlCmdTokenReq) : TokenQs :=
  ({ t with nreq := t.nreq + 1 }.onReq r fun ex =>
    { ex with req := rq, call := t.nreq }).pushBackWaitReq r

/-- Take a request out of the wait queue: `pq_del_node`. -/
def delWaitReq (t : TokenQs) (r : ReqIdx) : TokenQs :=
  { t with reqWait := t.reqWait.erase r, reqHand := r :: t.reqHand }

/-- The request's part in `push_back_idle_req`. -/
def pushIdle (t : TokenQs) (r : ReqIdx) : TokenQs :=
  { t with reqIdle := t.reqIdle ++ [r], reqHand := t.reqHand.erase r }.onReq r fun ex =>
    { ex with status := .zero }

end TokenQs

def pushBackIdleReq (i : Fin 2) (r : ReqIdx) (e : Eng N) : Eng N :=
  (e.setCurPendingEvt i (e.req i r).req.moduleId msgEvtMax).onTok i fun t => t.pushIdle r

/-! ### The calls on requests -/

def chkCmdReqOps (req : Option PhlCmdTokenReq) : Bool :=
  req.any fun req => !decide (req.moduleId < phlFgMdlStart) && req.ops

/-- `dispr_add_token_req`: the status and, on success, the handle.  `wantHdl` says that `req_hdl` is
not null. -/
def disprAddTokenReq (i : Fin 2) (req : Option PhlCmdTokenReq) (wantHdl : Bool) (e : Eng N) :
    Eng N × PhlStatus × Option ℕ :=
  match req with
  | none => (e, .unexpectedError, none)
  | some rq =>
    if ¬ (e.d i).status.started ∨ ¬ wantHdl ∨ ¬ chkCmdReqOps req then (e, .unexpectedError, none)
    else if (e.d i).status.shallStop then (e, .unexpectedError, none)
    else
      match (e.d i).tok.popFrontIdleReq with
      | none => (e, .resource, none)
      | some (r, t) =>
        let e := e.onTok i fun _ => t.fillReq r rq
        let stat :=
          if (e.d i).tok.opQ = [] ∧ (e.d i).tok.tokenCnt = 0 then .success else .pending
        let e := disprEnqueueTokenOpInfo i (.add r) .addCmdReq r e
        (e.logEv (.added i t.nreq (genValidHdl r)), stat, some (genValidHdl r))

def disprCancelTokenReq (i : Fin 2) (reqHdl : Option ℕ) (e : Eng N) : Eng N × PhlStatus :=
  match reqHdl with
  | none => (e, .unexpectedError)
  | some hdl =>
    if ¬ (e.d i).status.started then (e, .unexpectedError)
    else if ¬ isHdlValid hdl then (e, .failure)
    else if h : getReqIdxFromHdl hdl < maxCmdReqNum then
      let r : ReqIdx := ⟨_, h⟩
      let st := (e.req i r).status
      if ¬ st.enq ∧ ¬ st.run ∧ ¬ st.prepare then (e, .failure)
      else
        let p := (e.d i).tok.pushBackTokenOpInfo (.free r) .cancelCmdReq r
        (e.onTok i fun _ => p.1, if p.2 then .success else .failure)
    else (e, .failure)

def disprFreeToken (i : Fin 2) (reqHdl : Option ℕ) (e : Eng N) : Eng N × PhlStatus :=
  match reqHdl with
  | none => (e, .unexpectedError)
  | some hdl =>
    if ¬ (e.d i).status.started then (e, .unexpectedError)
    else if (e.d i).tok.curCmdReq = none ∨ (e.d i).tok.tokenCnt = 0 ∨ ¬ isHdlValid hdl then
      (e, .failure)
    else if h : getReqIdxFromHdl hdl < maxCmdReqNum then
      let r : ReqIdx := ⟨_, h⟩
      let st := (e.req i r).status
      if ¬ st.run ∧ ¬ st.prepare then (e, .failure)
      else
        let e := e.onReq i r fun ex => { ex with status := { ex.status with cancel := true } }
        let p := (e.d i).tok.pushBackTokenOpInfo (.free r) .freeCmdReq r
        (e.onTok i fun _ => p.1, if p.2 then .success else .failure)
    else (e, .failure)

def cancelAllCmdReq (t : TokenQs) : TokenQs :=
  { t with reqPool := fun r =>
      if (t.reqPool r).status = .zero then t.reqPool r
      else { t.reqPool r with status := { (t.reqPool r).status with cancel := true } } }

/-- `dispr_thread_stop_prior_hdl`, with `_stop_dispr_controller`. -/
def disprThreadStopPriorHdl (i : Fin 2) (e : Eng N) : Eng N :=
  let e := e.onStatus i fun s => { s with started := false, ctrlPresent := false }
  let e := e.onMdls i fun m => { m with controller := { m.controller with started := false } }
  let e := e.onTok i cancelAllCmdReq
  e.onMsgs i cancelRunningMsg

/-! ### Callbacks -/

def ApiCall.run (i : Fin 2) (e : Eng N) : ApiCall → Eng N
  | .cancelMsg msgHdl => (disprCancelMsg i msgHdl e).1
  | .clrPendingMsg => disprClrPendingMsg i e
  | .addTokenReq req wantHdl => (disprAddTokenReq i req wantHdl e).1
  | .cancelTokenReq reqHdl => (disprCancelTokenReq i reqHdl e).1
  | .freeToken reqHdl => (disprFreeToken i reqHdl e).1
  | .notifyDevIoStatus mdlId allowIo => (disprNotifyDevIoStatus i mdlId allowIo e).1
  | .notifyShallStop => disprNotifyShallStop i e
  | .stopPrior => disprThreadStopPriorHdl i e

/-- The calls made while a callback runs. -/
def runScript : Script → Eng N → Eng N
  | .done, e => e
  | .send i msg attr cb k, e => runScript k (disprSendMsg (runScript cb) i msg attr e).1
  | .api i c k, e => runScript k (c.run i e)

/-- A callback: what it returns, and the dispatchers after it. -/
def callback (e : Eng N) : MdlRet × Eng N :=
  match e.env with
  | [] => (.success, e)
  | resp :: env => (resp.ret, runScript resp.script { e with env := env })

end Rtl8852cu.Dispr
