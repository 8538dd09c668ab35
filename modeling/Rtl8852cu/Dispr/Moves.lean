import Rtl8852cu.Dispr.Frame

/-!
# The moves of the engine

`Move e e'` lists once all that happens to an engine, between two callbacks, with what is known when
it happens: the guards of the source, or what follows from the code before it.  Every function of
the dispatcher is a run of moves (`Calls`, `Sim`), so that an invariant has to be checked for the
moves only.
-/

namespace Rtl8852cu.Dispr

variable {N : ℕ}

/-! ### What the moves are about -/

/-- What was fixed when an entry was filled in stays; the maps stay or, when the message is
cancelled, are emptied. -/
structure Revised (x x' : PhlDisprMsgEx) : Prop where
  call : x'.call = x.call
  fired : x'.fired = x.fired
  completion : x'.completion = x.completion
  module : x'.module = x.module
  notifyComplete : x'.status.notifyComplete = x.status.notifyComplete
  forAbort : x'.status.forAbort = x.status.forAbort
  prePhase : x'.status.prePhase = x.status.prePhase
  enq : x'.status.enq = x.status.enq
  run : x'.status.run = x.status.run
  cancel : x.status.cancel → x'.status.cancel
  fail : x.status.fail → x'.status.fail
  maps : (x'.premap = x.premap ∧ x'.postmap = x.postmap) ∨ (x'.premap = ∅ ∧ x'.postmap = ∅ ∧ x'.status.cancel)

/-- A request that is only marked as cancelled. -/
structure Marked (x x' : PhlCmdTokenReqEx) : Prop where
  req : x'.req = x.req
  call : x'.call = x.call
  addReqInfo : x'.addReqInfo = x.addReqInfo
  freeReqInfo : x'.freeReqInfo = x.freeReqInfo
  enq : x'.status.enq = x.status.enq
  run : x'.status.run = x.status.run
  lastPermit : x'.status.lastPermit = x.status.lastPermit
  prepare : x'.status.prepare = x.status.prepare
  cancel : x.status.cancel → x'.status.cancel

/-- The place of a priority in the pre-protocol phase. -/
def MdlPri.rank : MdlPri → ℕ
  | .mandatory => 0
  | .optional => 1
  | .role => 2

/-- Module `a` has to answer before module `b`: its priority comes first in the phase, or it has the
priority of `b` and sent the message. -/
def Before (pre : Bool) (owner : Option ℕ) (a b : ℕ) : Prop :=
  ∃ p q, getMdlPriority a = some p ∧ getMdlPriority b = some q ∧
    ((if pre then p.rank < q.rank else q.rank < p.rank) ∨ p = q ∧ owner = some a ∧ b ≠ a)

/-- The modules are linked by their priorities, those that get messages are started, and the
controller is none of them. -/
structure MdlsOk (m : Modules) : Prop where
  priority : ∀ p, ∀ mdl ∈ m.moduleQ p, getMdlPriority mdl.id = some p
  linked : ∀ id ∈ m.bitmap, ∃ p, getMdlPriority id = some p ∧ ∃ mdl ∈ m.moduleQ p, mdl.id = id ∧ mdl.started
  controller : m.controller.id = phlMdlPhyMgnt

/-- The current request, if there is one, runs. -/
def CurRuns (t : TokenQs) : Prop := ∀ r, t.curCmdReq = some r → (t.reqPool r).status.run

/-- The operation that ends request `r` is being handled, and the request is still the one it was
popped for; or the thread leaves. -/
def Ending (e : Eng N) (i : Fin 2) (r : ReqIdx) : Prop :=
  (e.d i).tok.handling = some (.free r, (e.req i r).call) ∨ .left i ∈ e.log

/-- The pre-protocol phase was left out: every module it was waiting for has gone. -/
def PhaseSkipped (log : List (Ev N)) (i : Fin 2) (call : ℕ) : Prop :=
  ∃ pm, pm ≠ ∅ ∧ .taken i call true ∅ pm ∈ log

/-- Clear the bit of module `id` in the map of a phase. -/
def PhlDisprMsgEx.clearBit (ex : PhlDisprMsgEx) (pre : Bool) (id : ℕ) : PhlDisprMsgEx :=
  if pre then { ex with premap := clrBitmapBit ex.premap [id] }
  else { ex with postmap := clrBitmapBit ex.postmap [id] }

/-! ### The moves -/

/-- What happens between two callbacks. -/
inductive Move (e : Eng N) : Eng N → Prop
  -- `dispr_send_msg`
  | sendRefused (i : Fin 2) (msg : PhlMsg) (attr : Option PhlMsgAttribute) (sts : PhlStatus)
      (h : sendErr (e.d i) msg attr = some sts ∨
        sendErr (e.d i) msg attr = none ∧ (e.d i).msgs.idle = [] ∧ sts = .resource) :
      Move e (logSent i (e.d i) msg attr sts none e)
  | sendDropped (i : Fin 2) (msg : PhlMsg) (attr : Option PhlMsgAttribute) (k : Fin N)
      (idle : List (Fin N)) (herr : sendErr (e.d i) msg attr = none)
      (hidle : (e.d i).msgs.idle = k :: idle) (hdrop : Dispr.sendDropped (e.d i) msg attr) :
      Move e (takeDropped i msg attr k e)
  | sendAccepted (i : Fin 2) (msg : PhlMsg) (attr : Option PhlMsgAttribute) (k : Fin N)
      (idle : List (Fin N)) (herr : sendErr (e.d i) msg attr = none)
      (hidle : (e.d i).msgs.idle = k :: idle) (hdrop : ¬ Dispr.sendDropped (e.d i) msg attr) :
      Move e (Dispr.sendAccepted i msg attr k e)
  -- a message that is given back to the pool
  | complete (i : Fin 2) (k : Fin N) (hk : k ∈ (e.d i).msgs.hand) (hf : (e.ex i k).fired = false)
      (hn : (e.ex i k).status.notifyComplete) (hc : (e.ex i k).completion) :
      Move e (completeMsg i k e)
  | completed (i : Fin 2) (k : Fin N) (hk : k ∈ (e.d i).msgs.hand) (hf : (e.ex i k).fired) :
      Move e (e.onEx i k clearNotify)
  | retire (i : Fin 2) (k : Fin N) (hk : k ∈ (e.d i).msgs.hand)
      (hn : ¬ ((e.ex i k).status.notifyComplete ∧ (e.ex i k).completion))
      (hr : (e.ex i k).status.forAbort → CurRuns (e.d i).tok) : Move e (retireMsg i k e)
  -- the queues of messages
  | toWait (i : Fin 2) (k : Fin N) (pend wait : List (Fin N))
      (hp : (e.d i).msgs.pend = k :: pend) (hw : wait.Perm (k :: (e.d i).msgs.wait)) :
      Move e (e.onMsgs i fun q => { q.setEnq k with pend := pend, wait := wait })
  | popWait (i : Fin 2) (k : Fin N) (q : MsgQs N)
      (h : (e.d i).msgs.popFrontWaitMsg = some (k, q)) : Move e (e.onMsgs i fun _ => q)
  | toPend (i : Fin 2) (k : Fin N) (hk : k ∈ (e.d i).msgs.hand) (hf : (e.ex i k).fired = false) :
      Move e (e.onMsgs i fun q =>
        { q.setEnq k with pend := q.pend ++ [k], hand := q.hand.erase k })
  | revise (i : Fin 2) (pool : Fin N → PhlDisprMsgEx) (h : ∀ k, Revised (e.ex i k) (pool k)) :
      Move e (e.onMsgs i fun q => { q with pool := pool })
  -- the dispatch of a message
  | take (i : Fin 2) (k : Fin N) (hk : k ∈ (e.d i).msgs.hand) :
      Move e ((andBitmaps i k e).logEv (.taken i (e.ex i k).call (e.ex i k).status.prePhase
        ((e.ex i k).premap ∩ (e.d i).mdls.bitmap) ((e.ex i k).postmap ∩ (e.d i).mdls.bitmap)))
  | stopped (i : Fin 2) (k : Fin N) (id : ℕ) (pre : Bool) (ret : MdlRet)
      (hk : k ∈ (e.d i).msgs.hand) (hret : stopDispatchMsg ret) :
      Move e (e.logEv (.answer i (e.ex i k).call id pre ret))
  | answered (i : Fin 2) (k : Fin N) (id : ℕ) (pre : Bool) (ret : MdlRet)
      (hk : k ∈ (e.d i).msgs.hand) (hret : stopDispatchMsg ret = false)
      (hid : getMdlPriority id = none ∨ (e.ex i k).status.cancel ∨
        pre = (e.ex i k).status.prePhase ∧ id ∈ (e.ex i k).map pre ∧
          ∀ id' ∈ (e.ex i k).map pre, ¬ Before pre (e.ex i k).module id' id) :
      Move e ((e.logEv (.answer i (e.ex i k).call id pre ret)).onEx i k (·.clearBit pre id))
  | switch (i : Fin 2) (k : Fin N) (hk : k ∈ (e.d i).msgs.hand) (hp : (e.ex i k).premap = ∅) :
      Move e (e.onEx i k fun ex => { ex with status := { ex.status with prePhase := false } })
  | finish (i : Fin 2) (k : Fin N) (hk : k ∈ (e.d i).msgs.hand)
      (hm : (e.ex i k).status.cancel = false → (e.ex i k).status.fail = false →
        (e.ex i k).map (e.ex i k).status.prePhase = ∅ ∧
          ((e.ex i k).postmap = ∅ ∨ PhaseSkipped e.log i (e.ex i k).call)) :
      Move e (e.logEv (.finished i (e.ex i k).call (e.ex i k).status))
  -- the calls on requests
  | addReq (i : Fin 2) (rq : PhlCmdTokenReq) (r : ReqIdx) (t : TokenQs)
      (hr : (e.d i).tok.popFrontIdleReq = some (r, t)) :
      Move e ((e.onTok i fun _ =>
        ((t.fillReq r rq).pushBackTokenOpInfo (.add r) .addCmdReq r).1).logEv
          (.added i t.nreq (genValidHdl r)))
  | linkReq (i : Fin 2) (r : ReqIdx) (type : TokenOpType)
      (ht : type = .freeCmdReq ∨ type = .cancelCmdReq)
      (hr : (e.req i r).status.enq ∨ (e.req i r).status.run ∨ (e.req i r).status.prepare) :
      Move e (e.onTok i fun t => (t.pushBackTokenOpInfo (.free r) type r).1)
  | mark (i : Fin 2) (pool : ReqIdx → PhlCmdTokenReqEx) (h : ∀ r, Marked (e.req i r) (pool r)) :
      Move e (e.onTok i fun t => { t with reqPool := pool })
  -- the token operations
  | popOp (i : Fin 2) (o : OpRef) (q : List OpRef) (h : (e.d i).tok.opQ = o :: q) :
      Move e (e.onTok i fun t => { t with opQ := q, handling := some (o, t.callOf o) })
  | doneOp (i : Fin 2) (o : OpRef) (n : ℕ) (h : (e.d i).tok.handling = some (o, n)) : Move e (e.onTok i fun t =>
        { t.setInfo o { t.info o with used := false } with handling := none })
  | takeReq (i : Fin 2) (r : ReqIdx) (t : TokenQs) (h : (e.d i).tok.popFrontWaitReq = some (r, t))
      (hx : ((e.d i).tok.reqPool r).req.opt = fgCmdOptExclusive → (e.d i).status.exclusiveUse ∨
        .left i ∈ e.log) : Move e (e.onTok i fun _ => t)
  | makeCur (i : Fin 2) (r : ReqIdx) (hr : r ∈ (e.d i).tok.reqHand)
      (henq : (e.req i r).status.enq = false)
      (hcnt : (e.d i).tok.tokenCnt = 0) (hc : (e.d i).status.clearance = false)
      (hw : (e.d i).status.waitAbortMsgDone = false)
      (hx : (e.req i r).req.opt = fgCmdOptExclusive → (e.d i).status.exclusiveUse) :
      Move e (Dispr.makeCur i r e)
  | acquireFailed (i : Fin 2) (r : ReqIdx) (hr : (e.d i).tok.curCmdReq = some r) :
      Move e (e.logEv (.acquireFailed i r (e.d i).tok.opQ))
  | stopRun (i : Fin 2) (r : ReqIdx) (hr : (e.d i).tok.curCmdReq = some r) :
      Move e (e.onReq i r fun ex => { ex with status := { ex.status with run := false } })
  | permit (i : Fin 2) (r : ReqIdx) (b : Bool) (hr : (e.d i).tok.curCmdReq = some r)
      (hrun : (e.req i r).status.run = false) :
      Move e (e.onReq i r fun ex => { ex with status := { ex.status with lastPermit := b } })
  | endCur (i : Fin 2) (r : ReqIdx) (hr : (e.d i).tok.curCmdReq = some r)
      (hrun : (e.req i r).status.run = false) (hp : (e.req i r).status.lastPermit = false)
      (ho : Ending e i r ∨ .acquireFailed i r (e.d i).tok.opQ ∈ e.log) :
      Move e (if (e.d i).status.waitAbortMsgDone then
          pushBackIdleReq i r (dropCur i (e.logEv (.ended i r e.d)))
        else cmdTokenComplete i (pushBackIdleReq i r (dropCur i (e.logEv (.ended i r e.d)))))
  | withdraw (i : Fin 2) (r : ReqIdx) (hr : r ∈ (e.d i).tok.reqWait) :
      Move e ((e.logEv (.withdrawn i r e.d)).onTok i fun t => t.delWaitReq r)
  | endReq (i : Fin 2) (r : ReqIdx) (hr : r ∈ (e.d i).tok.reqHand) (ho : Ending e i r)
      (hp : (e.req i r).status.prepare → .left i ∈ e.log) : Move e (pushBackIdleReq i r e)
  -- the signals
  | acquire (i : Fin 2) (hx : (e.d i).tok.frontReqWithExclusiveOpt)
      (hcnt : (e.d i).tok.tokenCnt = 0) : Move e (phlDispEngClearanceAcquire (ntfyidx i) e)
  | ready (i : Fin 2) (hc : (e.d i).status.clearance) (hcnt : (e.d i).tok.tokenCnt = 0)
      (hw : (e.d i).status.waitAbortMsgDone = false) :
      Move e (phlDispEngExclusiveReady (ntfyidx i) e)
  | gate (i : Fin 2) (hc : (e.d i).status.clearance) (hcnt : (e.d i).tok.tokenCnt = 0) :
      Move e (phlDispEngExclusiveReady (ntfyidx i) (e.logEv (.gate i (e.d i))))
  | tokenComplete (i : Fin 2) (hr : (e.d i).tok.curCmdReq = none)
      (hw : (e.d i).status.waitAbortMsgDone = false) : Move e (cmdTokenComplete i e)
  -- the rest
  | misc (i : Fin 2) (f : CmdDispatcher N → CmdDispatcher N) (hm : ∀ d, (f d).msgs = d.msgs)
      (ht : ∀ d, (f d).tok = d.tok) (hd : ∀ d, (f d).mdls = d.mdls)
      (hc : ∀ d, (f d).status.clearance = d.status.clearance)
      (hx : ∀ d, (f d).status.exclusiveUse = d.status.exclusiveUse)
      (hw : ∀ d, (f d).status.waitAbortMsgDone = d.status.waitAbortMsgDone)
      (hs : ∀ d, (f d).status.started → d.status.started) : Move e (e.modify i f)
  | modules (i : Fin 2) (m : Modules) (hb : (e.d i).mdls.bitmap ⊆ m.bitmap)
      (hm : MdlsOk (e.d i).mdls → MdlsOk m) : Move e (e.onMdls i fun _ => m)
  | deregister (i : Fin 2) (id : ℕ) (m : Modules)
      (hb : ∀ id' ∈ (e.d i).mdls.bitmap, id' ≠ id → id' ∈ m.bitmap)
      (hm : MdlsOk (e.d i).mdls → MdlsOk m) : Move e ((e.logEv (.gone i id)).onMdls i fun _ => m)
  | left (i : Fin 2) : Move e (e.logEv (.left i))
  | env (env : List Resp) : Move e { e with env := env }

abbrev Steps : Eng N → Eng N → Prop := Relation.ReflTransGen Move

theorem Steps.keeps {I : Eng N → Prop} (hI : ∀ e e', Move e e' → I e → I e') {e e' : Eng N}
    (h : Steps e e') (he : I e) : I e' := by
  induction h with
  | refl => exact he
  | tail _ hm ih => exact hI _ _ hm ih

end Rtl8852cu.Dispr
