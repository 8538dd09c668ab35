import Rtl8852cu.Dispr.Runs

/-!
# Exclusive requests

With two bands, a request with `FG_CMD_OPT_EXCLUSIVE` becomes current only when the other dispatcher
has been asked to stay clear (`clearance`) and has answered that it is (`exclusiveUse`).
-/

namespace Rtl8852cu.Dispr

variable {N : ℕ}

/-! ### What most moves leave alone -/

/-- The flags, the requests and the abort messages are as they were. -/
structure Calm (e e' : Eng N) : Prop where
  phyNum : e'.phyNum = e.phyNum
  clearance : ∀ j, (e'.d j).status.clearance = (e.d j).status.clearance
  exclusiveUse : ∀ j, (e'.d j).status.exclusiveUse = (e.d j).status.exclusiveUse
  waitAbort : ∀ j, (e'.d j).status.waitAbortMsgDone = (e.d j).status.waitAbortMsgDone
  cur : ∀ j, (e'.d j).tok.curCmdReq = (e.d j).tok.curCmdReq
  wait : ∀ j, (e'.d j).tok.reqWait = (e.d j).tok.reqWait
  hand : ∀ j, (e'.d j).tok.reqHand = (e.d j).tok.reqHand
  req : ∀ j r, (e'.req j r).req = (e.req j r).req
  run : ∀ j r, (e'.req j r).status.run = (e.req j r).status.run
  prepare : ∀ j r, (e'.req j r).status.prepare = (e.req j r).status.prepare
  abort : ∀ j, ∀ k ∉ (e'.d j).msgs.idle, (e'.ex j k).status.forAbort →
    k ∉ (e.d j).msgs.idle ∧ (e.ex j k).status.forAbort

section

variable {e e' e'' : Eng N} {i j : Fin 2} {k : Fin N} {r : ReqIdx}

theorem Calm.trans (h : Calm e e') (h' : Calm e' e'') : Calm e e'' where
  phyNum := h'.phyNum.trans h.phyNum
  clearance j := (h'.clearance j).trans (h.clearance j)
  exclusiveUse j := (h'.exclusiveUse j).trans (h.exclusiveUse j)
  waitAbort j := (h'.waitAbort j).trans (h.waitAbort j)
  cur j := (h'.cur j).trans (h.cur j)
  wait j := (h'.wait j).trans (h.wait j)
  hand j := (h'.hand j).trans (h.hand j)
  req j r := (h'.req j r).trans (h.req j r)
  run j r := (h'.run j r).trans (h.run j r)
  prepare j r := (h'.prepare j r).trans (h.prepare j r)
  abort j k hk hf := by
    obtain ⟨hk', hf'⟩ := h'.abort j k hk hf
    exact h.abort j k hk' hf'

theorem Calm.of_d (hd : e'.d = e.d) (hp : e'.phyNum = e.phyNum) : Calm e e' := by
  constructor
  all_goals simp_all [Eng.ex, Eng.req]

theorem Calm.logEv (ev : Ev N) : Calm e (e.logEv ev) := .of_d rfl rfl

theorem Calm.onMsgs {f : MsgQs N → MsgQs N}
    (h : ∀ k ∉ (f (e.d i).msgs).idle, ((f (e.d i).msgs).pool k).status.forAbort →
      k ∉ (e.d i).msgs.idle ∧ (e.ex i k).status.forAbort) : Calm e (e.onMsgs i f) := by
  refine ⟨rfl, by simp, by simp, by simp, by simp, by simp, by simp, by simp, by simp, by simp, ?_⟩
  intro j
  rcases eq_or_ne j i with rfl | hj
  · simpa [Eng.ex] using h
  · simpa [Eng.ex, hj] using fun k hk hf => ⟨hk, hf⟩

theorem Calm.onEx {f : PhlDisprMsgEx → PhlDisprMsgEx}
    (hf : (f (e.ex i k)).status.forAbort = (e.ex i k).status.forAbort) :
    Calm e (e.onEx i k f) := by
  refine .onMsgs fun l hl hfl => ⟨hl, ?_⟩
  by_cases hlk : l = k
  · rw [hlk, MsgQs.onEx_self] at hfl
    rw [hlk, ← hf]; exact hfl
  · rwa [MsgQs.onEx_ne _ _ hlk] at hfl

theorem Calm.onMdls {f : Modules → Modules} : Calm e (e.onMdls i f) := by
  refine ⟨rfl, by simp, by simp, by simp, by simp, by simp, by simp, by simp, by simp, by simp, ?_⟩
  intro j k hk hf
  exact ⟨by simpa using hk, by simpa using hf⟩

theorem Calm.onTok {f : TokenQs → TokenQs} (hcur : (f (e.d i).tok).curCmdReq = (e.d i).tok.curCmdReq)
    (hwait : (f (e.d i).tok).reqWait = (e.d i).tok.reqWait)
    (hhand : (f (e.d i).tok).reqHand = (e.d i).tok.reqHand)
    (hreq : ∀ r, ((f (e.d i).tok).reqPool r).req = (e.req i r).req)
    (hrun : ∀ r, ((f (e.d i).tok).reqPool r).status.run = (e.req i r).status.run)
    (hprep : ∀ r, ((f (e.d i).tok).reqPool r).status.prepare = (e.req i r).status.prepare) :
    Calm e (e.onTok i f) := by
  have hpart : ∀ {α : Type} (p : TokenQs → α), p (f (e.d i).tok) = p (e.d i).tok →
      ∀ j, p ((e.onTok i f).d j).tok = p (e.d j).tok := fun p hp j => by
    rcases eq_or_ne j i with rfl | hj
    · simpa using hp
    · simp [hj]
  exact ⟨rfl, by simp, by simp, by simp, hpart (·.curCmdReq) hcur, hpart (·.reqWait) hwait,
    hpart (·.reqHand) hhand, fun j r => hpart (fun t => (t.reqPool r).req) (hreq r) j,
    fun j r => hpart (fun t => (t.reqPool r).status.run) (hrun r) j,
    fun j r => hpart (fun t => (t.reqPool r).status.prepare) (hprep r) j,
    fun j k hk hf => ⟨by simpa using hk, by simpa using hf⟩⟩

theorem Calm.same_tok {f : TokenQs → TokenQs} (h : TokenQs.SameReqs (e.d i).tok (f (e.d i).tok)) :
    Calm e (e.onTok i f) :=
  .onTok h.curCmdReq h.reqWait h.reqHand h.req (fun r => by rw [h.status]; rfl) fun r => by
    rw [h.status]; rfl

inductive Shift (e : Eng N) : Eng N → Prop
  | sendAccepted (i : Fin 2) (msg : PhlMsg) (attr : Option PhlMsgAttribute) (k : Fin N)
      (idle : List (Fin N)) (hidle : (e.d i).msgs.idle = k :: idle) :
      Shift e (Dispr.sendAccepted i msg attr k e)
  | retire (i : Fin 2) (k : Fin N) (hk : k ∈ (e.d i).msgs.hand)
      (hr : (e.ex i k).status.forAbort → CurRuns (e.d i).tok) : Shift e (retireMsg i k e)
  | addReq (i : Fin 2) (rq : PhlCmdTokenReq) (r : ReqIdx) (t : TokenQs)
      (hr : (e.d i).tok.popFrontIdleReq = some (r, t)) :
      Shift e ((e.onTok i fun _ =>
        ((t.fillReq r rq).pushBackTokenOpInfo (.add r) .addCmdReq r).1).logEv
          (.added i t.nreq (genValidHdl r)))
  | takeReq (i : Fin 2) (r : ReqIdx) (t : TokenQs)
      (h : (e.d i).tok.popFrontWaitReq = some (r, t)) : Shift e (e.onTok i fun _ => t)
  | makeCur (i : Fin 2) (r : ReqIdx) (hr : r ∈ (e.d i).tok.reqHand)
      (hcnt : (e.d i).tok.tokenCnt = 0) (hc : (e.d i).status.clearance = false)
      (hw : (e.d i).status.waitAbortMsgDone = false)
      (hx : (e.req i r).req.opt = fgCmdOptExclusive → (e.d i).status.exclusiveUse) :
      Shift e (Dispr.makeCur i r e)
  | stopRun (i : Fin 2) (r : ReqIdx) (hr : (e.d i).tok.curCmdReq = some r) :
      Shift e (e.onReq i r fun ex => { ex with status := { ex.status with run := false } })
  | endCur (i : Fin 2) (r : ReqIdx) (hr : (e.d i).tok.curCmdReq = some r) :
      Shift e (if (e.d i).status.waitAbortMsgDone then
          pushBackIdleReq i r (dropCur i (e.logEv (.ended i r e.d)))
        else cmdTokenComplete i (pushBackIdleReq i r (dropCur i (e.logEv (.ended i r e.d)))))
  | withdraw (i : Fin 2) (r : ReqIdx) (hr : r ∈ (e.d i).tok.reqWait) :
      Shift e ((e.logEv (.withdrawn i r e.d)).onTok i fun t => t.delWaitReq r)
  | endReq (i : Fin 2) (r : ReqIdx) (hr : r ∈ (e.d i).tok.reqHand)
      (hp : (e.req i r).status.prepare → .left i ∈ e.log) : Shift e (pushBackIdleReq i r e)
  | acquire (i : Fin 2) (hx : (e.d i).tok.frontReqWithExclusiveOpt)
      (hcnt : (e.d i).tok.tokenCnt = 0) : Shift e (phlDispEngClearanceAcquire (ntfyidx i) e)
  | ready (i : Fin 2) (hc : (e.d i).status.clearance) (hcnt : (e.d i).tok.tokenCnt = 0)
      (hw : (e.d i).status.waitAbortMsgDone = false) :
      Shift e (phlDispEngExclusiveReady (ntfyidx i) e)
  | gate (i : Fin 2) (hc : (e.d i).status.clearance) (hcnt : (e.d i).tok.tokenCnt = 0) :
      Shift e (phlDispEngExclusiveReady (ntfyidx i) (e.logEv (.gate i (e.d i))))
  | tokenComplete (i : Fin 2) (hr : (e.d i).tok.curCmdReq = none)
      (hw : (e.d i).status.waitAbortMsgDone = false) : Shift e (cmdTokenComplete i e)

theorem takeDropped_calm {msg : PhlMsg} {attr : Option PhlMsgAttribute} {idle : List (Fin N)}
    (hidle : (e.d i).msgs.idle = k :: idle) : Calm e (takeDropped i msg attr k e) := by
  have htake : ∀ f : PhlDisprMsgEx → PhlDisprMsgEx, (∀ x, (f x).status = x.status) →
      Calm e (takeIdle i msg attr k f e) := fun f hf => by
    refine .onMsgs fun l hl hfl => ?_
    by_cases hlk : l = k
    · rw [hlk, MsgQs.onEx_self, hf, (fillMsg_parts ..).2.2.2.2] at hfl; cases hfl
    · rw [MsgQs.onEx_ne _ _ hlk] at hfl
      refine ⟨?_, hfl⟩
      rw [hidle, List.mem_cons, not_or]; exact ⟨hlk, by simpa [hidle] using hl⟩
  have hlog : ∀ (e : Eng N) d sts hdl, Calm e (logSent i d msg attr sts hdl e) := fun e d sts hdl =>
    (Calm.onMsgs fun l hl hfl => ⟨hl, hfl⟩).trans (.logEv _)
  unfold takeDropped
  refine (htake _ fun _ => ?_).trans (hlog _ _ _ _)
  rfl

theorem Calm.requeue {q : MsgQs N → MsgQs N} (f : PhlDisprMsgEx → PhlDisprMsgEx)
    (hidle : (q (e.d i).msgs).idle = (e.d i).msgs.idle)
    (hpool : (q (e.d i).msgs).pool = ((e.d i).msgs.onEx k f).pool)
    (hf : ∀ x, (f x).status.forAbort = x.status.forAbort) : Calm e (e.onMsgs i q) := by
  refine .onMsgs fun l hl hfl => ⟨hidle ▸ hl, ?_⟩
  rw [hpool] at hfl
  by_cases hlk : l = k
  · rw [hlk, MsgQs.onEx_self, hf] at hfl
    rw [hlk]; exact hfl
  · rwa [MsgQs.onEx_ne _ _ hlk] at hfl

theorem Move.calm_or_shift (hm : Move e e') : Calm e e' ∨ Shift e e' := by
  cases hm with
  | sendRefused i msg attr sts hr =>
    exact .inl ((Calm.onMsgs fun k hk hf => ⟨hk, hf⟩).trans (.logEv _))
  | sendDropped i msg attr k idle herr hidle hdrop => exact .inl (takeDropped_calm hidle)
  | sendAccepted i msg attr k idle herr hidle hdrop => exact .inr (.sendAccepted i msg attr k idle hidle)
  | complete i k hk hf hn hc => exact .inl ((Calm.onEx rfl).trans (.logEv _))
  | completed i k hk hf => exact .inl (.onEx rfl)
  | retire i k hk hn hr => exact .inr (.retire i k hk hr)
  | toWait i k pend wait hp hw => exact .inl (.requeue (fun ex =>
      { ex with status := { ex.status with enq := true, run := false } }) rfl rfl fun _ => rfl)
  | popWait i k q hq =>
    unfold MsgQs.popFrontWaitMsg at hq
    cases hw : (e.d i).msgs.wait with
    | nil => simp [hw] at hq
    | cons l wait =>
      simp only [hw, Option.some.injEq, Prod.mk.injEq] at hq
      obtain ⟨rfl, rfl⟩ := hq
      refine .inl (.requeue (fun ex =>
        { ex with status := { ex.status with run := true, enq := false, pending := false } })
        rfl rfl fun _ => rfl)
  | toPend i k hk hf => exact .inl (.requeue (fun ex =>
      { ex with status := { ex.status with enq := true, run := false } }) rfl rfl fun _ => rfl)
  | revise i pool hp =>
    exact .inl (.onMsgs fun k hk hf => ⟨hk, (hp k).forAbort ▸ hf⟩)
  | take i k hk => exact .inl ((Calm.onEx rfl).trans (.logEv _))
  | stopped i k id pre ret hk hret => exact .inl (.logEv _)
  | answered i k id pre ret hk hret hid =>
    refine .inl ((Calm.logEv _).trans (.onEx ?_))
    cases pre <;> rfl
  | switch i k hk hp => exact .inl (.onEx rfl)
  | finish i k hk hm => exact .inl (.logEv _)
  | addReq i rq r t hr => exact .inr (.addReq i rq r t hr)
  | linkReq i r type ht hr => exact .inl (.same_tok (TokenQs.push_sameReqs ..))
  | mark i pool hp =>
    exact .inl (.onTok rfl rfl rfl (fun r => (hp r).req) (fun r => (hp r).run) fun r => (hp r).prepare)
  | popOp i o q hq =>
    exact .inl (.onTok rfl rfl rfl (fun _ => rfl) (fun _ => rfl) fun _ => rfl)
  | doneOp i o n ho =>
    have hsame := (e.d i).tok.setInfo_sameReqs o { (e.d i).tok.info o with used := false }
    exact .inl (.onTok hsame.curCmdReq hsame.reqWait hsame.reqHand hsame.req
      (fun r => by rw [hsame.status]; rfl) fun r => by rw [hsame.status]; rfl)
  | takeReq i r t ht hx => exact .inr (.takeReq i r t ht)
  | makeCur i r hr henq hcnt hc hw hx => exact .inr (.makeCur i r hr hcnt hc hw hx)
  | acquireFailed i r hr => exact .inl (.logEv _)
  | stopRun i r hr => exact .inr (.stopRun i r hr)
  | permit i r b hr hrun =>
    refine .inl (.onTok rfl rfl rfl (fun s => ?_) (fun s => ?_) fun s => ?_)
    all_goals
      by_cases hs : s = r
      · rw [hs, TokenQs.onReq_self]; rfl
      · rw [TokenQs.onReq_ne _ _ hs]; rfl
  | endCur i r hr hrun hp ho => exact .inr (.endCur i r hr)
  | withdraw i r hr => exact .inr (.withdraw i r hr)
  | endReq i r hr ho hp => exact .inr (.endReq i r hr hp)
  | acquire i hx hcnt => exact .inr (.acquire i hx hcnt)
  | ready i hc hcnt hw => exact .inr (.ready i hc hcnt hw)
  | gate i hc hcnt => exact .inr (.gate i hc hcnt)
  | tokenComplete i hr hw => exact .inr (.tokenComplete i hr hw)
  | misc i f hm ht hd hc hx hw hs =>
    have hmsgs := fun j => Eng.modify_part e i j f (·.msgs) hm
    have htok := fun j => Eng.modify_part e i j f (·.tok) ht
    exact .inl ⟨rfl, fun j => Eng.modify_part e i j f (·.status.clearance) hc,
      fun j => Eng.modify_part e i j f (·.status.exclusiveUse) hx,
      fun j => Eng.modify_part e i j f (·.status.waitAbortMsgDone) hw,
      fun j => by rw [htok], fun j => by rw [htok], fun j => by rw [htok],
      fun j r => by rw [Eng.req, htok]; rfl, fun j r => by rw [Eng.req, htok]; rfl,
      fun j r => by rw [Eng.req, htok]; rfl,
      fun j k hk hf => ⟨hmsgs j ▸ hk, by rw [Eng.ex, hmsgs] at hf; exact hf⟩⟩
  | modules i m hb hm => exact .inl .onMdls
  | deregister i id m hb hm => exact .inl ((Calm.logEv _).trans .onMdls)
  | left i => exact .inl (.logEv _)
  | env env => exact .inl (.of_d rfl rfl)

end

/-! ### The guard -/

/-- Dispatcher `j` has been asked to stay clear, and it is: no request, and no abort message. -/
structure Clear (e : Eng N) (j : Fin 2) : Prop where
  asked : (e.d j).status.clearance
  idle : (e.d j).tok.curCmdReq = none
  noAbort : (e.d j).status.waitAbortMsgDone = false

/-- The dispatcher that may use the hardware alone has the other one clear, and an exclusive request
is current only on it. -/
structure Guarded (e : Eng N) : Prop where
  bands : e.phyNum = 2
  granted : ∀ i, (e.d i).status.exclusiveUse → Clear e (ntfyidx i)
  holds : ∀ i r, (e.d i).tok.curCmdReq = some r → (e.req i r).req.opt = fgCmdOptExclusive →
    (e.d i).status.exclusiveUse

/-- A dispatcher waits for its one abort message, and runs no request meanwhile. -/
structure Awaiting (d : CmdDispatcher N) : Prop where
  awaited : ∀ k ∉ d.msgs.idle, (d.msgs.pool k).status.forAbort → d.status.waitAbortMsgDone
  single : ∀ k ∉ d.msgs.idle, ∀ l ∉ d.msgs.idle, (d.msgs.pool k).status.forAbort →
    (d.msgs.pool l).status.forAbort → k = l
  stopped : ∀ r, d.status.waitAbortMsgDone → d.tok.curCmdReq = some r → (d.tok.reqPool r).status.run = false

/-- The dispatchers are guarded, and wait for the ends of their aborts. -/
structure Exclusion (e : Eng N) : Prop where
  guarded : Guarded e
  awaiting : ∀ j, Awaiting (e.d j)

section

variable {e e' : Eng N} {i j : Fin 2} {k : Fin N} {r : ReqIdx}

theorem Clear.calm (h : Clear e j) (hc : Calm e e') : Clear e' j where
  asked := (hc.clearance j).trans h.asked
  idle := (hc.cur j).trans h.idle
  noAbort := (hc.waitAbort j).trans h.noAbort

theorem Guarded.calm (h : Guarded e) (hc : Calm e e') : Guarded e' where
  bands := hc.phyNum.trans h.bands
  granted i hx := (h.granted i (hc.exclusiveUse i ▸ hx)).calm hc
  holds i r hr hopt := by
    rw [hc.exclusiveUse]; exact h.holds i r (hc.cur i ▸ hr) (hc.req i r ▸ hopt)

theorem Awaiting.calm (h : Awaiting (e.d j)) (hc : Calm e e') : Awaiting (e'.d j) where
  awaited k hk hf := by
    obtain ⟨hk', hf'⟩ := hc.abort j k hk hf
    rw [hc.waitAbort]; exact h.awaited k hk' hf'
  single k hk l hl hfk hfl := by
    obtain ⟨hk', hfk'⟩ := hc.abort j k hk hfk
    obtain ⟨hl', hfl'⟩ := hc.abort j l hl hfl
    exact h.single k hk' l hl' hfk' hfl'
  stopped r hw hr :=
    (hc.run j r).trans (h.stopped r (hc.waitAbort j ▸ hw) (hc.cur j ▸ hr))

theorem Exclusion.calm (h : Exclusion e) (hc : Calm e e') : Exclusion e' :=
  ⟨h.guarded.calm hc, fun j => (h.awaiting j).calm hc⟩

theorem enqueueRenew_calm : Calm e (enqueueRenew i e) := by
  unfold enqueueRenew disprEnqueueTokenOpInfo; exact .same_tok (TokenQs.push_sameReqs ..)

theorem setCurPendingEvt_calm {m n : ℕ} : Calm e (e.setCurPendingEvt i m n) := by
  refine ⟨rfl, by simp, by simp, by simp, by simp, by simp, by simp, by simp, by simp, by simp, ?_⟩
  intro j k hk hf
  exact ⟨by simpa using hk, by simpa using hf⟩

theorem onBand_eq (h : e.phyNum = 2) (i : Fin 2) (f : Eng N → Eng N) : onBand i f e = f e := by
  unfold onBand
  rw [if_pos (by rw [h]; exact i.isLt)]

/-! ### The flags -/

theorem Guarded.flags {s : DisprStatus → DisprStatus} (h : Guarded e)
    (hx : (s (e.d i).status).exclusiveUse → Clear e (ntfyidx i))
    (hc : (e.d (ntfyidx i)).status.exclusiveUse →
      (s (e.d i).status).clearance ∧ (s (e.d i).status).waitAbortMsgDone = false)
    (hh : ∀ r, (e.d i).tok.curCmdReq = some r → (e.d i).status.exclusiveUse →
      (s (e.d i).status).exclusiveUse) : Guarded (e.onStatus i s) := by
  have hclear : ∀ j, j ≠ i → Clear e j → Clear (e.onStatus i s) j := fun j hj hcl =>
    ⟨by simpa [hj] using hcl.asked, by simpa using hcl.idle, by simpa [hj] using hcl.noAbort⟩
  refine ⟨h.bands, fun j hj => ?_, fun j r hr hopt => ?_⟩
  · rcases eq_or_ne j i with rfl | hji
    · exact hclear _ (ntfyidx_ne j) (hx (by simpa using hj))
    · have hold : (e.d j).status.exclusiveUse := by simpa [hji] using hj
      obtain rfl : i = ntfyidx j := eq_ntfyidx hji.symm
      rw [ntfyidx_ntfyidx] at hc
      obtain ⟨hasked, hno⟩ := hc hold
      exact ⟨by simpa using hasked, by simpa using (h.granted j hold).idle, by simpa using hno⟩
  · have hr' : (e.d j).tok.curCmdReq = some r := by simpa using hr
    have hold := h.holds j r hr' (by simpa using hopt)
    rcases eq_or_ne j i with rfl | hji
    · simpa using hh r hr' hold
    · simpa [hji] using hold

theorem Guarded.granted' (h : Guarded e) (hx : (e.d (ntfyidx i)).status.exclusiveUse) : Clear e i := by
  have hcl := h.granted _ hx
  rwa [ntfyidx_ntfyidx] at hcl

theorem Guarded.acquire (h : Guarded e) : Guarded (phlDispEngClearanceAcquire i e) := by
  unfold phlDispEngClearanceAcquire
  rw [onBand_eq h.bands]
  exact h.flags (h.granted i) (fun hx => ⟨rfl, (h.granted' hx).noAbort⟩) fun _ _ hx => hx

theorem Guarded.ready (h : Guarded e) (hc : Clear e i) : Guarded (phlDispEngExclusiveReady (ntfyidx i) e) := by
  unfold phlDispEngExclusiveReady
  rw [onBand_eq h.bands]
  unfold disprExclusiveReady
  split
  · exact h
  · refine Guarded.calm (h.flags (fun _ => ?_) (fun hx => ?_) fun _ _ _ => rfl) enqueueRenew_calm
    · rwa [ntfyidx_ntfyidx]
    · have hcl := h.granted' hx; exact ⟨hcl.asked, hcl.noAbort⟩

theorem Guarded.release (h : Guarded e) (hr : (e.d i).tok.curCmdReq = none) : Guarded (releaseExclusive i e) := by
  unfold releaseExclusive
  split
  · have hdown : Guarded (e.onStatus i fun s => { s with exclusiveUse := false }) :=
      h.flags nofun (fun hx => ⟨(h.granted' hx).asked, (h.granted' hx).noAbort⟩) fun r hcur => by
        rw [hr] at hcur; cases hcur
    unfold phlDispEngClearanceRelease
    rw [onBand_eq hdown.bands]
    refine Guarded.calm (hdown.flags (hdown.granted _) (fun hx => ?_) fun _ _ hx => hx)
      enqueueRenew_calm
    rw [ntfyidx_ntfyidx] at hx
    simp at hx
  · exact h

theorem releaseExclusive_self : ((releaseExclusive i e).d i).tok = (e.d i).tok ∧
    ((releaseExclusive i e).d i).status.waitAbortMsgDone = (e.d i).status.waitAbortMsgDone := by
  have hne : i ≠ ntfyidx i := (ntfyidx_ne i).symm
  unfold releaseExclusive phlDispEngClearanceRelease onBand disprClearanceRelease enqueueRenew
    disprEnqueueTokenOpInfo
  split_ifs <;> simp [hne]

theorem Guarded.tokenComplete (h : Guarded e) (hr : (e.d i).tok.curCmdReq = none)
    (hw : (e.d i).status.waitAbortMsgDone = false) : Guarded (cmdTokenComplete i e) := by
  unfold cmdTokenComplete
  split
  · exact h
  · obtain ⟨htok, hwait⟩ := releaseExclusive_self (e := e) (i := i)
    have hrel := h.release hr
    unfold signalReady
    split
    · exact hrel.ready ⟨‹_›, by rwa [htok], by rwa [hwait]⟩
    · exact hrel

/-! ### The requests -/

variable {f : TokenQs → TokenQs}

theorem Guarded.reqs (h : Guarded e) (hc : (e.d (ntfyidx i)).status.exclusiveUse → (f (e.d i).tok).curCmdReq = none)
    (hh : ∀ r, (f (e.d i).tok).curCmdReq = some r →
      ((f (e.d i).tok).reqPool r).req.opt = fgCmdOptExclusive → (e.d i).status.exclusiveUse) :
    Guarded (e.onTok i f) := by
  refine ⟨h.bands, fun j hj => ?_, fun j r hr hopt => ?_⟩
  · have hcl := h.granted j (by simpa using hj)
    refine ⟨by simpa using hcl.asked, ?_, by simpa using hcl.noAbort⟩
    rcases eq_or_ne (ntfyidx j) i with rfl | hji
    · rw [ntfyidx_ntfyidx] at hc; simpa using hc (by simpa using hj)
    · simpa [hji] using hcl.idle
  · rcases eq_or_ne j i with rfl | hji
    · simpa using hh r (by simpa using hr) (by simpa [Eng.req] using hopt)
    · simpa using h.holds j r (by simpa [hji] using hr) (by simpa [Eng.req, hji] using hopt)

theorem Exclusion.reqs (h : Exclusion e)
    (hc : (e.d (ntfyidx i)).status.exclusiveUse → (f (e.d i).tok).curCmdReq = none)
    (hh : ∀ r, (f (e.d i).tok).curCmdReq = some r →
      ((f (e.d i).tok).reqPool r).req.opt = fgCmdOptExclusive → (e.d i).status.exclusiveUse)
    (hs : ∀ r, (e.d i).status.waitAbortMsgDone → (f (e.d i).tok).curCmdReq = some r →
      ((f (e.d i).tok).reqPool r).status.run = false) : Exclusion (e.onTok i f) := by
  refine ⟨h.guarded.reqs hc hh, fun j => ?_⟩
  rcases eq_or_ne j i with rfl | hj
  · refine ⟨?_, ?_, ?_⟩
    · simpa using (h.awaiting j).awaited
    · simpa using (h.awaiting j).single
    · simpa using hs
  · simpa [hj] using h.awaiting j

theorem Exclusion.sameCur (h : Exclusion e) (hcur : (f (e.d i).tok).curCmdReq = (e.d i).tok.curCmdReq)
    (hreq : ∀ r, (e.d i).tok.curCmdReq = some r → ((f (e.d i).tok).reqPool r).req = (e.req i r).req ∧
        ((f (e.d i).tok).reqPool r).status = (e.req i r).status) : Exclusion (e.onTok i f) := by
  refine h.reqs (fun hx => hcur.trans (h.guarded.granted' hx).idle) (fun r hr hopt => ?_)
    fun r hw hr => ?_
  · rw [hcur] at hr
    rw [(hreq r hr).1] at hopt; exact h.guarded.holds i r hr hopt
  · rw [hcur] at hr
    rw [(hreq r hr).2]; exact (h.awaiting i).stopped r hw hr

theorem Exclusion.noCur (h : Exclusion e) (hcur : (f (e.d i).tok).curCmdReq = none) : Exclusion (e.onTok i f) :=
  h.reqs (fun _ => hcur) (fun r hr => by simp [hcur] at hr) fun r _ hr => by simp [hcur] at hr

theorem Exclusion.giveBack (h : Exclusion e) (hr : (e.d i).tok.curCmdReq ≠ some r) :
    Exclusion (pushBackIdleReq i r e) := by
  refine (h.calm setCurPendingEvt_calm).sameCur rfl fun s hs => ?_
  have hsr : s ≠ r := fun heq => hr (by simpa [heq] using hs)
  simp [TokenQs.pushIdle, hsr, Eng.req]

theorem Exclusion.makeCur (h : Exclusion e) (hc : (e.d i).status.clearance = false)
    (hw : (e.d i).status.waitAbortMsgDone = false)
    (hx : (e.req i r).req.opt = fgCmdOptExclusive → (e.d i).status.exclusiveUse) :
    Exclusion (Dispr.makeCur i r e) := by
  rw [makeCur_eq]
  refine h.reqs (fun hx' => ?_) (fun s hs hopt => ?_) fun s hw' => ?_
  · have hasked := (h.guarded.granted' hx').asked; simp [hc] at hasked
  · cases hs; exact hx (by simpa [Eng.req] using hopt)
  · simp [hw] at hw'

/-! ### The abort messages -/

/-- Whether a dispatcher waits for its abort message does not change. -/
abbrev SameWait (e e' : Eng N) : Prop :=
  ∀ j, (e'.d j).status.waitAbortMsgDone = (e.d j).status.waitAbortMsgDone

theorem Awaiting.congr {d d' : CmdDispatcher N} (h : Awaiting d) (hm : d'.msgs = d.msgs)
    (hw : d'.status.waitAbortMsgDone = d.status.waitAbortMsgDone)
    (hcur : d'.tok.curCmdReq = d.tok.curCmdReq)
    (hst : ∀ r, (d'.tok.reqPool r).status = (d.tok.reqPool r).status) : Awaiting d' := by
  refine ⟨?_, ?_, fun r hwd hr => ?_⟩
  · rw [hm, hw]; exact h.awaited
  · rw [hm]; exact h.single
  · rw [hst]; exact h.stopped r (hw ▸ hwd) (hcur ▸ hr)

theorem Awaiting.signals (h : Awaiting (e.d j)) (hs : Signals e e') (hw : SameWait e e') : Awaiting (e'.d j) := by
  have hsame := (hs.tok j).sameReqs.1
  exact h.congr (hs.msgs j) (hw j) hsame.curCmdReq hsame.status

theorem SameWait.trans {e'' : Eng N} (h : SameWait e e') (h' : SameWait e' e'') : SameWait e e'' :=
  fun j => (h' j).trans (h j)

theorem SameWait.flag {s : DisprStatus → DisprStatus}
    (h : ∀ x, (s x).waitAbortMsgDone = x.waitAbortMsgDone) : SameWait e (e.onStatus i s) :=
  fun j => Eng.modify_part e i j _ (·.status.waitAbortMsgDone) fun d => h d.status

theorem SameWait.onBand {f : Eng N → Eng N} (h : SameWait e (f e)) : SameWait e (onBand i f e) := by
  unfold Dispr.onBand
  split
  · exact h
  · exact fun _ => rfl

theorem SameWait.acquire : SameWait e (phlDispEngClearanceAcquire i e) := .onBand (.flag fun _ => rfl)

theorem SameWait.ready : SameWait e (phlDispEngExclusiveReady i e) := by
  refine .onBand ?_
  unfold disprExclusiveReady
  split
  · exact fun _ => rfl
  · exact (SameWait.flag (i := i) (s := fun s => { s with exclusiveUse := true })
      fun _ => rfl).trans enqueueRenew_calm.waitAbort

theorem SameWait.tokenComplete : SameWait e (cmdTokenComplete i e) := by
  have hdown : ∀ e : Eng N, SameWait e (disprClearanceRelease (ntfyidx i) e) := fun e =>
    (SameWait.flag (i := ntfyidx i) (s := fun s => { s with clearance := false })
      fun _ => rfl).trans enqueueRenew_calm.waitAbort
  have hrel : SameWait e (releaseExclusive i e) := by
    unfold releaseExclusive
    split
    · exact (SameWait.flag (i := i) (s := fun s => { s with exclusiveUse := false })
        fun _ => rfl).trans (.onBand (hdown _))
    · exact fun _ => rfl
  unfold cmdTokenComplete
  split
  · exact fun _ => rfl
  · refine hrel.trans ?_
    unfold signalReady
    split
    · exact .ready
    · exact fun _ => rfl

theorem Exclusion.tokenComplete (h : Exclusion e) (hr : (e.d i).tok.curCmdReq = none)
    (hw : (e.d i).status.waitAbortMsgDone = false) : Exclusion (cmdTokenComplete i e) :=
  ⟨h.guarded.tokenComplete hr hw, fun j => (h.awaiting j).signals .tokenComplete .tokenComplete⟩

theorem Exclusion.ready (h : Exclusion e) (hc : Clear e i) : Exclusion (phlDispEngExclusiveReady (ntfyidx i) e) :=
  ⟨h.guarded.ready hc, fun j => (h.awaiting j).signals .exclusiveReady .ready⟩

theorem Exclusion.acquire (h : Exclusion e) : Exclusion (phlDispEngClearanceAcquire i e) :=
  ⟨h.guarded.acquire, fun j => (h.awaiting j).signals .clearanceAcquire .acquire⟩

theorem Guarded.congr (h : Guarded e) (hp : e'.phyNum = e.phyNum)
    (hs : ∀ j, (e'.d j).status = (e.d j).status) (ht : ∀ j, (e'.d j).tok = (e.d j).tok) :
    Guarded e' where
  bands := hp.trans h.bands
  granted i hx := by
    have hcl := h.granted i (hs i ▸ hx)
    exact ⟨by rw [hs]; exact hcl.asked, by rw [ht]; exact hcl.idle, by rw [hs]; exact hcl.noAbort⟩
  holds i r hr hopt := by
    rw [Eng.req, ht] at hopt
    rw [hs]; exact h.holds i r (ht i ▸ hr) hopt

theorem sentInLastPermit_cur {msg : PhlMsg} (ht : TokOk (e.d i).tok) (hs : sentInLastPermit (e.d i) msg) :
    ∃ r, (e.d i).tok.curCmdReq = some r ∧ (e.req i r).status.run = false := by
  have hp : (getCurCmdReqId (e.d i).tok).2.lastPermit := by
    unfold sentInLastPermit at hs
    simpa using (Bool.and_eq_true _ _ ▸ hs : _ ∧ _).2
  unfold getCurCmdReqId at hp
  cases hcur : (e.d i).tok.curCmdReq with
  | none => simp [hcur, ReqStatus.zero] at hp
  | some r =>
    have hlast : ((e.d i).tok.reqPool r).status.lastPermit := by
      simp only [hcur] at hp
      split at hp <;> exact hp
    exact ⟨r, rfl, ((ht.reqs.flags r).permit hlast).2⟩

section Accepted

variable {msg : PhlMsg} {attr : Option PhlMsgAttribute}

theorem sendAccepted_tok : ((sendAccepted i msg attr k e).d j).tok = (e.d j).tok := by
  simp only [sendAccepted]
  split <;> simp [logSent, takeIdle]

theorem sendAccepted_phyNum : (sendAccepted i msg attr k e).phyNum = e.phyNum := by
  simp only [sendAccepted]
  split <;> rfl

theorem sendAccepted_status : ((sendAccepted i msg attr k e).d j).status = ((if sentInLastPermit (e.d i) msg then
      e.onStatus i fun s => { s with waitAbortMsgDone := true } else e).d j).status := by
  simp only [sendAccepted]
  split
  · rcases eq_or_ne j i with rfl | hj
    · simp [logSent, takeIdle]
    · simp [logSent, takeIdle, hj]
  · simp [logSent, takeIdle]

variable {idle : List (Fin N)}

theorem sendAccepted_abort (hidle : (e.d i).msgs.idle = k :: idle) {l : Fin N}
    (hl : l ∉ ((sendAccepted i msg attr k e).d i).msgs.idle)
    (hfl : ((sendAccepted i msg attr k e).ex i l).status.forAbort) :
    l = k ∧ sentInLastPermit (e.d i) msg ∨ l ∉ (e.d i).msgs.idle ∧ (e.ex i l).status.forAbort := by
  obtain ⟨q, hq, hpool, hqi⟩ : ∃ q : MsgQs N, ((sendAccepted i msg attr k e).d i).msgs = q.enqueueMsg k ∧
      (∀ x, (q.pool x).status.forAbort = if x = k then sentInLastPermit (e.d i) msg else (e.ex i x).status.forAbort) ∧
      q.idle = idle := by
    refine ⟨_, by simp only [sendAccepted, Eng.onMsgs_self]; rfl, fun x => ?_, ?_⟩
    · by_cases hx : x = k <;> split <;> simp [logSent, takeIdle, hx, Eng.ex]
    · split <;> simp [logSent, takeIdle, hidle]
  obtain ⟨w, -, heq⟩ := q.enqueueMsg_eq k
  rw [hq, heq] at hl
  rw [Eng.ex, hq, heq] at hfl
  have hli : l ∉ idle := hqi ▸ hl
  by_cases hlk : l = k
  · have hk : (q.pool k).status.forAbort := by simpa [hlk, MsgQs.setEnq] using hfl
    rw [hpool, if_pos rfl] at hk; exact .inl ⟨hlk, hk⟩
  · have hold : (q.pool l).status.forAbort := by simpa [hlk, MsgQs.setEnq] using hfl
    rw [hpool, if_neg hlk] at hold; exact .inr ⟨by simp [hidle, hlk, hli], hold⟩

theorem sendAccepted_ne (hj : j ≠ i) : ((sendAccepted i msg attr k e).d j) = e.d j := by
  simp only [sendAccepted]
  split <;> simp [logSent, takeIdle, hj]

theorem sendAccepted_calm (hidle : (e.d i).msgs.idle = k :: idle)
    (hs : ¬ sentInLastPermit (e.d i) msg) : Calm e (sendAccepted i msg attr k e) := by
  have hst : ∀ j, ((sendAccepted i msg attr k e).d j).status = (e.d j).status := fun j => by
    simp [sendAccepted_status, hs]
  refine ⟨sendAccepted_phyNum, fun j => by rw [hst], fun j => by rw [hst], fun j => by rw [hst],
    fun j => by rw [sendAccepted_tok], fun j => by rw [sendAccepted_tok],
    fun j => by rw [sendAccepted_tok], fun j r => by rw [Eng.req, sendAccepted_tok]; rfl,
    fun j r => by rw [Eng.req, sendAccepted_tok]; rfl,
    fun j r => by rw [Eng.req, sendAccepted_tok]; rfl, fun j l hl hfl => ?_⟩
  rcases eq_or_ne j i with rfl | hj
  · exact (sendAccepted_abort hidle hl hfl).resolve_left fun hnew => hs hnew.2
  · rw [sendAccepted_ne hj] at hl
    rw [Eng.ex, sendAccepted_ne hj] at hfl; exact ⟨hl, hfl⟩

theorem Exclusion.sent (h : Exclusion e) (ht : TokOk (e.d i).tok) (hidle : (e.d i).msgs.idle = k :: idle)
    (hw : sentInLastPermit (e.d i) msg → (e.d i).status.waitAbortMsgDone = false) :
    Exclusion (sendAccepted i msg attr k e) := by
  by_cases hs : sentInLastPermit (e.d i) msg
  · obtain ⟨r, hcur, hrun⟩ := sentInLastPermit_cur ht hs
    have hflag : Guarded (e.onStatus i fun s => { s with waitAbortMsgDone := true }) :=
      h.guarded.flags (h.guarded.granted i) (fun hx => by
        have hnone := (h.guarded.granted' hx).idle
        rw [hcur] at hnone; cases hnone) fun _ _ hx => hx
    refine ⟨hflag.congr sendAccepted_phyNum (fun j => ?_) fun j => by simp [sendAccepted_tok], fun j => ?_⟩
    · rw [sendAccepted_status, if_pos hs]
    · rcases eq_or_ne j i with rfl | hj
      · have hnew : ∀ l ∉ ((sendAccepted j msg attr k e).d j).msgs.idle,
            ((sendAccepted j msg attr k e).ex j l).status.forAbort → l = k := fun l hl hfl => by
          rcases sendAccepted_abort hidle hl hfl with ⟨hlk, -⟩ | ⟨hl', hfl'⟩
          · exact hlk
          · have hwait := (h.awaiting j).awaited l hl' hfl'; simp [hw hs] at hwait
        refine ⟨fun l hl hfl => by simp [sendAccepted_status, hs], fun l hl l' hl' hfl hfl' => ?_, fun s _ hjs => ?_⟩
        · rw [hnew l hl hfl, hnew l' hl' hfl']
        · rw [sendAccepted_tok] at hjs ⊢
          rw [hcur] at hjs
          cases hjs
          exact hrun
      · rw [sendAccepted_ne hj]; exact h.awaiting j
  · exact h.calm (sendAccepted_calm hidle hs)

end Accepted

theorem retireMsg_abort {l : Fin N} (hl : l ∉ ((retireMsg i k e).d i).msgs.idle)
    (hfl : ((retireMsg i k e).ex i l).status.forAbort) :
    l ≠ k ∧ l ∉ (e.d i).msgs.idle ∧ (e.ex i l).status.forAbort := by
  rw [retireMsg_self] at hl
  rw [Eng.ex, retireMsg_self] at hfl
  obtain ⟨hli, hlk⟩ : l ∉ (e.d i).msgs.idle ∧ l ≠ k := by simpa [MsgQs.pushIdle] using hl
  rw [MsgQs.pushIdle] at hfl; exact ⟨hlk, hli, by simpa [hlk, Eng.ex] using hfl⟩

theorem retireMsg_calm (hf : ¬ (e.ex i k).status.forAbort) : Calm e (retireMsg i k e) := by
  have hsig : abortSignal i k e = e := by
    unfold abortSignal
    rw [if_neg hf]
  have htok : ∀ j, ((retireMsg i k e).d j).tok = (e.d j).tok := fun j => by
    rw [(retireMsg_parts e i j k).2.2.1, hsig]
  have hst : ∀ j, ((retireMsg i k e).d j).status = (e.d j).status := fun j => by
    rw [(retireMsg_parts e i j k).2.2.2.2, hsig]
  refine ⟨(retireMsg_parts e i i k).2.1, fun j => by rw [hst], fun j => by rw [hst],
    fun j => by rw [hst], fun j => by rw [htok], fun j => by rw [htok], fun j => by rw [htok],
    fun j r => by rw [Eng.req, htok]; rfl, fun j r => by rw [Eng.req, htok]; rfl,
    fun j r => by rw [Eng.req, htok]; rfl, fun j l hl hfl => ?_⟩
  rcases eq_or_ne j i with rfl | hj
  · exact (retireMsg_abort hl hfl).2
  · rw [retireMsg_ne e k hj] at hl
    rw [Eng.ex, retireMsg_ne e k hj] at hfl; exact ⟨hl, hfl⟩

theorem Guarded.abortMsgComplete (h : Guarded e) (hr : (e.d i).tok.curCmdReq = none) :
    Guarded (onAbortMsgComplete i e) := by
  have hdone : Guarded (e.onStatus i fun s => { s with waitAbortMsgDone := false }) :=
    h.flags (h.granted i) (fun hx => ⟨(h.granted' hx).asked, rfl⟩) fun _ _ hx => hx
  unfold onAbortMsgComplete
  exact (hdone.tokenComplete (by simpa using hr) (by simp)).calm enqueueRenew_calm

theorem onAbortMsgComplete_wait : ((onAbortMsgComplete i e).d j).status.waitAbortMsgDone =
    if j = i then false else (e.d j).status.waitAbortMsgDone := by
  unfold onAbortMsgComplete
  rw [enqueueRenew_calm.waitAbort, SameWait.tokenComplete]
  split_ifs with hj
  · rw [hj]; simp
  · simp [hj]

theorem Exclusion.retire (h : Exclusion e) (hk : k ∉ (e.d i).msgs.idle)
    (hr : (e.ex i k).status.forAbort → CurRuns (e.d i).tok) : Exclusion (retireMsg i k e) := by
  by_cases hf : (e.ex i k).status.forAbort
  · have hcur : (e.d i).tok.curCmdReq = none := by
      cases hc : (e.d i).tok.curCmdReq with
      | none => rfl
      | some r =>
        have hrun := (h.awaiting i).stopped r ((h.awaiting i).awaited k hk hf) hc
        simp [hr hf r hc] at hrun
    have hsig : abortSignal i k e = onAbortMsgComplete i e := by
      unfold abortSignal
      rw [if_pos hf]
    have hst : ∀ j, ((retireMsg i k e).d j).status = ((onAbortMsgComplete i e).d j).status :=
      fun j => by rw [(retireMsg_parts e i j k).2.2.2.2, hsig]
    have htok : ∀ j, ((retireMsg i k e).d j).tok = ((onAbortMsgComplete i e).d j).tok :=
      fun j => by rw [(retireMsg_parts e i j k).2.2.1, hsig]
    have hphy : (retireMsg i k e).phyNum = (onAbortMsgComplete i e).phyNum :=
      (retireMsg_parts e i i k).2.1.trans Signals.abortMsgComplete.phyNum.symm
    refine ⟨(h.guarded.abortMsgComplete hcur).congr hphy hst htok, fun j => ?_⟩
    rcases eq_or_ne j i with rfl | hj
    · have hwait : ((retireMsg j k e).d j).status.waitAbortMsgDone = false := by
        rw [hst, onAbortMsgComplete_wait, if_pos rfl]
      -- it was the only one
      have hnone : ∀ l ∉ ((retireMsg j k e).d j).msgs.idle,
          ¬ ((retireMsg j k e).ex j l).status.forAbort := fun l hl hfl => by
        obtain ⟨hlk, hli, hfl'⟩ := retireMsg_abort hl hfl
        exact hlk ((h.awaiting j).single l hli k hk hfl' hf)
      exact ⟨fun l hl hfl => absurd hfl (hnone l hl), fun l hl _ _ hfl => absurd hfl (hnone l hl),
        fun r hw => by simp [hwait] at hw⟩
    · have hsig' : Signals e (onAbortMsgComplete i e) := .abortMsgComplete
      have hsame := (hsig'.tok j).sameReqs.1
      refine (h.awaiting j).congr (retireMsg_ne e k hj) ?_ ?_ fun r => ?_
      · rw [hst, onAbortMsgComplete_wait, if_neg hj]
      · rw [htok, hsame.curCmdReq]
      · rw [htok, hsame.status]
  · exact h.calm (retireMsg_calm hf)

/-! ### The moves -/

/-- The two events after which a dispatcher may signal although an abort message is on its way: it
reports that it is clear without a look at the flag, or it accepts a second abort message. -/
def Ev.fair : Ev N → Bool
  | .gate _ d => !d.status.waitAbortMsgDone
  | .sent _ _ d msg _ sts _ =>
    !(decide (sts = .success) && sentInLastPermit d msg && d.status.waitAbortMsgDone)
  | _ => true

theorem Exclusion.shift (h : Exclusion e) (hs : Shift e e') (ht : ∀ j, TokOk (e.d j).tok)
    (hm : ∀ j, MsgsOk j (e.d j).msgs e.log) (hf : ∀ ev ∈ e'.log, ev.fair) : Exclusion e' := by
  cases hs with
  | sendAccepted i msg attr k idle hidle =>
    have hfair := hf (.sent i (e.d i).msgs.nsend (e.d i) msg attr .success (some (genValidHdl k)))
      (by
        simp only [Dispr.sendAccepted]
        split <;> simp [logSent])
    exact h.sent (ht i) hidle fun hs => by simpa [Ev.fair, hs] using hfair
  | retire i k hk hr => exact h.retire ((hm i).not_idle_of_hand hk) hr
  | addReq i rq r t hr =>
    obtain ⟨idle, hidle, heq⟩ := fillReq_eq rq hr
    have hcur : (e.d i).tok.curCmdReq ≠ some r := fun hc =>
      (ht i).reqs.not_idle (r := r) (by simp [hc]) (by simp [hidle])
    have hpush := (t.fillReq r rq).push_sameReqs (.add r) .addCmdReq r
    refine Exclusion.calm (h.sameCur ?_ fun s hs => ?_) (.logEv _)
    · rw [hpush.curCmdReq, heq]; rfl
    · have hsr : s ≠ r := fun heq => hcur (heq ▸ hs)
      rw [hpush.req, hpush.status, heq]
      simp [hsr, Eng.req]
  | takeReq i r t hpop =>
    obtain ⟨wait, hwait, rfl⟩ := popFrontWaitReq_eq hpop
    have hr : (e.d i).tok.curCmdReq ≠ some r := (ht i).reqs.not_cur_of_wait (by simp [hwait])
    refine h.sameCur rfl fun s hs => ?_
    have hsr : s ≠ r := fun heq => hr (heq ▸ hs)
    simp [hsr, Eng.req]
  | makeCur i r hr hcnt hc hw hx => exact h.makeCur hc hw hx
  | stopRun i r hr =>
    refine h.reqs (fun hx => (h.guarded.granted' hx).idle) (fun s hs hopt => ?_) fun s _ hs => ?_
    · obtain rfl : r = s := by simpa [hr] using hs
      exact h.guarded.holds i r hr (by simpa [Eng.req] using hopt)
    · obtain rfl : r = s := by simpa [hr] using hs
      simp
  | endCur i r hr =>
    have hdrop : Exclusion (dropCur i (e.logEv (.ended i r e.d))) :=
      (h.calm (.logEv _)).noCur rfl
    have hback : Exclusion (pushBackIdleReq i r (dropCur i (e.logEv (.ended i r e.d)))) :=
      hdrop.giveBack (by simp [dropCur])
    split_ifs with hw
    · exact hback
    · refine hback.tokenComplete ?_ ?_
      · rw [pushBackIdleReq_tok]; simp [dropCur, TokenQs.pushIdle]
      · simpa [pushBackIdleReq, dropCur] using hw
  | withdraw i r hr =>
    exact (h.calm (.logEv _)).sameCur rfl fun _ _ => ⟨rfl, rfl⟩
  | endReq i r hr hp => exact h.giveBack ((ht i).reqs.not_cur_of_hand hr)
  | acquire i hx hcnt => exact h.acquire
  | ready i hc hcnt hw => exact h.ready ⟨hc, (ht i).reqs.cur_eq_none hcnt, hw⟩
  | gate i hc hcnt =>
    have hfair := hf (.gate i (e.d i)) (by
      rw [Signals.exclusiveReady.log]
      simp)
    have hw : (e.d i).status.waitAbortMsgDone = false := by simpa [Ev.fair] using hfair
    exact (h.calm (.logEv _)).ready ⟨hc, (ht i).reqs.cur_eq_none hcnt, hw⟩
  | tokenComplete i hr hw => exact h.tokenComplete hr hw

theorem Move.exclusion (hm : Move e e') (hs : Sound e) (h : (∀ ev ∈ e.log, ev.fair) → Exclusion e)
    (hf : ∀ ev ∈ e'.log, ev.fair) : Exclusion e' := by
  have he : Exclusion e := h fun ev hev => hf ev (hm.log.subset hev)
  rcases hm.calm_or_shift with hc | hshift
  · exact he.calm hc
  · exact he.shift hshift hs.tok hs.msgs hf

theorem Exclusion.start {ctrl : Fin 2 → Bool} : Exclusion (Eng.start (N := N) 2 ctrl) where
  guarded := ⟨rfl, fun i h => by simp [Eng.start, CmdDispatcher.start] at h,
    fun i r h => by simp [Eng.start, CmdDispatcher.start] at h⟩
  awaiting i := ⟨fun k hk => absurd (List.mem_finRange k) hk, fun k hk => absurd (List.mem_finRange k) hk,
    fun r h => by simp [Eng.start, CmdDispatcher.start] at h⟩

/-- Request `r` of dispatcher `i` is alone: the other dispatcher has no current request, does not
wait for the end of an abort, and has no message out of the pool that was sent in one. -/
structure Alone (e : Eng N) (i : Fin 2) : Prop where
  noCur : (e.d (ntfyidx i)).tok.curCmdReq = none
  noWait : (e.d (ntfyidx i)).status.waitAbortMsgDone = false
  noAbort : ∀ k ∉ (e.d (ntfyidx i)).msgs.idle, (e.ex (ntfyidx i) k).status.forAbort = false

/-- **An exclusive request is alone, in a fair run.**  In a run of two dispatchers, wherever it has
got to, an exclusive request that is current on one of them is alone: if so far no dispatcher reported,
before the loop of `token_op_hanler`, that it is clear while it waited for an abort message, and none
was to send a second abort message while it waited for one. -/
theorem exclusive_alone {ctrl : Fin 2 → Bool} (hrun : Run (fun _ _ => True) (Eng.start 2 ctrl) e)
    (hs : Steps e e') (hf : ∀ ev ∈ e'.log, ev.fair) (hr : (e'.d i).tok.curCmdReq = some r)
    (hx : (e'.req i r).req.opt = fgCmdOptExclusive) : Alone e' i := by
  have hsteps : Steps (Eng.start 2 ctrl) e' := (Run.steps .start hrun).1.trans hs
  have h : Exclusion e' := hsteps.invariant (fun _ _ hm hs _ h => hm.exclusion hs h)
    AtRest.start.sound (fun _ => .start) hf
  have hcl := h.guarded.granted i (h.guarded.holds i r hr hx)
  refine ⟨hcl.idle, hcl.noAbort, fun k hk => ?_⟩
  by_contra hfk
  have hwait := (h.awaiting _).awaited k hk (by simpa [Eng.ex] using hfk)
  simp [hcl.noAbort] at hwait

/-- A message of the requestor of a request that is being aborted, marked as one to be sent then. -/
def abortSend (k : Script) : Script :=
  .send 1 ⟨{ MsgId.zero with mdlId := 200, evtId := 5 }, none⟩
    (some { PhlMsgAttribute.zero with sendInAbort := true }) .done k

/-- The current request of the second dispatcher is cancelled, and what its abort sends is pending when an
exclusive request is added to the first one. -/
def abortPends (abort : Script) : List Op :=
  [.api 1 (.addTokenReq (some ⟨200, 0, true⟩) true), .tokenGate 1, .tokenOp 1 [], .dispatch 1 [],
    .api 1 (.cancelTokenReq (some (genValidHdl 0))), .tokenGate 1, .tokenOp 1 [⟨.success, abort⟩],
    .dispatch 1 [⟨.pending, .done⟩],
    .api 0 (.addTokenReq (some ⟨201, fgCmdOptExclusive, true⟩) true), .tokenGate 0, .tokenOp 0 [],
    .dispatch 0 [], .tokenGate 1, .tokenGate 0, .tokenOp 0 []]

def aborting (abort : Script) : Eng 4 := (abortPends abort).foldl Op.run (Eng.start 2 fun _ => true)

theorem aborting_run (abort : Script) : Run (fun _ _ => True) (Eng.start 2 fun _ => true) (aborting abort) :=
  Lib.Reach.foldl _ fun _ _ _ => trivial

/-- When the abort sends nothing, the exclusive request is alone. -/
theorem exclusive_alone_aborting : Alone (aborting .done) 0 :=
  exclusive_alone (r := 0) (aborting_run .done) .refl (by decide) (by decide)
    (by decide)

/-- When it sends a message, the exclusive request is current while the message is on its way. -/
theorem not_exclusive_alone : ¬ ∀ e : Eng 4, Run (fun _ _ => True) (Eng.start 2 fun _ => true) e →
    ∀ i r, (e.d i).tok.curCmdReq = some r → (e.req i r).req.opt = fgCmdOptExclusive →
      (e.d (ntfyidx i)).tok.curCmdReq = none ∧ (e.d (ntfyidx i)).status.waitAbortMsgDone = false := by
  intro h
  have halone := h _ (aborting_run (abortSend .done)) 0 0 (by decide) (by decide)
  have hwait : ((aborting (abortSend .done)).d 1).status.waitAbortMsgDone := by decide
  simp [ntfyidx, hwait] at halone

end

end Rtl8852cu.Dispr
