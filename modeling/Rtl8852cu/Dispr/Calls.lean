import Rtl8852cu.Dispr.Ledger
import Rtl8852cu.Dispr.Requests

/-!
# The calls into the dispatchers

What a callback, or another thread, can do while a function of the shared thread runs.

* `Sound`: the ledger, the requests and the modules are in order; every move keeps this;
* `Quiet e e'`: what a function holds, the current requests, the modules and the signals between the
  dispatchers are in `e'` as they were in `e`;
* `Tame f`: from a sound state `f` is a run of moves, and quiet;
* `runScript_tame`, `callback_tame`: a callback is tame.
-/

namespace Rtl8852cu.Dispr

variable {N : ℕ} {e e' e'' : Eng N} {i j : Fin 2} {k : Fin N}

/-! ### Sound states -/

/-- The parts of both dispatchers are in order. -/
structure Sound (e : Eng N) : Prop where
  msgs : ∀ j, MsgsOk j (e.d j).msgs e.log
  tok : ∀ j, TokOk (e.d j).tok
  mdls : ∀ j, MdlsOk (e.d j).mdls

theorem Move.mdlsOk (hm : Move e e') (h : ∀ j, MdlsOk (e.d j).mdls) (j : Fin 2) : MdlsOk (e'.d j).mdls := by
  have hon : ∀ (e : Eng N) (i : Fin 2) (m : Modules), (∀ j, MdlsOk (e.d j).mdls) →
      (MdlsOk (e.d i).mdls → MdlsOk m) → MdlsOk ((e.onMdls i fun _ => m).d j).mdls := by
    intro e i m h hm
    rcases eq_or_ne j i with rfl | hj
    · simpa using hm (h j)
    · simpa [hj] using h j
  cases hm with
  | sendAccepted i msg attr k idle herr hidle hdrop =>
    simp only [Dispr.sendAccepted]
    split <;> simpa [logSent, takeIdle] using h j
  | retire i k hk hn hr =>
    rw [(retireMsg_parts e i j k).2.2.2.1]; exact h j
  | endCur i r hr hrun hp ho =>
    have hdrop : MdlsOk ((pushBackIdleReq i r (dropCur i (e.logEv (.ended i r e.d)))).d j).mdls := by
      simpa [pushBackIdleReq, dropCur] using h j
    split
    · exact hdrop
    · rw [Signals.tokenComplete.mdls]; exact hdrop
  | acquire i hx hcnt => rw [Signals.clearanceAcquire.mdls]; exact h j
  | ready i hc hcnt hw => rw [Signals.exclusiveReady.mdls]; exact h j
  | gate i hc hcnt => rw [Signals.exclusiveReady.mdls]; exact h j
  | tokenComplete i hr hw => rw [Signals.tokenComplete.mdls]; exact h j
  | misc i f hm ht hd =>
    rw [Eng.modify_part e i j f (·.mdls) hd]; exact h j
  | modules i m hb hm => exact hon e i m h hm
  | deregister i id m hb hm => exact hon (e.logEv _) i m h hm
  | _ =>
    simpa [logSent, takeDropped, takeIdle, completeMsg, andBitmaps, Dispr.makeCur, pushBackIdleReq] using h j

theorem Move.sound (hm : Move e e') (h : Sound e) : Sound e' := ⟨hm.msgsOk h.msgs, hm.tokOk h.tok, hm.mdlsOk h.mdls⟩

theorem Steps.sound (hs : Steps e e') (h : Sound e) : Sound e' := hs.keeps (fun _ _ => Move.sound) h

/-! ### What a call leaves alone -/

theorem Revised.refl (x : PhlDisprMsgEx) : Revised x x :=
  ⟨rfl, rfl, rfl, rfl, rfl, rfl, rfl, rfl, rfl, id, id, .inl ⟨rfl, rfl⟩⟩

theorem Revised.trans {x y z : PhlDisprMsgEx} (h : Revised x y) (h' : Revised y z) : Revised x z where
  call := h'.call.trans h.call
  fired := h'.fired.trans h.fired
  completion := h'.completion.trans h.completion
  module := h'.module.trans h.module
  notifyComplete := h'.notifyComplete.trans h.notifyComplete
  forAbort := h'.forAbort.trans h.forAbort
  prePhase := h'.prePhase.trans h.prePhase
  enq := h'.enq.trans h.enq
  run := h'.run.trans h.run
  cancel hc := h'.cancel (h.cancel hc)
  fail hf := h'.fail (h.fail hf)
  maps := by
    rcases h'.maps with ⟨hpre, hpost⟩ | hz
    · rcases h.maps with ⟨hpre', hpost'⟩ | ⟨hpre', hpost', hc⟩
      · exact .inl ⟨hpre.trans hpre', hpost.trans hpost'⟩
      · exact .inr ⟨hpre.trans hpre', hpost.trans hpost', h'.cancel hc⟩
    · exact .inr hz

theorem cancelMsg_revised (x : PhlDisprMsgEx) : Revised x (cancelMsg x) :=
  ⟨rfl, rfl, rfl, rfl, rfl, rfl, rfl, rfl, rfl, fun _ => rfl, id, .inr ⟨rfl, rfl, rfl⟩⟩

/-- A request out of the pool, but for its mark and its operations. -/
structure Kept (x x' : PhlCmdTokenReqEx) : Prop where
  req : x'.req = x.req
  call : x'.call = x.call
  enq : x'.status.enq = x.status.enq
  run : x'.status.run = x.status.run
  lastPermit : x'.status.lastPermit = x.status.lastPermit
  prepare : x'.status.prepare = x.status.prepare

theorem Kept.refl (x : PhlCmdTokenReqEx) : Kept x x := ⟨rfl, rfl, rfl, rfl, rfl, rfl⟩

theorem Kept.trans {x y z : PhlCmdTokenReqEx} (h : Kept x y) (h' : Kept y z) : Kept x z :=
  ⟨h'.req.trans h.req, h'.call.trans h.call, h'.enq.trans h.enq, h'.run.trans h.run,
    h'.lastPermit.trans h.lastPermit, h'.prepare.trans h.prepare⟩

theorem Marked.kept {x x' : PhlCmdTokenReqEx} (h : Marked x x') : Kept x x' :=
  ⟨h.req, h.call, h.enq, h.run, h.lastPermit, h.prepare⟩

/-- The requests out of the pool, as a call leaves them. -/
structure QuietTok (t t' : TokenQs) : Prop where
  curCmdReq : t'.curCmdReq = t.curCmdReq
  tokenCnt : t'.tokenCnt = t.tokenCnt
  reqHand : t'.reqHand = t.reqHand
  handling : t'.handling = t.handling
  idle : ∀ r ∈ t'.reqIdle, r ∈ t.reqIdle
  reqs : ∀ r ∉ t.reqIdle, Kept (t.reqPool r) (t'.reqPool r)

theorem QuietTok.refl (t : TokenQs) : QuietTok t t := ⟨rfl, rfl, rfl, rfl, fun _ => id, fun _ _ => .refl _⟩

theorem QuietTok.trans {t₁ t₂ t₃ : TokenQs} (h : QuietTok t₁ t₂) (h' : QuietTok t₂ t₃) : QuietTok t₁ t₃ where
  curCmdReq := h'.curCmdReq.trans h.curCmdReq
  tokenCnt := h'.tokenCnt.trans h.tokenCnt
  reqHand := h'.reqHand.trans h.reqHand
  handling := h'.handling.trans h.handling
  idle r hr := h.idle r (h'.idle r hr)
  reqs r hr := (h.reqs r hr).trans (h'.reqs r fun hr' => hr (h.idle r hr'))

variable {t' : TokenQs}

theorem QuietTok.of_sameReqs {t : TokenQs} (h : TokenQs.SameReqs t t')
    (hh : t'.handling = t.handling) : QuietTok t t' where
  curCmdReq := h.curCmdReq
  tokenCnt := h.tokenCnt
  reqHand := h.reqHand
  handling := hh
  idle _ hr := h.reqIdle ▸ hr
  reqs r _ := ⟨h.req r, h.call r, by rw [h.status], by rw [h.status], by rw [h.status], by rw [h.status]⟩

theorem QuietTok.curRuns {t : TokenQs} (h : QuietTok t t') (ht : ReqsOk t) (hc : CurRuns t) :
    CurRuns t' := fun r hr => by
  rw [h.curCmdReq] at hr
  rw [(h.reqs r (ht.not_idle (by simp [hr]))).run]; exact hc r hr

/-- The flags of a dispatcher, as a call leaves them. -/
structure QuietFlags (s s' : DisprStatus) : Prop where
  clearance : s'.clearance = s.clearance
  exclusiveUse : s'.exclusiveUse = s.exclusiveUse
  ctrlPresent : s'.ctrlPresent → s.ctrlPresent
  started : s'.started → s.started

theorem QuietFlags.refl (s : DisprStatus) : QuietFlags s s := ⟨rfl, rfl, id, id⟩

theorem QuietFlags.trans {s₁ s₂ s₃ : DisprStatus} (h : QuietFlags s₁ s₂) (h' : QuietFlags s₂ s₃) : QuietFlags s₁ s₃ :=
  ⟨h'.clearance.trans h.clearance, h'.exclusiveUse.trans h.exclusiveUse,
    fun hs => h.ctrlPresent (h'.ctrlPresent hs), fun hs => h.started (h'.started hs)⟩

/-- The modules, as a call leaves them. -/
structure QuietMdls (m m' : Modules) : Prop where
  moduleQ : m'.moduleQ = m.moduleQ
  bitmap : m'.bitmap = m.bitmap
  controller : m'.controller.id = m.controller.id

theorem QuietMdls.refl (m : Modules) : QuietMdls m m := ⟨rfl, rfl, rfl⟩

theorem QuietMdls.trans {m₁ m₂ m₃ : Modules} (h : QuietMdls m₁ m₂) (h' : QuietMdls m₂ m₃) : QuietMdls m₁ m₃ :=
  ⟨h'.moduleQ.trans h.moduleQ, h'.bitmap.trans h.bitmap, h'.controller.trans h.controller⟩

/-- Nothing changes but the entries of the messages, what waits, and what is idle. -/
structure Still (e e' : Eng N) : Prop where
  phyNum : e'.phyNum = e.phyNum
  hand : ∀ j, (e'.d j).msgs.hand = (e.d j).msgs.hand
  tok : ∀ j, QuietTok (e.d j).tok (e'.d j).tok
  flags : ∀ j, QuietFlags (e.d j).status (e'.d j).status
  mdls : ∀ j, QuietMdls (e.d j).mdls (e'.d j).mdls

theorem Still.refl (e : Eng N) : Still e e :=
  ⟨rfl, fun _ => rfl, fun _ => .refl _, fun _ => .refl _, fun _ => .refl _⟩

theorem Still.trans (h : Still e e') (h' : Still e' e'') : Still e e'' :=
  ⟨h'.phyNum.trans h.phyNum, fun j => (h'.hand j).trans (h.hand j),
    fun j => (h.tok j).trans (h'.tok j), fun j => (h.flags j).trans (h'.flags j),
    fun j => (h.mdls j).trans (h'.mdls j)⟩

/-- What a function of the thread can rely on while others call in: the entries it holds are at most
revised. -/
structure Quiet (e e' : Eng N) : Prop extends Still e e' where
  held : ∀ j, ∀ k ∈ (e.d j).msgs.hand, Revised (e.ex j k) (e'.ex j k) ∧ (e'.ex j k).msg = (e.ex j k).msg

theorem Quiet.refl (e : Eng N) : Quiet e e := ⟨.refl e, fun _ _ _ => ⟨.refl _, rfl⟩⟩

theorem Quiet.trans (h : Quiet e e') (h' : Quiet e' e'') : Quiet e e'' where
  toStill := h.toStill.trans h'.toStill
  held j k hk := by
    obtain ⟨hr, hm⟩ := h.held j k hk
    obtain ⟨hr', hm'⟩ := h'.held j k (h.hand j ▸ hk)
    exact ⟨hr.trans hr', hm'.trans hm⟩

theorem Quiet.of_msgs (hp : e'.phyNum = e.phyNum) (hm : ∀ j, (e'.d j).msgs = (e.d j).msgs)
    (ht : ∀ j, QuietTok (e.d j).tok (e'.d j).tok)
    (hf : ∀ j, QuietFlags (e.d j).status (e'.d j).status)
    (hd : ∀ j, QuietMdls (e.d j).mdls (e'.d j).mdls) : Quiet e e' where
  phyNum := hp
  hand j := by rw [hm]
  held j k _ := by
    have hk : e'.ex j k = e.ex j k := by simp only [Eng.ex, hm]
    rw [hk]; exact ⟨.refl _, rfl⟩
  tok := ht
  flags := hf
  mdls := hd

theorem Quiet.logEv (e : Eng N) (ev : Ev N) : Quiet e (e.logEv ev) :=
  .of_msgs rfl (fun _ => rfl) (fun _ => .refl _) (fun _ => .refl _) fun _ => .refl _

theorem Quiet.onTok {f : TokenQs → TokenQs} (h : QuietTok (e.d i).tok (f (e.d i).tok)) : Quiet e (e.onTok i f) := by
  refine .of_msgs rfl (fun j => by simp) (fun j => ?_) (fun j => by simp [QuietFlags.refl])
    fun j => by simp [QuietMdls.refl]
  rcases eq_or_ne j i with rfl | hj
  · simpa using h
  · simp [hj, QuietTok.refl]

variable {f : DisprStatus → DisprStatus}

theorem Quiet.onStatus (h : QuietFlags (e.d i).status (f (e.d i).status)) : Quiet e (e.onStatus i f) := by
  refine .of_msgs rfl (fun j => by simp) (fun j => by simp [QuietTok.refl]) (fun j => ?_)
    fun j => by simp [QuietMdls.refl]
  rcases eq_or_ne j i with rfl | hj
  · simpa using h
  · simp [hj, QuietFlags.refl]

theorem Quiet.revise {pool : Fin N → PhlDisprMsgEx}
    (h : ∀ k, Revised (e.ex i k) (pool k) ∧ (pool k).msg = (e.ex i k).msg) :
    Quiet e (e.onMsgs i fun q => { q with pool := pool }) := by
  refine ⟨⟨rfl, fun j => ?_, fun j => by simp [QuietTok.refl],
    fun j => by simp [QuietFlags.refl], fun j => by simp [QuietMdls.refl]⟩, fun j k _ => ?_⟩
  all_goals rcases eq_or_ne j i with rfl | hj
  · simp
  · simp [hj]
  · simpa [Eng.ex] using h k
  · simp [Eng.ex, hj, Revised.refl]

/-! ### Tame calls -/

/-- From a sound state, a run of moves that is quiet. -/
def Tame (f : Eng N → Eng N) : Prop := ∀ e, Sound e → Steps e (f e) ∧ Quiet e (f e)

theorem Tame.comp {f g : Eng N → Eng N} (hg : Tame g) (hf : Tame f) : Tame fun e => g (f e) :=
  fun e he => by
    obtain ⟨hs, hq⟩ := hf e he
    obtain ⟨hs', hq'⟩ := hg (f e) (hs.sound he)
    exact ⟨hs.trans hs', hq.trans hq'⟩

theorem onStatus_tame (hf : ∀ s, QuietFlags s (f s))
    (hw : ∀ s, (f s).waitAbortMsgDone = s.waitAbortMsgDone) : Tame fun e : Eng N => e.onStatus i f :=
  fun _ _ => ⟨.single (.misc i _ (fun _ => rfl) (fun _ => rfl) (fun _ => rfl)
    (fun d => (hf d.status).clearance) (fun d => (hf d.status).exclusiveUse)
    (fun d => hw d.status) fun d => (hf d.status).started), .onStatus (hf _)⟩

theorem disprClrPendingMsg_tame : Tame fun e : Eng N => disprClrPendingMsg i e :=
  onStatus_tame (fun _ => ⟨rfl, rfl, id, id⟩) fun _ => rfl

theorem Move.reviseEx {f : PhlDisprMsgEx → PhlDisprMsgEx} (h : Revised (e.ex i k) (f (e.ex i k))) :
    Move e (e.onEx i k f) := by
  refine .revise i (Function.update (e.d i).msgs.pool k (f (e.ex i k))) fun l => ?_
  rcases eq_or_ne l k with rfl | hlk
  · simpa using h
  · simp [hlk, Eng.ex, Revised.refl]

theorem Quiet.reviseEx {f : PhlDisprMsgEx → PhlDisprMsgEx} (h : Revised (e.ex i k) (f (e.ex i k)))
    (hm : (f (e.ex i k)).msg = (e.ex i k).msg) : Quiet e (e.onEx i k f) := by
  refine Quiet.revise fun l => ?_
  rcases eq_or_ne l k with rfl | hlk
  · simpa using ⟨h, hm⟩
  · simp [hlk, Eng.ex, Revised.refl]

theorem disprCancelMsg_cases (i : Fin 2) (hdl : Option ℕ) (e : Eng N) :
    (disprCancelMsg i hdl e).1 = e ∧ (disprCancelMsg i hdl e).2.1 ≠ .success ∨
      ∃ k : Fin N, hdl.map getMsgIdxFromHdl = some k.val ∧ ((e.ex i k).status.enq ∨ (e.ex i k).status.run) ∧
        (disprCancelMsg i hdl e).1 = e.onEx i k cancelMsg := by
  cases hdl with
  | none => exact .inl ⟨rfl, nofun⟩
  | some hdl =>
    simp only [disprCancelMsg]
    split_ifs with _ _ hlt hf
    any_goals exact .inl ⟨rfl, nofun⟩
    exact .inr ⟨⟨_, hlt⟩, rfl, by simpa only [not_and_or, not_not] using hf, rfl⟩

variable {hdl : Option ℕ}

theorem disprCancelMsg_tame : Tame fun e : Eng N => (disprCancelMsg i hdl e).1 := by
  intro e _
  beta_reduce
  rcases disprCancelMsg_cases i hdl e with ⟨heq, -⟩ | ⟨k, -, -, heq⟩
  · rw [heq]; exact ⟨.refl, .refl e⟩
  · rw [heq]; exact ⟨.single (.reviseEx (cancelMsg_revised _)), .reviseEx (cancelMsg_revised _) rfl⟩

theorem linkReq_tame {r : ReqIdx} {type : TokenOpType} (ht : type = .freeCmdReq ∨ type = .cancelCmdReq)
    (hr : (e.req i r).status.enq ∨ (e.req i r).status.run ∨ (e.req i r).status.prepare) :
    Steps e (e.onTok i fun t => (t.pushBackTokenOpInfo (.free r) type r).1) ∧
      Quiet e (e.onTok i fun t => (t.pushBackTokenOpInfo (.free r) type r).1) :=
  ⟨.single (.linkReq i r type ht hr), .onTok (.of_sameReqs (TokenQs.push_sameReqs ..)
    (TokenQs.push_handling ..))⟩

theorem disprCancelTokenReq_cases (i : Fin 2) (hdl : Option ℕ) (e : Eng N) :
    (disprCancelTokenReq i hdl e).1 = e ∧ (disprCancelTokenReq i hdl e).2 ≠ .success ∨
      ∃ r : ReqIdx, hdl.map getReqIdxFromHdl = some r.val ∧
        ((e.req i r).status.enq ∨ (e.req i r).status.run ∨ (e.req i r).status.prepare) ∧
        (disprCancelTokenReq i hdl e).1 = e.onTok i fun t => (t.pushBackTokenOpInfo (.free r) .cancelCmdReq r).1 := by
  cases hdl with
  | none => exact .inl ⟨rfl, nofun⟩
  | some hdl =>
    simp only [disprCancelTokenReq]
    split_ifs with _ _ hlt hf
    any_goals exact .inl ⟨rfl, nofun⟩
    all_goals exact .inr ⟨⟨_, hlt⟩, rfl, by simpa only [not_and_or, not_not] using hf, rfl⟩

theorem disprCancelTokenReq_tame : Tame fun e : Eng N => (disprCancelTokenReq i hdl e).1 := by
  intro e _
  beta_reduce
  rcases disprCancelTokenReq_cases i hdl e with ⟨heq, -⟩ | ⟨r, -, hr, heq⟩
  · rw [heq]; exact ⟨.refl, .refl e⟩
  · rw [heq]; exact linkReq_tame (.inr rfl) hr

theorem mark_tame {pool : ReqIdx → PhlCmdTokenReqEx} (h : ∀ r, Marked (e.req i r) (pool r)) :
    Steps e (e.onTok i fun t => { t with reqPool := pool }) ∧
      Quiet e (e.onTok i fun t => { t with reqPool := pool }) :=
  ⟨.single (.mark i pool h), .onTok ⟨rfl, rfl, rfl, rfl, fun _ hr => hr, fun r _ => (h r).kept⟩⟩

theorem Marked.setCancel (x : PhlCmdTokenReqEx) : Marked x { x with status := { x.status with cancel := true } } :=
  ⟨rfl, rfl, rfl, rfl, rfl, rfl, rfl, rfl, fun _ => rfl⟩

theorem Marked.refl (x : PhlCmdTokenReqEx) : Marked x x := ⟨rfl, rfl, rfl, rfl, rfl, rfl, rfl, rfl, id⟩

theorem markReq_tame {r : ReqIdx} :
    Steps e (e.onReq i r fun ex => { ex with status := { ex.status with cancel := true } }) ∧
      Quiet e (e.onReq i r fun ex => { ex with status := { ex.status with cancel := true } }) := by
  refine mark_tame (i := i) fun s => ?_
  rcases eq_or_ne s r with rfl | hs
  · rw [Function.update_self]; exact Marked.setCancel _
  · rw [Function.update_of_ne hs]; exact Marked.refl _

theorem disprFreeToken_cases (i : Fin 2) (hdl : Option ℕ) (e : Eng N) :
    (disprFreeToken i hdl e).1 = e ∧ (disprFreeToken i hdl e).2 ≠ .success ∨
      ∃ r : ReqIdx, hdl.map getReqIdxFromHdl = some r.val ∧ ((e.req i r).status.run ∨ (e.req i r).status.prepare) ∧
        (disprFreeToken i hdl e).1 = (e.onReq i r fun ex => { ex with status := { ex.status with cancel := true } }).onTok i
          fun t => (t.pushBackTokenOpInfo (.free r) .freeCmdReq r).1 := by
  cases hdl with
  | none => exact .inl ⟨rfl, nofun⟩
  | some hdl =>
    simp only [disprFreeToken]
    split_ifs with _ _ hlt hf
    any_goals exact .inl ⟨rfl, nofun⟩
    all_goals exact .inr ⟨⟨_, hlt⟩, rfl, by simpa only [not_and_or, not_not] using hf, rfl⟩

theorem disprFreeToken_tame : Tame fun e : Eng N => (disprFreeToken i hdl e).1 := by
  intro e _
  beta_reduce
  rcases disprFreeToken_cases i hdl e with ⟨heq, -⟩ | ⟨r, -, hr, heq⟩
  · rw [heq]; exact ⟨.refl, .refl e⟩
  · rw [heq]
    obtain ⟨hs, hq⟩ := markReq_tame (e := e) (i := i) (r := r)
    obtain ⟨hs', hq'⟩ := linkReq_tame (i := i) (r := r) (e := e.onReq i r fun ex =>
      { ex with status := { ex.status with cancel := true } }) (.inl rfl) (by simpa using .inr hr)
    exact ⟨hs.trans hs', hq.trans hq'⟩

theorem disprThreadStopPriorHdl_tame : Tame fun e : Eng N => disprThreadStopPriorHdl i e := by
  have hstatus : Tame fun e : Eng N => e.onStatus i fun s =>
      { s with started := false, ctrlPresent := false } :=
    onStatus_tame (fun _ => ⟨rfl, rfl, by simp, by simp⟩) fun _ => rfl
  have hmdls : Tame fun e : Eng N => e.onMdls i fun m =>
      { m with controller := { m.controller with started := false } } := by
    intro e _
    refine ⟨.single (.modules i _ (Finset.Subset.refl _) fun hm => ⟨hm.priority, hm.linked, hm.controller⟩), ?_⟩
    refine .of_msgs rfl (fun j => by simp) (fun j => by simp [QuietTok.refl])
      (fun j => by simp [QuietFlags.refl]) fun j => ?_
    rcases eq_or_ne j i with rfl | hj
    · simpa using ⟨rfl, rfl, rfl⟩
    · simp [hj, QuietMdls.refl]
  have hreqs : Tame fun e : Eng N => e.onTok i cancelAllCmdReq := by
    intro e _
    refine mark_tame fun r => ?_
    dsimp only
    split
    · exact Marked.refl _
    · exact Marked.setCancel _
  have hmsgs : Tame fun e : Eng N => e.onMsgs i cancelRunningMsg := by
    intro e _
    have hrev : ∀ k, Revised (e.ex i k) ((cancelRunningMsg (e.d i).msgs).pool k) ∧
        ((cancelRunningMsg (e.d i).msgs).pool k).msg = (e.ex i k).msg := fun k => by
      simp only [cancelRunningMsg]
      split
      · exact ⟨cancelMsg_revised _, rfl⟩
      · exact ⟨Revised.refl _, rfl⟩
    exact ⟨.single (.revise i _ fun k => (hrev k).1), .revise hrev⟩
  exact hmsgs.comp (hreqs.comp (hmdls.comp hstatus))

theorem disprAddTokenReq_cases (i : Fin 2) (rq : Option PhlCmdTokenReq) (wantHdl : Bool) (e : Eng N) :
    (disprAddTokenReq i rq wantHdl e).1 = e ∨ ∃ r t x, rq = some x ∧
      (e.d i).tok.popFrontIdleReq = some (r, t) ∧ (disprAddTokenReq i rq wantHdl e).1 =
        (e.onTok i fun _ => ((t.fillReq r x).pushBackTokenOpInfo (.add r) .addCmdReq r).1).logEv
          (.added i t.nreq (genValidHdl r)) := by
  cases rq with
  | none => exact .inl rfl
  | some rq =>
    simp only [disprAddTokenReq]
    split
    · exact .inl rfl
    · split
      · exact .inl rfl
      · cases hr : (e.d i).tok.popFrontIdleReq with
        | none => exact .inl rfl
        | some p =>
          refine .inr ⟨p.1, p.2, rq, rfl, rfl, ?_⟩
          simp [disprEnqueueTokenOpInfo, Eng.onTok, Eng.modify]

theorem QuietTok.addReq {t : TokenQs} {r : ReqIdx} (rq : PhlCmdTokenReq) (hr : t.popFrontIdleReq = some (r, t')) :
    QuietTok t ((t'.fillReq r rq).pushBackTokenOpInfo (.add r) .addCmdReq r).1 := by
  obtain ⟨idle, hidle, heq⟩ := fillReq_eq rq hr
  have hfill : QuietTok t (t'.fillReq r rq) := by
    rw [heq]
    refine ⟨rfl, rfl, rfl, rfl, fun s hs => ?_, fun s hs => ?_⟩
    · exact hidle ▸ List.mem_cons_of_mem _ hs
    · have hsr : s ≠ r := fun he => hs (by simp [hidle, he])
      rw [TokenQs.onReq_ne _ _ hsr]; exact .refl _
  exact hfill.trans (.of_sameReqs (TokenQs.push_sameReqs ..) (TokenQs.push_handling ..))

theorem disprAddTokenReq_tame {rq : Option PhlCmdTokenReq} {wantHdl : Bool} :
    Tame fun e : Eng N => (disprAddTokenReq i rq wantHdl e).1 := by
  intro e _
  beta_reduce
  rcases disprAddTokenReq_cases i rq wantHdl e with heq | ⟨r, t, x, -, hr, heq⟩
  · rw [heq]; exact ⟨.refl, .refl e⟩
  · rw [heq]; exact ⟨.single (.addReq i x r t hr), (Quiet.onTok (.addReq x hr)).trans (.logEv _ _)⟩

/-! ### Sending -/

/-- Only the messages of dispatcher `i`, and what waits for them, change. -/
structure OnlyMsgs (i : Fin 2) (e e' : Eng N) : Prop where
  phyNum : e'.phyNum = e.phyNum
  msgs : ∀ j, j ≠ i → (e'.d j).msgs = (e.d j).msgs
  tok : ∀ j, (e'.d j).tok = (e.d j).tok
  mdls : ∀ j, (e'.d j).mdls = (e.d j).mdls
  flags : ∀ j, QuietFlags (e.d j).status (e'.d j).status

theorem OnlyMsgs.onMsgs {f : MsgQs N → MsgQs N} : OnlyMsgs i e (e.onMsgs i f) :=
  ⟨rfl, fun j hj => by simp [hj], fun j => by simp, fun j => by simp, fun j => by simp [QuietFlags.refl]⟩

theorem OnlyMsgs.trans (h : OnlyMsgs i e e') (h' : OnlyMsgs i e' e'') : OnlyMsgs i e e'' :=
  ⟨h'.phyNum.trans h.phyNum, fun j hj => (h'.msgs j hj).trans (h.msgs j hj),
    fun j => (h'.tok j).trans (h.tok j), fun j => (h'.mdls j).trans (h.mdls j),
    fun j => (h.flags j).trans (h'.flags j)⟩

theorem OnlyMsgs.onStatus (hf : ∀ s, QuietFlags s (f s)) : OnlyMsgs i e (e.onStatus i f) := by
  refine ⟨rfl, fun j hj => by simp, fun j => by simp, fun j => by simp, fun j => ?_⟩
  rcases eq_or_ne j i with rfl | hj
  · simpa using hf _
  · simp [hj, QuietFlags.refl]

theorem OnlyMsgs.logEv (ev : Ev N) : OnlyMsgs i e (e.logEv ev) :=
  ⟨rfl, fun _ _ => rfl, fun _ => rfl, fun _ => rfl, fun _ => .refl _⟩

theorem OnlyMsgs.still (h : OnlyMsgs i e e') (hhand : (e'.d i).msgs.hand = (e.d i).msgs.hand) : Still e e' := by
  refine ⟨h.phyNum, fun j => ?_, fun j => ?_, h.flags, fun j => ?_⟩
  · rcases eq_or_ne j i with rfl | hj
    · exact hhand
    · rw [h.msgs j hj]
  · rw [h.tok]; exact .refl _
  · rw [h.mdls]; exact .refl _

theorem OnlyMsgs.quiet (h : OnlyMsgs i e e') (hhand : (e'.d i).msgs.hand = (e.d i).msgs.hand)
    (hheld : ∀ k ∈ (e.d i).msgs.hand,
      Revised (e.ex i k) (e'.ex i k) ∧ (e'.ex i k).msg = (e.ex i k).msg) : Quiet e e' := by
  refine ⟨h.still hhand, fun j k hk => ?_⟩
  rcases eq_or_ne j i with rfl | hj
  · exact hheld k hk
  · have hex : e'.ex j k = e.ex j k := by simp only [Eng.ex, h.msgs j hj]
    rw [hex]; exact ⟨.refl _, rfl⟩

theorem retireMsg_onlyMsgs (hf : (e.ex i k).status.forAbort = false) : OnlyMsgs i e (retireMsg i k e) := by
  have hsig : abortSignal i k e = e := by simp [abortSignal, hf]
  refine ⟨(retireMsg_parts e i i k).2.1, fun j hj => retireMsg_ne _ _ hj, fun j => ?_, fun j => ?_, fun j => ?_⟩
  · rw [(retireMsg_parts e i j k).2.2.1, hsig]
  · exact (retireMsg_parts e i j k).2.2.2.1
  · rw [(retireMsg_parts e i j k).2.2.2.2, hsig]; exact .refl _

section Send

variable {msg : PhlMsg} {attr : Option PhlMsgAttribute} {idle : List (Fin N)}

theorem logSent_onlyMsgs (d : CmdDispatcher N) (sts : PhlStatus) (hdl : Option ℕ) :
    OnlyMsgs i e (logSent i d msg attr sts hdl e) :=
  OnlyMsgs.onMsgs.trans (.logEv _)

theorem takeDropped_onlyMsgs : OnlyMsgs i e (takeDropped i msg attr k e) :=
  OnlyMsgs.onMsgs.trans (logSent_onlyMsgs _ _ _)

theorem sendAccepted_onlyMsgs : OnlyMsgs i e (sendAccepted i msg attr k e) := by
  have htake : ∀ f, OnlyMsgs i e (logSent i (e.d i) msg attr .success (some (genValidHdl k))
      (takeIdle i msg attr k f e)) := fun f => OnlyMsgs.onMsgs.trans (logSent_onlyMsgs _ _ _)
  simp only [sendAccepted]
  refine OnlyMsgs.trans ?_ .onMsgs
  split
  · exact (htake _).trans (.onStatus fun _ => ⟨rfl, rfl, id, id⟩)
  · exact htake _

theorem sendAccepted_self : ∃ x w, ((sendAccepted i msg attr k e).d i).msgs = { (e.d i).msgs.onEx k fun _ => x with
      idle := (e.d i).msgs.idle.tail
      wait := w
      nsend := (e.d i).msgs.nsend + 1 } := by
  have hq : ((sendAccepted i msg attr k e).d i).msgs = MsgQs.enqueueMsg
      ((logSent i (e.d i) msg attr .success (some (genValidHdl k)) (takeIdle i msg attr k (fun ex =>
        { ex with status :=
          { ex.status with forAbort := sentInLastPermit (e.d i) msg, prePhase := true } }) e)).d
            i).msgs k := by
    simp only [sendAccepted]
    split <;> simp
  obtain ⟨w, -, hw⟩ := MsgQs.enqueueMsg_eq
      ((logSent i (e.d i) msg attr .success (some (genValidHdl k)) (takeIdle i msg attr k (fun ex =>
        { ex with status :=
          { ex.status with forAbort := sentInLastPermit (e.d i) msg, prePhase := true } }) e)).d
            i).msgs k
  rw [hq, hw]; exact ⟨_, w, by simp [logSent, takeIdle, MsgQs.setEnq, MsgQs.onEx]; rfl⟩

theorem sendAccepted_quiet (hk : ∀ l ∈ (e.d i).msgs.hand, l ≠ k) : Quiet e (sendAccepted i msg attr k e) := by
  obtain ⟨x, w, hq⟩ := sendAccepted_self (e := e) (i := i) (k := k)
  refine sendAccepted_onlyMsgs.quiet (by rw [hq]; rfl) fun l hl => ?_
  have hex : (sendAccepted i msg attr k e).ex i l = e.ex i l := by
    simp only [Eng.ex, hq]; exact MsgQs.onEx_ne _ _ (hk l hl)
  rw [hex]; exact ⟨.refl _, rfl⟩

variable {cb : Eng N → Eng N}

theorem pushBackIdleMsg_spec (hcb : Tame cb) (he : Sound e)
    (hk : k ∈ (e.d i).msgs.hand) (hf : (e.ex i k).fired = false) :
    ∃ e₁, pushBackIdleMsg cb i k e = retireMsg i k e₁ ∧ Steps e e₁ ∧ Still e e₁ ∧
      (∀ j, ∀ l ∈ (e.d j).msgs.hand, (j = i → l ≠ k) →
        Revised (e.ex j l) (e₁.ex j l) ∧ (e₁.ex j l).msg = (e.ex j l).msg) ∧
      (e₁.ex i k).status.forAbort = (e.ex i k).status.forAbort ∧
      ¬ ((e₁.ex i k).status.notifyComplete ∧ (e₁.ex i k).completion) := by
  unfold pushBackIdleMsg
  by_cases hn : (e.ex i k).status.notifyComplete ∧ (e.ex i k).completion
  · rw [if_pos hn]
    have hmove : Move e (completeMsg i k e) := .complete i k hk hf hn.1 hn.2
    have hcomp : OnlyMsgs i e (completeMsg i k e) := OnlyMsgs.onMsgs.trans (.logEv _)
    obtain ⟨hs, hq⟩ := hcb _ (hmove.sound he)
    have hk₂ : k ∈ ((completeMsg i k e).d i).msgs.hand := by simpa [completeMsg] using hk
    obtain ⟨hrev, -⟩ := hq.held i k hk₂
    have hfired : ((cb (completeMsg i k e)).ex i k).fired = true := by
      rw [hrev.fired]
      simp [completeMsg]
    have hk₃ : k ∈ ((cb (completeMsg i k e)).d i).msgs.hand := by rwa [hq.hand]
    refine ⟨_, rfl, (Relation.ReflTransGen.head hmove hs).tail (.completed i k hk₃ hfired),
      ((hcomp.still (by simp [completeMsg])).trans hq.toStill).trans
        (OnlyMsgs.onMsgs.still (by simp)), fun j l hl hlk => ?_, ?_, ?_⟩
    · have hl₂ : l ∈ ((completeMsg i k e).d j).msgs.hand := by simpa [completeMsg] using hl
      have hex : (completeMsg i k e).ex j l = e.ex j l := by
        rcases eq_or_ne j i with rfl | hj
        · simp [completeMsg, hlk rfl]
        · simp [completeMsg, Eng.ex, hj]
      have hex' : ((cb (completeMsg i k e)).onEx i k clearNotify).ex j l = (cb (completeMsg i k e)).ex j l := by
        rcases eq_or_ne j i with rfl | hj
        · simp [hlk rfl]
        · simp [Eng.ex, hj]
      rw [hex', ← hex]; exact hq.held j l hl₂
    · simp only [Eng.onEx_ex, clearNotify]
      rw [hrev.forAbort]
      simp [completeMsg]
    · simp [clearNotify]
  · rw [if_neg hn]; exact ⟨e, rfl, .refl, .refl e, fun _ _ _ _ => ⟨.refl _, rfl⟩, rfl, hn⟩

theorem logSent_tame {sts : PhlStatus} (h : sendErr (e.d i) msg attr = some sts ∨
      sendErr (e.d i) msg attr = none ∧ (e.d i).msgs.idle = [] ∧ sts = .resource) :
    Steps e (logSent i (e.d i) msg attr sts none e) ∧ Quiet e (logSent i (e.d i) msg attr sts none e) := by
  refine ⟨.single (.sendRefused i msg attr sts h), (logSent_onlyMsgs _ _ _).quiet (by simp [logSent])
    fun k _ => ?_⟩
  have hex : (logSent i (e.d i) msg attr sts none e).ex i k = e.ex i k := by simp [logSent, Eng.ex]
  rw [hex]; exact ⟨.refl _, rfl⟩

theorem sendDropped_tame (hcb : Tame cb) (he : Sound e)
    (herr : sendErr (e.d i) msg attr = none) (hidle : (e.d i).msgs.idle = k :: idle)
    (hdrop : sendDropped (e.d i) msg attr) :
    Steps e (pushBackIdleMsg cb i k (takeDropped i msg attr k e)) ∧
      Quiet e (pushBackIdleMsg cb i k (takeDropped i msg attr k e)) := by
  have hki : ∀ l ∈ (e.d i).msgs.hand, l ≠ k := fun l hl hlk =>
    (he.msgs i).not_idle_of_hand hl (by simp [hidle, hlk])
  have hmove : Move e (takeDropped i msg attr k e) := .sendDropped i msg attr k idle herr hidle hdrop
  have hhand : ((takeDropped i msg attr k e).d i).msgs.hand = k :: (e.d i).msgs.hand := by
    simp [takeDropped, logSent, takeIdle]
  obtain ⟨-, hfired, -, -, hforAbort⟩ := fillMsg_parts (e.d i) msg attr (e.d i).msgs.nsend
  have hfired : ((takeDropped i msg attr k e).ex i k).fired = false := by
    simpa [takeDropped, logSent, takeIdle, Eng.ex] using hfired
  have hforAbort : ((takeDropped i msg attr k e).ex i k).status.forAbort = false := by
    simpa [takeDropped, logSent, takeIdle, Eng.ex] using hforAbort
  obtain ⟨e₁, heq, hs, hst, hheld, hfa, hn⟩ :=
    pushBackIdleMsg_spec hcb (hmove.sound he) (by simp [hhand]) hfired
  rw [hforAbort] at hfa
  have hk₁ : k ∈ (e₁.d i).msgs.hand := by simp [hst.hand, hhand]
  rw [heq]
  refine ⟨(Relation.ReflTransGen.head hmove hs).tail (.retire i k hk₁ hn (by simp [hfa])), ?_⟩
  have hret := retireMsg_onlyMsgs hfa
  have htake : OnlyMsgs i e (takeDropped i msg attr k e) := takeDropped_onlyMsgs
  refine ⟨⟨?_, fun j => ?_, fun j => ?_, fun j => ?_, fun j => ?_⟩, fun j l hl => ?_⟩
  · rw [hret.phyNum, hst.phyNum, htake.phyNum]
  · rcases eq_or_ne j i with rfl | hj
    · rw [retireMsg_self]; simp [MsgQs.pushIdle, hst.hand, hhand]
    · rw [hret.msgs j hj, hst.hand, htake.msgs j hj]
  · rw [hret.tok, ← htake.tok j]; exact hst.tok j
  · exact (htake.flags j).trans ((hst.flags j).trans (hret.flags j))
  · rw [hret.mdls, ← htake.mdls j]; exact hst.mdls j
  · have hlk : j = i → l ≠ k := fun hj => hki l (hj ▸ hl)
    have hex₀ : (takeDropped i msg attr k e).ex j l = e.ex j l := by
      rcases eq_or_ne j i with rfl | hj
      · simp [takeDropped, logSent, takeIdle, Eng.ex, hlk rfl]
      · simp only [Eng.ex, htake.msgs j hj]
    have hex₁ : (retireMsg i k e₁).ex j l = e₁.ex j l := by
      rcases eq_or_ne j i with rfl | hj
      · simp [Eng.ex, retireMsg_self, MsgQs.pushIdle, hlk rfl]
      · simp only [Eng.ex, retireMsg_ne _ _ hj]
    rw [hex₁, ← hex₀]
    refine hheld j l ?_ hlk
    rcases eq_or_ne j i with rfl | hj
    · simp [hhand, hl]
    · rwa [htake.msgs j hj]

theorem disprSendMsg_tame (hcb : Tame cb) : Tame fun e : Eng N => (disprSendMsg cb i msg attr e).1 := by
  intro e he
  simp only [disprSendMsg]
  cases herr : sendErr (e.d i) msg attr with
  | some sts => exact logSent_tame (.inl herr)
  | none =>
    cases hidle : (e.d i).msgs.idle with
    | nil => exact logSent_tame (.inr ⟨herr, hidle, rfl⟩)
    | cons k idle =>
      by_cases hdrop : sendDropped (e.d i) msg attr = true
      · simp only [hdrop, if_true]; exact sendDropped_tame hcb he herr hidle hdrop
      · simp only [hdrop]
        exact ⟨.single (.sendAccepted i msg attr k idle herr hidle hdrop), sendAccepted_quiet fun l hl hlk =>
            (he.msgs i).not_idle_of_hand hl (by simp [hidle, hlk])⟩

end Send

/-! ### Callbacks -/

theorem sendOwn_tame {id evt : ℕ} : Tame fun e : Eng N => (sendOwn i id evt e).1 :=
  disprSendMsg_tame fun e _ => ⟨.refl, .refl e⟩

theorem misc_tame {f : CmdDispatcher N → CmdDispatcher N} (hm : ∀ d, (f d).msgs = d.msgs)
    (ht : ∀ d, (f d).tok = d.tok) (hd : ∀ d, (f d).mdls = d.mdls)
    (hf : ∀ d, QuietFlags d.status (f d).status)
    (hw : ∀ d, (f d).status.waitAbortMsgDone = d.status.waitAbortMsgDone) :
    Tame fun e : Eng N => e.modify i f := by
  intro e _
  refine ⟨.single (.misc i f hm ht hd (fun d => (hf d).clearance) (fun d => (hf d).exclusiveUse) hw
    fun d => (hf d).started), .of_msgs rfl (fun j => Eng.modify_part e i j f (·.msgs) hm)
    (fun j => ?_) (fun j => ?_) fun j => ?_⟩
  · rw [Eng.modify_part e i j f (·.tok) ht]; exact .refl _
  · rcases eq_or_ne j i with rfl | hj
    · simpa using hf _
    · simp [hj, QuietFlags.refl]
  · rw [Eng.modify_part e i j f (·.mdls) hd]; exact .refl _

theorem disprNotifyDevIoStatus_tame {mdlId : ℕ} {allowIo : Bool} :
    Tame fun e : Eng N => (disprNotifyDevIoStatus i mdlId allowIo e).1 := by
  have hset : ∀ (b : Bool) (m : ℕ), Tame fun e : Eng N => e.modify i fun d =>
      { d with status := { d.status with cannotIo := b }, exclusiveMdl := m } := fun b m =>
    misc_tame (fun _ => rfl) (fun _ => rfl) (fun _ => rfl) (fun _ => ⟨rfl, rfl, id, id⟩) fun _ => rfl
  intro e he
  simp only [disprNotifyDevIoStatus, sendDevIoStatusChange]
  split
  · split
    · exact sendOwn_tame.comp (hset true mdlId) e he
    · exact ⟨.refl, .refl e⟩
  · split
    · exact disprClrPendingMsg_tame.comp (sendOwn_tame.comp (hset false phlMdlIdMax)) e he
    · exact ⟨.refl, .refl e⟩

theorem disprNotifyShallStop_tame : Tame fun e : Eng N => disprNotifyShallStop i e := by
  intro e he
  simp only [disprNotifyShallStop]
  split
  · exact ⟨.refl, .refl e⟩
  · exact disprClrPendingMsg_tame.comp (onStatus_tame (f := fun s => { s with shallStop := true })
      (fun _ => ⟨rfl, rfl, id, id⟩) fun _ => rfl) e he

theorem ApiCall.run_tame (c : ApiCall) : Tame fun e : Eng N => c.run i e := by
  cases c with
  | cancelMsg hdl => exact disprCancelMsg_tame
  | clrPendingMsg => exact disprClrPendingMsg_tame
  | addTokenReq rq wantHdl => exact disprAddTokenReq_tame
  | cancelTokenReq hdl => exact disprCancelTokenReq_tame
  | freeToken hdl => exact disprFreeToken_tame
  | notifyDevIoStatus mdlId allowIo => exact disprNotifyDevIoStatus_tame
  | notifyShallStop => exact disprNotifyShallStop_tame
  | stopPrior => exact disprThreadStopPriorHdl_tame

theorem runScript_tame (s : Script) : Tame (runScript s : Eng N → Eng N) := by
  induction s with
  | done => exact fun e _ => ⟨.refl, .refl e⟩
  | send i msg attr cb k ihcb ihk => exact ihk.comp (disprSendMsg_tame ihcb)
  | api i c k ihk => exact ihk.comp (c.run_tame)

theorem env_tame (env : List Resp) : Tame fun e : Eng N => { e with env := env } := fun _ _ =>
  ⟨.single (.env env), .of_msgs rfl (fun _ => rfl) (fun _ => .refl _) (fun _ => .refl _)
    fun _ => .refl _⟩

theorem callback_tame : Tame fun e : Eng N => (callback e).2 := by
  intro e he
  simp only [callback]
  cases e.env with
  | nil => exact ⟨.refl, .refl e⟩
  | cons resp env => exact (runScript_tame resp.script).comp (env_tame env) e he

end Rtl8852cu.Dispr
