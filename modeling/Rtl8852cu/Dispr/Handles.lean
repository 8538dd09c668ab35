import Rtl8852cu.Dispr.Completion

/-!
# Handles

A handle is bit 31 and the index of a pool entry.  `dispr_cancel_msg`, `dispr_cancel_token_req` and
`dispr_free_token` act on the entry, whoever has it when they are called; nothing tells the call the
handle was returned for from a later one that was given the entry.
-/

namespace Rtl8852cu.Dispr

variable {N : ℕ}

/-- Call `n` of `dispr_send_msg` was given entry `k`. -/
def GivenMsg (log : List (Ev N)) (i : Fin 2) (n : ℕ) (k : Fin N) : Prop :=
  ∃ d msg attr sts hdl, .sent i n d msg attr sts hdl ∈ log ∧ sendErr d msg attr = none ∧ d.msgs.idle.head? = some k

/-- Call `n` of `dispr_add_token_req` was given request `r`. -/
def GivenReq (log : List (Ev N)) (i : Fin 2) (n : ℕ) (r : ReqIdx) : Prop :=
  .added i n (genValidHdl r) ∈ log

/-- The entries in use belong to the last call they were given to. -/
structure Tenure (i : Fin 2) (e : Eng N) : Prop where
  msgs : ∀ n k, GivenMsg e.log i n k → k ∉ (e.d i).msgs.idle → n ≤ (e.ex i k).call
  reqs : ∀ n r, GivenReq e.log i n r → n < (e.d i).tok.nreq ∧ (r ∉ (e.d i).tok.reqIdle → n ≤ (e.req i r).call)
  used : ∀ r ∉ (e.d i).tok.reqIdle, GivenReq e.log i (e.req i r).call r
  hdls : ∀ n hdl, .added i n hdl ∈ e.log → ∃ r : ReqIdx, genValidHdl r = hdl

def Ev.gives (i : Fin 2) : Ev N → Bool
  | .sent j .. | .added j _ _ => decide (j = i)
  | _ => false

/-- No entry of dispatcher `i` is given away. -/
structure NoGift (i : Fin 2) (e e' : Eng N) : Prop where
  log : e'.log.filter (Ev.gives i) = e.log.filter (Ev.gives i)
  idle : ∀ k ∈ (e.d i).msgs.idle, k ∈ (e'.d i).msgs.idle
  call : ∀ k, (e'.ex i k).call = (e.ex i k).call
  reqIdle : ∀ r ∈ (e.d i).tok.reqIdle, r ∈ (e'.d i).tok.reqIdle
  nreq : (e'.d i).tok.nreq = (e.d i).tok.nreq
  reqCall : ∀ r, (e'.req i r).call = (e.req i r).call

section

variable {e e' e'' : Eng N} {i j : Fin 2} {k : Fin N} {r : ReqIdx} {n : ℕ}

/-! ### Moves that give nothing away -/

variable {log log' : List (Ev N)}

theorem GivenMsg.congr_sent (h : ∀ d msg attr sts hdl,
      .sent i n d msg attr sts hdl ∈ log' ↔ .sent i n d msg attr sts hdl ∈ log) :
    GivenMsg log' i n k ↔ GivenMsg log i n k := by
  unfold GivenMsg
  simp only [h]

theorem GivenMsg.congr (h : log'.filter (Ev.gives i) = log.filter (Ev.gives i)) :
    GivenMsg log' i n k ↔ GivenMsg log i n k :=
  congr_sent fun _ _ _ _ _ => mem_of_filter _ h (by simp [Ev.gives])

theorem GivenReq.congr (h : log'.filter (Ev.gives i) = log.filter (Ev.gives i)) :
    GivenReq log' i n r ↔ GivenReq log i n r :=
  mem_of_filter _ h (by simp [Ev.gives])

theorem Tenure.keep (h : Tenure i e) (hn : NoGift i e e') : Tenure i e' where
  msgs n k hg hk := by
    rw [hn.call]; exact h.msgs n k ((GivenMsg.congr hn.log).1 hg) fun hi => hk (hn.idle k hi)
  reqs n r hg := by
    rw [hn.nreq, hn.reqCall]
    obtain ⟨hlt, hle⟩ := h.reqs n r ((GivenReq.congr hn.log).1 hg)
    exact ⟨hlt, fun hr => hle fun hi => hr (hn.reqIdle r hi)⟩
  used r hr := by
    rw [hn.reqCall]; exact (GivenReq.congr hn.log).2 (h.used r fun hi => hr (hn.reqIdle r hi))
  hdls n hdl hadd := h.hdls n hdl ((mem_of_filter _ hn.log (by simp [Ev.gives])).1 hadd)

theorem NoGift.trans (h : NoGift i e e') (h' : NoGift i e' e'') : NoGift i e e'' where
  log := h'.log.trans h.log
  idle k hk := h'.idle k (h.idle k hk)
  call k := (h'.call k).trans (h.call k)
  reqIdle r hr := h'.reqIdle r (h.reqIdle r hr)
  nreq := h'.nreq.trans h.nreq
  reqCall r := (h'.reqCall r).trans (h.reqCall r)

theorem NoGift.of_d (hd : e'.d = e.d) (hl : e'.log.filter (Ev.gives i) = e.log.filter (Ev.gives i)) : NoGift i e e' :=
  ⟨hl, fun k hk => hd ▸ hk, fun k => by simp [Eng.ex, hd], fun r hr => hd ▸ hr, by rw [hd],
    fun r => by simp [Eng.req, hd]⟩

theorem NoGift.onMsgs {f : MsgQs N → MsgQs N} (hidle : ∀ l ∈ (e.d j).msgs.idle, l ∈ (f (e.d j).msgs).idle)
    (hcall : ∀ l, ((f (e.d j).msgs).pool l).call = ((e.d j).msgs.pool l).call) :
    NoGift i e (e.onMsgs j f) := by
  rcases eq_or_ne i j with rfl | hj
  · exact ⟨rfl, by simpa using hidle, by simpa [Eng.ex] using hcall, by simp, by simp, by simp⟩
  · exact ⟨rfl, by simp [hj], by simp [Eng.ex, hj], by simp, by simp, by simp⟩

theorem NoGift.onEx {f : PhlDisprMsgEx → PhlDisprMsgEx}
    (hcall : (f (e.ex j k)).call = (e.ex j k).call) : NoGift i e (e.onEx j k f) := by
  refine .onMsgs (fun _ h => h) fun l => ?_
  by_cases hl : l = k
  · rw [hl, MsgQs.onEx_self]; exact hcall
  · rw [MsgQs.onEx_ne _ _ hl]

theorem NoGift.onTok {f : TokenQs → TokenQs} (hidle : ∀ s ∈ (e.d j).tok.reqIdle, s ∈ (f (e.d j).tok).reqIdle)
    (hnreq : (f (e.d j).tok).nreq = (e.d j).tok.nreq)
    (hcall : ∀ s, ((f (e.d j).tok).reqPool s).call = ((e.d j).tok.reqPool s).call) :
    NoGift i e (e.onTok j f) := by
  rcases eq_or_ne i j with rfl | hj
  · exact ⟨rfl, by simp, by simp, by simpa using hidle, by simpa using hnreq, by simpa [Eng.req] using hcall⟩
  · exact ⟨rfl, by simp, by simp, by simp [hj], by simp [hj], by simp [Eng.req, hj]⟩

theorem NoGift.onReq {f : PhlCmdTokenReqEx → PhlCmdTokenReqEx}
    (hcall : (f (e.req j r)).call = (e.req j r).call) : NoGift i e (e.onReq j r f) := by
  refine .onTok (fun _ h => h) rfl fun s => ?_
  by_cases hs : s = r
  · rw [hs, TokenQs.onReq_self]; exact hcall
  · rw [TokenQs.onReq_ne _ _ hs]

theorem NoGift.same_tok {f : TokenQs → TokenQs} (h : TokenQs.SameReqs (e.d j).tok (f (e.d j).tok)) :
    NoGift i e (e.onTok j f) :=
  .onTok (fun _ hs => h.reqIdle ▸ hs) h.nreq h.call

theorem Signals.noGift (hs : Signals e e') : NoGift i e e' := by
  obtain ⟨hreqs, -⟩ := (hs.tok i).sameReqs
  exact ⟨by rw [hs.log], fun k hk => by rwa [hs.msgs], fun k => by simp [Eng.ex, hs.msgs],
    fun r hr => by rwa [hreqs.reqIdle], hreqs.nreq, hreqs.call⟩

/-! ### The moves -/

theorem NoGift.logEv {ev : Ev N} (h : ev.gives i = false) : NoGift i e (e.logEv ev) := .of_d rfl (by simp [h])

theorem NoGift.pushBackIdleReq : NoGift i e (Dispr.pushBackIdleReq j r e) := by
  have hevt : NoGift i e (e.setCurPendingEvt j (e.req j r).req.moduleId msgEvtMax) :=
    ⟨rfl, by simp, by simp, by simp, by simp, by simp⟩
  refine hevt.trans (.onTok (fun s hs => ?_) ?_ fun s => ?_)
  · exact List.mem_append_left _ hs
  · rfl
  · by_cases hsr : s = r
    · simp [TokenQs.pushIdle, hsr]
    · simp [TokenQs.pushIdle, hsr]

theorem NoGift.retireMsg : NoGift i e (Dispr.retireMsg j k e) := by
  have habort : NoGift i e (abortSignal j k e) := (abortSignal_signals e j k).noGift
  have hevt : ∀ (id : MsgId) (e : Eng N), NoGift i e (endPendingEvt j id e) := fun id e => by
    unfold endPendingEvt
    split
    · exact ⟨rfl, by simp, by simp, by simp, by simp, by simp⟩
    · exact .of_d rfl rfl
  have hpush : ∀ e : Eng N, NoGift i e (e.onMsgs j fun q => q.pushIdle k) := fun e => by
    refine .onMsgs (fun l hl => List.mem_append_left _ hl) fun l => ?_
    by_cases hlk : l = k
    · simp [MsgQs.pushIdle, hlk]
    · simp [MsgQs.pushIdle, hlk]
  exact habort.trans ((hevt _ _).trans (hpush _))

variable {msg : PhlMsg} {attr : Option PhlMsgAttribute}

theorem Tenure.takeIdle {idle : List (Fin N)}
    {sts : PhlStatus} {hdl : Option ℕ} (h : Tenure i e) (hm : MsgsOk i (e.d i).msgs e.log)
    (hidle : (e.d i).msgs.idle = k :: idle)
    (hlog : e'.log = e.log ++ [.sent i (e.d i).msgs.nsend (e.d i) msg attr sts hdl])
    (hmem : ∀ l ∈ (e.d i).msgs.idle, l ≠ k → l ∈ (e'.d i).msgs.idle)
    (hcall : (e'.ex i k).call = (e.d i).msgs.nsend) (hother : ∀ l ≠ k, e'.ex i l = e.ex i l)
    (htok : (e'.d i).tok = (e.d i).tok) : Tenure i e' := by
  have hgiven : ∀ n l, GivenMsg e'.log i n l → GivenMsg e.log i n l ∨ n = (e.d i).msgs.nsend ∧ l = k := by
    rintro n l ⟨d, msg', attr', sts', hdl', hsent, herr, hhead⟩
    rw [hlog] at hsent
    rcases mem_sent.1 hsent with hs | ⟨rfl, rfl, rfl, rfl, rfl, rfl⟩
    · exact .inl ⟨d, msg', attr', sts', hdl', hs, herr, hhead⟩
    · rw [hidle] at hhead; exact .inr ⟨rfl, (Option.some.inj hhead).symm⟩
  have hreq : ∀ n r, GivenReq e'.log i n r ↔ GivenReq e.log i n r := by
    intro n r
    simp [GivenReq, hlog]
  refine ⟨fun n l hg hl => ?_, fun n r hg => ?_, fun r hr => ?_, fun n hdl' hadd => ?_⟩
  · by_cases hlk : l = k
    · rw [hlk, hcall]
      rcases hgiven n l hg with ⟨d, msg', attr', sts', hdl', hsent, -⟩ | ⟨rfl, -⟩
      · exact (hm.calls.counted _ _ _ _ _ _ hsent).le
      · exact le_rfl
    · rw [hother l hlk]
      rcases hgiven n l hg with hg | ⟨-, rfl⟩
      · exact h.msgs n l hg fun hi => hl (hmem l hi hlk)
      · exact absurd rfl hlk
  · rw [htok, Eng.req, htok]; exact h.reqs n r ((hreq n r).1 hg)
  · rw [htok] at hr
    rw [hreq, Eng.req, htok]; exact h.used r hr
  · exact h.hdls n hdl' (by simpa [hlog] using hadd)

theorem enqueueMsg_call (q : MsgQs N) (k l : Fin N) : ((q.enqueueMsg k).pool l).call = (q.pool l).call := by
  obtain ⟨w, -, heq⟩ := q.enqueueMsg_eq k
  rw [heq]
  by_cases hl : l = k
  · simp [MsgQs.setEnq, hl]
  · simp [MsgQs.setEnq, hl]

theorem sendAccepted_call : ((Dispr.sendAccepted i msg attr k e).ex i k).call = (e.d i).msgs.nsend := by
  simp only [Dispr.sendAccepted, Eng.ex, Eng.onMsgs_self, enqueueMsg_call]
  split <;> simp [logSent, Dispr.takeIdle, (fillMsg_parts ..).1]

theorem Tenure.refused {sts : PhlStatus} {hdl : Option ℕ} (h : Tenure i e) (ht : ¬ Taken (e.d i) msg attr) :
    Tenure i (logSent i (e.d i) msg attr sts hdl e) := by
  have hgiven : ∀ n l, GivenMsg (logSent i (e.d i) msg attr sts hdl e).log i n l → GivenMsg e.log i n l := by
    rintro n l ⟨d, msg', attr', sts', hdl', hsent, herr, hhead⟩
    rcases mem_sent.1 hsent with hs | ⟨rfl, rfl, rfl, rfl, rfl, rfl⟩
    · exact ⟨d, msg', attr', sts', hdl', hs, herr, hhead⟩
    · refine absurd ⟨herr, fun hnil => ?_⟩ ht
      rw [hnil] at hhead; cases hhead
  refine ⟨fun n k hg hk => ?_, fun n r hg => ?_, fun r hr => ?_, fun n hdl' hadd => ?_⟩
  · have hle := h.msgs n k (hgiven n k hg)
    simp only [logSent, Eng.logEv_d, Eng.onMsgs_self] at hk
    simpa [logSent, Eng.ex] using hle hk
  · have hle := h.reqs n r (by simpa [GivenReq, logSent] using hg); simpa [logSent] using hle
  · have hu := h.used r (by simpa [logSent] using hr); simpa [GivenReq, logSent] using hu
  · exact h.hdls n hdl' (by simpa [logSent] using hadd)

theorem genValidHdl_inj : ∀ {r s : ReqIdx}, genValidHdl r = genValidHdl s → r = s := by decide

theorem Tenure.addReq {t : TokenQs} (h : Tenure i e) (rq : PhlCmdTokenReq)
    (hr : (e.d i).tok.popFrontIdleReq = some (r, t)) :
    Tenure i ((e.onTok i fun _ =>
      ((t.fillReq r rq).pushBackTokenOpInfo (.add r) .addCmdReq r).1).logEv
        (.added i t.nreq (genValidHdl r))) := by
  obtain ⟨idle, hidle, hfill⟩ := fillReq_eq rq hr
  have hnreq : t.nreq = (e.d i).tok.nreq := by
    unfold TokenQs.popFrontIdleReq at hr
    rw [hidle] at hr
    cases hr
    rfl
  have hpush := (t.fillReq r rq).push_sameReqs (.add r) .addCmdReq r
  generalize ((t.fillReq r rq).pushBackTokenOpInfo (.add r) .addCmdReq r).1 = t' at hpush ⊢
  rw [hfill] at hpush
  have hself : (t'.reqPool r).call = (e.d i).tok.nreq := by rw [hpush.call]; simp
  have hother : ∀ s ≠ r, (t'.reqPool s).call = (e.req i s).call := fun s hs => by
    rw [hpush.call]
    simp [hs, Eng.req]
  have hidle' : ∀ s ≠ r, s ∉ t'.reqIdle → s ∉ (e.d i).tok.reqIdle := fun s hs => by
    rw [hpush.reqIdle, hidle]
    simp [hs]
  have hnew : GivenReq (e.log ++ [.added i t.nreq (genValidHdl r)]) i (e.d i).tok.nreq r := by
    simp [GivenReq, hnreq]
  have hgiven : ∀ n s, GivenReq (e.log ++ [.added i t.nreq (genValidHdl r)]) i n s →
      GivenReq e.log i n s ∨ n = (e.d i).tok.nreq ∧ s = r := by
    intro n s hg
    rcases List.mem_append.1 hg with hg | hg
    · exact .inl hg
    · simp only [List.mem_singleton, Ev.added.injEq, true_and] at hg
      exact .inr ⟨hg.1.trans hnreq, genValidHdl_inj hg.2⟩
  refine ⟨fun n k hg hk => ?_, fun n s hg => ?_, fun s hs => ?_, fun n hdl hadd => ?_⟩
  · have hg' : GivenMsg e.log i n k := (GivenMsg.congr_sent fun d msg attr sts hdl => by simp).1 hg
    simpa using h.msgs n k hg' (by simpa using hk)
  · simp only [Eng.logEv_d, Eng.onTok_self, hpush.nreq, Eng.req]
    rcases hgiven n s hg with hg | ⟨rfl, rfl⟩
    · obtain ⟨hlt, hle⟩ := h.reqs n s hg
      refine ⟨Nat.lt_succ_of_lt hlt, fun hs => ?_⟩
      by_cases hsr : s = r
      · rw [hsr, hself]; exact hlt.le
      · rw [hother s hsr]; exact hle (hidle' s hsr hs)
    · exact ⟨Nat.lt_succ_self _, fun _ => hself.ge⟩
  · simp only [Eng.logEv_d, Eng.onTok_self, Eng.req] at hs ⊢
    by_cases hsr : s = r
    · rw [hsr, hself]; exact hnew
    · rw [hother s hsr]; exact List.mem_append_left _ (h.used s (hidle' s hsr hs))
  · rcases List.mem_append.1 hadd with hadd | hadd
    · exact h.hdls n hdl hadd
    · simp only [List.mem_singleton, Ev.added.injEq, true_and] at hadd; exact ⟨r, hadd.2.symm⟩

theorem Move.tenure (hm : Move e e') (hs : Sound e) (h : Tenure i e) : Tenure i e' := by
  cases hm with
  | sendRefused j msg attr sts hr =>
    rcases eq_or_ne j i with rfl | hj
    · exact h.refused (sendStatus_of_refused hr).2
    · exact h.keep ⟨by simp [logSent, Ev.gives, hj], by simp [logSent, hj.symm],
        by simp [logSent, Eng.ex, hj.symm], by simp [logSent], by simp [logSent], by simp [logSent]⟩
  | sendDropped j msg attr k idle herr hidle hdrop =>
    rcases eq_or_ne j i with rfl | hj
    · refine h.takeIdle (hs.msgs j) hidle rfl (fun l hl hlk => ?_) ?_ (fun l hlk => ?_) ?_
      · simpa [takeDropped, logSent, Dispr.takeIdle, hidle, hlk] using hl
      · simp [takeDropped, logSent, Dispr.takeIdle, Eng.ex, (fillMsg_parts ..).1]
      · simp [takeDropped, logSent, Dispr.takeIdle, Eng.ex, hlk]
      · simp [takeDropped, logSent, Dispr.takeIdle]
    · exact h.keep ⟨by simp [takeDropped, Dispr.takeIdle, logSent, Ev.gives, hj],
        by simp [takeDropped, Dispr.takeIdle, logSent, hj.symm],
        by simp [takeDropped, Dispr.takeIdle, logSent, Eng.ex, hj.symm],
        by simp [takeDropped, Dispr.takeIdle, logSent], by simp [takeDropped, Dispr.takeIdle, logSent],
        by simp [takeDropped, Dispr.takeIdle, logSent]⟩
  | sendAccepted j msg attr k idle herr hidle hdrop =>
    have hlog : (Dispr.sendAccepted j msg attr k e).log = e.log ++
        [.sent j (e.d j).msgs.nsend (e.d j) msg attr .success (some (genValidHdl k))] := by
      simp only [Dispr.sendAccepted]
      split <;> simp [logSent, Dispr.takeIdle]
    have honly : OnlyMsgs j e (Dispr.sendAccepted j msg attr k e) := sendAccepted_onlyMsgs
    have hq : ∃ x w, ((Dispr.sendAccepted j msg attr k e).d j).msgs = _ := sendAccepted_self
    obtain ⟨x, w, hq⟩ := hq
    rcases eq_or_ne j i with rfl | hj
    · refine h.takeIdle (hs.msgs j) hidle hlog (fun l hl hlk => ?_) sendAccepted_call (fun l hlk => ?_)
        (honly.tok j)
      · simpa [hq, hidle, hlk] using hl
      · rw [Eng.ex, hq]; simp [Eng.ex, hlk]
    · exact h.keep ⟨by simp [hlog, Ev.gives, hj], fun l hl => by rwa [honly.msgs i hj.symm],
        fun l => by rw [Eng.ex, honly.msgs i hj.symm]; rfl, fun r hr => by rwa [honly.tok i],
        by rw [honly.tok i], fun r => by rw [Eng.req, honly.tok i]; rfl⟩
  | complete j k hk hf hn hc =>
    exact h.keep ((NoGift.onEx rfl).trans (.logEv rfl))
  | completed j k hk hf => exact h.keep (.onEx rfl)
  | retire j k hk hn hr => exact h.keep .retireMsg
  | toWait j k pend wait hp hw =>
    refine h.keep (.onMsgs (fun _ hl => hl) fun l => ?_)
    by_cases hl : l = k
    · simp [MsgQs.setEnq, hl]
    · simp [MsgQs.setEnq, hl]
  | popWait j k q hq =>
    unfold MsgQs.popFrontWaitMsg at hq
    cases hw : (e.d j).msgs.wait with
    | nil => simp [hw] at hq
    | cons l wait =>
      simp only [hw, Option.some.injEq, Prod.mk.injEq] at hq
      obtain ⟨rfl, rfl⟩ := hq
      refine h.keep (.onMsgs (fun _ hl => hl) fun l' => ?_)
      by_cases hl : l' = l
      · simp [MsgQs.onEx, hl]
      · simp [MsgQs.onEx, hl]
  | toPend j k hk hf =>
    refine h.keep (.onMsgs (fun _ hl => hl) fun l => ?_)
    by_cases hl : l = k
    · simp [MsgQs.setEnq, hl]
    · simp [MsgQs.setEnq, hl]
  | revise j pool hp => exact h.keep (.onMsgs (fun _ hl => hl) fun l => (hp l).call)
  | take j k hk => exact h.keep ((NoGift.onEx rfl).trans (.logEv rfl))
  | stopped j k id pre ret hk hret => exact h.keep (.logEv rfl)
  | answered j k id pre ret hk hret hid =>
    refine h.keep ((NoGift.logEv rfl).trans (.onEx ?_))
    cases pre <;> rfl
  | switch j k hk hp => exact h.keep (.onEx rfl)
  | finish j k hk hm => exact h.keep (.logEv rfl)
  | addReq j rq r t hr =>
    rcases eq_or_ne j i with rfl | hj
    · exact h.addReq rq hr
    · exact h.keep ⟨by simp [Ev.gives, hj], by simp, by simp, by simp [hj.symm], by simp [hj.symm],
        by simp [Eng.req, hj.symm]⟩
  | linkReq j r type ht hr => exact h.keep (.same_tok (TokenQs.push_sameReqs ..))
  | mark j pool hp => exact h.keep (.onTok (fun _ hr => hr) rfl fun r => (hp r).call)
  | popOp j o q hq => exact h.keep (.onTok (fun _ hr => hr) rfl fun _ => rfl)
  | doneOp j o n ho =>
    have hsame := (e.d j).tok.setInfo_sameReqs o { (e.d j).tok.info o with used := false }
    exact h.keep (.onTok (fun _ hr => hsame.reqIdle ▸ hr) hsame.nreq hsame.call)
  | takeReq j r t ht hx =>
    unfold TokenQs.popFrontWaitReq at ht
    cases hw : (e.d j).tok.reqWait with
    | nil => simp [hw] at ht
    | cons s wait =>
      simp only [hw, Option.some.injEq, Prod.mk.injEq] at ht
      obtain ⟨rfl, rfl⟩ := ht
      refine h.keep (.onTok (fun _ hs => hs) rfl fun s' => ?_)
      by_cases hs' : s' = s
      · simp [hs']
      · simp [hs']
  | makeCur j r hr henq hcnt hc hw hx =>
    have hcur : NoGift i e (Dispr.makeCur j r e) := by
      unfold Dispr.makeCur
      exact (NoGift.onReq rfl).trans (.onTok (fun _ hr => hr) rfl fun _ => rfl)
    exact h.keep hcur
  | acquireFailed j r hr => exact h.keep (.logEv rfl)
  | stopRun j r hr => exact h.keep (.onReq rfl)
  | permit j r b hr hrun => exact h.keep (.onReq rfl)
  | endCur j r hr hrun hp ho =>
    have hend : NoGift i e (pushBackIdleReq j r (dropCur j (e.logEv (.ended j r e.d)))) :=
      (NoGift.logEv rfl).trans ((NoGift.onTok (fun _ hr => hr) rfl fun _ => rfl).trans .pushBackIdleReq)
    split
    · exact h.keep hend
    · exact h.keep (hend.trans Signals.tokenComplete.noGift)
  | withdraw j r hr =>
    exact h.keep ((NoGift.logEv rfl).trans (.onTok (fun _ hr => hr) rfl fun _ => rfl))
  | endReq j r hr ho hp => exact h.keep .pushBackIdleReq
  | acquire j hx hcnt => exact h.keep Signals.clearanceAcquire.noGift
  | ready j hc hcnt hw => exact h.keep Signals.exclusiveReady.noGift
  | gate j hc hcnt => exact h.keep ((NoGift.logEv rfl).trans Signals.exclusiveReady.noGift)
  | tokenComplete j hr hw => exact h.keep Signals.tokenComplete.noGift
  | misc j f hm ht =>
    have hmsgs := Eng.modify_part e j i f (·.msgs) hm
    have htok := Eng.modify_part e j i f (·.tok) ht
    exact h.keep ⟨rfl, fun k hk => by rwa [hmsgs], fun k => by rw [Eng.ex, hmsgs]; rfl,
      fun r hr => by rwa [htok], by rw [htok], fun r => by rw [Eng.req, htok]; rfl⟩
  | modules j m hb hm => exact h.keep ⟨rfl, by simp, by simp, by simp, by simp, by simp⟩
  | deregister j id m hb hm =>
    exact h.keep ((NoGift.logEv rfl).trans ⟨rfl, by simp, by simp, by simp, by simp, by simp⟩)
  | left j => exact h.keep (.logEv rfl)
  | env env => exact h.keep (.of_d rfl rfl)

/-! ### The operations -/

theorem getMsgIdxFromHdl_genValidHdl {k : ℕ} (hk : k < 2 ^ 16) : getMsgIdxFromHdl (genValidHdl k) = k := by
  unfold getMsgIdxFromHdl genValidHdl
  rw [Nat.or_mod_two_pow, Nat.mod_eq_of_lt hk]; simp

theorem getReqIdxFromHdl_genValidHdl : ∀ r : ReqIdx, getReqIdxFromHdl (genValidHdl r) = r := by
  decide

theorem disprCancelMsg_entry (hm : MsgsOk i (e.d i).msgs e.log) (hk : k.val < 2 ^ 16) :
    (disprCancelMsg i (some (genValidHdl k)) e).1 = e ∧ (disprCancelMsg i (some (genValidHdl k)) e).2.1 ≠ .success ∨
      k ∉ (e.d i).msgs.idle ∧ (disprCancelMsg i (some (genValidHdl k)) e).1 = e.onEx i k cancelMsg := by
  rcases disprCancelMsg_cases i (some (genValidHdl k)) e with hfail | ⟨l, hl, hf, heq⟩
  · exact .inl hfail
  · rw [Option.map_some, getMsgIdxFromHdl_genValidHdl hk] at hl
    obtain rfl : k = l := Fin.ext (Option.some.inj hl)
    refine .inr ⟨fun hi => ?_, heq⟩
    obtain ⟨henq, hrun⟩ := hm.idle k hi
    rw [Eng.ex, henq, hrun] at hf
    simp at hf

theorem disprCancelTokenReq_entry (ht : TokOk (e.d i).tok) (r : ReqIdx) :
    (disprCancelTokenReq i (some (genValidHdl r)) e).1 = e ∧
        (disprCancelTokenReq i (some (genValidHdl r)) e).2 ≠ .success ∨
      r ∉ (e.d i).tok.reqIdle ∧ (disprCancelTokenReq i (some (genValidHdl r)) e).1 =
        e.onTok i fun t => (t.pushBackTokenOpInfo (.free r) .cancelCmdReq r).1 := by
  rcases disprCancelTokenReq_cases i (some (genValidHdl r)) e with hfail | ⟨s, hs, hf, heq⟩
  · exact .inl hfail
  · rw [Option.map_some, getReqIdxFromHdl_genValidHdl] at hs
    obtain rfl : r = s := Fin.ext (Option.some.inj hs)
    refine .inr ⟨fun hi => ?_, heq⟩
    obtain ⟨henq, hrun, hprep⟩ := ht.reqs.idle_flags hi
    rw [Eng.req, henq, hrun, hprep] at hf
    simp at hf

theorem disprFreeToken_entry (ht : TokOk (e.d i).tok) (r : ReqIdx) :
    (disprFreeToken i (some (genValidHdl r)) e).1 = e ∧ (disprFreeToken i (some (genValidHdl r)) e).2 ≠ .success ∨
      r ∉ (e.d i).tok.reqIdle ∧ (disprFreeToken i (some (genValidHdl r)) e).1 =
        (e.onReq i r fun ex => { ex with status := { ex.status with cancel := true } }).onTok i
          fun t => (t.pushBackTokenOpInfo (.free r) .freeCmdReq r).1 := by
  rcases disprFreeToken_cases i (some (genValidHdl r)) e with hfail | ⟨s, hs, hf, heq⟩
  · exact .inl hfail
  · rw [Option.map_some, getReqIdxFromHdl_genValidHdl] at hs
    obtain rfl : r = s := Fin.ext (Option.some.inj hs)
    refine .inr ⟨fun hi => ?_, heq⟩
    obtain ⟨-, hrun, hprep⟩ := ht.reqs.idle_flags hi
    rw [Eng.req, hrun, hprep] at hf
    simp at hf

theorem Tenure.start {phyNum : ℕ} {ctrl : Fin 2 → Bool} : Tenure i (Eng.start phyNum ctrl : Eng N) where
  msgs n k hg := by
    obtain ⟨d, msg, attr, sts, hdl, hsent, -⟩ := hg
    cases hsent
  reqs n r hg := by cases hg
  used r hr := absurd (List.mem_finRange r) hr
  hdls n hdl hadd := by cases hadd

end

/-- The entry is still held by call `n`, or has been given to a later call since. -/
def HeldBy (given : ℕ → Prop) (n call : ℕ) : Prop := call = n ∨ n < call ∧ given call

def sendCtrl : Op := .send 0 ⟨{ MsgId.zero with mdlId := phlMdlPhyMgnt }, none⟩ none .done

/-- As many messages as the pool has entries are sent, each is dispatched before the next, and one more
is sent. -/
def reuse : List Op := (List.replicate 24 [sendCtrl, .dispatch 0 []]).flatten ++ [sendCtrl]

def reused : Eng 24 := reuse.foldl Op.run (Eng.start 1 fun _ => true)

theorem reused_run : Run (fun _ _ => True) (Eng.start 1 fun _ => true) reused :=
  Lib.Reach.foldl _ fun _ _ _ => trivial

def Ev.isFirst : Ev 24 → Bool
  | .sent i n _ _ _ _ hdl => i = 0 ∧ n = 0 ∧ hdl = some (genValidHdl 0)
  | _ => false

theorem reused_cancel : reused.log.any Ev.isFirst = true ∧
    (disprCancelMsg 0 (some (genValidHdl 0)) reused).2.1 = .success ∧ (reused.ex 0 0).call ≠ 0 ∧
    ((disprCancelMsg 0 (some (genValidHdl 0)) reused).1.ex 0 0).status.cancel ≠
      (reused.ex 0 0).status.cancel := by decide +kernel

theorem reused_sent : ∃ d msg attr sts, .sent 0 0 d msg attr sts (some (genValidHdl 0)) ∈ reused.log := by
  obtain ⟨ev, hmem, hev⟩ := List.any_eq_true.1 reused_cancel.1
  cases ev with
  | sent i n d msg attr sts hdl =>
    simp only [Ev.isFirst, decide_eq_true_eq] at hev
    obtain ⟨rfl, rfl, rfl⟩ := hev
    exact ⟨d, msg, attr, sts, hmem⟩
  | _ => simp [Ev.isFirst] at hev

end Rtl8852cu.Dispr
