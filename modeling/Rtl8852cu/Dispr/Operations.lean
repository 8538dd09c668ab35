import Rtl8852cu.Dispr.Runs

/-!
# The queue of token operations

An operation is linked in `token_op_q` by a node that is part of the request it is about, and a request
that is taken from the pool again is overwritten with zeros, its nodes and their `used` marks too.  So a
request must not go back to the pool while one of its operations is linked.
-/

namespace Rtl8852cu.Dispr

open TokenQs

variable {N : ℕ}

/-- The operations of a dispatcher.  The operation that is being handled is not linked, and neither
is the one that added its request, if that is still the request the operation was linked for. -/
structure OpsOk (t : TokenQs) : Prop where
  nodup : t.opQ.Nodup
  used : ∀ o ∈ t.opQ, (t.info o).used
  live : ∀ r, .add r ∈ t.opQ ∨ .free r ∈ t.opQ → r ∉ t.reqIdle
  order : t.opQ.Pairwise fun o o' => ∀ r, o = .free r → o' ≠ .add r
  handled : ∀ o n, t.handling = some (o, n) → o ∉ t.opQ
  ending : ∀ r n, t.handling = some (.free r, n) → n = (t.reqPool r).call → .add r ∉ t.opQ

section

variable {t t' : TokenQs} {o : OpRef} {type : TokenOpType} {data : ℕ} {r : ReqIdx}

theorem info_congr (hp : t'.reqPool = t.reqPool) (hr : t'.renewReqInfo = t.renewReqInfo) : t'.info o = t.info o := by
  cases o <;> simp only [info, hp, hr]

namespace OpsOk

theorem congr (h : OpsOk t) (hq : t'.opQ = t.opQ) (hu : ∀ o, (t'.info o).used = (t.info o).used)
    (hi : ∀ r ∈ t'.reqIdle, r ∈ t.reqIdle) (hh : t'.handling = t.handling)
    (hc : ∀ r, (t'.reqPool r).call = (t.reqPool r).call) : OpsOk t' where
  nodup := by
    rw [hq]; exact h.nodup
  used o ho := by
    rw [hu]; exact h.used o (hq ▸ ho)
  live r hr hidle := by
    rw [hq] at hr; exact h.live r hr (hi r hidle)
  order := by
    rw [hq]; exact h.order
  handled o n ho := by
    rw [hq]; exact h.handled o n (hh ▸ ho)
  ending r n ho hn := by
    rw [hq]; exact h.ending r n (hh ▸ ho) (hn.trans (hc r))

theorem queues (h : OpsOk t) (hp : t'.reqPool = t.reqPool) (hr : t'.renewReqInfo = t.renewReqInfo)
    (hq : t'.opQ = t.opQ) (hi : ∀ r ∈ t'.reqIdle, r ∈ t.reqIdle) (hh : t'.handling = t.handling) :
    OpsOk t' :=
  h.congr hq (fun _ => by rw [info_congr hp hr]) hi hh fun r => by rw [hp]

theorem push_cases (t : TokenQs) (o : OpRef) (type : TokenOpType) (data : ℕ) :
    (t.info o).used ∧ (t.pushBackTokenOpInfo o type data).1 = t ∨
    (t.info o).used = false ∧ (t.pushBackTokenOpInfo o type data).1.opQ = t.opQ ++ [o] ∧
      (∀ o', ((t.pushBackTokenOpInfo o type data).1.info o').used = (decide (o' = o) || (t.info o').used)) ∧
      (t.pushBackTokenOpInfo o type data).1.relinked = (t.relinked || t.handling.any fun h => decide (h.1 = o)) := by
  unfold pushBackTokenOpInfo
  split
  · exact .inl ⟨‹_›, rfl⟩
  · rename_i hu
    refine .inr ⟨by simpa using hu, rfl, fun o' => ?_, rfl⟩
    refine Eq.trans (congrArg PhlTokenOpInfo.used
      (info_congr (t := t.setInfo o ⟨true, some type, data⟩) rfl rfl)) ?_
    by_cases ho : o' = o
    · simp [ho]
    · simp [ho]

theorem push_relinked (h : (t.pushBackTokenOpInfo o type data).1.relinked = false) : t.relinked = false := by
  rcases push_cases t o type data with
    ⟨-, heq⟩ | ⟨-, -, -, hrel⟩
  · rwa [heq] at h
  · rw [hrel, Bool.or_eq_false_iff] at h; exact h.1

theorem push (h : OpsOk t) (hrel : (t.pushBackTokenOpInfo o type data).1.relinked = false)
    (hlive : ∀ r, o = .add r ∨ o = .free r → r ∉ t.reqIdle)
    (hadd : ∀ r, o = .add r → .free r ∉ t.opQ ∧ ∀ n, t.handling = some (.free r, n) → n ≠ (t.reqPool r).call) :
    OpsOk (t.pushBackTokenOpInfo o type data).1 := by
  rcases push_cases t o type data with
    ⟨-, heq⟩ | ⟨hunused, hq, hused, hr⟩
  · rwa [heq]
  have hsame := t.push_sameReqs o type data
  have hho := t.push_handling o type data
  have hnew : o ∉ t.opQ := fun hm => by simp [h.used o hm] at hunused
  have hnot : ∀ n, t.handling ≠ some (o, n) := fun n hn => by
    rw [hr, hn] at hrel
    simp at hrel
  refine ⟨?_, fun o' ho' => ?_, fun r hm => ?_, ?_, fun o' n ho' => ?_, fun r n ho' hn => ?_⟩
  · rw [hq]
    exact List.nodup_append.2 ⟨h.nodup, List.nodup_singleton o, fun a ha b hb heq =>
      hnew (List.mem_singleton.1 hb ▸ heq ▸ ha)⟩
  · rw [hused]
    rw [hq] at ho'
    rcases List.mem_append.1 ho' with hm | hm
    · simp [h.used o' hm]
    · simp [List.mem_singleton.1 hm]
  · rw [hsame.reqIdle]
    rw [hq] at hm
    by_cases hr : o = .add r ∨ o = .free r
    · exact hlive r hr
    · refine h.live r ?_
      rcases hm with hm | hm
      · exact .inl ((List.mem_append.1 hm).resolve_right fun ho =>
          hr (.inl (List.mem_singleton.1 ho).symm))
      · exact .inr ((List.mem_append.1 hm).resolve_right fun ho =>
          hr (.inr (List.mem_singleton.1 ho).symm))
  · rw [hq]
    refine List.pairwise_append.2 ⟨h.order, List.pairwise_singleton _ _, fun a ha b hb r har hbr => ?_⟩
    rw [List.mem_singleton] at hb; exact (hadd r (hb ▸ hbr)).1 (har ▸ ha)
  · rw [hho] at ho'
    rw [hq]
    intro hm
    rcases List.mem_append.1 hm with hm | hm
    · exact h.handled o' n ho' hm
    · exact hnot n (List.mem_singleton.1 hm ▸ ho')
  · rw [hho] at ho'
    rw [hsame.call] at hn
    rw [hq]
    intro hm
    rcases List.mem_append.1 hm with hm | hm
    · exact h.ending r n ho' hn hm
    · exact (hadd r (List.mem_singleton.1 hm).symm).2 n ho' hn

theorem renewed (h : OpsOk t) (hr : Renewed t t') (hrel : t'.relinked = false) : OpsOk t' := by
  induction hr with
  | refl => exact h
  | tail _ heq ih =>
    subst heq
    exact (ih (push_relinked hrel)).push hrel (fun r hr => by simp at hr) fun r hr => by simp at hr

theorem fillReq (rq : PhlCmdTokenReq) (h : OpsOk t) (hs : ReqsOk t)
    (hr : t.popFrontIdleReq = some (r, t')) : OpsOk (t'.fillReq r rq) ∧
      .free r ∉ (t'.fillReq r rq).opQ ∧ r ∉ (t'.fillReq r rq).reqIdle ∧
      ∀ n, t.handling = some (.free r, n) → n ≠ ((t'.fillReq r rq).reqPool r).call := by
  obtain ⟨idle, hidle, heq⟩ := fillReq_eq rq hr
  have hri : r ∈ t.reqIdle := by simp [hidle]
  have ha : .add r ∉ t.opQ := fun hm => h.live r (.inl hm) hri
  have hf : .free r ∉ t.opQ := fun hm => h.live r (.inr hm) hri
  have hnew : ∀ n, t.handling = some (.free r, n) → n ≠ t.nreq := fun n hn =>
    (hs.handled _ n hn).ne
  have hout : r ∉ idle := by
    have hnd := hs.nodup
    rw [hidle, List.cons_append, List.nodup_cons] at hnd
    exact fun hm => hnd.1 (List.mem_append_left _ hm)
  rw [heq]
  refine ⟨⟨h.nodup, fun o ho => ?_, fun s hs hm => ?_, h.order, h.handled, fun s n ho hn => ?_⟩,
    hf, hout, by simpa using hnew⟩
  · refine Eq.trans (congrArg PhlTokenOpInfo.used ?_) (h.used o ho)
    rcases o with s | s | _
    · have hsr : s ≠ r := fun heq => ha (heq ▸ ho); simp [info, hsr]
    · have hsr : s ≠ r := fun heq => hf (heq ▸ ho); simp [info, hsr]
    · rfl
  · exact h.live s hs (hidle ▸ List.mem_cons_of_mem _ hm)
  · by_cases hsr : s = r
    · subst hsr; exact absurd (by simpa using hn) (hnew n ho)
    · exact h.ending s n ho (by simpa [hsr] using hn)

theorem pushIdle (h : OpsOk t) (ha : .add r ∉ t.opQ) (hf : .free r ∉ t.opQ) : OpsOk (t.pushIdle r) := by
  have hinfo : ∀ o, (t.pushIdle r).info o = t.info o := fun o => by
    rcases o with s | s | _
    all_goals first | rfl | (by_cases hs : s = r <;> simp [TokenQs.pushIdle, info, hs])
  refine ⟨h.nodup, fun o ho => ?_, fun s hs hidle => ?_, h.order, h.handled, fun s n ho hn => ?_⟩
  · rw [hinfo]; exact h.used o ho
  · rcases List.mem_append.1 hidle with hm | hm
    · exact h.live s hs hm
    · rw [List.mem_singleton.1 hm] at hs; exact hs.elim ha hf
  · refine h.ending s n ho (hn.trans ?_)
    by_cases hs : s = r <;> simp [TokenQs.pushIdle, hs]

theorem popOp {q : List OpRef} (h : OpsOk t) (hq : t.opQ = o :: q) :
    OpsOk { t with opQ := q, handling := some (o, t.callOf o) } := by
  have hnd := h.nodup
  have hord := h.order
  rw [hq] at hnd hord
  obtain ⟨hno, hnd⟩ := List.nodup_cons.1 hnd
  obtain ⟨hno', hord⟩ := List.pairwise_cons.1 hord
  refine ⟨hnd, fun o' ho' => h.used o' (hq ▸ List.mem_cons_of_mem _ ho'),
    fun r hr => h.live r ?_, hord, fun o' n ho' => ?_, fun r n ho' _ hm => ?_⟩
  · rw [hq]; exact hr.imp (List.mem_cons_of_mem _) (List.mem_cons_of_mem _)
  · cases ho'; exact hno
  · cases ho'; exact hno' _ hm r rfl rfl

theorem doneOp {n : ℕ} (h : OpsOk t) (ho : t.handling = some (o, n)) :
    OpsOk { t.setInfo o { t.info o with used := false } with handling := none } := by
  have hsame := t.setInfo_sameReqs o { t.info o with used := false }
  have hq := t.setInfo_opQ o { t.info o with used := false }
  refine ⟨by simpa using h.nodup, fun o' ho' => ?_, fun r hr => ?_, by simpa using h.order, nofun, nofun⟩
  · have hm : o' ∈ t.opQ := by simpa using ho'
    have hne : o' ≠ o := fun heq => h.handled o n ho (heq ▸ hm)
    refine Eq.trans (congrArg PhlTokenOpInfo.used
      (info_congr (t := t.setInfo o { t.info o with used := false }) rfl rfl)) ?_
    rw [info_setInfo_ne _ _ hne]; exact h.used o' hm
  · have hidle := hsame.reqIdle
    simp only [hidle]; exact h.live r (by simpa using hr)

end OpsOk

end

/-! ### The moves -/

/-- The event leaves no linked operation behind: `acquired` does not fail for a request with one, and
the thread does not leave. -/
def Ev.clean : Ev N → Bool
  | .acquireFailed _ r opQ => !(opQ.contains (.add r) || opQ.contains (.free r))
  | .left _ => false
  | _ => true

/-- While nothing has gone wrong, the operations of dispatcher `j` are in order. -/
def OpsIf (e : Eng N) (j : Fin 2) : Prop :=
  (e.d j).tok.relinked = false → (∀ ev ∈ e.log, ev.clean) → OpsOk (e.d j).tok

section

variable {e e' : Eng N} {i j : Fin 2} {r : ReqIdx}

theorem Renewed.relinked {t t' : TokenQs} (h : Renewed t t') (hrel : t'.relinked = false) : t.relinked = false := by
  induction h with
  | refl => exact hrel
  | tail _ heq ih =>
    subst heq; exact ih (OpsOk.push_relinked hrel)

theorem OpsIf.renewed (h : OpsIf e j) (hlog : e.log <+: e'.log)
    (ht : Renewed (e.d j).tok (e'.d j).tok) : OpsIf e' j := fun hrel hc =>
  (h (ht.relinked hrel) fun ev hev => hc ev (hlog.subset hev)).renewed ht hrel

theorem OpsIf.same (h : OpsIf e j) (hlog : e.log <+: e'.log) (ht : (e'.d j).tok = (e.d j).tok) : OpsIf e' j :=
  h.renewed hlog (by rw [ht])

theorem OpsIf.onTok {f : TokenQs → TokenQs} (h : ∀ j, OpsIf e j)
    (hrel : (f (e.d i).tok).relinked = false → (e.d i).tok.relinked = false)
    (hf : (f (e.d i).tok).relinked = false → (∀ ev ∈ e.log, ev.clean) → OpsOk (e.d i).tok →
      OpsOk (f (e.d i).tok)) (j : Fin 2) : OpsIf (e.onTok i f) j := by
  rcases eq_or_ne j i with rfl | hj
  · intro hr hc
    rw [Eng.onTok_self] at hr ⊢; exact hf hr hc (h j (hrel hr) hc)
  · exact (h j).same (List.prefix_refl _) (by simp [hj])

theorem OpsOk.unlinked (h : OpsOk (e.d i).tok) (hc : ∀ ev ∈ e.log, ev.clean)
    (ho : Ending e i r ∨ .acquireFailed i r (e.d i).tok.opQ ∈ e.log) :
    .add r ∉ (e.d i).tok.opQ ∧ .free r ∉ (e.d i).tok.opQ := by
  rcases ho with (hh | hl) | hfail
  · exact ⟨h.ending r _ hh rfl, h.handled _ _ hh⟩
  · exact absurd (hc _ hl) (by simp [Ev.clean])
  · simpa [Ev.clean] using hc _ hfail

theorem OpsIf.signals (h : OpsIf e j) (hs : Signals e e') : OpsIf e' j := h.renewed (by rw [hs.log]) (hs.tok j)

theorem OpsOk.onReq {t : TokenQs} {f : PhlCmdTokenReqEx → PhlCmdTokenReqEx} (h : OpsOk t)
    (ha : (f (t.reqPool r)).addReqInfo = (t.reqPool r).addReqInfo)
    (hf : (f (t.reqPool r)).freeReqInfo = (t.reqPool r).freeReqInfo)
    (hc : (f (t.reqPool r)).call = (t.reqPool r).call) : OpsOk (t.onReq r f) := by
  refine h.congr rfl (fun o => ?_) (fun _ => id) rfl fun s => ?_
  · rcases o with s | s | _
    · by_cases hs : s = r <;> simp [info, hs, ha]
    · by_cases hs : s = r <;> simp [info, hs, hf]
    · rfl
  · by_cases hs : s = r <;> simp [hs, hc]

theorem OpsIf.giveBack (h : ∀ j, OpsIf e j)
    (ho : Ending e i r ∨ .acquireFailed i r (e.d i).tok.opQ ∈ e.log) (j : Fin 2) :
    OpsIf (pushBackIdleReq i r e) j := by
  rcases eq_or_ne j i with rfl | hj
  · intro hrel hc
    rw [pushBackIdleReq_tok] at hrel ⊢
    have hok : OpsOk (e.d j).tok := h j hrel hc
    obtain ⟨ha, hf⟩ := hok.unlinked hc ho
    exact hok.pushIdle ha hf
  · exact (h j).same (List.prefix_refl _) (pushBackIdleReq_tok_ne hj)

theorem Move.opsOk (hm : Move e e') (hs : Sound e) (h : ∀ j, OpsIf e j) (j : Fin 2) : OpsIf e' j := by
  cases hm with
  | retire i k hk hn hr =>
    refine (h j).renewed (by rw [(retireMsg_parts e i j k).1]) ?_
    rw [(retireMsg_parts e i j k).2.2.1]; exact (abortSignal_signals e i k).tok j
  | addReq i rq r t hr =>
    refine OpsIf.same (OpsIf.onTok h (fun hrel => ?_) (fun hrel hc hok => ?_) j)
      (List.prefix_append _ _) rfl
    · have hrel' := OpsOk.push_relinked hrel
      obtain ⟨idle, -, heq⟩ := fillReq_eq rq hr
      rw [heq] at hrel'; exact hrel'
    · obtain ⟨hfill, hfree, hidle, hnew⟩ := hok.fillReq rq (hs.tok i).reqs hr
      refine hfill.push hrel (fun s hs => ?_) fun s hs => ?_
      · simp only [OpRef.add.injEq, reduceCtorEq, or_false] at hs; exact hs ▸ hidle
      · simp only [OpRef.add.injEq] at hs
        subst hs
        refine ⟨hfree, fun n hn => hnew n ?_⟩
        obtain ⟨idle, -, heq⟩ := fillReq_eq rq hr
        rw [heq] at hn; exact hn
  | linkReq i r type ht hr =>
    refine OpsIf.onTok h OpsOk.push_relinked (fun hrel _ hok => hok.push hrel (fun s hsr => ?_)
      fun s hsr => by cases hsr) j
    obtain rfl : r = s := by simpa using hsr
    intro hidle
    obtain ⟨henq, hrun, hprep⟩ := (hs.tok i).reqs.idle_flags hidle
    simp [Eng.req, henq, hrun, hprep] at hr
  | mark i pool hp =>
    refine OpsIf.onTok h id (fun _ _ hok => hok.congr rfl (fun o => ?_) (fun _ => id) rfl
      fun r => (hp r).call) j
    rcases o with r | r | _
    · exact congrArg _ (hp r).addReqInfo
    · exact congrArg _ (hp r).freeReqInfo
    · rfl
  | popOp i o q hq => exact OpsIf.onTok h id (fun _ _ hok => hok.popOp hq) j
  | doneOp i o n ho =>
    refine OpsIf.onTok h (fun hrel => by simpa using hrel) (fun _ _ hok => hok.doneOp ho) j
  | takeReq i r t ht hx =>
    obtain ⟨wait, hwait, rfl⟩ := popFrontWaitReq_eq ht
    refine OpsIf.onTok h id (fun _ _ hok => ?_) j
    have htake : OpsOk { (e.d i).tok with
        reqWait := wait, reqHand := r :: (e.d i).tok.reqHand } :=
      hok.queues rfl rfl rfl (fun _ => id) rfl
    exact htake.onReq rfl rfl rfl
  | makeCur i r hr henq hcnt hc hw hx =>
    rw [makeCur_eq]
    refine OpsIf.onTok h id (fun _ _ hok => ?_) j
    have hrun : OpsOk ((e.d i).tok.onReq r fun ex =>
        { ex with status := { ex.status with run := true, prepare := false } }) :=
      hok.onReq rfl rfl rfl
    exact hrun.queues rfl rfl rfl (fun _ => id) rfl
  | stopRun i r hr => exact OpsIf.onTok h id (fun _ _ hok => hok.onReq rfl rfl rfl) j
  | permit i r b hr hrun => exact OpsIf.onTok h id (fun _ _ hok => hok.onReq rfl rfl rfl) j
  | endCur i r hr hrun hp ho =>
    have hdrop : ∀ j, OpsIf (dropCur i (e.logEv (.ended i r e.d))) j :=
      OpsIf.onTok (e := e.logEv _) (fun j => (h j).same (List.prefix_append _ _) rfl) id
        fun _ _ hok => hok.queues rfl rfl rfl (fun _ => id) rfl
    have ho' : Ending (dropCur i (e.logEv (.ended i r e.d))) i r ∨
        .acquireFailed i r ((dropCur i (e.logEv (.ended i r e.d))).d i).tok.opQ ∈
          (dropCur i (e.logEv (.ended i r e.d))).log := by
      rcases ho with (hh | hl) | hfail
      · exact .inl (.inl (by simpa [dropCur, Eng.req] using hh))
      · exact .inl (.inr (List.mem_append_left _ hl))
      · exact .inr (by simpa [dropCur] using hfail)
    split
    · exact OpsIf.giveBack hdrop ho' j
    · exact (OpsIf.giveBack hdrop ho' j).signals .tokenComplete
  | withdraw i r hr =>
    refine OpsIf.onTok (e := e.logEv _) (fun j => (h j).same (List.prefix_append _ _) rfl) id
      (fun _ _ hok => hok.queues rfl rfl rfl (fun _ => id) rfl) j
  | endReq i r hr ho hp => exact OpsIf.giveBack h (.inl ho) j
  | acquire i hx hcnt => exact (h j).signals .clearanceAcquire
  | ready i hc hcnt hw => exact (h j).signals .exclusiveReady
  | gate i hc hcnt =>
    have hlog : OpsIf (e.logEv (.gate i (e.d i))) j := (h j).same (List.prefix_append _ _) rfl
    exact hlog.signals .exclusiveReady
  | tokenComplete i hr hw => exact (h j).signals .tokenComplete
  | misc i f hm ht => exact (h j).same (List.prefix_refl _) (Eng.modify_part e i j f (·.tok) ht)
  | sendAccepted i msg attr k idle herr hidle hdrop =>
    refine (h j).same ?_ ?_
    all_goals
      simp only [Dispr.sendAccepted]
      split <;> simp [logSent, takeIdle]
  | _ =>
    refine (h j).same (by simp [logSent, takeDropped, takeIdle, completeMsg, andBitmaps]) ?_
    simp [logSent, takeDropped, takeIdle, completeMsg, andBitmaps]

theorem OpsOk.start {ctrl excl : Bool} : OpsOk (CmdDispatcher.start (N := N) ctrl excl).tok where
  nodup := .nil
  used _ h := by simp [CmdDispatcher.start] at h
  live _ h := by simp [CmdDispatcher.start] at h
  order := .nil
  handled _ _ h := by simp [CmdDispatcher.start] at h
  ending _ _ h := by simp [CmdDispatcher.start] at h

/-- The requests of a dispatcher between two steps: `token_cnt` counts the current one, which alone
runs, and every request is in the pool, waits or is current. -/
structure TokenOk (t : TokenQs) : Prop where
  count : t.tokenCnt = if t.curCmdReq = none then 0 else 1
  run : ∀ r, (t.reqPool r).status.run ↔ t.curCmdReq = some r
  parts : (t.reqIdle ++ t.reqWait ++ t.curCmdReq.toList).Perm (List.finRange maxCmdReqNum)

/-- The linked operations of a dispatcher are marked, and their requests are not in the pool. -/
def Linked (t : TokenQs) : Prop :=
  ∀ o ∈ t.opQ, (t.info o).used ∧ (o = .renew ∨ ∃ r, (o = .add r ∨ o = .free r) ∧ r ∉ t.reqIdle)

/-- **The token, the requests and the operations.**  In every state of every run the token and the
requests are in order; and so are the linked operations, if so far `acquired` has not failed for a
request with a linked operation, and no operation was linked again while it was being handled. -/
theorem token_invariant {phyNum : ℕ} {ctrl : Fin 2 → Bool}
    (hrun : Run (fun _ _ => True) (Eng.start phyNum ctrl) e) (i : Fin 2) :
    TokenOk (e.d i).tok ∧ ((e.d i).tok.relinked = false → (∀ ev ∈ e.log, ev.clean) → Linked (e.d i).tok) := by
  obtain ⟨hsteps, hrest⟩ := Run.steps .start hrun
  have hreqs := (hrest.sound.tok i).reqs
  refine ⟨⟨?_, fun r => ⟨(hreqs.flags r).run, fun hr => (hrest.rest i).curRuns i r hr⟩, ?_⟩, fun hrel hc o ho => ?_⟩
  · rw [hreqs.count]; cases (e.d i).tok.curCmdReq <;> simp
  · have hparts := hreqs.parts
    rw [(hrest.rest i).reqHand, List.append_nil] at hparts
    rwa [List.append_assoc]
  · have hok : OpsOk (e.d i).tok :=
      hsteps.invariant (I := fun e => ∀ j, OpsIf e j) (fun _ _ hm hs _ h => hm.opsOk hs h)
        AtRest.start.sound (fun _ _ _ => .start) i hrel hc
    refine ⟨hok.used o ho, ?_⟩
    rcases o with r | r | _
    · exact .inr ⟨r, .inl rfl, hok.live r (.inl ho)⟩
    · exact .inr ⟨r, .inr rfl, hok.live r (.inr ho)⟩
    · exact .inl rfl

end

/-- Two requests are added, and `acquired` answers `ret` for each of them while the thread handles the
first operation. -/
def acquireTwo (ret : MdlRet) : List Op :=
  let add : Op := .api 0 (.addTokenReq (some ⟨200, 0, true⟩) true)
  [add, add, .tokenGate 0, .tokenOp 0 [⟨ret, .done⟩, ⟨ret, .done⟩]]

def acquired (ret : MdlRet) : Eng 4 := (acquireTwo ret).foldl Op.run (Eng.start 1 fun _ => true)

theorem acquired_run (ret : MdlRet) : Run (fun _ _ => True) (Eng.start 1 fun _ => true) (acquired ret) :=
  Lib.Reach.foldl _ fun _ _ _ => trivial

/-- When the first request is acquired, the operation of the second one is linked for a request that
waits. -/
theorem token_invariant_acquired :
    ((acquired .success).d 0).tok.opQ = [.add 1] ∧ Linked ((acquired .success).d 0).tok :=
  ⟨by decide, (token_invariant (acquired_run .success) 0).2 (by decide)
    (by decide)⟩

/-- When `acquired` fails for both, it is linked for a request that is back in the pool. -/
theorem not_token_invariant : ¬ ∀ e : Eng 4, Run (fun _ _ => True) (Eng.start 1 fun _ => true) e →
    ∀ i, Linked (e.d i).tok := by
  intro h
  have hlinked : OpRef.add 1 ∈ ((acquired .fail).d 0).tok.opQ := by decide
  obtain ⟨-, hr⟩ := h (acquired .fail) (acquired_run .fail) 0 (.add 1) hlinked
  have hidle : (1 : ReqIdx) ∈ ((acquired .fail).d 0).tok.reqIdle := by decide
  obtain ⟨r, hr, hmem⟩ := hr.resolve_left (by simp)
  obtain rfl : 1 = r := by simpa using hr
  exact hmem hidle

end Rtl8852cu.Dispr
