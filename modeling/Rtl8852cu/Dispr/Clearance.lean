import Rtl8852cu.Dispr.Exclusion

/-!
# Clearance

A dispatcher asks the other one to stay clear when an exclusive request is at the front of its wait
queue, and gives the clearance back in `cmd_token_complete`, if it was told that it may use the
hardware alone.
-/

namespace Rtl8852cu.Dispr

variable {N : ℕ}

/-- An exclusive request waits or is current. -/
def TokenQs.hasExclusive (t : TokenQs) : Bool :=
  (t.reqWait ++ t.curCmdReq.toList).any fun r => (t.reqPool r).req.opt = fgCmdOptExclusive

/-- An exclusive request waits, is current, or is on its way from the one to the other. -/
def TokenQs.Wants (t : TokenQs) : Prop :=
  ∃ r, (t.reqPool r).req.opt = fgCmdOptExclusive ∧
    (r ∈ t.reqWait ∨ t.curCmdReq = some r ∨ r ∈ t.reqHand ∧ (t.reqPool r).status.prepare)

/-- The clearance of the other dispatcher is wanted. -/
structure Wanted (e : Eng N) (i : Fin 2) : Prop where
  kept : (e.d (ntfyidx i)).status.clearance → (e.d i).tok.Wants ∨
    (e.d i).status.waitAbortMsgDone ∧ (e.d i).status.exclusiveUse
  used : ∀ r, (e.d i).tok.curCmdReq = some r → (e.req i r).req.opt = fgCmdOptExclusive →
    (e.d (ntfyidx i)).status.clearance → (e.d i).status.exclusiveUse

section

variable {e e' : Eng N} {i j : Fin 2} {k : Fin N} {r : ReqIdx}

theorem Wanted.mono (h : Wanted e i) (hc : (e'.d (ntfyidx i)).status.clearance → (e.d (ntfyidx i)).status.clearance)
    (hx : (e.d i).status.exclusiveUse → (e'.d i).status.exclusiveUse)
    (hw : (e.d i).status.waitAbortMsgDone → (e'.d i).status.waitAbortMsgDone)
    (ht : (e.d i).tok.Wants → (e'.d i).tok.Wants)
    (hcur : ∀ r, (e'.d i).tok.curCmdReq = some r → (e'.req i r).req.opt = fgCmdOptExclusive →
      (e.d i).status.exclusiveUse ∨
        (e.d i).tok.curCmdReq = some r ∧ (e.req i r).req.opt = fgCmdOptExclusive) : Wanted e' i where
  kept hcl := (h.kept (hc hcl)).imp ht fun hwx => ⟨hw hwx.1, hx hwx.2⟩
  used r hr hopt hcl := by
    rcases hcur r hr hopt with hxi | ⟨hr', hopt'⟩
    · exact hx hxi
    · exact hx (h.used r hr' hopt' (hc hcl))

theorem TokenQs.Wants.congr {t t' : TokenQs} (h : t.Wants) (hwait : t'.reqWait = t.reqWait)
    (hcur : t'.curCmdReq = t.curCmdReq) (hhand : t'.reqHand = t.reqHand)
    (hreq : ∀ r, (t'.reqPool r).req = (t.reqPool r).req)
    (hprep : ∀ r, (t'.reqPool r).status.prepare = (t.reqPool r).status.prepare) : t'.Wants := by
  obtain ⟨r, hopt, hr⟩ := h
  refine ⟨r, by rw [hreq]; exact hopt, ?_⟩
  rw [hwait, hcur, hhand, hprep]; exact hr

theorem Wanted.calm (h : Wanted e i) (hc : Calm e e') : Wanted e' i := by
  refine h.mono (fun hcl => hc.clearance _ ▸ hcl) (fun hx => (hc.exclusiveUse i).trans hx)
    (fun hw => (hc.waitAbort i).trans hw)
    (fun ht => ht.congr (hc.wait i) (hc.cur i) (hc.hand i) (hc.req i) (hc.prepare i))
    fun r hr hopt => .inr ⟨hc.cur i ▸ hr, hc.req i r ▸ hopt⟩

theorem Wanted.signals (h : Wanted e i) (hs : Signals e e')
    (hc : (e'.d (ntfyidx i)).status.clearance → (e.d (ntfyidx i)).status.clearance)
    (hx : (e.d i).status.exclusiveUse → (e'.d i).status.exclusiveUse)
    (hw : (e.d i).status.waitAbortMsgDone → (e'.d i).status.waitAbortMsgDone) : Wanted e' i := by
  have hsame := (hs.tok i).sameReqs.1
  refine h.mono hc hx hw (fun ht => ht.congr hsame.reqWait hsame.curCmdReq hsame.reqHand hsame.req
    fun r => by rw [hsame.status]) fun r hr hopt => .inr ⟨hsame.curCmdReq ▸ hr, ?_⟩
  rw [Eng.req, hsame.req] at hopt; exact hopt

/-! ### The signals -/

theorem phlDispEngClearanceAcquire_flags (hp : e.phyNum = 2) :
    (((phlDispEngClearanceAcquire i e).d j).status.clearance ↔ (e.d j).status.clearance ∨ j = i) ∧
      ((phlDispEngClearanceAcquire i e).d j).status.exclusiveUse = (e.d j).status.exclusiveUse := by
  unfold phlDispEngClearanceAcquire
  rw [onBand_eq hp]
  unfold disprClearanceAcquire
  rcases eq_or_ne j i with rfl | hj
  · simp
  · simp [hj]

theorem phlDispEngExclusiveReady_flags (hp : e.phyNum = 2) :
    ((phlDispEngExclusiveReady i e).d j).status.clearance = (e.d j).status.clearance ∧
      (((phlDispEngExclusiveReady i e).d j).status.exclusiveUse ↔ (e.d j).status.exclusiveUse ∨ j = i) := by
  unfold phlDispEngExclusiveReady
  rw [onBand_eq hp]
  unfold disprExclusiveReady
  split
  · refine ⟨rfl, Iff.symm (or_iff_left_of_imp ?_)⟩
    rintro rfl
    assumption
  · rw [if_pos rfl, enqueueRenew_calm.clearance, enqueueRenew_calm.exclusiveUse]
    rcases eq_or_ne j i with rfl | hj
    · simp
    · simp [hj]

theorem releaseExclusive_phyNum : (releaseExclusive i e).phyNum = e.phyNum := by
  unfold releaseExclusive phlDispEngClearanceRelease onBand
  split_ifs <;> rfl

theorem releaseExclusive_flags (hp : e.phyNum = 2) : ((releaseExclusive i e).d i).status.exclusiveUse = false ∧
    ((releaseExclusive i e).d i).status.clearance = (e.d i).status.clearance ∧
    ((releaseExclusive i e).d (ntfyidx i)).status.exclusiveUse = (e.d (ntfyidx i)).status.exclusiveUse ∧
    (((releaseExclusive i e).d (ntfyidx i)).status.clearance ↔
      (e.d (ntfyidx i)).status.clearance ∧ ¬ (e.d i).status.exclusiveUse) := by
  have hne : i ≠ ntfyidx i := (ntfyidx_ne i).symm
  unfold releaseExclusive
  split
  · unfold phlDispEngClearanceRelease
    rw [onBand_eq (show (e.onStatus i _).phyNum = 2 from hp)]
    unfold disprClearanceRelease
    simp only [enqueueRenew_calm.clearance, enqueueRenew_calm.exclusiveUse]
    simp [hne.symm, *]
  · simp [*]

theorem cmdTokenComplete_flags (hp : e.phyNum = 2) :
    ((cmdTokenComplete i e).d i).status.clearance = (e.d i).status.clearance ∧
    (((cmdTokenComplete i e).d (ntfyidx i)).status.clearance →
      (e.d (ntfyidx i)).status.clearance ∧ ¬ (e.d i).status.exclusiveUse) ∧
    ((e.d (ntfyidx i)).status.exclusiveUse → ((cmdTokenComplete i e).d (ntfyidx i)).status.exclusiveUse) := by
  obtain ⟨-, hci, hxn, hcn⟩ := releaseExclusive_flags (i := i) hp
  unfold cmdTokenComplete
  rw [if_neg (by omega)]
  unfold signalReady
  split
  · have hflags := fun j => phlDispEngExclusiveReady_flags (i := ntfyidx i) (j := j)
      (releaseExclusive_phyNum.trans hp : (releaseExclusive i e).phyNum = 2)
    refine ⟨(hflags i).1.trans hci, fun hc => hcn.1 ((hflags _).1 ▸ hc), fun _ => ?_⟩
    exact (hflags _).2.2 (.inr rfl)
  · exact ⟨hci, hcn.1, fun hx => hxn.trans hx⟩

theorem Wanted.complete (hp : e.phyNum = 2)
    (hk : (e.d (ntfyidx i)).status.clearance → (e.d i).tok.Wants ∨ (e.d i).status.exclusiveUse)
    (hu : ∀ r, (e.d i).tok.curCmdReq = some r → (e.req i r).req.opt = fgCmdOptExclusive →
      (e.d (ntfyidx i)).status.clearance → (e.d i).status.exclusiveUse) :
    Wanted (cmdTokenComplete i e) i := by
  have hsig : Signals e (cmdTokenComplete i e) := .tokenComplete
  have hsame := (hsig.tok i).sameReqs.1
  obtain ⟨-, hcn, -⟩ := cmdTokenComplete_flags (i := i) hp
  refine ⟨fun hc => ?_, fun r hr hopt hc => ?_⟩
  · obtain ⟨hc', hx⟩ := hcn hc
    exact .inl (((hk hc').resolve_right hx).congr hsame.reqWait hsame.curCmdReq hsame.reqHand
      hsame.req fun r => by rw [hsame.status])
  · obtain ⟨hc', hx⟩ := hcn hc
    rw [hsame.curCmdReq] at hr
    rw [Eng.req, hsame.req] at hopt; exact absurd (hu r hr hopt hc') hx

theorem Wanted.completeOther (hp : e.phyNum = 2) (h : Wanted e (ntfyidx i)) :
    Wanted (cmdTokenComplete i e) (ntfyidx i) := by
  obtain ⟨hci, -, hxn⟩ := cmdTokenComplete_flags (i := i) hp
  refine h.signals .tokenComplete (fun hc => ?_) hxn fun hw => ?_
  · rw [ntfyidx_ntfyidx] at hc ⊢; exact hci ▸ hc
  · rw [SameWait.tokenComplete]; exact hw

theorem Wanted.completeBoth (hp : e.phyNum = 2) (h : ∀ j, j ≠ i → Wanted e j)
    (hk : (e.d (ntfyidx i)).status.clearance → (e.d i).tok.Wants ∨ (e.d i).status.exclusiveUse)
    (hu : ∀ r, (e.d i).tok.curCmdReq = some r → (e.req i r).req.opt = fgCmdOptExclusive →
      (e.d (ntfyidx i)).status.clearance → (e.d i).status.exclusiveUse) (j : Fin 2) :
    Wanted (cmdTokenComplete i e) j := by
  rcases eq_or_ne j i with rfl | hj
  · exact .complete hp hk hu
  · obtain rfl := eq_ntfyidx hj; exact (h _ hj).completeOther hp

/-! ### The requests -/

theorem TokenQs.Wants.of_hasExclusive {t : TokenQs} (h : t.hasExclusive) : t.Wants := by
  obtain ⟨r, hr, hopt⟩ := List.any_eq_true.1 h
  refine ⟨r, by simpa using hopt, ?_⟩
  rcases List.mem_append.1 hr with hw | hc
  · exact .inl hw
  · exact .inr (.inl (Option.mem_toList.1 hc))

theorem Wanted.onTok {f : TokenQs → TokenQs} (h : ∀ j, Wanted e j) (ht : (e.d i).tok.Wants → (f (e.d i).tok).Wants)
    (hcur : ∀ r, (f (e.d i).tok).curCmdReq = some r →
      ((f (e.d i).tok).reqPool r).req.opt = fgCmdOptExclusive → (e.d i).status.exclusiveUse ∨
        (e.d i).tok.curCmdReq = some r ∧ (e.req i r).req.opt = fgCmdOptExclusive) (j : Fin 2) :
    Wanted (e.onTok i f) j := by
  refine (h j).mono (by simp) (by simp) (by simp) (fun hw => ?_) fun r hr hopt => ?_
  · rcases eq_or_ne j i with rfl | hj
    · simpa using ht hw
    · simpa [hj] using hw
  · rcases eq_or_ne j i with rfl | hj
    · exact hcur r (by simpa using hr) (by simpa [Eng.req] using hopt)
    · exact .inr ⟨by simpa [hj] using hr, by simpa [Eng.req, hj] using hopt⟩

theorem onStatus_wait_flags (b : Bool) (j : Fin 2) :
    ((e.onStatus i fun s => { s with waitAbortMsgDone := b }).d j).status.clearance = (e.d j).status.clearance ∧
      ((e.onStatus i fun s => { s with waitAbortMsgDone := b }).d j).status.exclusiveUse =
        (e.d j).status.exclusiveUse := by
  rcases eq_or_ne j i with rfl | hj
  · simp
  · simp [hj]

theorem Wanted.retire (hp : e.phyNum = 2) (h : ∀ j, Wanted e j) (hf : (e.ex i k).status.forAbort)
    (j : Fin 2) : Wanted (retireMsg i k e) j := by
  have hdone : Wanted (onAbortMsgComplete i e) j := by
    have hfl := onStatus_wait_flags (e := e) (i := i) false
    have hcl : (((e.onStatus i fun s => { s with waitAbortMsgDone := false }).d
        (ntfyidx i)).status.clearance → (e.d (ntfyidx i)).status.clearance) := fun hc =>
      (hfl _).1 ▸ hc
    have hcomp : Wanted (cmdTokenComplete i (e.onStatus i fun s =>
        { s with waitAbortMsgDone := false })) j := by
      refine .completeBoth (by exact hp) (fun j hj => ?_) (fun hc => ?_) (fun r hr hopt hc => ?_) j
      · exact (h j).mono (fun hc => (hfl _).1 ▸ hc) (fun hx => (hfl j).2.trans hx) (by simp [hj])
          (by simp) fun r hr hopt => .inr (by simpa using And.intro hr hopt)
      · rw [(hfl i).2]; exact ((h i).kept (hcl hc)).imp (by simp) (·.2)
      · rw [(hfl i).2]; exact (h i).used r (by simpa using hr) (by simpa using hopt) (hcl hc)
    exact hcomp.calm enqueueRenew_calm
  have hsig : abortSignal i k e = onAbortMsgComplete i e := by
    unfold abortSignal
    rw [if_pos hf]
  have hst : ∀ j, ((retireMsg i k e).d j).status = ((onAbortMsgComplete i e).d j).status :=
    fun j => by rw [(retireMsg_parts e i j k).2.2.2.2, hsig]
  have htok : ((retireMsg i k e).d j).tok = ((onAbortMsgComplete i e).d j).tok := by
    rw [(retireMsg_parts e i j k).2.2.1, hsig]
  refine hdone.mono (fun hc => hst _ ▸ hc) (fun hx => hst _ ▸ hx) (fun hw => hst _ ▸ hw)
    (fun hw => htok ▸ hw) fun r hr hopt => .inr ⟨htok ▸ hr, ?_⟩
  rw [Eng.req, htok] at hopt; exact hopt

theorem TokenQs.Wants.fillReq {t t' : TokenQs} {rq : PhlCmdTokenReq} (h : t.Wants) (ht : TokOk t)
    (hr : t.popFrontIdleReq = some (r, t')) : (t'.fillReq r rq).Wants := by
  obtain ⟨idle, hidle, heq⟩ := fillReq_eq rq hr
  have hout : r ∉ t.reqWait ++ t.reqHand ++ t.curCmdReq.toList := fun hm =>
    ht.reqs.not_idle hm (by simp [hidle])
  obtain ⟨s, hopt, hs⟩ := h
  have hsr : s ≠ r := by
    rintro rfl
    rcases hs with hs | hs | hs <;> simp [hs] at hout
  rw [heq]
  refine ⟨s, by simpa [hsr] using hopt, ?_⟩
  rcases hs with hs | hs | hs
  · exact .inl (List.mem_append_left _ hs)
  · exact .inr (.inl hs)
  · exact .inr (.inr (by simpa [hsr] using hs))

theorem Wanted.drop (h : Wanted e i) (hr : (e.d i).tok.curCmdReq = some r) (hc : (e.d (ntfyidx i)).status.clearance) :
    ((pushBackIdleReq i r (dropCur i e)).d i).tok.Wants ∨ (e.d i).status.exclusiveUse := by
  rcases h.kept hc with ⟨s, hopt, hs⟩ | ⟨-, hx⟩
  · by_cases hsr : s = r
    · exact .inr (h.used r hr (hsr ▸ hopt) hc)
    · refine .inl ?_
      rw [pushBackIdleReq_tok]
      refine ⟨s, by simpa [TokenQs.pushIdle, dropCur, hsr] using hopt, ?_⟩
      rcases hs with hs | hs | ⟨hh, hp⟩
      · exact .inl (by simpa [TokenQs.pushIdle, dropCur] using hs)
      · exact absurd (Option.some.inj (hs.symm.trans hr)) hsr
      · refine .inr (.inr ⟨?_, by simpa [TokenQs.pushIdle, dropCur, hsr] using hp⟩)
        simpa [TokenQs.pushIdle, dropCur, hr] using hh
  · exact .inr hx

/-! ### The moves -/

/-- The event leaves the other dispatcher asked to stay clear for nobody: the last exclusive request is
withdrawn, or the thread leaves. -/
def Ev.strands : Ev N → Bool
  | .withdrawn i r d => (d (ntfyidx i)).status.clearance &&
      !((d i).status.waitAbortMsgDone && (d i).status.exclusiveUse) &&
      !((d i).tok.delWaitReq r).hasExclusive
  | .left _ => true
  | _ => false

theorem Wanted.shift (hp : e.phyNum = 2) (h : ∀ j, Wanted e j) (hs : Shift e e')
    (ht : ∀ j, TokOk (e.d j).tok) (hk : ∀ ev ∈ e'.log, ev.strands = false) (j : Fin 2) :
    Wanted e' j := by
  cases hs with
  | sendAccepted i msg attr k idle hidle =>
    have hfl : ∀ j, ((Dispr.sendAccepted i msg attr k e).d j).status.clearance = (e.d j).status.clearance ∧
        ((Dispr.sendAccepted i msg attr k e).d j).status.exclusiveUse = (e.d j).status.exclusiveUse := fun j => by
      rw [sendAccepted_status]
      split
      · exact onStatus_wait_flags true j
      · exact ⟨rfl, rfl⟩
    refine (h j).mono (fun hc => (hfl _).1 ▸ hc) (fun hx => (hfl j).2.trans hx) (fun hw => ?_)
      (fun hw => by rwa [sendAccepted_tok]) fun s hs hopt => .inr ?_
    · rw [sendAccepted_status]
      split
      · rcases eq_or_ne j i with rfl | hj
        · simp
        · simpa [hj] using hw
      · exact hw
    · rw [sendAccepted_tok] at hs
      rw [Eng.req, sendAccepted_tok] at hopt; exact ⟨hs, hopt⟩
  | retire i k hm hr =>
    by_cases hf : (e.ex i k).status.forAbort
    · exact .retire hp h hf j
    · exact (h j).calm (retireMsg_calm hf)
  | addReq i rq r t hr =>
    have hpush := (t.fillReq r rq).push_sameReqs (.add r) .addCmdReq r
    refine Wanted.calm (Wanted.onTok h (fun hw => ?_) (fun s hs hopt => .inr ?_) j) (.logEv _)
    · exact (hw.fillReq (ht i) hr).congr hpush.reqWait hpush.curCmdReq hpush.reqHand hpush.req
        fun s => by rw [hpush.status]
    · obtain ⟨idle, hidle, heq⟩ := fillReq_eq rq hr
      rw [hpush.curCmdReq, heq] at hs
      rw [hpush.req, heq] at hopt
      have hsr : s ≠ r := by
        rintro rfl
        exact (ht i).reqs.not_idle (r := s) (by simp_all) (by simp [hidle])
      exact ⟨hs, by simpa [hsr, Eng.req] using hopt⟩
  | takeReq i r t hpop =>
    obtain ⟨wait, hwait, rfl⟩ := popFrontWaitReq_eq hpop
    refine Wanted.onTok h (fun hw => ?_) (fun s hs hopt => .inr ⟨hs, ?_⟩) j
    · obtain ⟨s, hopt, hs⟩ := hw
      by_cases hsr : s = r
      · exact ⟨s, by simpa [hsr] using hopt, .inr (.inr ⟨by simp [hsr], by simp [hsr]⟩)⟩
      · refine ⟨s, by simpa [hsr] using hopt, ?_⟩; simpa [hsr, hwait] using hs
    · by_cases hsr : s = r
      · simpa [hsr, Eng.req] using hopt
      · simpa [hsr, Eng.req] using hopt
  | makeCur i r hr hcnt hc hw hx =>
    have hnone := (ht i).reqs.cur_eq_none hcnt
    rw [makeCur_eq]
    refine Wanted.onTok h (fun hw => ?_) (fun s hs hopt => .inl ?_) j
    · obtain ⟨s, hopt, hs⟩ := hw
      by_cases hsr : s = r
      · exact ⟨s, by simpa [hsr] using hopt, .inr (.inl (by simp [hsr]))⟩
      · refine ⟨s, by simpa [hsr] using hopt, ?_⟩
        rcases hs with hs | hs | hs
        · exact .inl hs
        · simp [hnone] at hs
        · exact .inr (.inr ⟨(List.mem_erase_of_ne hsr).2 hs.1, by simpa [hsr] using hs.2⟩)
    · cases hs; exact hx (by simpa [Eng.req] using hopt)
  | stopRun i r hr =>
    have hreq : ∀ s, (((e.d i).tok.onReq r fun ex =>
        { ex with status := { ex.status with run := false } }).reqPool s).req = (e.req i s).req ∧
        (((e.d i).tok.onReq r fun ex =>
          { ex with status := { ex.status with run := false } }).reqPool s).status.prepare =
          (e.req i s).status.prepare := fun s => by
      by_cases hsr : s = r
      · simp [hsr, Eng.req]
      · simp [hsr, Eng.req]
    exact Wanted.onTok h (fun hw => hw.congr rfl rfl rfl (fun s => (hreq s).1) fun s => (hreq s).2)
      (fun s hs hopt => .inr ⟨hs, (hreq s).1 ▸ hopt⟩) j
  | endCur i r hr =>
    have hst : ∀ j, ((pushBackIdleReq i r (dropCur i (e.logEv (.ended i r e.d)))).d j).status =
        (e.d j).status := fun j => by simp [pushBackIdleReq, dropCur]
    have hnone : ((pushBackIdleReq i r (dropCur i (e.logEv (.ended i r e.d)))).d i).tok.curCmdReq = none := by
      rw [pushBackIdleReq_tok]
      simp [TokenQs.pushIdle, dropCur]
    have hdrop := ((h i).calm (.logEv (.ended i r e.d))).drop hr
    have hother : ∀ j, j ≠ i → Wanted (pushBackIdleReq i r (dropCur i (e.logEv (.ended i r e.d)))) j := fun j hj => by
      refine (h j).mono (fun hc => hst _ ▸ hc) (fun hx => hst j ▸ hx) (fun hw => hst j ▸ hw)
        (fun hw => ?_) fun s hs hopt => .inr ?_
      · simpa [pushBackIdleReq, dropCur, hj] using hw
      · rw [pushBackIdleReq_tok_ne hj] at hs
        rw [Eng.req, pushBackIdleReq_tok_ne hj] at hopt
        simpa [dropCur, hj, Eng.req] using And.intro hs hopt
    split_ifs with hw
    · rcases eq_or_ne j i with rfl | hj
      · refine ⟨fun hc => ?_, fun s hs => by simp [hnone] at hs⟩
        rw [hst] at hc ⊢; exact (hdrop hc).imp_right fun hx => ⟨hw, hx⟩
      · exact hother j hj
    · refine .completeBoth (by exact hp) hother (fun hc => ?_) (fun s hs => by simp [hnone] at hs) j
      rw [hst] at hc ⊢; exact hdrop hc
  | withdraw i r hr =>
    have hkeep := hk (.withdrawn i r e.d) (by simp)
    have hst : ∀ j, (((e.logEv (.withdrawn i r e.d)).onTok i fun t => t.delWaitReq r).d j).status =
        (e.d j).status := fun j => by simp
    rcases eq_or_ne j i with rfl | hj
    · refine ⟨fun hc => ?_, fun s hs hopt hc => ?_⟩
      · rw [hst] at hc ⊢
        by_cases hx : (e.d j).status.waitAbortMsgDone ∧ (e.d j).status.exclusiveUse
        · exact .inr hx
        · refine .inl ?_
          have hhas : ((e.d j).tok.delWaitReq r).hasExclusive := by
            by_contra hno
            simp [Ev.strands, hc, hx, hno] at hkeep
          simpa using TokenQs.Wants.of_hasExclusive hhas
      · rw [hst] at hc ⊢
        exact (h j).used s (by simpa [TokenQs.delWaitReq] using hs)
          (by simpa [TokenQs.delWaitReq, Eng.req] using hopt) hc
    · exact (h j).mono (fun hc => hst _ ▸ hc) (fun hx => hst j ▸ hx) (fun hw => hst j ▸ hw)
        (by simp [hj]) fun s hs hopt => .inr (by simpa [hj, Eng.req] using And.intro hs hopt)
  | endReq i r hr hprep =>
    have hno : (e.req i r).status.prepare = false := by
      by_contra hpr
      have hleft := hk (.left i) (by simpa [pushBackIdleReq] using hprep (by simpa using hpr))
      simp [Ev.strands] at hleft
    have hcalm : ∀ j, Wanted (e.setCurPendingEvt i (e.req i r).req.moduleId msgEvtMax) j := fun j =>
      (h j).calm setCurPendingEvt_calm
    have hcur := (ht i).reqs.not_cur_of_hand hr
    have hwait := (ht i).reqs.not_wait_of_hand hr
    refine Wanted.onTok hcalm (fun hw => ?_) (fun s hs hopt => .inr ?_) j
    · obtain ⟨s, hopt, hs⟩ : (e.d i).tok.Wants := by simpa using hw
      have hsr : s ≠ r := by
        rintro rfl
        rcases hs with hs | hs | hs
        · exact hwait hs
        · exact hcur hs
        · simp [Eng.req, hs.2] at hno
      refine ⟨s, by simpa [TokenQs.pushIdle, hsr] using hopt, ?_⟩
      rcases hs with hs | hs | ⟨hh, hp⟩
      · exact .inl (by simpa [TokenQs.pushIdle] using hs)
      · exact .inr (.inl (by simpa [TokenQs.pushIdle] using hs))
      · exact .inr (.inr ⟨by simpa [TokenQs.pushIdle, hsr] using hh, by simpa [TokenQs.pushIdle, hsr] using hp⟩)
    · have hs' : (e.d i).tok.curCmdReq = some s := by simpa [TokenQs.pushIdle] using hs
      have hsr : s ≠ r := by
        rintro rfl
        exact hcur hs'
      exact ⟨by simpa using hs', by simpa [TokenQs.pushIdle, hsr, Eng.req] using hopt⟩
  | acquire i hx hcnt =>
    have hflags := fun j => phlDispEngClearanceAcquire_flags (i := ntfyidx i) (j := j) hp
    have hsig : Signals e (phlDispEngClearanceAcquire (ntfyidx i) e) := .clearanceAcquire
    rcases eq_or_ne j i with rfl | hj
    · have hsame := (hsig.tok j).sameReqs.1
      have hwants : (e.d j).tok.Wants := by
        unfold TokenQs.frontReqWithExclusiveOpt at hx
        split at hx
        · cases hx
        · rename_i r wait hw
          exact ⟨r, by simpa using hx, .inl (by simp [hw])⟩
      refine ⟨fun _ => .inl (hwants.congr hsame.reqWait hsame.curCmdReq hsame.reqHand hsame.req
        fun s => by rw [hsame.status]), fun s hs => ?_⟩
      rw [hsame.curCmdReq, (ht j).reqs.cur_eq_none hcnt] at hs; cases hs
    · refine (h j).signals hsig (fun hc => ?_) (fun hx => (hflags j).2.trans hx)
        fun hw => (SameWait.acquire j).trans hw
      refine ((hflags _).1.1 hc).resolve_right fun heq => hj ?_
      rw [← ntfyidx_ntfyidx j, heq, ntfyidx_ntfyidx]
  | ready i hc hcnt hw =>
    have hflags := fun j => phlDispEngExclusiveReady_flags (i := ntfyidx i) (j := j) hp
    exact (h j).signals .exclusiveReady (fun hc => (hflags _).1 ▸ hc)
      (fun hx => (hflags j).2.2 (.inl hx)) fun hw => (SameWait.ready j).trans hw
  | gate i hc hcnt =>
    have hflags := fun j => phlDispEngExclusiveReady_flags (i := ntfyidx i) (j := j)
      (show (e.logEv (.gate i (e.d i))).phyNum = 2 from hp)
    exact ((h j).calm (.logEv _)).signals .exclusiveReady (fun hc => (hflags _).1 ▸ hc)
      (fun hx => (hflags j).2.2 (.inl hx)) fun hw => (SameWait.ready j).trans hw
  | tokenComplete i hr hw =>
    exact .completeBoth hp (fun j _ => h j) (fun hc => ((h i).kept hc).imp_right (·.2)) (h i).used j

theorem Move.phyNum (hm : Move e e') : e'.phyNum = e.phyNum := by
  rcases hm.calm_or_shift with hc | hs
  · exact hc.phyNum
  · cases hs with
    | sendAccepted => exact sendAccepted_phyNum
    | retire i k => exact (retireMsg_parts e i i k).2.1
    | endCur =>
      split
      · rfl
      · exact Signals.tokenComplete.phyNum
    | acquire => exact Signals.clearanceAcquire.phyNum
    | ready | gate => exact Signals.exclusiveReady.phyNum
    | tokenComplete => exact Signals.tokenComplete.phyNum
    | _ => rfl

theorem Move.wanted (hm : Move e e') (hs : Sound e)
    (h : (∀ ev ∈ e.log, ev.strands = false) → e.phyNum = 2 ∧ ∀ j, Wanted e j)
    (hk : ∀ ev ∈ e'.log, ev.strands = false) : e'.phyNum = 2 ∧ ∀ j, Wanted e' j := by
  obtain ⟨hp, he⟩ := h fun ev hev => hk ev (hm.log.subset hev)
  refine ⟨hm.phyNum.trans hp, fun j => ?_⟩
  rcases hm.calm_or_shift with hc | hshift
  · exact (he j).calm hc
  · exact .shift hp he hshift hs.tok hk j

theorem Wanted.start {ctrl : Fin 2 → Bool} : Wanted (Eng.start (N := N) 2 ctrl) i :=
  ⟨fun h => by simp [Eng.start, CmdDispatcher.start] at h, fun r h => by simp [Eng.start, CmdDispatcher.start] at h⟩

/-- **While a dispatcher is asked to stay clear, somebody wants it.**  In a run of two dispatchers, when
one of them is asked to stay clear, an exclusive request waits or is current on the other one, or the
other one still waits for the end of the abort of one, after which it gives the clearance back: if so
far no cancelled request has stranded the clearance. -/
theorem clearance_wanted {ctrl : Fin 2 → Bool} (hrun : Run (fun _ _ => True) (Eng.start 2 ctrl) e)
    (hk : ∀ ev ∈ e.log, ev.strands = false) (hc : (e.d (ntfyidx i)).status.clearance) :
    (∃ r, (e.req i r).req.opt = fgCmdOptExclusive ∧ (r ∈ (e.d i).tok.reqWait ∨ (e.d i).tok.curCmdReq = some r)) ∨
      (e.d i).status.waitAbortMsgDone ∧ (e.d i).status.exclusiveUse := by
  obtain ⟨hsteps, hrest⟩ := Run.steps .start hrun
  obtain ⟨-, h⟩ := hsteps.invariant (fun _ _ hm hs _ h => hm.wanted hs h) AtRest.start.sound
    (fun _ => ⟨rfl, fun _ => .start⟩) hk
  refine ((h i).kept hc).imp_left fun ⟨r, hopt, hr⟩ => ⟨r, hopt, ?_⟩
  refine hr.imp_right fun hr => hr.resolve_right fun hh => ?_
  simp [(hrest.rest i).reqHand] at hh

end

/-- An exclusive request becomes the current one of the first dispatcher, and is cancelled. -/
def cancelCur (abort : Script) : List Op :=
  [.api 0 (.addTokenReq (some ⟨201, fgCmdOptExclusive, true⟩) true), .tokenGate 0, .tokenOp 0 [],
    .tokenGate 1, .tokenGate 0, .tokenOp 0 [], .api 0 (.cancelTokenReq (some (genValidHdl 0))),
    .tokenGate 0, .tokenOp 0 [⟨.success, abort⟩]]

/-- The engine after it, when the abort sends a message. -/
def cancelled : Eng 4 :=
  (cancelCur (.send 0 ⟨{ MsgId.zero with mdlId := 201, evtId := 5 }, none⟩
    (some { PhlMsgAttribute.zero with sendInAbort := true }) .done .done)).foldl Op.run
    (Eng.start 2 fun _ => true)

theorem cancelled_run : Run (fun _ _ => True) (Eng.start 2 fun _ => true) cancelled :=
  Lib.Reach.foldl _ fun _ _ _ => trivial

theorem clearance_wanted_cancelled : (∃ r, (cancelled.req 0 r).req.opt = fgCmdOptExclusive ∧
      (r ∈ (cancelled.d 0).tok.reqWait ∨ (cancelled.d 0).tok.curCmdReq = some r)) ∨
      (cancelled.d 0).status.waitAbortMsgDone ∧ (cancelled.d 0).status.exclusiveUse :=
  clearance_wanted (i := 0) cancelled_run (by decide) (by decide)

/-- While the message its abort has sent is dispatched, the clearance is kept for a request that is back
in the pool. -/
theorem not_clearance_wanted : ¬ ∀ e : Eng 4, Run (fun _ _ => True) (Eng.start 2 fun _ => true) e →
    ∀ i, (e.d (ntfyidx i)).status.clearance → ∃ r, (e.req i r).req.opt = fgCmdOptExclusive ∧
        (r ∈ (e.d i).tok.reqWait ∨ (e.d i).tok.curCmdReq = some r) := by
  intro h
  obtain ⟨r, -, hr⟩ := h cancelled cancelled_run 0 (by decide)
  have hnone : (cancelled.d 0).tok.reqWait = [] ∧ (cancelled.d 0).tok.curCmdReq = none := by
    decide
  simp [hnone] at hr

end Rtl8852cu.Dispr
