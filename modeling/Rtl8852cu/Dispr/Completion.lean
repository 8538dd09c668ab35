import Rtl8852cu.Dispr.Leave

/-!
# Completion routines

A caller that gives `dispr_send_msg` a completion routine releases its command there, and itself when
the call fails; so the routine should be called once for a call that succeeds, and not for one that
fails.  It is, but for one branch of `dispr_send_msg`: a message that the requestor of the current
request sends in its last-permit phase, and that is not marked to be sent there, goes back to the
pool by `push_back_idle_msg`, which calls the routine, and the call returns a failure.
-/

namespace Rtl8852cu.Dispr

variable {N : ℕ} {e e' : Eng N} {i : Fin 2}

/-- The completion routine of call `n`, which returned `sts`, was called as often as it should. -/
def CompletedOnce (log : List (Ev N)) (i : Fin 2) (n : ℕ) (sts : PhlStatus) : Prop :=
  completions log i n = if sts = .success then 1 else 0

/-- The call was given an entry, and its message was given back to the pool before it was queued. -/
def GivenBack (d : CmdDispatcher N) (msg : PhlMsg) (attr : Option PhlMsgAttribute) : Prop :=
  sendErr d msg attr = none ∧ d.msgs.idle ≠ [] ∧ sendDropped d msg attr

variable {d : CmdDispatcher N} {msg : PhlMsg} {attr : Option PhlMsgAttribute}

theorem sendStatus_success_iff : sendStatus d msg attr = .success ↔ Taken d msg attr ∧ ¬ GivenBack d msg attr := by
  have herr : ∀ sts, sendErr d msg attr = some sts → sts ≠ .success := by
    rintro _ h rfl
    unfold sendErr at h
    split_ifs at h <;> simp_all
  unfold sendStatus Taken GivenBack
  cases hs : sendErr d msg attr with
  | some sts => simpa using herr sts hs
  | none =>
    cases d.msgs.idle with
    | nil => simp
    | cons k idle =>
      by_cases hd : sendDropped d msg attr <;> simp [hd]

theorem MsgsOk.settles (h : MsgsOk i (e.d i).msgs e.log) (hall : AllIdle i e) {n : ℕ}
    {sts : PhlStatus} {hdl : Option ℕ}
    (hsent : .sent i n d msg attr sts hdl ∈ e.log) (hw : wantsCompletion attr) :
    CompletedOnce e.log i n sts ↔ ¬ GivenBack d msg attr := by
  obtain ⟨rfl, -⟩ := h.calls.answered _ _ _ _ _ _ hsent
  unfold CompletedOnce
  by_cases ht : Taken d msg attr
  · have hone : completions e.log i n = 1 := by
      rcases h.settled _ _ _ _ _ _ hsent ht with ⟨k, hk, -⟩ | hone
      · exact absurd (hall.idle.mem_iff.2 (List.mem_finRange k)) hk
      · simpa [hw] using hone
    by_cases hg : GivenBack d msg attr
    · have hs : sendStatus d msg attr ≠ .success := fun hs => (sendStatus_success_iff.1 hs).2 hg
      simp [hone, hs, hg]
    · have hs : sendStatus d msg attr = .success := sendStatus_success_iff.2 ⟨ht, hg⟩
      simp [hone, hs, hg]
  · have hzero := h.calls.refused _ _ _ _ _ _ hsent ht
    have hs : sendStatus d msg attr ≠ .success := fun hs => ht (sendStatus_success_iff.1 hs).1
    have hg : ¬ GivenBack d msg attr := fun hg => ht ⟨hg.1, hg.2.1⟩
    simp [hzero, hs, hg]

theorem MsgsOk.at_most_once (h : MsgsOk i (e.d i).msgs e.log) {n : ℕ} {sts : PhlStatus} {hdl : Option ℕ}
    (hsent : .sent i n d msg attr sts hdl ∈ e.log) :
    completions e.log i n ≤ 1 ∧ (sts ≠ .success → ¬ GivenBack d msg attr → completions e.log i n = 0) := by
  by_cases ht : Taken d msg attr
  · refine ⟨?_, fun hs hg => absurd ?_ hs⟩
    · rcases h.settled _ _ _ _ _ _ hsent ht with ⟨k, hk, rfl⟩ | hone
      · obtain ⟨d', msg', attr', hb⟩ := h.billed k hk
        cases hf : ((e.d i).msgs.pool k).fired with
        | false => simp [(hb.waiting hf).2]
        | true => simp [(hb.done hf).2]
      · rw [hone]
        split <;> simp
    · rw [(h.calls.answered _ _ _ _ _ _ hsent).1]; exact sendStatus_success_iff.2 ⟨ht, hg⟩
  · have hzero := h.calls.refused _ _ _ _ _ _ hsent ht; exact ⟨by simp [hzero], fun _ _ => hzero⟩

/-- **Every completion routine is called as often as it should, but for messages given back.**  In
every state of every run it was called at most once, and not for a call that failed, unless its
message was given back.  And after a run that ends with the thread leaving the dispatchers, for each
call made before the thread left or while it did, the routine was called once if the call succeeded
and never otherwise, exactly when the message was not given back. -/
theorem completed_once_iff {phyNum : ℕ} {ctrl : Fin 2 → Bool}
    (h : Run (fun _ _ => True) (Eng.start phyNum ctrl) e) (i : Fin 2) :
    (∀ n d msg attr sts hdl, .sent i n d msg attr sts hdl ∈ e.log → completions e.log i n ≤ 1 ∧
        (sts ≠ .success → ¬ GivenBack d msg attr → completions e.log i n = 0)) ∧
    ∀ js env fuel, (∀ j ∈ js ++ [i], (e.d j).status.started = false) → leaveFuel N ≤ fuel →
      ∃ e', shareThreadLeave fuel (js ++ [i]) { e with env := env } = some e' ∧
        ∀ n d msg attr sts hdl, .sent i n d msg attr sts hdl ∈ e'.log → wantsCompletion attr →
          (CompletedOnce e'.log i n sts ↔ ¬ GivenBack d msg attr) := by
  obtain ⟨-, he⟩ := Run.steps .start h
  refine ⟨fun _ _ _ _ _ _ hsent => (he.sound.msgs i).at_most_once hsent, fun js env fuel hst hfuel => ?_⟩
  obtain ⟨-, he'⟩ := env_leads env e he
  obtain ⟨e', heq, -, hrest, hall⟩ := shareThreadLeave_leaves hfuel js _ he' hst
  exact ⟨e', heq, fun n d msg attr sts hdl hsent hw =>
    (hrest.sound.msgs i).settles hall hsent hw⟩

/-- A run in which the abort of the current request sends a message with a completion routine. -/
def abortSends : List Op :=
  let msg : PhlMsg := ⟨{ MsgId.zero with mdlId := 200, evtId := 5 }, none⟩
  let attr : PhlMsgAttribute := { PhlMsgAttribute.zero with completion := true }
  [.api 0 (.addTokenReq (some ⟨200, 0, true⟩) true), .tokenOp 0 [], .api 0 (.cancelTokenReq (some (genValidHdl 0))),
    .tokenOp 0 [⟨.success, .send 0 msg (some attr) .done .done⟩], .api 0 .stopPrior]

/-- The message sent in the abort is given back: the call fails, and yet the routine is called. -/
theorem completed_once_iff_abortSends :
    let e : Eng 2 := abortSends.foldl Op.run (Eng.start 1 fun _ => true)
    ∃ e', shareThreadLeave (leaveFuel 2) [0] { e with env := [] } = some e' ∧
      ∀ n d msg attr sts hdl, .sent 0 n d msg attr sts hdl ∈ e'.log → wantsCompletion attr →
        (CompletedOnce e'.log 0 n sts ↔ ¬ GivenBack d msg attr) := by
  intro e
  have hrun : Run (fun _ _ => True) (Eng.start 1 fun _ => true) e :=
    Lib.Reach.foldl _ fun _ _ _ => trivial
  exact (completed_once_iff hrun 0).2 [] [] _ (by decide) le_rfl

/-- A call that failed, and whose completion routine was called, is in the log. -/
def FailedAndCompleted (log : List (Ev N)) : Bool :=
  log.any fun
    | .sent i n _ _ attr sts _ =>
      wantsCompletion attr && decide (sts ≠ .success) && decide (completions log i n ≠ 0)
    | _ => false

/-- So the routine is not always called as often as it should. -/
theorem not_completed_once : ¬ ∀ e : Eng 2, Run (fun _ _ => True) (Eng.start 1 fun _ => true) e →
    ∀ i n d msg attr sts hdl, .sent i n d msg attr sts hdl ∈ e.log → wantsCompletion attr →
      sts ≠ .success → completions e.log i n = 0 := by
  intro h
  have hrun : Run (fun _ _ => True) (Eng.start 1 fun _ => true)
      (abortSends.foldl Op.run (Eng.start 1 fun _ => true) : Eng 2) :=
    Lib.Reach.foldl _ fun _ _ _ => trivial
  have hbad : FailedAndCompleted
      (abortSends.foldl Op.run (Eng.start 1 fun _ => true) : Eng 2).log := by decide
  obtain ⟨ev, hmem, hev⟩ := List.any_eq_true.1 hbad
  cases ev with
  | sent i n d msg attr sts hdl =>
    simp only [Bool.and_eq_true, decide_eq_true_eq] at hev
    exact hev.2 (h _ hrun i n d msg attr sts hdl hmem hev.1.1 hev.1.2)
  | _ => simp at hev

end Rtl8852cu.Dispr
