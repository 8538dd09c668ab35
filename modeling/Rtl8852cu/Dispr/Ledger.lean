import Rtl8852cu.Dispr.Moves

/-!
# The ledger of messages

Where the entries of the message pool are, and what became of the calls of `dispr_send_msg`.

* `MsgsOk`: every entry is in one queue or in a running function; the entries in use belong to
  different calls, and a call that was given an entry has one, or has had its completion routine
  called as often as it should;
* `Move.msgsOk`: every move keeps this.
-/

namespace Rtl8852cu.Dispr

variable {N : ℕ}

/-! ### The events of the messages -/

/-- The completion routine of call `n` is called. -/
def Ev.isComplete (i : Fin 2) (n : ℕ) : Ev N → Bool
  | .complete j m => decide (j = i ∧ m = n)
  | _ => false

/-- How often the completion routine of call `n` was called. -/
def completions (log : List (Ev N)) (i : Fin 2) (n : ℕ) : ℕ := log.countP (Ev.isComplete i n)

/-- A call of `dispr_send_msg`, or of a completion routine, of dispatcher `i`. -/
def Ev.isMsg (i : Fin 2) : Ev N → Bool
  | .sent j .. | .complete j _ => decide (j = i)
  | _ => false

section Log

variable {i : Fin 2} {n : ℕ} {log log' : List (Ev N)}

theorem mem_of_filter (p : Ev N → Bool) (h : log'.filter p = log.filter p) {ev : Ev N}
    (hp : p ev) : ev ∈ log' ↔ ev ∈ log := by
  have hiff : ev ∈ log'.filter p ↔ ev ∈ log.filter p := by rw [h]
  simpa [hp] using hiff

theorem completions_filter : completions (log.filter (Ev.isMsg i)) i n = completions log i n := by
  unfold completions
  rw [List.countP_filter]
  refine List.countP_congr fun ev _ => ?_
  cases ev <;> simp +contextual [Ev.isComplete, Ev.isMsg]

theorem completions_congr (h : log'.filter (Ev.isMsg i) = log.filter (Ev.isMsg i)) :
    completions log' i n = completions log i n := by
  rw [← completions_filter, h, completions_filter]

theorem completions_append (ev : Ev N) :
    completions (log ++ [ev]) i n = completions log i n + (Ev.isComplete i n ev).toNat := by
  cases h : Ev.isComplete i n ev <;> simp [completions, h]

end Log

/-! ### What a call gets -/

/-- The call was given an entry of the pool. -/
def Taken (d : CmdDispatcher N) (msg : PhlMsg) (attr : Option PhlMsgAttribute) : Prop :=
  sendErr d msg attr = none ∧ d.msgs.idle ≠ []

/-- The call asks for its completion routine to be called. -/
def wantsCompletion (attr : Option PhlMsgAttribute) : Bool := attr.any (·.completion)

/-- The status `dispr_send_msg` returns. -/
def sendStatus (d : CmdDispatcher N) (msg : PhlMsg) (attr : Option PhlMsgAttribute) : PhlStatus :=
  match sendErr d msg attr with
  | some sts => sts
  | none =>
    match d.msgs.idle with
    | [] => .resource
    | _ => if sendDropped d msg attr then .failure else .success

def sendHdl (d : CmdDispatcher N) (msg : PhlMsg) (attr : Option PhlMsgAttribute) : Option ℕ :=
  if sendStatus d msg attr = .success then d.msgs.idle.head?.map (genValidHdl ·.val) else none

section Fill

variable (d : CmdDispatcher N) (msg : PhlMsg) (attr : Option PhlMsgAttribute) (n : ℕ)

@[simp] theorem setMsgBitmap_parts (m : Modules) (id : ℕ) (ex : PhlDisprMsgEx) :
    (setMsgBitmap m id ex).call = ex.call ∧ (setMsgBitmap m id ex).fired = ex.fired ∧
      (setMsgBitmap m id ex).completion = ex.completion ∧
      (setMsgBitmap m id ex).status = ex.status := by
  unfold setMsgBitmap
  split_ifs <;> simp

@[simp] theorem setMsgCustomBitmap_parts (m : Modules) (a : PhlMsgAttribute) (id : ℕ) (ex : PhlDisprMsgEx) :
    (setMsgCustomBitmap m a id ex).call = ex.call ∧ (setMsgCustomBitmap m a id ex).fired = ex.fired ∧
      (setMsgCustomBitmap m a id ex).completion = ex.completion ∧
      (setMsgCustomBitmap m a id ex).status = ex.status := by
  unfold setMsgCustomBitmap
  split_ifs <;> simp

theorem fillMsg_parts : (fillMsg d msg attr n).call = n ∧ (fillMsg d msg attr n).fired = false ∧
    (fillMsg d msg attr n).completion = wantsCompletion attr ∧
    (fillMsg d msg attr n).status.notifyComplete = wantsCompletion attr ∧
    (fillMsg d msg attr n).status.forAbort = false := by
  cases attr <;>
    simp [fillMsg, wantsCompletion, PhlDisprMsgEx.zero, MsgStatus.zero]

end Fill

/-! ### The calls -/

/-- The calls of `dispr_send_msg` that were logged, and the completions of those that were not given
an entry and of those still to come. -/
structure CallsOk (i : Fin 2) (nsend : ℕ) (log : List (Ev N)) : Prop where
  counted : ∀ n d msg attr sts hdl, .sent i n d msg attr sts hdl ∈ log → n < nsend
  unique : ∀ n d msg attr sts hdl d' msg' attr' sts' hdl',
    .sent i n d msg attr sts hdl ∈ log → .sent i n d' msg' attr' sts' hdl' ∈ log → d = d' ∧ msg = msg' ∧ attr = attr'
  fresh : ∀ n, nsend ≤ n → completions log i n = 0
  answered : ∀ n d msg attr sts hdl, .sent i n d msg attr sts hdl ∈ log →
    sts = sendStatus d msg attr ∧ hdl = sendHdl d msg attr
  refused : ∀ n d msg attr sts hdl, .sent i n d msg attr sts hdl ∈ log → ¬ Taken d msg attr → completions log i n = 0

section Calls

variable {i : Fin 2} {n m : ℕ} {log log' : List (Ev N)} {d d' : CmdDispatcher N} {msg msg' : PhlMsg}
  {attr attr' : Option PhlMsgAttribute} {sts sts' : PhlStatus} {hdl hdl' : Option ℕ}

theorem sent_congr (h : log'.filter (Ev.isMsg i) = log.filter (Ev.isMsg i)) :
    .sent i n d msg attr sts hdl ∈ log' ↔ .sent i n d msg attr sts hdl ∈ log :=
  mem_of_filter _ h (by simp [Ev.isMsg])

theorem mem_sent : .sent i n d' msg' attr' sts' hdl' ∈ log ++ [.sent i m d msg attr sts hdl] ↔
    .sent i n d' msg' attr' sts' hdl' ∈ log ∨
      (n = m ∧ d' = d ∧ msg' = msg ∧ attr' = attr ∧ sts' = sts ∧ hdl' = hdl) := by
  simp

@[simp] theorem completions_sent : completions (log ++ [.sent i m d msg attr sts hdl]) i n = completions log i n := by
  simp [completions_append, Ev.isComplete]

@[simp] theorem completions_complete : completions (log ++ [.complete i m]) i n =
    completions log i n + if m = n then 1 else 0 := by
  by_cases h : m = n <;> simp [completions_append, Ev.isComplete, h]

theorem CallsOk.congr {nsend : ℕ} (h : CallsOk i nsend log)
    (hlog : log'.filter (Ev.isMsg i) = log.filter (Ev.isMsg i)) : CallsOk i nsend log' where
  counted _ _ _ _ _ _ hm := h.counted _ _ _ _ _ _ ((sent_congr hlog).1 hm)
  unique _ _ _ _ _ _ _ _ _ _ _ hm hm' :=
    h.unique _ _ _ _ _ _ _ _ _ _ _ ((sent_congr hlog).1 hm) ((sent_congr hlog).1 hm')
  fresh n hn := (completions_congr hlog).trans (h.fresh n hn)
  answered _ _ _ _ _ _ hm := h.answered _ _ _ _ _ _ ((sent_congr hlog).1 hm)
  refused _ _ _ _ _ _ hm ht :=
    (completions_congr hlog).trans (h.refused _ _ _ _ _ _ ((sent_congr hlog).1 hm) ht)

theorem CallsOk.sent {nsend : ℕ} (h : CallsOk i nsend log) : CallsOk i (nsend + 1)
      (log ++ [.sent i nsend d msg attr (sendStatus d msg attr) (sendHdl d msg attr)]) := by
  constructor
  · intro n d' msg' attr' sts' hdl' hm
    rcases mem_sent.1 hm with hm | ⟨rfl, -⟩
    · exact Nat.lt_succ_of_lt (h.counted _ _ _ _ _ _ hm)
    · exact Nat.lt_succ_self _
  · intro n d₁ msg₁ attr₁ sts₁ hdl₁ d₂ msg₂ attr₂ sts₂ hdl₂ hm₁ hm₂
    rw [mem_sent] at hm₁ hm₂
    rcases hm₁ with hm₁ | ⟨hn₁, rfl, rfl, rfl, -⟩ <;>
      rcases hm₂ with hm₂ | ⟨hn₂, rfl, rfl, rfl, -⟩
    · exact h.unique _ _ _ _ _ _ _ _ _ _ _ hm₁ hm₂
    · have hlt := h.counted _ _ _ _ _ _ hm₁; omega
    · have hlt := h.counted _ _ _ _ _ _ hm₂; omega
    · exact ⟨rfl, rfl, rfl⟩
  · intro n hn
    rw [completions_sent]; exact h.fresh n (Nat.le_of_succ_le hn)
  · intro n d' msg' attr' sts' hdl' hm
    rcases mem_sent.1 hm with hm | ⟨-, rfl, rfl, rfl, rfl, rfl⟩
    · exact h.answered _ _ _ _ _ _ hm
    · exact ⟨rfl, rfl⟩
  · intro n d' msg' attr' sts' hdl' hm ht
    rw [completions_sent]
    rcases mem_sent.1 hm with hm | ⟨rfl, -⟩
    · exact h.refused _ _ _ _ _ _ hm ht
    · exact h.fresh _ le_rfl

end Calls

/-! ### The ledger -/

/-- Entry `k` belongs to a call that asked for it, and its completion routine has been called or
not as `fired` says. -/
structure Billed (i : Fin 2) (q : MsgQs N) (log : List (Ev N)) (k : Fin N) (d : CmdDispatcher N)
    (msg : PhlMsg) (attr : Option PhlMsgAttribute) : Prop where
  sent : .sent i (q.pool k).call d msg attr (sendStatus d msg attr) (sendHdl d msg attr) ∈ log
  err : sendErr d msg attr = none
  head : d.msgs.idle.head? = some k
  completion : (q.pool k).completion = wantsCompletion attr
  waiting : (q.pool k).fired = false → (q.pool k).status.notifyComplete = wantsCompletion attr ∧
      completions log i (q.pool k).call = 0
  done : (q.pool k).fired → wantsCompletion attr ∧ completions log i (q.pool k).call = 1

theorem Billed.congr {i : Fin 2} {q q' : MsgQs N} {log : List (Ev N)} {k : Fin N}
    {d : CmdDispatcher N} {msg : PhlMsg} {attr : Option PhlMsgAttribute}
    (h : Billed i q log k d msg attr) (hk : q'.pool k = q.pool k) : Billed i q' log k d msg attr where
  sent := hk ▸ h.sent
  err := h.err
  head := h.head
  completion := hk ▸ h.completion
  waiting := hk ▸ h.waiting
  done := hk ▸ h.done

/-- An entry whose place in the queues changed. -/
structure Requeued (x x' : PhlDisprMsgEx) : Prop where
  call : x'.call = x.call
  fired : x'.fired = x.fired
  completion : x'.completion = x.completion
  notifyComplete : x'.status.notifyComplete = x.status.notifyComplete

/-- The queues and the calls of dispatcher `i`. -/
structure MsgsOk (i : Fin 2) (q : MsgQs N) (log : List (Ev N)) : Prop where
  parts : (q.idle ++ (q.wait ++ q.pend ++ q.hand)).Perm (List.finRange N)
  idle : ∀ k ∈ q.idle, (q.pool k).status.enq = false ∧ (q.pool k).status.run = false
  fired : ∀ k ∉ q.idle, (q.pool k).fired → k ∈ q.hand
  calls : CallsOk i q.nsend log
  billed : ∀ k ∉ q.idle, ∃ d msg attr, Billed i q log k d msg attr
  distinct : ∀ k ∉ q.idle, ∀ k' ∉ q.idle, (q.pool k).call = (q.pool k').call → k = k'
  settled : ∀ n d msg attr sts hdl, .sent i n d msg attr sts hdl ∈ log → Taken d msg attr →
    (∃ k ∉ q.idle, (q.pool k).call = n) ∨ completions log i n = if wantsCompletion attr then 1 else 0

namespace MsgsOk

variable {i : Fin 2} {q q' : MsgQs N} {log log' : List (Ev N)} {k : Fin N}

section

variable (h : MsgsOk i q log)

include h

theorem nodup : (q.idle ++ (q.wait ++ q.pend ++ q.hand)).Nodup :=
  h.parts.nodup_iff.2 (List.nodup_finRange N)

theorem not_idle (hk : k ∈ q.wait ++ q.pend ++ q.hand) : k ∉ q.idle :=
  fun hi => (List.nodup_append.1 h.nodup).2.2 k hi k hk rfl

theorem not_idle_of_hand (hk : k ∈ q.hand) : k ∉ q.idle := h.not_idle (by simp [hk])

theorem call_lt (hk : k ∉ q.idle) : (q.pool k).call < q.nsend := by
  obtain ⟨d, msg, attr, hb⟩ := h.billed k hk
  exact h.calls.counted _ _ _ _ _ _ hb.sent

theorem congr (hidle : q'.idle = q.idle) (hsend : q'.nsend = q.nsend)
    (hparts : (q'.wait ++ q'.pend ++ q'.hand).Perm (q.wait ++ q.pend ++ q.hand))
    (hcall : ∀ k, (q'.pool k).call = (q.pool k).call)
    (hfired : ∀ k, (q'.pool k).fired = (q.pool k).fired)
    (hcompl : ∀ k, (q'.pool k).completion = (q.pool k).completion)
    (hnotify : ∀ k, (q.pool k).fired = false → (q'.pool k).status.notifyComplete = (q.pool k).status.notifyComplete)
    (hst : ∀ k ∈ q.idle, (q'.pool k).status.enq = (q.pool k).status.enq ∧
      (q'.pool k).status.run = (q.pool k).status.run)
    (hhand : ∀ k, k ∉ q.idle → (q.pool k).fired → k ∈ q'.hand)
    (hlog : log'.filter (Ev.isMsg i) = log.filter (Ev.isMsg i)) : MsgsOk i q' log' := by
  have hc : ∀ n, completions log' i n = completions log i n := fun n => completions_congr hlog
  constructor
  · rw [hidle]; exact .trans (.append_left _ hparts) h.parts
  · intro k hk
    rw [hidle] at hk
    rw [(hst k hk).1, (hst k hk).2]; exact h.idle k hk
  · intro k hk hf
    rw [hidle] at hk; exact hhand k hk (by rwa [hfired] at hf)
  · rw [hsend]; exact h.calls.congr hlog
  · intro k hk
    rw [hidle] at hk
    obtain ⟨d, msg, attr, hb⟩ := h.billed k hk
    refine ⟨d, msg, attr, ?_, hb.err, hb.head, (hcompl k).trans hb.completion, ?_, ?_⟩
    · rw [hcall, sent_congr hlog]; exact hb.sent
    · intro hf
      rw [hfired] at hf
      rw [hcall, hc, hnotify k hf]; exact hb.waiting hf
    · intro hf
      rw [hfired] at hf
      rw [hcall, hc]; exact hb.done hf
  · intro k hk k' hk' heq
    rw [hidle] at hk hk'
    rw [hcall, hcall] at heq; exact h.distinct k hk k' hk' heq
  · intro n d msg attr sts hdl hm ht
    rw [hc, hidle]
    simp only [hcall]; exact h.settled _ _ _ _ _ _ ((sent_congr hlog).1 hm) ht

theorem requeue (w p c : List (Fin N)) {f : PhlDisprMsgEx → PhlDisprMsgEx} (hk : k ∉ q.idle)
    (hparts : (w ++ p ++ c).Perm (q.wait ++ q.pend ++ q.hand))
    (hf : Requeued (q.pool k) (f (q.pool k))) (hhand : ∀ l ∈ q.hand, (q.pool l).fired → l ∈ c) :
    MsgsOk i { q.onEx k f with wait := w, pend := p, hand := c } log := by
  have hpool : ∀ l, Requeued (q.pool l) ((q.onEx k f).pool l) := fun l => by
    rcases eq_or_ne l k with rfl | hlk
    · simpa using hf
    · rw [MsgQs.onEx_ne _ _ hlk]; exact ⟨rfl, rfl, rfl, rfl⟩
  refine h.congr rfl rfl hparts (fun l => (hpool l).call) (fun l => (hpool l).fired)
    (fun l => (hpool l).completion) (fun l _ => (hpool l).notifyComplete) (fun l hl => ?_)
    (fun l hl hfl => hhand l (h.fired l hl hfl) hfl) rfl
  have hlk : l ≠ k := fun he => hk (he ▸ hl)
  rw [MsgQs.onEx_ne _ _ hlk]; exact ⟨rfl, rfl⟩

theorem edit {f : PhlDisprMsgEx → PhlDisprMsgEx} (hcall : (f (q.pool k)).call = (q.pool k).call)
    (hfired : (f (q.pool k)).fired = (q.pool k).fired)
    (hcompl : (f (q.pool k)).completion = (q.pool k).completion)
    (hnotify : (q.pool k).fired = false → (f (q.pool k)).status.notifyComplete = (q.pool k).status.notifyComplete)
    (henq : (f (q.pool k)).status.enq = (q.pool k).status.enq)
    (hrun : (f (q.pool k)).status.run = (q.pool k).status.run) : MsgsOk i (q.onEx k f) log := by
  refine h.congr rfl rfl (.refl _) (fun l => ?_) (fun l => ?_) (fun l => ?_) (fun l hl => ?_)
    (fun l _ => ?_) h.fired rfl
  all_goals rcases eq_or_ne l k with rfl | hlk
  all_goals simp [*]

theorem logged (hlog : log'.filter (Ev.isMsg i) = log.filter (Ev.isMsg i)) : MsgsOk i q log' :=
  h.congr rfl rfl (.refl _) (fun _ => rfl) (fun _ => rfl) (fun _ => rfl) (fun _ _ => rfl)
    (fun _ _ => ⟨rfl, rfl⟩) h.fired hlog

end

section Sends

variable {d : CmdDispatcher N} {msg : PhlMsg} {attr : Option PhlMsgAttribute}
  {idle : List (Fin N)} {x : PhlDisprMsgEx}

theorem refuse (h : MsgsOk i q log) (ht : ¬ Taken d msg attr) : MsgsOk i { q with nsend := q.nsend + 1 }
      (log ++ [.sent i q.nsend d msg attr (sendStatus d msg attr) (sendHdl d msg attr)]) := by
  constructor
  · exact h.parts
  · exact h.idle
  · exact h.fired
  · exact h.calls.sent
  · intro k hk
    obtain ⟨d', msg', attr', hb⟩ := h.billed k hk
    exact ⟨d', msg', attr', List.mem_append_left _ hb.sent, hb.err, hb.head, hb.completion,
      fun hf => by simpa using hb.waiting hf, fun hf => by simpa using hb.done hf⟩
  · exact h.distinct
  · intro n d' msg' attr' sts' hdl' hm ht'
    rw [completions_sent]
    rcases mem_sent.1 hm with hm | ⟨-, rfl, rfl, rfl, -⟩
    · exact h.settled _ _ _ _ _ _ hm ht'
    · exact absurd ht' ht

theorem take (h : MsgsOk i q log) (hidle : q.idle = k :: idle) (herr : sendErr d msg attr = none)
    (hd : d.msgs.idle = q.idle) (hcall : x.call = q.nsend) (hfired : x.fired = false)
    (hcompl : x.completion = wantsCompletion attr)
    (hnotify : x.status.notifyComplete = wantsCompletion attr) :
    MsgsOk i ({ q with idle := idle, hand := k :: q.hand, nsend := q.nsend + 1 }.onEx k fun _ => x)
      (log ++ [.sent i q.nsend d msg attr (sendStatus d msg attr) (sendHdl d msg attr)]) := by
  have hnd : k ∉ idle := by
    have hn := h.nodup
    rw [hidle, List.cons_append, List.nodup_cons] at hn
    exact fun hk => hn.1 (List.mem_append_left _ hk)
  have hold : ∀ l, l ∉ idle → l ≠ k → l ∉ q.idle := fun l hl hlk => by simp [hidle, hl, hlk]
  constructor
  · refine .trans ?_ (hidle ▸ h.parts)
    simp only [MsgQs.onEx, ← List.append_assoc, List.cons_append]; exact List.perm_middle
  · intro l hl
    have hlk : l ≠ k := fun he => hnd (he ▸ hl)
    simpa [MsgQs.onEx, hlk] using h.idle l (by simp [hidle, show l ∈ idle from hl])
  · intro l hl hf
    rcases eq_or_ne l k with rfl | hlk
    · exact List.mem_cons_self
    · refine List.mem_cons_of_mem _ (h.fired l (hold l hl hlk) ?_); simpa [MsgQs.onEx, hlk] using hf
  · exact h.calls.sent
  · intro l hl
    rcases eq_or_ne l k with rfl | hlk
    · refine ⟨d, msg, attr, ?_, herr, by simp [hd, hidle], by simpa [MsgQs.onEx] using hcompl,
        fun _ => ?_, fun hf => ?_⟩
      · simp [MsgQs.onEx, hcall]
      · simpa [MsgQs.onEx, hnotify, hcall] using h.calls.fresh _ le_rfl
      · simp [MsgQs.onEx, hfired] at hf
    · obtain ⟨d', msg', attr', hb⟩ := h.billed l (hold l hl hlk)
      refine ⟨d', msg', attr', ?_, hb.err, hb.head, by simpa [MsgQs.onEx, hlk] using hb.completion,
        fun hf => ?_, fun hf => ?_⟩
      · exact List.mem_append_left _ (by simpa [MsgQs.onEx, hlk] using hb.sent)
      · simpa [MsgQs.onEx, hlk] using hb.waiting (by simpa [MsgQs.onEx, hlk] using hf)
      · simpa [MsgQs.onEx, hlk] using hb.done (by simpa [MsgQs.onEx, hlk] using hf)
  · intro l hl l' hl' heq
    have hne : ∀ m, m ∉ idle → m ≠ k → (q.pool m).call ≠ x.call := fun m hm hmk =>
      hcall ▸ (h.call_lt (hold m hm hmk)).ne
    by_cases hlk : l = k <;> by_cases hlk' : l' = k
    · rw [hlk, hlk']
    · simp only [MsgQs.onEx, hlk, Function.update_self, Function.update_of_ne hlk'] at heq
      exact absurd heq.symm (hne l' hl' hlk')
    · simp only [MsgQs.onEx, hlk', Function.update_self, Function.update_of_ne hlk] at heq
      exact absurd heq (hne l hl hlk)
    · simp only [MsgQs.onEx, Function.update_of_ne hlk, Function.update_of_ne hlk'] at heq
      exact h.distinct l (hold l hl hlk) l' (hold l' hl' hlk') heq
  · intro n d' msg' attr' sts' hdl' hm ht'
    rw [completions_sent]
    rcases mem_sent.1 hm with hm | ⟨rfl, -⟩
    · rcases h.settled _ _ _ _ _ _ hm ht' with ⟨l, hl, hc⟩ | hc
      · have hlk : l ≠ k := fun he => hl (by simp [hidle, he])
        refine .inl ⟨l, fun hli => hl (by simp [hidle, show l ∈ idle from hli]), ?_⟩
        simpa [MsgQs.onEx, hlk] using hc
      · exact .inr hc
    · exact .inl ⟨k, hnd, by simpa [MsgQs.onEx] using hcall⟩

end Sends

section Ends

variable {f : PhlDisprMsgEx → PhlDisprMsgEx}

theorem complete (h : MsgsOk i q log) (hk : k ∈ q.hand) (hf : (q.pool k).fired = false)
    (hn : (q.pool k).status.notifyComplete)
    (hfired : (f (q.pool k)).fired) (hcall : (f (q.pool k)).call = (q.pool k).call)
    (hcompl : (f (q.pool k)).completion = (q.pool k).completion) :
    MsgsOk i (q.onEx k f) (log ++ [.complete i (q.pool k).call]) := by
  have hki := h.not_idle_of_hand hk
  have hother : ∀ l ∉ q.idle, l ≠ k → (q.pool k).call ≠ (q.pool l).call := fun l hl hlk heq =>
    hlk (h.distinct k hki l hl heq).symm
  have hcall' : ∀ l, ((q.onEx k f).pool l).call = (q.pool l).call := fun l => by
    rcases eq_or_ne l k with rfl | hlk
    · simpa [MsgQs.onEx] using hcall
    · simp [MsgQs.onEx, hlk]
  obtain ⟨d, msg, attr, hb⟩ := h.billed k hki
  have hsent : ∀ n d' msg' attr' sts' hdl', .sent i n d' msg' attr' sts' hdl' ∈ log ++ [.complete i (q.pool k).call] ↔
        .sent i n d' msg' attr' sts' hdl' ∈ log := by simp
  constructor
  · exact h.parts
  · intro l hl
    have hlk : l ≠ k := fun he => hki (he ▸ hl)
    simpa [MsgQs.onEx, hlk] using h.idle l hl
  · intro l hl hfl
    rcases eq_or_ne l k with rfl | hlk
    · exact hk
    · exact h.fired l hl (by simpa [MsgQs.onEx, hlk] using hfl)
  · refine ⟨?_, ?_, ?_, ?_, ?_⟩
    · intro n d' msg' attr' sts' hdl' hm; exact h.calls.counted _ _ _ _ _ _ ((hsent ..).1 hm)
    · intro n d₁ msg₁ attr₁ sts₁ hdl₁ d₂ msg₂ attr₂ sts₂ hdl₂ hm₁ hm₂
      exact h.calls.unique _ _ _ _ _ _ _ _ _ _ _ ((hsent ..).1 hm₁) ((hsent ..).1 hm₂)
    · intro n hn'
      have hlt : (q.pool k).call < q.nsend := h.call_lt hki
      rw [completions_complete, if_neg (show (q.pool k).call ≠ n from (hlt.trans_le hn').ne)]
      exact h.calls.fresh n hn'
    · intro n d' msg' attr' sts' hdl' hm; exact h.calls.answered _ _ _ _ _ _ ((hsent ..).1 hm)
    · intro n d' msg' attr' sts' hdl' hm ht
      -- the call that is completed was given an entry
      have hne : (q.pool k).call ≠ n := by
        rintro rfl
        obtain ⟨rfl, rfl, rfl⟩ :=
          h.calls.unique _ _ _ _ _ _ _ _ _ _ _ hb.sent ((hsent ..).1 hm)
        exact ht ⟨hb.err, fun hnil => by simpa [hnil] using hb.head⟩
      rw [completions_complete, if_neg hne]; exact h.calls.refused _ _ _ _ _ _ ((hsent ..).1 hm) ht
  · intro l hl
    rcases eq_or_ne l k with rfl | hlk
    · obtain ⟨hw, hzero⟩ := hb.waiting hf
      refine ⟨d, msg, attr, ?_, hb.err, hb.head, ?_, fun hf' => ?_, fun _ => ?_⟩
      · rw [hcall', hsent]; exact hb.sent
      · simpa [MsgQs.onEx, hcompl] using hb.completion
      · simp [MsgQs.onEx, hfired] at hf'
      · rw [hcall', completions_complete, if_pos rfl, hzero]; exact ⟨hw ▸ hn, rfl⟩
    · obtain ⟨d', msg', attr', hb'⟩ := h.billed l hl
      refine ⟨d', msg', attr', ?_, hb'.err, hb'.head,
        by simpa [MsgQs.onEx, hlk] using hb'.completion, fun hf' => ?_, fun hf' => ?_⟩
      · rw [hcall', hsent]; exact hb'.sent
      · rw [hcall', completions_complete, if_neg (hother l hl hlk)]
        simpa [MsgQs.onEx, hlk] using hb'.waiting (by simpa [MsgQs.onEx, hlk] using hf')
      · rw [hcall', completions_complete, if_neg (hother l hl hlk)]
        exact hb'.done (by simpa [MsgQs.onEx, hlk] using hf')
  · intro l hl l' hl' heq
    rw [hcall', hcall'] at heq; exact h.distinct l hl l' hl' heq
  · intro n d' msg' attr' sts' hdl' hm ht
    rcases h.settled _ _ _ _ _ _ ((hsent ..).1 hm) ht with ⟨l, hl, hc⟩ | hc
    · exact .inl ⟨l, hl, (hcall' l).trans hc⟩
    · rcases eq_or_ne n (q.pool k).call with rfl | hne
      · exact .inl ⟨k, hki, hcall' k⟩
      · rw [completions_complete, if_neg hne.symm]; exact .inr hc

theorem retire (h : MsgsOk i q log) (hk : k ∈ q.hand)
    (hn : ¬ ((q.pool k).status.notifyComplete ∧ (q.pool k).completion)) :
    MsgsOk i (q.pushIdle k) log := by
  have hki := h.not_idle_of_hand hk
  have hpool : ∀ l, l ≠ k → (q.pushIdle k).pool l = q.pool l := fun l hlk => by
    simp [MsgQs.pushIdle, MsgQs.onEx, hlk]
  have hin : ∀ l, l ∉ (q.pushIdle k).idle → l ∉ q.idle ∧ l ≠ k := fun l hl => by
    simpa [MsgQs.pushIdle, not_or] using hl
  constructor
  · refine .trans ?_ h.parts
    have hfront : (k :: (q.wait ++ q.pend ++ q.hand.erase k)).Perm (q.wait ++ q.pend ++ q.hand) :=
      List.perm_middle.symm.trans (.append_left _ (List.perm_cons_erase hk).symm)
    have hall := hfront.append_left q.idle
    simpa [MsgQs.pushIdle] using hall
  · intro l hl
    rcases eq_or_ne l k with rfl | hlk
    · simp [MsgQs.pushIdle, MsgQs.onEx, MsgStatus.zero]
    · rw [hpool l hlk]; exact h.idle l (by simpa [MsgQs.pushIdle, hlk] using hl)
  · intro l hl hf
    obtain ⟨hli, hlk⟩ := hin l hl
    rw [hpool l hlk] at hf; exact (List.mem_erase_of_ne hlk).2 (h.fired l hli hf)
  · exact h.calls
  · intro l hl
    obtain ⟨hli, hlk⟩ := hin l hl
    obtain ⟨d, msg, attr, hb⟩ := h.billed l hli
    exact ⟨d, msg, attr, hb.congr (hpool l hlk)⟩
  · intro l hl l' hl' heq
    obtain ⟨hli, hlk⟩ := hin l hl
    obtain ⟨hli', hlk'⟩ := hin l' hl'
    rw [hpool l hlk, hpool l' hlk'] at heq; exact h.distinct l hli l' hli' heq
  · intro n d msg attr sts hdl hm ht
    rcases h.settled _ _ _ _ _ _ hm ht with ⟨l, hl, hc⟩ | hc
    · rcases eq_or_ne l k with rfl | hlk
      · right
        obtain ⟨d', msg', attr', hb⟩ := h.billed l hl
        subst hc
        obtain ⟨rfl, rfl, rfl⟩ := h.calls.unique _ _ _ _ _ _ _ _ _ _ _ hb.sent hm
        cases hf : (q.pool l).fired with
        | true =>
          obtain ⟨hw, hone⟩ := hb.done hf
          rw [hone, if_pos hw]
        | false =>
          -- the routine was not called, so none was asked for
          obtain ⟨hw, hzero⟩ := hb.waiting hf
          rw [hw, hb.completion, and_self] at hn
          rw [hzero, if_neg hn]
      · exact .inl ⟨l, by simp [MsgQs.pushIdle, hl, hlk], by rw [hpool l hlk]; exact hc⟩
    · exact .inr hc

end Ends

end MsgsOk

/-! ### The moves -/

section Moves

variable {e e' : Eng N} {i j : Fin 2} {k : Fin N} {msg : PhlMsg} {attr : Option PhlMsgAttribute}

theorem MsgsOk.same (h : MsgsOk j (e.d j).msgs e.log) (hm : (e'.d j).msgs = (e.d j).msgs)
    (hl : e'.log.filter (Ev.isMsg j) = e.log.filter (Ev.isMsg j)) :
    MsgsOk j (e'.d j).msgs e'.log := by
  rw [hm]; exact h.logged hl

theorem Signals.msgsOk (hs : Signals e e') (h : MsgsOk j (e.d j).msgs e.log) : MsgsOk j (e'.d j).msgs e'.log :=
  h.same (hs.msgs j) (by rw [hs.log])

variable {d : CmdDispatcher N}

theorem sendStatus_of_refused {sts : PhlStatus} (h : sendErr d msg attr = some sts ∨
      sendErr d msg attr = none ∧ d.msgs.idle = [] ∧ sts = .resource) :
    sendStatus d msg attr = sts ∧ ¬ Taken d msg attr := by
  rcases h with h | ⟨h, hi, rfl⟩ <;> simp [sendStatus, Taken, *]

theorem sendHdl_of_ne {sts : PhlStatus} (h : sendStatus d msg attr = sts)
    (hs : sts ≠ .success) : sendHdl d msg attr = none := by
  simp [sendHdl, h, hs]

theorem sendErr_ne_success (d : CmdDispatcher N) (msg : PhlMsg) (attr : Option PhlMsgAttribute) :
    sendErr d msg attr ≠ some .success := by
  simp only [sendErr]
  split_ifs <;> simp

variable {idle : List (Fin N)}

theorem sendStatus_of_taken (herr : sendErr d msg attr = none) (hidle : d.msgs.idle = k :: idle) :
    sendStatus d msg attr = (if sendDropped d msg attr then .failure else .success) ∧
      sendHdl d msg attr = if sendDropped d msg attr then none else some (genValidHdl k) := by
  cases hd : sendDropped d msg attr <;> simp [sendHdl, sendStatus, herr, hidle, hd]

theorem MsgsOk.takeIdle {f : PhlDisprMsgEx → PhlDisprMsgEx}
    (h : MsgsOk i (e.d i).msgs e.log) (herr : sendErr (e.d i) msg attr = none)
    (hidle : (e.d i).msgs.idle = k :: idle) (hf : ∀ x, Requeued x (f x)) :
    MsgsOk i ((logSent i (e.d i) msg attr (sendStatus (e.d i) msg attr)
        (sendHdl (e.d i) msg attr) (Dispr.takeIdle i msg attr k f e)).d i).msgs
      (logSent i (e.d i) msg attr (sendStatus (e.d i) msg attr)
        (sendHdl (e.d i) msg attr) (Dispr.takeIdle i msg attr k f e)).log := by
  obtain ⟨hcall, hfired, hcompl, hnotify, -⟩ :=
    fillMsg_parts (e.d i) msg attr (e.d i).msgs.nsend
  have hx := hf (fillMsg (e.d i) msg attr (e.d i).msgs.nsend)
  have htake := h.take hidle herr rfl (hx.call.trans hcall) (hx.fired.trans hfired)
    (hx.completion.trans hcompl) (hx.notifyComplete.trans hnotify)
  simpa [logSent, Dispr.takeIdle, MsgQs.onEx, hidle] using htake

theorem MsgsOk.enqueueMsg {q : MsgQs N} {log : List (Ev N)} (h : MsgsOk i q log) (hk : k ∈ q.hand)
    (hf : (q.pool k).fired = false) : MsgsOk i (q.enqueueMsg k) log := by
  obtain ⟨w, hw, heq⟩ := q.enqueueMsg_eq k
  have hparts : (w ++ q.pend ++ q.hand.erase k).Perm (q.wait ++ q.pend ++ q.hand) := by
    have hwp : (w ++ q.pend ++ q.hand.erase k).Perm (k :: q.wait ++ q.pend ++ q.hand.erase k) :=
      (hw.append_right _).append_right _
    exact hwp.trans (List.perm_middle.symm.trans
      (.append_left _ (List.perm_cons_erase hk).symm))
  rw [heq]
  refine h.requeue _ _ _ (h.not_idle_of_hand hk) hparts ⟨rfl, rfl, rfl, rfl⟩ fun l hl hfl => ?_
  have hlk : l ≠ k := fun he => by simp [he, hf] at hfl
  exact (List.mem_erase_of_ne hlk).2 hl

theorem MsgsOk.sendAccepted (h : MsgsOk i (e.d i).msgs e.log)
    (herr : sendErr (e.d i) msg attr = none) (hidle : (e.d i).msgs.idle = k :: idle)
    (hdrop : ¬ sendDropped (e.d i) msg attr) :
    MsgsOk i ((Dispr.sendAccepted i msg attr k e).d i).msgs
      (Dispr.sendAccepted i msg attr k e).log := by
  obtain ⟨hst, hh⟩ := sendStatus_of_taken herr hidle
  rw [if_neg hdrop] at hst hh
  have htake := h.takeIdle (f := fun ex => { ex with status := { ex.status with
    forAbort := sentInLastPermit (e.d i) msg, prePhase := true } }) herr hidle
    fun _ => ⟨rfl, rfl, rfl, rfl⟩
  have henq := htake.enqueueMsg (k := k) (by simp [logSent, Dispr.takeIdle]) (by
    simpa [logSent, Dispr.takeIdle] using (fillMsg_parts ..).2.1)
  rw [hst, hh] at henq
  simp only [Dispr.sendAccepted]
  split
  · simpa [logSent] using henq
  · simpa [logSent] using henq

theorem Move.msgsOk (hm : Move e e') (h : ∀ j, MsgsOk j (e.d j).msgs e.log) (j : Fin 2) :
    MsgsOk j (e'.d j).msgs e'.log := by
  cases hm with
  | sendRefused i msg attr sts hr =>
    obtain ⟨hst, ht⟩ := sendStatus_of_refused hr
    have hne : sts ≠ .success := by
      rcases hr with hr | ⟨-, -, rfl⟩
      · exact fun hs => sendErr_ne_success _ _ _ (hs ▸ hr)
      · simp
    rcases eq_or_ne j i with rfl | hj
    · have href := (h j).refuse ht
      rw [hst, sendHdl_of_ne hst hne] at href
      simpa [logSent] using href
    · exact (h j).same (by simp [logSent, hj]) (by simp [logSent, Ev.isMsg, hj.symm])
  | sendDropped i msg attr k idle herr hidle hdrop =>
    obtain ⟨hst, hh⟩ := sendStatus_of_taken herr hidle
    rw [if_pos hdrop] at hst hh
    rcases eq_or_ne j i with rfl | hj
    · have htake := (h j).takeIdle (f := fun ex =>
        { ex with msg := { ex.msg with msgId := { ex.msg.msgId with fail := true } } }) herr hidle
        fun _ => ⟨rfl, rfl, rfl, rfl⟩
      rw [hst, hh] at htake; exact htake
    · exact (h j).same (by simp [takeDropped, Dispr.takeIdle, logSent, hj])
        (by simp [takeDropped, Dispr.takeIdle, logSent, Ev.isMsg, hj.symm])
  | sendAccepted i msg attr k idle herr hidle hdrop =>
    rcases eq_or_ne j i with rfl | hj
    · exact (h j).sendAccepted herr hidle hdrop
    · refine (h j).same ?_ ?_ <;> simp only [Dispr.sendAccepted] <;> split <;>
        simp [Dispr.takeIdle, logSent, Ev.isMsg, hj, hj.symm]
  | complete i k hk hf hn hc =>
    rcases eq_or_ne j i with rfl | hj
    · have hcompl := (h j).complete (f := fun ex => { ex with
        fired := true
        msg := { ex.msg with
          msgId := { ex.msg.msgId with cancel := ex.msg.msgId.cancel || ex.status.cancel } } })
        hk hf hn rfl rfl rfl
      simpa [completeMsg, Eng.onEx_msgs, Eng.ex] using hcompl
    · exact (h j).same (by simp [completeMsg, hj]) (by simp [completeMsg, Ev.isMsg, hj.symm])
  | completed i k hk hf =>
    rcases eq_or_ne j i with rfl | hj
    · rw [Eng.onEx_msgs]
      exact (h j).edit rfl rfl rfl (fun hf' => absurd (hf.symm.trans hf') (by simp)) rfl rfl
    · exact (h j).same (by simp [hj]) rfl
  | retire i k hk hn hr =>
    rw [(retireMsg_parts e i j k).1]
    rcases eq_or_ne j i with rfl | hj
    · rw [retireMsg_self]; exact (h j).retire hk hn
    · rw [retireMsg_ne _ _ hj]; exact h j
  | toWait i k pend wait hp hw =>
    rcases eq_or_ne j i with rfl | hj
    · rw [Eng.onMsgs_self, Eng.onMsgs_log]
      refine (h j).requeue wait pend (e.d j).msgs.hand ((h j).not_idle (by simp [hp])) ?_
        ⟨rfl, rfl, rfl, rfl⟩ fun _ hl _ => hl
      rw [hp]; exact .append_right _ ((hw.append_right _).trans List.perm_middle.symm)
    · exact (h j).same (by simp [hj]) rfl
  | popWait i k q hq =>
    rcases eq_or_ne j i with rfl | hj
    · rw [Eng.onMsgs_self, Eng.onMsgs_log]
      unfold MsgQs.popFrontWaitMsg at hq
      cases hw : (e.d j).msgs.wait with
      | nil => simp [hw] at hq
      | cons l wait =>
        simp only [hw, Option.some.injEq, Prod.mk.injEq] at hq
        obtain ⟨rfl, rfl⟩ := hq
        have hli : l ∉ (e.d j).msgs.idle := (h j).not_idle (by simp [hw])
        have hreq := (h j).requeue wait (e.d j).msgs.pend (l :: (e.d j).msgs.hand)
          (f := fun ex => { ex with status :=
            { ex.status with run := true, enq := false, pending := false } }) hli
          (by rw [hw]; exact List.perm_middle) ⟨rfl, rfl, rfl, rfl⟩
          fun _ hl _ => List.mem_cons_of_mem _ hl
        exact hreq
    · exact (h j).same (by simp [hj]) rfl
  | toPend i k hk hf =>
    rcases eq_or_ne j i with rfl | hj
    · rw [Eng.onMsgs_self, Eng.onMsgs_log]
      refine (h j).requeue (e.d j).msgs.wait _ _ ((h j).not_idle_of_hand hk) ?_
        ⟨rfl, rfl, rfl, rfl⟩ fun l hl hfl => ?_
      · have hperm : ((e.d j).msgs.pend ++ [k] ++ (e.d j).msgs.hand.erase k).Perm
            ((e.d j).msgs.pend ++ (e.d j).msgs.hand) := by
          rw [List.append_assoc]; exact .append_left _ (List.perm_cons_erase hk).symm
        simpa [List.append_assoc] using hperm.append_left (e.d j).msgs.wait
      · have hlk : l ≠ k := fun he => by simp_all [Eng.ex]
        exact (List.mem_erase_of_ne hlk).2 hl
    · exact (h j).same (by simp [hj]) rfl
  | revise i pool hp =>
    rcases eq_or_ne j i with rfl | hj
    · rw [Eng.onMsgs_self, Eng.onMsgs_log]
      exact (h j).congr rfl rfl (.refl _) (fun l => (hp l).call) (fun l => (hp l).fired)
        (fun l => (hp l).completion) (fun l _ => (hp l).notifyComplete)
        (fun l _ => ⟨(hp l).enq, (hp l).run⟩) (h j).fired rfl
    · exact (h j).same (by simp [hj]) rfl
  | take i k hk =>
    rcases eq_or_ne j i with rfl | hj
    · rw [andBitmaps, Eng.logEv_d, Eng.onEx_msgs]
      exact ((h j).edit rfl rfl rfl (fun _ => rfl) rfl rfl).logged (by simp [Ev.isMsg])
    · exact (h j).same (by simp [andBitmaps, hj]) (by simp [andBitmaps, Ev.isMsg])
  | stopped i k id pre ret hk hret => exact (h j).same rfl (by simp [Ev.isMsg])
  | answered i k id pre ret hk hret hid =>
    rcases eq_or_ne j i with rfl | hj
    · rw [Eng.onEx_msgs]
      have hedit : MsgsOk j ((e.d j).msgs.onEx k (·.clearBit pre id)) e.log := by
        refine (h j).edit ?_ ?_ ?_ (fun _ => ?_) ?_ ?_
        all_goals cases pre <;> rfl
      exact hedit.logged (by simp [Ev.isMsg])
    · exact (h j).same (by simp [hj]) (by simp [Ev.isMsg])
  | switch i k hk hp =>
    rcases eq_or_ne j i with rfl | hj
    · rw [Eng.onEx_msgs]; exact (h j).edit rfl rfl rfl (fun _ => rfl) rfl rfl
    · exact (h j).same (by simp [hj]) rfl
  | finish i k hk hm => exact (h j).same rfl (by simp [Ev.isMsg])
  | addReq i rq r t hr => exact (h j).same (by simp) (by simp [Ev.isMsg])
  | linkReq i r type ht hr => exact (h j).same (by simp) rfl
  | mark i pool hp => exact (h j).same (by simp) rfl
  | popOp i o q hq => exact (h j).same (by simp) rfl
  | doneOp i o n ho => exact (h j).same (by simp) rfl
  | takeReq i r t ht hx => exact (h j).same (by simp) rfl
  | makeCur i r => exact (h j).same (by simp [Dispr.makeCur]) rfl
  | acquireFailed i r hr => exact (h j).same rfl (by simp [Ev.isMsg])
  | stopRun i r hr => exact (h j).same (by simp) rfl
  | permit i r b hr hrun => exact (h j).same (by simp) rfl
  | endCur i r hr hrun hp ho =>
    have hdrop : MsgsOk j
        ((pushBackIdleReq i r (dropCur i (e.logEv (.ended i r e.d)))).d j).msgs
        (pushBackIdleReq i r (dropCur i (e.logEv (.ended i r e.d)))).log :=
      (h j).same (by simp [pushBackIdleReq, dropCur]) (by simp [pushBackIdleReq, dropCur, Ev.isMsg])
    split
    · exact hdrop
    · exact Signals.tokenComplete.msgsOk hdrop
  | withdraw i r hr => exact (h j).same (by simp) (by simp [Ev.isMsg])
  | endReq i r hr ho hp => exact (h j).same (by simp [pushBackIdleReq]) rfl
  | acquire i hx hcnt => exact Signals.clearanceAcquire.msgsOk (h j)
  | ready i hc hcnt hw => exact Signals.exclusiveReady.msgsOk (h j)
  | gate i hc hcnt =>
    refine Signals.exclusiveReady.msgsOk ((h j).same rfl ?_)
    simp [Ev.isMsg]
  | tokenComplete i hr hw => exact Signals.tokenComplete.msgsOk (h j)
  | misc i f hm => exact (h j).same (Eng.modify_part e i j f (·.msgs) hm) rfl
  | modules i m hb hm => exact (h j).same (by simp) rfl
  | deregister i id m hb hm => exact (h j).same (by simp) (by simp [Ev.isMsg])
  | left i => exact (h j).same rfl (by simp [Ev.isMsg])
  | env env => exact h j

end Moves

end Rtl8852cu.Dispr
