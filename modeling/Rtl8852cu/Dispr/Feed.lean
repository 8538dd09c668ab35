import Rtl8852cu.Dispr.Calls

/-!
# The dispatch of a message is a run of moves

Between two steps of the shared thread nothing is held: no message or request is in a local variable
and no operation is being handled.  `Rest` says what is held while a step runs, and `Leads A B f`
that `f` is a run of moves from a state in `A` to a state in `B`.
-/

namespace Rtl8852cu.Dispr

variable {N : ℕ} {e e' e'' : Eng N} {i j : Fin 2} {k : Fin N}

/-! ### The log grows -/

theorem Move.log (hm : Move e e') : e.log <+: e'.log := by
  have hend : ∀ (i : Fin 2) (r : ReqIdx) (e : Eng N), (pushBackIdleReq i r (dropCur i e)).log = e.log :=
    fun i r e => by simp [pushBackIdleReq, dropCur]
  cases hm with
  | sendAccepted i msg attr k idle herr hidle hdrop =>
    simp only [Dispr.sendAccepted]
    split <;> simp [logSent, takeIdle]
  | retire i k hk hn hr => rw [(retireMsg_parts e i i k).1]
  | endCur i r hr hrun hp ho =>
    split
    · rw [hend]; exact List.prefix_append ..
    · rw [Signals.tokenComplete.log, hend]; exact List.prefix_append ..
  | acquire i hx hcnt => rw [Signals.clearanceAcquire.log]
  | ready i hc hcnt hw => rw [Signals.exclusiveReady.log]
  | gate i hc hcnt =>
    rw [Signals.exclusiveReady.log]; exact List.prefix_append ..
  | tokenComplete i hr hw => rw [Signals.tokenComplete.log]
  | _ =>
    simp [logSent, takeDropped, takeIdle, completeMsg, andBitmaps, Dispr.makeCur, pushBackIdleReq]

theorem Steps.log (hs : Steps e e') : e.log <+: e'.log :=
  hs.keeps (I := fun e' => e.log <+: e'.log) (fun _ _ hm h => h.trans hm.log) List.prefix_rfl

/-! ### What is held -/

/-- Dispatcher `i` holds the messages `h` and the requests `rh` and handles `op`; the other
dispatcher holds nothing. -/
structure Rest (i : Fin 2) (h : List (Fin N)) (rh : List ReqIdx) (op : Option (OpRef × ℕ))
    (e : Eng N) : Prop where
  sound : Sound e
  hand : (e.d i).msgs.hand = h
  reqHand : (e.d i).tok.reqHand = rh
  handling : (e.d i).tok.handling = op
  others : ∀ j, j ≠ i → (e.d j).msgs.hand = [] ∧ (e.d j).tok.reqHand = [] ∧ (e.d j).tok.handling = none
  curRuns : ∀ j, CurRuns (e.d j).tok

namespace Rest

variable {h h' : List (Fin N)} {rh : List ReqIdx} {op : Option (OpRef × ℕ)}

theorem next (he : Rest i h rh op e) (hs : Steps e e') (hhand : (e'.d i).msgs.hand = h')
    (hne : ∀ j, j ≠ i → (e'.d j).msgs.hand = (e.d j).msgs.hand)
    (htok : ∀ j, QuietTok (e.d j).tok (e'.d j).tok) : Rest i h' rh op e' where
  sound := hs.sound he.sound
  hand := hhand
  reqHand := (htok i).reqHand.trans he.reqHand
  handling := (htok i).handling.trans he.handling
  others j hj := by
    rw [hne j hj, (htok j).reqHand, (htok j).handling]; exact he.others j hj
  curRuns j := (htok j).curRuns (he.sound.tok j).reqs (he.curRuns j)

theorem still (he : Rest i h rh op e) (hs : Steps e e') (hst : Still e e') : Rest i h rh op e' :=
  he.next hs ((hst.hand i).trans he.hand) (fun j _ => hst.hand j) hst.tok

theorem signals (he : Rest i h rh op e) (hs : Steps e e') (hsig : Signals e e') : Rest i h rh op e' :=
  he.next hs ((congrArg (·.hand) (hsig.msgs i)).trans he.hand)
    (fun j _ => congrArg (·.hand) (hsig.msgs j))
    fun j => .of_sameReqs (hsig.tok j).sameReqs.1 (hsig.tok j).sameReqs.2

theorem any (he : Rest i [] [] none e) (j : Fin 2) : Rest j [] [] none e := by
  have hall : ∀ l, (e.d l).msgs.hand = [] ∧ (e.d l).tok.reqHand = [] ∧ (e.d l).tok.handling = none := fun l => by
    rcases eq_or_ne l i with rfl | hl
    · exact ⟨he.hand, he.reqHand, he.handling⟩
    · exact he.others l hl
  exact ⟨he.sound, (hall j).1, (hall j).2.1, (hall j).2.2, fun l _ => hall l, he.curRuns⟩

end Rest

/-! ### Runs of moves with what holds before and after -/

/-- From a state in `A`, a run of moves to a state in `B`. -/
def Leads (A B : Eng N → Prop) (f : Eng N → Eng N) : Prop := ∀ e, A e → Steps e (f e) ∧ B (f e)

def Lasting (A : Eng N → Prop) : Prop :=
  ∀ e e' : Eng N, A e → Steps e e' → Quiet e e' → A e'

section Leads

variable {A B C : Eng N → Prop} {f g : Eng N → Eng N}

theorem Leads.comp (hf : Leads A B f) (hg : Leads B C g) : Leads A C fun e => g (f e) :=
  fun e he => by
    obtain ⟨hs, hB⟩ := hf e he
    obtain ⟨hs', hC⟩ := hg (f e) hB
    exact ⟨hs.trans hs', hC⟩

theorem Leads.mono {A' B' : Eng N → Prop} (hf : Leads A B f) (hA : ∀ e, A' e → A e)
    (hB : ∀ e, B e → B' e) : Leads A' B' f := fun e he =>
  ⟨(hf e (hA e he)).1, hB _ (hf e (hA e he)).2⟩

theorem Tame.leads (hf : Tame f) (hA : Lasting A) (hsound : ∀ e, A e → Sound e) : Leads A A f :=
  fun e he => by
    obtain ⟨hs, hq⟩ := hf e (hsound e he)
    exact ⟨hs, hA e _ he hs hq⟩

end Leads

theorem Rest.lasting {h : List (Fin N)} {rh : List ReqIdx} {op : Option (OpRef × ℕ)} :
    Lasting (Rest i h rh op) := fun _ _ he hs hq => he.still hs hq.toStill

/-! ### The message that is dispatched -/

/-- A module of one of the priorities `ps`, as the queues `M` have it. -/
def Due (M : MdlPri → List PhlBkModule) (ps : List MdlPri) (id : ℕ) : Prop :=
  ∃ p ∈ ps, getMdlPriority id = some p ∧ ∃ mdl ∈ M p, mdl.id = id ∧ mdl.started

/-- Unless it is cancelled, the message waits only for modules in `R` in phase `pre`. -/
def Awaits (pre : Bool) (R : ℕ → Prop) (x : PhlDisprMsgEx) : Prop :=
  x.status.cancel ∨ ∀ id ∈ x.map pre, R id

/-- Message `k` is dispatched: the indicator of the phase is right, the modules are as they were when
the dispatch began, and the message waits for none but them. -/
structure Disp (i : Fin 2) (k : Fin N) (pre : Bool) (owner : Option ℕ)
    (M : MdlPri → List PhlBkModule) (e : Eng N) : Prop where
  rest : Rest i [k] [] none e
  fired : (e.ex i k).fired = false
  phase : (e.ex i k).status.prePhase = pre
  ind : (e.ex i k).msg.msgId.prePhase = pre
  module : (e.ex i k).module = owner
  moduleQ : (e.d i).mdls.moduleQ = M
  due : ∀ ph, Awaits ph (Due M [.role, .optional, .mandatory]) (e.ex i k)

/-- Unless it is cancelled, the message is in phase `pre`, and waits only for modules in `R`. -/
def Owes (pre : Bool) (R : ℕ → Prop) (x : PhlDisprMsgEx) : Prop :=
  x.status.cancel ∨ x.status.prePhase = pre ∧ ∀ id ∈ x.map pre, R id

/-- Unless the message is cancelled, module `id` comes next. -/
def Next (id : ℕ) (x : PhlDisprMsgEx) : Prop :=
  getMdlPriority id = none ∨ x.status.cancel ∨ id ∈ x.map x.status.prePhase ∧
      ∀ id' ∈ x.map x.status.prePhase, ¬ Before x.status.prePhase x.module id' id

theorem Revised.map {x x' : PhlDisprMsgEx} (h : Revised x x') (pre : Bool) :
    x'.map pre = x.map pre ∨ x'.status.cancel := by
  rcases h.maps with ⟨hpre, hpost⟩ | ⟨-, -, hc⟩
  · cases pre
    · exact .inl hpost
    · exact .inl hpre
  · exact .inr hc

section Disp

variable {pre : Bool} {owner : Option ℕ} {M : MdlPri → List PhlBkModule} {R : ℕ → Prop} {id : ℕ}

theorem Rest.mem_hand {h : List (Fin N)} {rh : List ReqIdx} {op : Option (OpRef × ℕ)}
    (he : Rest i (k :: h) rh op e) : k ∈ (e.d i).msgs.hand := by
  rw [he.hand]; exact List.mem_cons_self ..

variable {x x' : PhlDisprMsgEx}

theorem Awaits.revised (h : Awaits pre R x) (hr : Revised x x') : Awaits pre R x' := by
  rcases h with hc | hR
  · exact .inl (hr.cancel hc)
  · rcases hr.map pre with hmap | hc
    · exact .inr (hmap ▸ hR)
    · exact .inl hc

theorem Disp.lasting : Lasting (Disp i k pre owner M) := fun e e' he hs hq => by
  obtain ⟨hr, hm⟩ := hq.held i k he.rest.mem_hand
  exact ⟨he.rest.still hs hq.toStill, hr.fired.trans he.fired, hr.prePhase.trans he.phase,
    (congrArg (·.msgId.prePhase) hm).trans he.ind, hr.module.trans he.module,
    (hq.mdls i).moduleQ.trans he.moduleQ, fun ph => (he.due ph).revised hr⟩

theorem Owes.revised (h : Owes pre R x) (hr : Revised x x') : Owes pre R x' := by
  rcases h with hc | ⟨hpre, hR⟩
  · exact .inl (hr.cancel hc)
  · rcases hr.map pre with hmap | hc
    · exact .inr ⟨hr.prePhase.trans hpre, hmap ▸ hR⟩
    · exact .inl hc

theorem Owes.mono {R' : ℕ → Prop} (h : Owes pre R x) (hR : ∀ id ∈ x.map pre, R id → R' id) : Owes pre R' x :=
  h.imp_right fun ⟨hpre, h⟩ => ⟨hpre, fun id hid => hR id hid (h id hid)⟩

theorem Next.revised (h : Next id x) (hr : Revised x x') : Next id x' := by
  rcases h with hp | hc | ⟨hid, hb⟩
  · exact .inl hp
  · exact .inr (.inl (hr.cancel hc))
  · rcases hr.map x.status.prePhase with hmap | hc
    · refine .inr (.inr ?_)
      rw [hr.prePhase, hr.module, hmap]; exact ⟨hid, hb⟩
    · exact .inr (.inl hc)

theorem setCancel_revised (x : PhlDisprMsgEx) : Revised x (setCancel x) :=
  ⟨rfl, rfl, rfl, rfl, rfl, rfl, rfl, rfl, rfl, fun _ => rfl, id, .inl ⟨rfl, rfl⟩⟩

theorem still_onEx (i : Fin 2) (k : Fin N) (f : PhlDisprMsgEx → PhlDisprMsgEx) (e : Eng N) : Still e (e.onEx i k f) :=
  ⟨rfl, fun j => by simp, fun j => by simp [QuietTok.refl], fun j => by simp [QuietFlags.refl],
    fun j => by simp [QuietMdls.refl]⟩

theorem Disp.edit (he : Disp i k pre owner M e) {f : PhlDisprMsgEx → PhlDisprMsgEx}
    (hr : Revised (e.ex i k) (f (e.ex i k)))
    (hm : (f (e.ex i k)).msg.msgId.prePhase = (e.ex i k).msg.msgId.prePhase) :
    Steps e (e.onEx i k f) ∧ Disp i k pre owner M (e.onEx i k f) := by
  have hs : Steps e (e.onEx i k f) := .single (.reviseEx hr)
  refine ⟨hs, he.rest.still hs (still_onEx i k f e), ?_, ?_, ?_, ?_, by simpa using he.moduleQ, fun ph => ?_⟩
  · simpa using hr.fired.trans he.fired
  · simpa using hr.prePhase.trans he.phase
  · simpa using hm.trans he.ind
  · simpa using hr.module.trans he.module
  · simpa using (he.due ph).revised hr

end Disp

/-! ### The answer of a module -/

theorem Tame.when {f : Eng N → Eng N} (hf : Tame f) (c : Eng N → Prop) [DecidablePred c] :
    Tame fun e => if c e then f e else e := by
  intro e he
  beta_reduce
  split
  · exact hf e he
  · exact ⟨.refl, .refl e⟩

theorem curReqHdl_tame : Tame (curReqHdl (N := N) i k) := by
  intro e he
  unfold curReqHdl
  cases (e.d i).tok.curCmdReq with
  | none => exact ⟨.refl, .refl e⟩
  | some r =>
    simp only
    split
    · exact ⟨.refl, .refl e⟩
    · split
      · exact ⟨.refl, .refl e⟩
      · exact callback_tame e he

section Feed

variable {pre : Bool} {owner : Option ℕ} {M : MdlPri → List PhlBkModule} {R : ℕ → Prop} {id : ℕ}
  {ret : MdlRet}

def Halted (x : PhlDisprMsgEx) : Prop := x.status.fail ∨ x.status.pending

theorem notifyMsgFail_leads : Leads (Disp i k pre owner M)
    (fun e => Disp i k pre owner M e ∧ (e.ex i k).status.fail) (notifyMsgFail i k ret) := by
  have hlast : Lasting fun e : Eng N => Disp i k pre owner M e ∧ (e.ex i k).status.fail :=
    fun e e' he hs hq => ⟨Disp.lasting e e' he.1 hs hq, (hq.held i k he.1.rest.mem_hand).1.fail he.2⟩
  intro e he
  obtain ⟨hs₁, hd₁⟩ := he.edit (f := fun ex => { ex with
    status := { ex.status with fail := true }
    msg := { ex.msg with
      msgId := { ex.msg.msgId with
        fail := true, cannotIo := ex.msg.msgId.cannotIo || decide (ret = .cannotIo) } } })
    ⟨rfl, rfl, rfl, rfl, rfl, rfl, rfl, rfl, rfl, id, fun _ => rfl, .inl ⟨rfl, rfl⟩⟩ rfl
  have htell : Tame fun e : Eng N => if (e.ex i k).status.ownerReq then curReqHdl i k e else e :=
    curReqHdl_tame.when (fun e => (e.ex i k).status.ownerReq)
  have howner : Tame fun e : Eng N =>
      if (e.ex i k).status.ownerBkMdl ∧ (isDisprCtrl (e.ex i k).msg.msgId.mdlId ∨
        (e.ex i k).module.any (chkBitmapBit (e.d i).mdls.bitmap ·)) then (callback e).2 else e :=
    callback_tame.when (fun e => (e.ex i k).status.ownerBkMdl ∧ (isDisprCtrl (e.ex i k).msg.msgId.mdlId ∨
        (e.ex i k).module.any (chkBitmapBit (e.d i).mdls.bitmap ·)))
  obtain ⟨hs₂, hB⟩ := ((htell.comp howner).leads hlast fun _ he => he.1.rest.sound) _
    ⟨hd₁, by simp⟩
  exact ⟨hs₁.trans hs₂, hB⟩

/-- What `feed_mdl_msg` leaves: the dispatch stops, or the module has answered and its bit is
cleared. -/
structure Fed (id : ℕ) (ret : MdlRet) (x x' : PhlDisprMsgEx) : Prop where
  stop : stopDispatchMsg ret → Halted x'
  go : stopDispatchMsg ret = false → ∃ y, Revised x y ∧ x' = y.clearBit y.status.prePhase id

variable {x : PhlDisprMsgEx}

theorem mem_clearBit {p q : Bool} {id' : ℕ} (h : id' ∈ (x.clearBit p id).map q) :
    id' ∈ x.map q ∧ (p = q → id / 8 < modlMaskLen → id' ≠ id) := by
  cases p <;> cases q
  all_goals simp only [PhlDisprMsgEx.clearBit, PhlDisprMsgEx.map, clrBitmapBit, maskIds] at h ⊢
  all_goals simp at h ⊢
  · exact ⟨h.1, fun hlt heq => absurd (heq ▸ hlt) (not_lt.2 (h.2 heq))⟩
  · exact h
  · exact h
  · exact ⟨h.1, fun hlt heq => absurd (heq ▸ hlt) (not_lt.2 (h.2 heq))⟩

theorem clearBit_status (x : PhlDisprMsgEx) (p : Bool) : (x.clearBit p id).status = x.status := by
  cases p <;> rfl

variable {x' : PhlDisprMsgEx}

theorem Fed.owes {p : Bool} (h : Fed id ret x x')
    (hret : stopDispatchMsg ret = false) (hid : id / 8 < modlMaskLen) (ho : Owes p R x) :
    Owes p (fun id' => id' ≠ id ∧ R id') x' := by
  obtain ⟨y, hr, rfl⟩ := h.go hret
  rcases ho.revised hr with hc | ⟨hp, hR⟩
  · exact .inl (by rwa [clearBit_status])
  · refine .inr ⟨by rwa [clearBit_status], fun id' hid' => ?_⟩
    obtain ⟨hmem, hne⟩ := mem_clearBit hid'
    exact ⟨hne hp hid, hR id' hmem⟩

theorem Disp.stopped (he : Disp i k pre owner M e) (p : Bool) (hret : stopDispatchMsg ret) :
    Steps e (e.logEv (.answer i (e.ex i k).call id p ret)) ∧
      Disp i k pre owner M (e.logEv (.answer i (e.ex i k).call id p ret)) := by
  have hs : Steps e (e.logEv (.answer i (e.ex i k).call id p ret)) :=
    .single (.stopped i k id p ret he.rest.mem_hand hret)
  exact ⟨hs, Disp.lasting _ _ he hs (.logEv _ _)⟩

theorem Disp.answered (he : Disp i k pre owner M e) (hn : Next id (e.ex i k)) (hret : stopDispatchMsg ret = false) :
    Steps e ((e.logEv (.answer i (e.ex i k).call id pre ret)).onEx i k (·.clearBit pre id)) ∧ Disp i k pre owner M
        ((e.logEv (.answer i (e.ex i k).call id pre ret)).onEx i k (·.clearBit pre id)) := by
  have hid : getMdlPriority id = none ∨ (e.ex i k).status.cancel ∨
      pre = (e.ex i k).status.prePhase ∧ id ∈ (e.ex i k).map pre ∧
        ∀ id' ∈ (e.ex i k).map pre, ¬ Before pre (e.ex i k).module id' id := by
    rw [Next, he.phase] at hn; exact hn.imp_right (·.imp_right fun h => ⟨he.phase.symm, h⟩)
  have hs : Steps e ((e.logEv (.answer i (e.ex i k).call id pre ret)).onEx i k (·.clearBit pre id)) :=
    .single (.answered i k id pre ret he.rest.mem_hand hret hid)
  have hx : ∀ x : PhlDisprMsgEx, (x.clearBit pre id).fired = x.fired ∧
      (x.clearBit pre id).msg = x.msg ∧ (x.clearBit pre id).module = x.module := by
    intro x
    cases pre <;> exact ⟨rfl, rfl, rfl⟩
  obtain ⟨hfired, hmsg, hmod⟩ := hx (e.ex i k)
  refine ⟨hs, he.rest.still hs ⟨rfl, fun j => by simp, fun j => by simp [QuietTok.refl],
    fun j => by simp [QuietFlags.refl], fun j => by simp [QuietMdls.refl]⟩, ?_, ?_, ?_, ?_, ?_,
    fun ph => ?_⟩
  · simpa using hfired.trans he.fired
  · simpa [clearBit_status] using he.phase
  · simpa using (congrArg (·.msgId.prePhase) hmsg).trans he.ind
  · simpa using hmod.trans he.module
  · simpa using he.moduleQ
  · rw [Eng.onEx_ex, Eng.logEv_ex, Awaits, clearBit_status]
    exact (he.due ph).imp_right fun h id' hid' => h id' (mem_clearBit hid').1

theorem mdlAnswer_stop (he : Disp i k pre owner M e) (hret : stopDispatchMsg ret) :
    Steps e (mdlAnswer i id k ret e) ∧ Disp i k pre owner M (mdlAnswer i id k ret e) ∧
      Halted ((mdlAnswer i id k ret e).ex i k) := by
  have hfail : Steps e (notifyMsgFail i k ret (e.onEx i k fun ex =>
        { ex with msg := { ex.msg with rsvd0 := some id } })) ∧
      Disp i k pre owner M (notifyMsgFail i k ret (e.onEx i k fun ex =>
        { ex with msg := { ex.msg with rsvd0 := some id } })) ∧
      Halted ((notifyMsgFail i k ret (e.onEx i k fun ex =>
        { ex with msg := { ex.msg with rsvd0 := some id } })).ex i k) := by
    obtain ⟨hs₁, hd₁⟩ := he.edit (f := fun ex => { ex with msg := { ex.msg with rsvd0 := some id } })
      ⟨rfl, rfl, rfl, rfl, rfl, rfl, rfl, rfl, rfl, fun h => h, fun h => h, .inl ⟨rfl, rfl⟩⟩ rfl
    obtain ⟨hs₂, hd₂, hf⟩ := notifyMsgFail_leads _ hd₁
    exact ⟨hs₁.trans hs₂, hd₂, .inl hf⟩
  cases ret with
  | success => cases hret
  | ignore => cases hret
  | fail => exact hfail
  | cannotIo => exact hfail
  | pending =>
    obtain ⟨hs₁, hd₁⟩ := he.edit (f := fun ex => { ex with
        status := { ex.status with pending := true } })
      ⟨rfl, rfl, rfl, rfl, rfl, rfl, rfl, rfl, rfl, fun h => h, fun h => h, .inl ⟨rfl, rfl⟩⟩ rfl
    exact ⟨hs₁, hd₁, .inr (by simp [mdlAnswer])⟩

theorem mdlAnswer_go (hind : (e.ex i k).msg.msgId.prePhase = pre) (hret : stopDispatchMsg ret = false) :
    mdlAnswer i id k ret e = e.onEx i k (·.clearBit pre id) := by
  have hclear : (if (e.ex i k).msg.msgId.prePhase then
      e.onEx i k fun ex => { ex with premap := clrBitmapBit ex.premap [id] }
      else e.onEx i k fun ex => { ex with postmap := clrBitmapBit ex.postmap [id] }) =
      e.onEx i k (·.clearBit pre id) := by
    rw [hind]; cases pre <;> rfl
  cases ret with
  | success => exact hclear
  | ignore => exact hclear
  | fail => simp [stopDispatchMsg] at hret
  | cannotIo => simp [stopDispatchMsg] at hret
  | pending => simp [stopDispatchMsg] at hret

theorem mdlAnswer_leads (he : Disp i k pre owner M e) (hn : Next id (e.ex i k)) {e' : Eng N}
    (heq : e' = e.logEv (.answer i (e.ex i k).call id (e.ex i k).msg.msgId.prePhase ret)) :
    Steps e (mdlAnswer i id k ret e') ∧ Disp i k pre owner M (mdlAnswer i id k ret e') ∧
      Fed id ret (e.ex i k) ((mdlAnswer i id k ret e').ex i k) := by
  subst heq
  cases hret : stopDispatchMsg ret with
  | true =>
    obtain ⟨hs₁, hd₁⟩ := he.stopped (e.ex i k).msg.msgId.prePhase hret
    obtain ⟨hs₂, hd₂, hh⟩ := mdlAnswer_stop hd₁ hret
    exact ⟨hs₁.trans hs₂, hd₂, fun _ => hh, fun h => by simp [hret] at h⟩
  | false =>
    obtain ⟨hs₁, hd₁⟩ := he.answered hn hret
    rw [he.ind, mdlAnswer_go (e := e.logEv _) he.ind hret]
    exact ⟨hs₁, hd₁, fun h => by simp [hret] at h, fun _ => ⟨e.ex i k, .refl _, by simp [he.phase]⟩⟩

theorem feedMdlMsg_leads (he : Disp i k pre owner M e) (hn : Next id (e.ex i k)) :
    Steps e (feedMdlMsg i id k e).1 ∧ Disp i k pre owner M (feedMdlMsg i id k e).1 ∧
      Fed id (feedMdlMsg i id k e).2 (e.ex i k) ((feedMdlMsg i id k e).1.ex i k) := by
  obtain ⟨hs₁, hq⟩ := callback_tame e he.rest.sound
  have hrev := (hq.held i k he.rest.mem_hand).1
  obtain ⟨hs₂, hd₂, hf⟩ := mdlAnswer_leads
    (Disp.lasting e _ he hs₁ hq) (hn.revised hrev) rfl
  refine ⟨hs₁.trans hs₂, hd₂, hf.stop, fun hret => ?_⟩
  obtain ⟨y, hr, heq⟩ := hf.go hret
  exact ⟨y, hrev.trans hr, heq⟩

/-! ### The phases -/

/-- A module of a later priority, or one of priority `p` that is among `q` and is not the sender. -/
def DueIn (M : MdlPri → List PhlBkModule) (owner : Option ℕ) (p : MdlPri) (ps : List MdlPri)
    (q : List PhlBkModule) (id : ℕ) : Prop :=
  Due M ps id ∨ getMdlPriority id = some p ∧ owner ≠ some id ∧ ∃ mdl ∈ q, mdl.id = id ∧ mdl.started

/-- Priority `p` comes before priority `q` in a phase. -/
def Precedes (pre : Bool) (p q : MdlPri) : Prop :=
  ¬ (if pre then q.rank < p.rank else p.rank < q.rank) ∧ q ≠ p

/-- A loop over modules: it stopped with the message, or all it should feed has answered. -/
def FedAll (pre : Bool) (R : ℕ → Prop) (stop : Bool) (x : PhlDisprMsgEx) : Prop :=
  if stop then Halted x else Owes pre R x

variable {ph : Bool} {p : MdlPri} {ps : List MdlPri}

theorem chkBitmapBit_iff {m : Finset ℕ} : chkBitmapBit m id ↔ id / 8 < modlMaskLen ∧ id ∈ m := by
  simp [chkBitmapBit]

theorem getMdlPriority_lt (h : getMdlPriority id = some p) : id / 8 < modlMaskLen := by
  have hle : id ≤ phlBkMdlOptEnd := by
    unfold getMdlPriority at h
    split_ifs at h <;> simp_all [phlBkMdlRoleEnd, phlBkMdlMdryEnd, phlBkMdlOptEnd] <;> omega
  unfold phlBkMdlOptEnd at hle
  unfold modlMaskLen; omega

theorem Owes.next (ho : Owes ph R x) (hid : id ∈ x.map ph)
    (hR : ∀ id', R id' → ¬ Before ph x.module id' id) : Next id x := by
  rcases ho with hc | ⟨hp, h⟩
  · exact .inr (.inl hc)
  · refine .inr (.inr ?_)
    rw [hp]; exact ⟨hid, fun id' hid' => hR id' (h id' hid')⟩

theorem DueIn.not_before {q : List PhlBkModule} {id' : ℕ} (hd : DueIn M owner p ps q id')
    (hps : ∀ q ∈ ps, Precedes ph p q) (hpri : getMdlPriority id = some p) :
    ¬ Before ph owner id' id := by
  rintro ⟨p', q', hp', hq', hb⟩
  obtain rfl : p = q' := by simpa [hpri] using hq'
  rcases hd with ⟨p'', hmem, hp'', -⟩ | ⟨hp'', howner, -⟩
  · obtain rfl : p'' = p' := by simpa [hp''] using hp'
    rcases hb with hb | ⟨hb, -⟩
    · exact (hps _ hmem).1 hb
    · exact (hps _ hmem).2 hb
  · obtain rfl : p = p' := by simpa [hp''] using hp'
    rcases hb with hb | ⟨-, hb, -⟩
    · split at hb <;> exact absurd hb (lt_irrefl _)
    · exact howner hb

theorem Due.not_before {id' : ℕ} (hd : Due M (p :: ps) id') (hps : ∀ q ∈ ps, Precedes ph p q)
    (hpri : getMdlPriority id = some p) : ¬ Before ph (some id) id' id := by
  by_cases heq : id' = id
  · subst heq
    rintro ⟨p', q', hp', hq', hb⟩
    obtain rfl : p' = q' := by simpa [hp'] using hq'
    rcases hb with hb | ⟨-, -, hb⟩
    · split at hb <;> exact absurd hb (lt_irrefl _)
    · exact hb rfl
  · obtain ⟨p', hmem, hp', hmdl⟩ := hd
    refine DueIn.not_before (q := M p) (M := M) ?_ hps hpri
    rcases List.mem_cons.1 hmem with rfl | hmem
    · exact .inr ⟨hp', fun h => heq (Option.some.inj h).symm, hmdl⟩
    · exact .inl ⟨p', hmem, hp', hmdl⟩

theorem feedModules_leads (hps : ∀ q ∈ ps, Precedes ph p q) (q : List PhlBkModule) :
    ∀ e : Eng N, Disp i k pre owner M e → (∀ mdl ∈ q, getMdlPriority mdl.id = some p) →
      Owes ph (DueIn M owner p ps q) (e.ex i k) →
      Steps e (feedModules ph i k q e).1 ∧ Disp i k pre owner M (feedModules ph i k q e).1 ∧
        FedAll ph (Due M ps) (feedModules ph i k q e).2 ((feedModules ph i k q e).1.ex i k) := by
  induction q with
  | nil =>
    intro e he _ ho
    refine ⟨.refl, he, ho.mono fun id _ hd => ?_⟩
    rcases hd with hd | ⟨-, -, mdl, hmdl, -⟩
    · exact hd
    · simp at hmdl
  | cons mdl q ih =>
    intro e he hpri ho
    have hpri' : ∀ m ∈ q, getMdlPriority m.id = some p := fun m hm => hpri m (by simp [hm])
    have hmdl := hpri mdl (by simp)
    simp only [feedModules]
    by_cases hskip : ¬ chkBitmapBit ((e.ex i k).map ph) mdl.id ∨ ¬ mdl.started
    · rw [if_pos hskip]
      refine ih e he hpri' (ho.mono fun id hid hd => hd.imp_right fun ⟨hp, hown, m, hm, hmid, hst⟩ =>
        ⟨hp, hown, m, ?_, hmid, hst⟩)
      rcases List.mem_cons.1 hm with rfl | hm
      · rcases hskip with hskip | hskip
        · exact absurd (chkBitmapBit_iff.2 ⟨getMdlPriority_lt hmdl, hmid ▸ hid⟩) hskip
        · exact absurd hst hskip
      · exact hm
    · rw [if_neg hskip]
      obtain ⟨hchk, -⟩ := not_or.1 hskip
      obtain ⟨hlt, hid⟩ := chkBitmapBit_iff.1 (not_not.1 hchk)
      obtain ⟨hs₁, hd₁, hf⟩ := feedMdlMsg_leads he
        (ho.next hid fun id' hd => he.module ▸ hd.not_before hps hmdl)
      cases hret : stopDispatchMsg (feedMdlMsg i mdl.id k e).2 with
      | true =>
        simp only [if_true]; exact ⟨hs₁, hd₁, hf.stop hret⟩
      | false =>
        obtain ⟨hs₂, hd₂, hall⟩ := ih _ hd₁ hpri' ((hf.owes hret hlt ho).mono fun id _ hd =>
          hd.2.imp_right fun ⟨hp, hown, m, hm, hmid, hst⟩ => ⟨hp, hown, m, by
            rcases List.mem_cons.1 hm with rfl | hm
            · exact absurd hmid.symm hd.1
            · exact hm, hmid, hst⟩)
        exact ⟨hs₁.trans hs₂, hd₂, hall⟩

theorem feedOwner_leads (he : Disp i k pre owner M e) (hps : ∀ q ∈ ps, Precedes ph p q)
    {q : List PhlBkModule} (hq : ∀ mdl, mdl ∈ M p → mdl ∈ q) (ho : Owes ph (Due M (p :: ps)) (e.ex i k)) :
    Steps e (feedOwner ph i k p e).1 ∧ Disp i k pre owner M (feedOwner ph i k p e).1 ∧
      FedAll ph (DueIn M owner p ps q) (feedOwner ph i k p e).2 ((feedOwner ph i k p e).1.ex i k) := by
  have hdue : ∀ id, owner ≠ some id ∨ getMdlPriority id ≠ some p → Due M (p :: ps) id → DueIn M owner p ps q id := by
    rintro id hown ⟨p', hmem, hp', mdl, hmdl, h⟩
    rcases List.mem_cons.1 hmem with rfl | hmem
    · exact .inr ⟨hp', hown.resolve_right (not_not.2 hp'), mdl, hq mdl hmdl, h⟩
    · exact .inl ⟨p', hmem, hp', mdl, hmdl, h⟩
  unfold feedOwner
  rw [he.module]
  cases owner with
  | none => exact ⟨.refl, he, ho.mono fun id _ hd => hdue id (.inl (by simp)) hd⟩
  | some id =>
    simp only
    by_cases hc : getMdlPriority id = some p ∧ chkBitmapBit ((e.ex i k).map ph) id
    · rw [if_pos hc]
      obtain ⟨hpri, hchk⟩ := hc
      obtain ⟨hlt, hid⟩ := chkBitmapBit_iff.1 hchk
      obtain ⟨hs₁, hd₁, hf⟩ := feedMdlMsg_leads he
        (ho.next hid fun id' hd => he.module ▸ hd.not_before hps hpri)
      refine ⟨hs₁, hd₁, ?_⟩
      cases hret : stopDispatchMsg (feedMdlMsg i id k e).2 with
      | true => exact hf.stop hret
      | false =>
        exact (hf.owes hret hlt ho).mono fun id' _ hd =>
          hdue id' (.inl fun h => hd.1 (Option.some.inj h).symm) hd.2
    · rw [if_neg hc]
      refine ⟨.refl, he, ho.mono fun id' hid' hd => hdue id' ?_ hd⟩
      by_contra hcon
      obtain ⟨hown, hpri⟩ := not_or.1 hcon
      obtain rfl : id = id' := Option.some.inj (not_not.1 hown)
      exact hc ⟨not_not.1 hpri, chkBitmapBit_iff.2 ⟨getMdlPriority_lt (not_not.1 hpri), hid'⟩⟩

theorem phaseHdl_leads {order : List PhlBkModule → List PhlBkModule}
    (hord : ∀ q mdl, mdl ∈ order q ↔ mdl ∈ q) (ps : List MdlPri) :
    ∀ e : Eng N, Disp i k pre owner M e → ps.Pairwise (Precedes ph) → Owes ph (Due M ps) (e.ex i k) →
      Steps e (phaseHdl ph order i k ps e) ∧ Disp i k pre owner M (phaseHdl ph order i k ps e) := by
  induction ps with
  | nil => exact fun e he _ _ => ⟨.refl, he⟩
  | cons p ps ih =>
    intro e he hps ho
    obtain ⟨hp, hps'⟩ := List.pairwise_cons.1 hps
    obtain ⟨hs₁, hd₁, hall₁⟩ := feedOwner_leads (q := order (M p)) he hp
      (fun mdl => (hord _ mdl).2) ho
    simp only [phaseHdl]
    rcases hown : feedOwner ph i k p e with ⟨e₁, b⟩
    rw [hown] at hs₁ hd₁ hall₁
    cases b with
    | true => exact ⟨hs₁, hd₁⟩
    | false =>
      have hq : (e₁.d i).mdls.moduleQ p = M p := by rw [hd₁.moduleQ]
      have hpri : ∀ mdl ∈ order ((e₁.d i).mdls.moduleQ p), getMdlPriority mdl.id = some p :=
        fun mdl hmdl => (hd₁.rest.sound.mdls i).priority p mdl ((hord _ mdl).1 hmdl)
      obtain ⟨hs₂, hd₂, hall₂⟩ := feedModules_leads hp _ e₁ hd₁ hpri (hq ▸ hall₁)
      simp only
      rcases hmods : feedModules ph i k (order ((e₁.d i).mdls.moduleQ p)) e₁ with ⟨e₂, b⟩
      rw [hmods] at hs₂ hd₂ hall₂
      cases b with
      | true => exact ⟨hs₁.trans hs₂, hd₂⟩
      | false =>
        obtain ⟨hs₃, hd₃⟩ := ih e₂ hd₂ hps' hall₂
        exact ⟨(hs₁.trans hs₂).trans hs₃, hd₃⟩

/-! ### The end of a dispatch -/

/-- A held message whose completion routine has not been called. -/
def Held (i : Fin 2) (k : Fin N) (e : Eng N) : Prop :=
  Rest i [k] [] none e ∧ (e.ex i k).fired = false

theorem Disp.held (he : Disp i k pre owner M e) : Held i k e := ⟨he.rest, he.fired⟩

theorem recycleMsg_leads : Leads (Held i k) (Rest i [] [] none : Eng N → Prop) (recycleMsg i k) := by
  rintro e ⟨he, hf⟩
  obtain ⟨e₁, heq, hs, hst, -, -, hn⟩ := pushBackIdleMsg_spec callback_tame he.sound he.mem_hand hf
  have he₁ := he.still hs hst
  have hs' : Steps e (recycleMsg i k e) := by
    rw [recycleMsg, heq]; exact hs.tail (.retire i k he₁.mem_hand hn fun _ => he₁.curRuns i)
  refine ⟨hs', ?_⟩
  rw [recycleMsg, heq] at hs' ⊢
  refine ⟨hs'.sound he.sound, ?_, ?_, ?_, fun j hj => ?_, fun j => ?_⟩
  · rw [retireMsg_self]; simp [MsgQs.pushIdle, he₁.hand]
  · rw [(retireMsg_parts e₁ i i k).2.2.1, ((abortSignal_signals e₁ i k).tok i).sameReqs.1.reqHand]
    exact he₁.reqHand
  · rw [(retireMsg_parts e₁ i i k).2.2.1, ((abortSignal_signals e₁ i k).tok i).sameReqs.2]
    exact he₁.handling
  · rw [retireMsg_ne _ _ hj, (retireMsg_parts e₁ i j k).2.2.1,
      ((abortSignal_signals e₁ i k).tok j).sameReqs.1.reqHand,
      ((abortSignal_signals e₁ i k).tok j).sameReqs.2]
    exact he₁.others j hj
  · obtain ⟨hsame, hh⟩ := ((abortSignal_signals e₁ i k).tok j).sameReqs
    rw [(retireMsg_parts e₁ i j k).2.2.1]
    exact (QuietTok.of_sameReqs hsame hh).curRuns (he₁.sound.tok j).reqs (he₁.curRuns j)

/-- Unless it was cancelled or has failed, every module has answered the message. -/
def Settled (log : List (Ev N)) (i : Fin 2) (x : PhlDisprMsgEx) : Prop :=
  x.status.cancel = false → x.status.fail = false →
    x.map x.status.prePhase = ∅ ∧ (x.postmap = ∅ ∨ PhaseSkipped log i x.call)

theorem recycle_leads : Leads (fun e => Held i k e ∧ Settled e.log i (e.ex i k))
    (Rest i [] [] none : Eng N → Prop) (recycle i k) := by
  rintro e ⟨he, hm⟩
  have hs : Steps e (e.logEv (.finished i (e.ex i k).call (e.ex i k).status)) :=
    .single (.finish i k he.1.mem_hand hm)
  obtain ⟨hs', hrest⟩ := recycleMsg_leads (i := i) (k := k) _
    ⟨he.1.still hs (Quiet.logEv _ _).toStill, he.2⟩
  exact ⟨hs.trans hs', hrest⟩

theorem Held.lasting : Lasting (Held (N := N) i k) := fun _ _ he hs hq =>
  ⟨he.1.still hs hq.toStill, (hq.held i k he.1.mem_hand).1.fired.trans he.2⟩

theorem setCurPendingEvt_tame : Tame fun e : Eng N =>
    e.setCurPendingEvt i (e.ex i k).msg.msgId.mdlId (e.ex i k).msg.msgId.evtId := fun _ _ =>
  ⟨.single (.misc i _ (fun _ => rfl) (fun _ => rfl) (fun _ => rfl) (fun _ => rfl) (fun _ => rfl)
    (fun _ => rfl) fun _ h => h), .of_msgs rfl (fun _ => by simp) (fun _ => by simp [QuietTok.refl])
    (fun _ => by simp [QuietFlags.refl]) fun _ => by simp [QuietMdls.refl]⟩

theorem pushBackPendingMsg_leads : Leads (Held i k) (Rest i [] [] none : Eng N → Prop) (pushBackPendingMsg i k) := by
  have hpend : Leads (Held i k) (Rest i [] [] none : Eng N → Prop) fun e => e.onMsgs i fun q =>
      { q.setEnq k with pend := q.pend ++ [k], hand := q.hand.erase k } := by
    rintro e ⟨he, hf⟩
    have hs : Steps e (e.onMsgs i fun q =>
        { q.setEnq k with pend := q.pend ++ [k], hand := q.hand.erase k }) :=
      .single (.toPend i k he.mem_hand hf)
    exact ⟨hs, he.next hs (by simp [he.hand]) (fun j hj => by simp [hj])
      fun j => by simp [QuietTok.refl]⟩
  exact ((setCurPendingEvt_tame.when fun e => (e.ex i k).status.clrSndrMsgIfPending).leads
    Held.lasting fun _ he => he.1.sound).comp hpend

theorem msgRedirectChk_leads {go : Eng N → Eng N} (he : Held i k e)
    (hgo : (e.ex i k).status.cancel = false → ¬ Halted (e.ex i k) → Steps e (go e) ∧ Rest i [] [] none (go e)) :
    Steps e (msgRedirectChk i k go e) ∧ Rest i [] [] none (msgRedirectChk i k go e) := by
  unfold msgRedirectChk
  split
  · rename_i h
    refine recycle_leads e ⟨he, fun hc hf => ?_⟩
    rw [hc, hf] at h
    simp at h
  · rename_i h
    split
    · exact pushBackPendingMsg_leads e he
    · rename_i hp
      obtain ⟨hf, hc⟩ := not_or.1 h
      exact hgo (by simpa using hc) fun hh => hh.elim hf hp

/-! ### The phases of a dispatch -/

/-- What is left of a message before a phase that may be left out. -/
def MaySkip (log : List (Ev N)) (i : Fin 2) (x : PhlDisprMsgEx) : Prop :=
  x.status.prePhase = false ∨ x.postmap = ∅ ∨ PhaseSkipped log i x.call

theorem Settled.lasting (hs : Steps e e') (hr : Revised x x') (h : Settled e.log i x) : Settled e'.log i x' := by
  intro hc hf
  have hc' : x.status.cancel = false := by
    by_contra hcon
    simp [hr.cancel (by simpa using hcon)] at hc
  have hf' : x.status.fail = false := by
    by_contra hcon
    simp [hr.fail (by simpa using hcon)] at hf
  obtain ⟨hmap, hpost⟩ := h hc' hf'
  have hmaps : x'.premap = x.premap ∧ x'.postmap = x.postmap := by
    rcases hr.maps with hmaps | ⟨-, -, hcan⟩
    · exact hmaps
    · simp [hc] at hcan
  refine ⟨?_, hpost.imp (fun h => hmaps.2.trans h) fun ⟨pm, hpm, hmem⟩ =>
    ⟨pm, hpm, hr.call ▸ hs.log.subset hmem⟩⟩
  rw [hr.prePhase, PhlDisprMsgEx.map, hmaps.1, hmaps.2]; exact hmap

theorem cancelled_leads (he : Disp i k pre owner M e) :
    Steps e (recycle i k (e.onEx i k setCancel)) ∧ Rest i [] [] none (recycle i k (e.onEx i k setCancel)) := by
  obtain ⟨hs₁, hd₁⟩ := he.edit (setCancel_revised _) rfl
  obtain ⟨hs₂, hrest⟩ := recycle_leads _ ⟨hd₁.held, fun hc => by simp [setCancel] at hc⟩
  exact ⟨hs₁.trans hs₂, hrest⟩

theorem dispatchEnd_leads (he : Disp i k pre owner M e) (hsk : MaySkip e.log i (e.ex i k)) :
    Steps e (dispatchEnd pre i k e) ∧ Rest i [] [] none (dispatchEnd pre i k e) := by
  unfold dispatchEnd
  split
  · rename_i hmap
    have hset : Settled e.log i (e.ex i k) := by
      intro _ _
      rw [he.phase]
      refine ⟨hmap, hsk.elim (fun hp => .inl ?_) id⟩
      obtain rfl : pre = false := he.phase.symm.trans hp
      exact hmap
    obtain ⟨hs₁, hq⟩ := curReqHdl_tame (i := i) (k := k) e he.rest.sound
    have hr := (hq.held i k he.rest.mem_hand).1
    obtain ⟨hs₂, hrest⟩ := recycle_leads _
      ⟨⟨he.rest.still hs₁ hq.toStill, hr.fired.trans he.fired⟩, hset.lasting hs₁ hr⟩
    exact ⟨hs₁.trans hs₂, hrest⟩
  · exact cancelled_leads he

theorem Due.perm {qs : List MdlPri} (h : ∀ p ∈ ps, p ∈ qs) (hd : Due M ps id) : Due M qs id := by
  obtain ⟨p, hp, hdue⟩ := hd
  exact ⟨p, h p hp, hdue⟩

theorem Disp.phaseHdl (he : Disp i k ph owner M e)
    {order : List PhlBkModule → List PhlBkModule} (hord : ∀ q mdl, mdl ∈ order q ↔ mdl ∈ q)
    (hps : ps.Pairwise (Precedes ph)) (hall : ∀ p, p ∈ ps) :
    Steps e (phaseHdl ph order i k ps e) ∧ Disp i k ph owner M (phaseHdl ph order i k ps e) :=
  phaseHdl_leads hord ps e he hps <| (he.due ph).imp_right fun h =>
    ⟨he.phase, fun id hid => (h id hid).perm fun p _ => hall p⟩

theorem msgPrePhaseHdl_leads (he : Disp i k true owner M e) :
    Steps e (msgPrePhaseHdl i k e) ∧ Disp i k true owner M (msgPrePhaseHdl i k e) :=
  he.phaseHdl (fun _ _ => .rfl) (by simp [Precedes, MdlPri.rank]) fun p => by cases p <;> simp

theorem msgPostPhaseHdl_leads (he : Disp i k false owner M e) :
    Steps e (msgPostPhaseHdl i k e) ∧ Disp i k false owner M (msgPostPhaseHdl i k e) :=
  he.phaseHdl (fun _ _ => List.mem_reverse) (by simp [Precedes, MdlPri.rank])
    fun p => by cases p <;> simp

theorem dispatchPost_leads (he : Disp i k pre owner M e) (hpre : pre = true → (e.ex i k).premap = ∅)
    (hsk : MaySkip e.log i (e.ex i k)) :
    Steps e (dispatchPost pre i k e) ∧ Rest i [] [] none (dispatchPost pre i k e) := by
  unfold dispatchPost
  split
  · exact msgRedirectChk_leads he.held fun _ _ => dispatchEnd_leads he hsk
  · rename_i hmap
    obtain rfl : pre = false := by
      cases pre
      · rfl
      · exact absurd (hpre rfl) hmap
    obtain ⟨hs₁, hd₁⟩ := msgPostPhaseHdl_leads he
    obtain ⟨hs₂, hrest⟩ := msgRedirectChk_leads hd₁.held fun _ _ =>
      dispatchEnd_leads hd₁ (.inl hd₁.phase)
    exact ⟨hs₁.trans hs₂, hrest⟩

theorem getMsgBitmap_move : Move e (getMsgBitmap i k e) :=
  .reviseEx ⟨rfl, rfl, rfl, rfl, rfl, rfl, rfl, rfl, rfl, fun h => h, fun h => h, .inl ⟨rfl, rfl⟩⟩

theorem switchPhase_leads (he : Disp i k true owner M e) :
    Steps e (switchPhase i k e) ∧ Rest i [] [] none (switchPhase i k e) := by
  unfold switchPhase
  split
  · rename_i hmap
    have hs₁ : Steps e (e.onEx i k fun ex => { ex with
        status := { ex.status with prePhase := false } }) :=
      .single (.switch i k he.rest.mem_hand hmap)
    have hs₂ := hs₁.tail (getMsgBitmap_move (i := i) (k := k))
    have hd : Disp i k false owner M (getMsgBitmap i k (e.onEx i k fun ex => { ex with
        status := { ex.status with prePhase := false } })) := by
      unfold getMsgBitmap at hs₂ ⊢
      refine ⟨he.rest.still hs₂ ⟨rfl, fun j => by simp, fun j => by simp [QuietTok.refl],
        fun j => by simp [QuietFlags.refl], fun j => by simp [QuietMdls.refl]⟩, ?_, ?_, ?_, ?_, ?_,
        fun ph => ?_⟩
      · simpa using he.fired
      · simp
      · simp
      · simpa using he.module
      · simpa using he.moduleQ
      · simpa [Awaits, PhlDisprMsgEx.map] using he.due ph
    obtain ⟨hs₃, hrest⟩ := dispatchPost_leads hd (by simp) (.inl hd.phase)
    exact ⟨hs₂.trans hs₃, hrest⟩
  · exact cancelled_leads he

theorem dispatchPhases_leads (he : Disp i k pre owner M e)
    (hsk : (e.ex i k).premap = ∅ → MaySkip e.log i (e.ex i k)) :
    Steps e (dispatchPhases i k e) ∧ Rest i [] [] none (dispatchPhases i k e) := by
  simp only [dispatchPhases, he.ind, he.phase]
  by_cases hc : pre = true ∧ (e.ex i k).map pre ≠ ∅
  · rw [if_pos hc]
    obtain ⟨rfl, -⟩ := hc
    obtain ⟨hs₁, hd₁⟩ := msgPrePhaseHdl_leads he
    obtain ⟨hs₂, hrest⟩ := msgRedirectChk_leads hd₁.held fun _ _ => switchPhase_leads hd₁
    exact ⟨hs₁.trans hs₂, hrest⟩
  · rw [if_neg hc]
    have hpre : pre = true → (e.ex i k).premap = ∅ := by
      rintro rfl
      by_contra hne
      exact hc ⟨rfl, hne⟩
    refine dispatchPost_leads he hpre ?_
    cases pre
    · exact .inl he.phase
    · exact hsk (hpre rfl)

theorem controller_next (he : Disp i k pre owner M e) : Next (e.d i).mdls.controller.id x := by
  rw [(he.rest.sound.mdls i).controller]; exact .inl (by decide)

theorem Fed.maySkip (h : Fed id ret x x') (hpri : getMdlPriority id = none) (hret : stopDispatchMsg ret = false)
    (hdue : Awaits true (Due M [.role, .optional, .mandatory]) x) {log log' : List (Ev N)}
    (hlog : log <+: log') (hsk : x.premap = ∅ → MaySkip log i x) (hc : x'.status.cancel = false)
    (hmap : x'.premap = ∅) : MaySkip log' i x' := by
  obtain ⟨y, hr, rfl⟩ := h.go hret
  rw [clearBit_status] at hc
  have hx : x.status.cancel = false := by
    by_contra hcon
    simp [hr.cancel (by simpa using hcon)] at hc
  obtain ⟨hprem, hpost⟩ : y.premap = x.premap ∧ y.postmap = x.postmap := by
    rcases hr.maps with hmaps | ⟨-, -, hcan⟩
    · exact hmaps
    · simp [hc] at hcan
  -- the bit of `id` was not set
  have hid : id ∉ x.premap := fun hmem => by
    rcases hdue with hc | hdue
    · simp [hx] at hc
    · obtain ⟨p, -, hp, -⟩ := hdue id hmem; simp [hpri] at hp
  have hempty : x.premap = ∅ := by
    refine Finset.eq_empty_of_forall_notMem fun id' hid' => ?_
    have hmem : id' ∈ (y.clearBit y.status.prePhase id).premap := by
      cases hp : y.status.prePhase
      · simpa [PhlDisprMsgEx.clearBit, hprem] using hid'
      · have hne : id' ≠ id := fun heq => hid (heq ▸ hid')
        simp only [PhlDisprMsgEx.clearBit, if_true, clrBitmapBit, maskIds, Finset.mem_sdiff, hprem]
        refine ⟨hid', fun hin => hne ?_⟩
        simp at hin
        exact hin.1
    simp [hmap] at hmem
  have hcall : (y.clearBit y.status.prePhase id).call = x.call := by
    rw [← hr.call]; cases y.status.prePhase <;> rfl
  rcases hsk hempty with hp | hp | ⟨pm, hpm, hmem⟩
  · exact .inl (by rw [clearBit_status, hr.prePhase, hp])
  · refine .inr (.inl (Finset.eq_empty_of_forall_notMem fun id' hid' => ?_))
    have hsub := (mem_clearBit (q := false) hid').1
    simp [PhlDisprMsgEx.map, hpost, hp] at hsub
  · exact .inr (.inr ⟨pm, hpm, hcall ▸ hlog.subset hmem⟩)

theorem msgDispatch_leads (he : Disp i k pre owner M e)
    (hsk : (e.ex i k).premap = ∅ → MaySkip e.log i (e.ex i k)) {e' : Eng N}
    (heq : e = getMsgBitmap i k e') :
    Steps e (msgDispatch i k e') ∧ Rest i [] [] none (msgDispatch i k e') := by
  rw [msgDispatch, ← heq]
  refine msgRedirectChk_leads he.held fun _ _ => ?_
  unfold notifyDisprController
  split
  · obtain ⟨hs₁, hd₁, hf⟩ := feedMdlMsg_leads he (controller_next he)
    obtain ⟨hs₂, hrest⟩ := msgRedirectChk_leads hd₁.held fun hc hh =>
      dispatchPhases_leads hd₁ fun hmap => hf.maySkip
        (by rw [(he.rest.sound.mdls i).controller]; decide)
        (by simpa using fun hret => hh (hf.stop hret)) (he.due true) hs₁.log hsk hc hmap
    exact ⟨hs₁.trans hs₂, hrest⟩
  · exact msgRedirectChk_leads he.held fun _ _ => dispatchPhases_leads he hsk

/-! ### The message part of the thread's loop -/

theorem isMsgCanceled_leads : Leads (Held i k) (Held i k) fun e : Eng N => (isMsgCanceled i k e).1 := by
  intro e he
  have hedit : ∀ f : PhlDisprMsgEx → PhlDisprMsgEx, Revised (e.ex i k) (f (e.ex i k)) →
      Steps e (e.onEx i k f) ∧ Held i k (e.onEx i k f) := fun f hr => by
    have hs : Steps e (e.onEx i k f) := .single (.reviseEx hr)
    exact ⟨hs, he.1.still hs (still_onEx i k f e), by simpa using hr.fired.trans he.2⟩
  simp only [isMsgCanceled]
  split
  · exact ⟨.refl, he⟩
  split
  · exact hedit _ ⟨rfl, rfl, rfl, rfl, rfl, rfl, rfl, rfl, rfl, fun _ => rfl, fun h => h, .inl ⟨rfl, rfl⟩⟩
  split
  · exact hedit _ ⟨rfl, rfl, rfl, rfl, rfl, rfl, rfl, rfl, rfl, fun _ => rfl, fun h => h, .inl ⟨rfl, rfl⟩⟩
  split
  · split
    · exact hedit _ ⟨rfl, rfl, rfl, rfl, rfl, rfl, rfl, rfl, rfl, fun h => h, fun h => h, .inl ⟨rfl, rfl⟩⟩
    split
    · exact hedit _ ⟨rfl, rfl, rfl, rfl, rfl, rfl, rfl, rfl, rfl, fun _ => rfl, fun h => h, .inl ⟨rfl, rfl⟩⟩
    · exact hedit _ ⟨rfl, rfl, rfl, rfl, rfl, rfl, rfl, rfl, rfl, fun h => h, fun h => h, .inl ⟨rfl, rfl⟩⟩
  · exact ⟨.refl, he⟩

theorem takeMsg_leads (he : Held i k e) {e' : Eng N} (heq : e' = (andBitmaps i k e).logEv
    (.taken i (e.ex i k).call (e.ex i k).status.prePhase ((e.ex i k).premap ∩ (e.d i).mdls.bitmap)
      ((e.ex i k).postmap ∩ (e.d i).mdls.bitmap))) :
    Steps e (msgDispatch i k e') ∧ Rest i [] [] none (msgDispatch i k e') := by
  have hs₁ : Steps e e' := heq ▸ .single (.take i k he.1.mem_hand)
  have hex : e'.ex i k = { e.ex i k with
      premap := (e.ex i k).premap ∩ (e.d i).mdls.bitmap
      postmap := (e.ex i k).postmap ∩ (e.d i).mdls.bitmap } := by
    rw [heq]
    simp [andBitmaps]
  have hmdls : (e'.d i).mdls = (e.d i).mdls := by simp [heq, andBitmaps]
  have hrest₁ : Rest i [k] [] none e' := he.1.still hs₁ (heq ▸ ⟨rfl, fun j => by simp [andBitmaps],
    fun j => by simp [andBitmaps, QuietTok.refl], fun j => by simp [andBitmaps, QuietFlags.refl],
    fun j => by simp [andBitmaps, QuietMdls.refl]⟩)
  have hs₂ : Steps e' (getMsgBitmap i k e') := .single getMsgBitmap_move
  have hd : Disp i k (e.ex i k).status.prePhase (e.ex i k).module (e.d i).mdls.moduleQ
      (getMsgBitmap i k e') := by
    unfold getMsgBitmap at hs₂ ⊢
    refine ⟨hrest₁.still hs₂ (still_onEx i k _ e'), ?_, ?_, ?_, ?_, ?_, fun ph => .inr fun id hid => ?_⟩
    · simpa [hex] using he.2
    · simp [hex]
    · simp [hex]
    · simp [hex]
    · simp [hmdls]
    · have hb : id ∈ (e.d i).mdls.bitmap := by
        cases ph <;> simp_all [PhlDisprMsgEx.map]
      obtain ⟨p, hp, hmdl⟩ := (he.1.sound.mdls i).linked id hb
      exact ⟨p, by cases p <;> simp, hp, hmdl⟩
  have hsk : ((getMsgBitmap i k e').ex i k).premap = ∅ →
      MaySkip (getMsgBitmap i k e').log i ((getMsgBitmap i k e').ex i k) := fun hmap => by
    have hmap' : (e.ex i k).premap ∩ (e.d i).mdls.bitmap = ∅ := by
      simpa [getMsgBitmap, hex] using hmap
    have hpost : ((getMsgBitmap i k e').ex i k).postmap =
        (e.ex i k).postmap ∩ (e.d i).mdls.bitmap := by simp [getMsgBitmap, hex]
    cases hp : (e.ex i k).status.prePhase with
    | false => exact .inl (by simp [getMsgBitmap, hex, hp])
    | true =>
      rcases eq_or_ne ((e.ex i k).postmap ∩ (e.d i).mdls.bitmap) ∅ with hz | hz
      · exact .inr (.inl (hpost.trans hz))
      · refine .inr (.inr ⟨_, hz, ?_⟩)
        rw [heq, hp, hmap']
        simp [getMsgBitmap, andBitmaps]
  obtain ⟨hs₃, hrest⟩ := msgDispatch_leads hd hsk rfl
  exact ⟨(hs₁.trans hs₂).trans hs₃, hrest⟩

theorem Rest.popWait {q : MsgQs N} (he : Rest i [] [] none e) (hpop : (e.d i).msgs.popFrontWaitMsg = some (k, q)) :
    Held i k (e.onMsgs i fun _ => q) ∧ (e.d i).msgs.wait = k :: q.wait ∧ q.pend = (e.d i).msgs.pend := by
  have hs : Steps e (e.onMsgs i fun _ => q) := .single (.popWait i k q hpop)
  unfold MsgQs.popFrontWaitMsg at hpop
  cases hw : (e.d i).msgs.wait with
  | nil => simp [hw] at hpop
  | cons l wait =>
    simp only [hw, Option.some.injEq, Prod.mk.injEq] at hpop
    obtain ⟨rfl, rfl⟩ := hpop
    have hok := he.sound.msgs i
    have hfired : ((e.d i).msgs.pool l).fired = false := by
      by_contra hf
      have hin := hok.fired l (hok.not_idle (by simp [hw])) (by simpa using hf)
      simp [he.hand] at hin
    exact ⟨⟨he.next hs (by simp [he.hand]) (fun j hj => by simp [hj])
      fun j => by simp [QuietTok.refl], by simpa [Eng.ex] using hfired⟩, rfl, rfl⟩

theorem dispatchWaitMsg_leads : Leads (Rest i [] [] none) (Rest i [] [] none : Eng N → Prop) (dispatchWaitMsg i) := by
  intro e he
  unfold dispatchWaitMsg
  rcases hpop : (e.d i).msgs.popFrontWaitMsg with _ | ⟨k, q⟩
  · exact ⟨.refl, he⟩
  · have hs₁ : Steps e (e.onMsgs i fun _ => q) := .single (.popWait i k q hpop)
    obtain ⟨hheld, -, -⟩ := he.popWait hpop
    obtain ⟨hs₂, hheld₂⟩ := isMsgCanceled_leads _ hheld
    simp only
    rcases hc : isMsgCanceled i k (e.onMsgs i fun _ => q) with ⟨e₂, b⟩
    simp only [hc] at hs₂ hheld₂
    cases b with
    | true =>
      obtain ⟨hs₃, hrest⟩ := recycleMsg_leads e₂ hheld₂
      exact ⟨(hs₁.trans hs₂).trans hs₃, hrest⟩
    | false =>
      obtain ⟨hs₃, hrest⟩ := takeMsg_leads hheld₂ rfl
      have heq : (andBitmaps i k e₂).logEv (.taken i ((andBitmaps i k e₂).ex i k).call
          ((andBitmaps i k e₂).ex i k).status.prePhase ((andBitmaps i k e₂).ex i k).premap
          ((andBitmaps i k e₂).ex i k).postmap) = (andBitmaps i k e₂).logEv (.taken i (e₂.ex i k).call
          (e₂.ex i k).status.prePhase ((e₂.ex i k).premap ∩ (e₂.d i).mdls.bitmap)
          ((e₂.ex i k).postmap ∩ (e₂.d i).mdls.bitmap)) := by simp [andBitmaps]
      simp only
      rw [heq]; exact ⟨(hs₁.trans hs₂).trans hs₃, hrest⟩

end Feed

end Rtl8852cu.Dispr
