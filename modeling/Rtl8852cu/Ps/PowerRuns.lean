import Rtl8852cu.Ps.Handlers
import Rtl8852cu.Lib.Reach

/-!
# Runs of the power-save module

`Right` relates the mode, the state, the power level, the macid, the LPS sessions and the pause of TX between two messages.  A message
leads to at most one `_enter_ps` (`entry`); `ActOk` says which entries keep the invariant `Inv`, and that a forced leave finds TX
unpaused.  The macid of a module that was never in power saving is the 0 of its allocation, so that all is right from the first
entry on (`Enters`).
-/

namespace Rtl8852cu.Ps

/-! ### What holds between two messages -/

/-- The macid of the LPS session after a call. -/
def sessionStep (x : Option ℕ) : Call → Option ℕ
  | .enterPs .lps macid true true => macid
  | .leavePs .lps macid true true => if x = macid then none else x
  | _ => x

/-- The macid for which an LPS session was entered and not left. -/
def session (calls : List Call) : Option ℕ := calls.foldl sessionStep none

/-- Only LPS for the same macid is entered during a session. -/
def SessionsKept (calls : List Call) : Prop :=
  ∀ pre mode macid proto, pre ++ [.enterPs mode macid proto true] <+: calls →
    ∀ x, session pre = some x → mode = .lps ∧ macid = some x

/-- The states between two messages as the table of the source has them, with the sessions and the pause of TX. -/
structure CmdPs.Right (s : CmdPs) : Prop where
  level : s.curPwrLvl = .pwrOn ↔ s.psState = .leaved ∨ s.psState = .proto
  proto : s.psState = .proto → s.psMode = .lps
  leaved : s.psState = .leaved → s.psMode = .none ∧ s.macid = none
  sessions : SessionsKept s.calls
  paused : s.stopDatapath = true → s.psState ≠ .leaved

/-! ### The entry of a message -/

/-- An `_enter_ps` with the state in which it is called. -/
structure Entry where
  ps : CmdPs
  mode : PsMode
  macid : Option ℕ

namespace CmdPs

variable (s : CmdPs) (m : Msg) (w : World)

/-- `_enter_ps` after `_chk_ips_enter` -/
def ipsEntry : Option Entry := (s.chkIpsEnter w).map fun macid => ⟨s, .ips, some macid⟩

/-- `_enter_ps` after `_chk_lps_enter` -/
def lpsEntry : Option Entry := (s.chkLpsEnter w).2.map fun macid => ⟨(s.chkLpsEnter w).1, .lps, some macid⟩

/-- The entry of `_ps_dbg_cmd_hdlr`. -/
def dbgEntry : Option Entry :=
  match m.dbg with
  | .forceLpsEnter => if m.pre then none else (s.chkWroleWithPsMode w .lps).map fun macid => ⟨s, .lps, some macid⟩
  | .forceIpsEnter => if m.pre then none else (s.chkWroleWithPsMode w .ips).map fun macid => ⟨s, .ips, some macid⟩
  | .setIpsMode val =>
    if m.pre ∧ s.cap.ipsEn ≠ val ∧ val ≠ .disabled then
      let s := { s with cap := { s.cap with ipsEn := val } }
      (if s.psMode = .ips then (s.leavePs w true).1 else s).ipsEntry w
    else none
  | _ => none

/-- The entry of `_general_mdl_msg_hdlr`. -/
def generalEntry : Option Entry :=
  match m.evt with
  | .ext e => if m.pre then none else (s.cancelPwrReq (.ext e)).ipsEntry w
  | .hwWatchdog => if m.pre then none else (s.lpsEntry w).or ((s.chkLpsEnter w).1.ipsEntry w)
  | .rfOff =>
    if m.pre then none
    else if (s.leavePs w true).2 then some ⟨{ (s.leavePs w true).1.leaveSuccessHdlr with rejPwrReq := true }, .ips, none⟩
    else none
  | .phyIdle => if m.pre then none else (s.cancelPwrReq .phyIdle).ipsEntry w
  | .pktEvtNtfy => if m.pkt = some .eapolEnd ∧ m.pre = false then (s.cancelPwrReq .pktEvtNtfy).ipsEntry w else none
  | _ => none

/-- The entry of `_ps_mdl_hdl_internal_evt`. -/
def internalEntry : Option Entry :=
  match m.evt with
  | .phyIdle => if m.pre then none else (s.cancelPwrReq .phyIdle).ipsEntry w
  | .psCapChg => if m.pre then none else if s.rtStopRson = 0 then s.ipsEntry w else none
  | .psPeriodChk => if m.pre then none else if s.psState ≠ .entered then { s with wdgLeavePs := false }.lpsEntry w else none
  | .psDbgCmd => s.dbgEntry m w
  | _ => none

/-- The `_enter_ps` of a message. -/
def entry : Option Entry :=
  if (s.inRecovery = true ∧ m.mdl ≠ .ser) ∨ m.fail = true then none
  else
    match m.mdl with
    | .powerMgnt => s.internalEntry m w
    | .general => s.generalEntry m w
    | _ => none

end CmdPs

def Enters (w : World) (e : Option Entry) : Prop := ∃ x, e = some x ∧ x.ps.psState ≠ .entered ∧ w.enterOk = true

/-- An entry with a power level below `PS_PWR_LVL_PWRON`, from the protocol-only state for the same session, and one that succeeds
when TX was paused for it. -/
structure EntryOk (w : World) (x : Entry) : Prop where
  level : x.ps.psState ≠ .entered → w.enterOk = true → x.ps.enterLvl x.mode x.macid ≠ .pwrOn
  session : x.ps.psState = .proto → w.enterOk = true → x.mode = .lps ∧ x.macid = x.ps.macid
  paused : x.ps.psState = .leaved → x.ps.stopDatapath = true → w.enterOk = true

/-- The commands that leave without the handler for it find TX unpaused. -/
def LeaveOk (s : CmdPs) (m : Msg) (w : World) : Prop :=
  m.mdl = .powerMgnt → m.evt = .psDbgCmd → m.dbg = .forceLpsLeave ∨ m.dbg = .forceIpsLeave → m.pre = true →
    s.stopDatapath = false ∨ w.leaveOk = false

/-- A message, and what the module meets while it handles it. -/
abbrev Act := Msg × World

def step (s : CmdPs) (a : Act) : CmdPs := (s.psMdlMsgHdlr a.1 a.2).1

/-- When a message keeps what holds between two messages. -/
def ActOk (s : CmdPs) (a : Act) : Prop := (∀ x, s.entry a.1 a.2 = some x → EntryOk a.2 x) ∧ LeaveOk s a.1 a.2

/-! ### The invariant -/

/-- The part of the state that power saving is about. -/
structure Power where
  lvl : PwrLvl
  state : PsState
  mode : PsMode
  macid : Option ℕ
  stop : Bool
  calls : List Call

def CmdPs.power (s : CmdPs) : Power := ⟨s.curPwrLvl, s.psState, s.psMode, s.macid, s.stopDatapath, s.calls⟩

/-- What a leave keeps whether TX is resumed or not. -/
structure Core (p : Power) : Prop where
  level : p.lvl = .pwrOn ↔ p.state = .leaved ∨ p.state = .proto
  proto : p.state = .proto → p.mode = .lps
  leaved : p.state = .leaved ↔ p.mode = .none
  ongoing : session p.calls = if p.mode = .lps then p.macid else none
  kept : SessionsKept p.calls

structure Inv (p : Power) : Prop extends Core p where
  paused : p.stop = true → p.mode = .lps

/-- A module that has left has no macid. -/
def Clean (p : Power) : Prop := p.state = .leaved → p.macid = none

/-- What is not an entry keeps the macid of a module that is not in power saving. -/
structure Settles (p p' : Power) : Prop where
  stays : p.state = .leaved → p'.state = .leaved ∧ p'.macid = p.macid
  clean : Clean p → Clean p'

theorem Settles.refl (p : Power) : Settles p p := ⟨fun h => ⟨h, rfl⟩, id⟩

theorem Settles.trans {p p' p'' : Power} (h : Settles p p') (h' : Settles p' p'') : Settles p p'' where
  stays hl := by
    obtain ⟨hl', hm⟩ := h.stays hl
    obtain ⟨hl'', hm'⟩ := h'.stays hl'
    exact ⟨hl'', hm'.trans hm⟩
  clean hc := h'.clean (h.clean hc)

theorem Inv.right_iff {s : CmdPs} (h : Inv s.power) : s.Right ↔ Clean s.power := by
  constructor
  · exact fun hr hl => (hr.leaved hl).2
  · intro hc
    refine ⟨h.level, h.proto, fun hl => ⟨h.leaved.mp hl, hc hl⟩, h.kept, fun hs hl => ?_⟩
    have hnone := h.leaved.mp hl
    rw [h.paused hs] at hnone; cases hnone

/-! ### Calls -/

theorem session_snoc (calls : List Call) (c : Call) : session (calls ++ [c]) = sessionStep (session calls) c := by
  unfold session
  rw [List.foldl_append]; rfl

theorem snoc_prefix_snoc {α : Type} {pre calls : List α} {c d : α} (h : pre ++ [c] <+: calls ++ [d]) :
    (pre = calls ∧ c = d) ∨ pre ++ [c] <+: calls := by
  obtain ⟨rest, hrest⟩ := h
  cases rest using List.reverseRecOn with
  | nil =>
    rw [List.append_nil] at hrest
    obtain ⟨h₁, h₂⟩ := List.append_inj' hrest rfl
    exact Or.inl ⟨h₁, List.singleton_inj.mp h₂⟩
  | append_singleton rest e =>
    rw [← List.append_assoc] at hrest; exact Or.inr ⟨rest, (List.append_inj' hrest rfl).1⟩

theorem SessionsKept.snoc {calls : List Call} {c : Call} (h : SessionsKept calls)
    (hc : ∀ mode macid proto, c = .enterPs mode macid proto true → ∀ x, session calls = some x → mode = .lps ∧ macid = some x) :
    SessionsKept (calls ++ [c]) := by
  intro pre mode macid proto hpre
  rcases snoc_prefix_snoc hpre with ⟨rfl, hcall⟩ | hpre
  · exact hc mode macid proto hcall.symm
  · exact h pre mode macid proto hpre

theorem Core.log {s : CmdPs} {c : Call} (h : Core s.power) (hsession : sessionStep (session s.calls) c = session s.calls)
    (hc : ∀ mode macid proto, c ≠ .enterPs mode macid proto true) : Core (s.log c).power where
  level := h.level
  proto := h.proto
  leaved := h.leaved
  ongoing := by
    show session (s.calls ++ [c]) = _
    rw [session_snoc, hsession]; exact h.ongoing
  kept := h.kept.snoc fun mode macid proto hcall => absurd hcall (hc mode macid proto)

namespace CmdPs

variable {s : CmdPs} {w : World}

/-! ### Leave -/

theorem leavePs_core (h : Core s.power) (leaveProto : Bool) :
    Core (s.leavePs w leaveProto).1.power ∧ Settles s.power (s.leavePs w leaveProto).1.power ∧
      (s.leavePs w leaveProto).1.stopDatapath = s.stopDatapath := by
  unfold leavePs
  by_cases hl : s.psState = .leaved
  · rw [if_pos hl]; exact ⟨h, .refl _, rfl⟩
  · rw [if_neg hl]
    by_cases hp : s.psMode = .lps ∧ leaveProto = false ∧ s.psState = .proto
    · rw [if_pos hp]; exact ⟨h, .refl _, rfl⟩
    · rw [if_neg hp]
      have hmode : s.psMode ≠ .none := fun hn => hl (h.leaved.mpr hn)
      have hok : (w.leaveOk && decide (s.psMode ≠ .none)) = w.leaveOk := by
        rw [decide_eq_true hmode, Bool.and_true]
      dsimp only
      rw [hok]
      cases hw : w.leaveOk with
      | false =>
        refine ⟨h.log ?_ fun _ _ _ => nofun, ⟨fun hl' => absurd hl' hl, fun _ hl' => absurd hl' hl⟩, rfl⟩
        cases s.psMode with
        | lps => cases leaveProto <;> rfl
        | ips => rfl
        | none => rfl
      | true =>
        have hsession : session s.calls = if s.psMode = .lps then s.macid else none := h.ongoing
        rw [if_pos rfl]
        cases hm : s.psMode with
        | none => exact absurd hm hmode
        | lps =>
          rw [hm, if_pos rfl] at hsession
          cases leaveProto with
          | false =>
            unfold left
            rw [if_pos ⟨hm, rfl⟩]
            refine ⟨⟨⟨fun _ => Or.inr rfl, fun _ => rfl⟩, fun _ => hm, ⟨nofun, fun hn => ?_⟩, ?_, ?_⟩,
              ⟨fun hl' => absurd hl' hl, fun _ => nofun⟩, rfl⟩
            · have hn : s.psMode = .none := hn
              rw [hm] at hn; cases hn
            · show session (s.calls ++ _) = if s.psMode = .lps then s.macid else none
              rw [session_snoc, hm, if_pos rfl, hsession]; rfl
            · exact h.kept.snoc fun _ _ _ => nofun
          | true =>
            unfold left
            rw [if_neg fun hi => nomatch hi.2]
            refine ⟨⟨⟨fun _ => Or.inl rfl, fun _ => rfl⟩, nofun, ⟨fun _ => rfl, fun _ => rfl⟩, ?_, ?_⟩,
              ⟨fun hl' => absurd hl' hl, fun _ _ => rfl⟩, rfl⟩
            · show session (s.calls ++ [.leavePs .lps s.macid true true]) = none
              rw [session_snoc, hsession]; exact if_pos rfl
            · exact h.kept.snoc fun _ _ _ => nofun
        | ips =>
          rw [hm, if_neg nofun] at hsession
          have hno : ∀ c, ¬((s.log c).psMode = .lps ∧ leaveProto = false) := fun _ hi => nomatch hm.symm.trans hi.1
          unfold left
          rw [if_neg (hno _)]
          refine ⟨⟨⟨fun _ => Or.inl rfl, fun _ => rfl⟩, nofun, ⟨fun _ => rfl, fun _ => rfl⟩, ?_, ?_⟩,
            ⟨fun hl' => absurd hl' hl, fun _ _ => rfl⟩, rfl⟩
          · show session (s.calls ++ _) = none
            rw [session_snoc, hsession]; rfl
          · exact h.kept.snoc fun _ _ _ => nofun

variable {leaveProto : Bool}

theorem leavePs_failed (hf : (s.leavePs w leaveProto).2 = false) : (s.leavePs w leaveProto).1.psMode = s.psMode := by
  unfold leavePs at hf ⊢
  by_cases hl : s.psState = .leaved
  · rw [if_pos hl]
  · rw [if_neg hl] at hf ⊢
    by_cases hp : s.psMode = .lps ∧ leaveProto = false ∧ s.psState = .proto
    · rw [if_pos hp]
    · rw [if_neg hp] at hf ⊢
      dsimp only at hf ⊢
      by_cases hok : (w.leaveOk && decide (s.psMode ≠ .none)) = true
      · rw [if_pos hok] at hf; cases hf
      · rw [if_neg hok]; rfl

theorem leavePs_refused (hw : w.leaveOk = false) : (s.leavePs w leaveProto).1.psMode = s.psMode := by
  unfold leavePs
  by_cases hl : s.psState = .leaved
  · rw [if_pos hl]
  · rw [if_neg hl]
    by_cases hp : s.psMode = .lps ∧ leaveProto = false ∧ s.psState = .proto
    · rw [if_pos hp]
    · rw [if_neg hp, hw]; rfl

/-! ### Enter -/

theorem enterPs_inv {mode : PsMode} {macid : Option ℕ} (h : Core s.power) (hmode : mode ≠ .none) (hok : EntryOk w ⟨s, mode, macid⟩)
    (hstop : s.stopDatapath = true → s.psMode = .lps ∨ (s.psState = .leaved ∧ mode = .lps)) :
    Inv (s.enterPs w mode macid).power ∧ (s.psState ≠ .entered → w.enterOk = true → Clean (s.enterPs w mode macid).power) ∧
      (¬(s.psState ≠ .entered ∧ w.enterOk = true) → Settles s.power (s.enterPs w mode macid).power) := by
  unfold enterPs
  by_cases he : s.psState = .entered
  · rw [if_pos he]
    refine ⟨⟨h, fun hs => ?_⟩, fun hne => absurd he hne, fun _ => .refl _⟩
    exact (hstop hs).resolve_right fun hl => nomatch he.symm.trans hl.1
  · rw [if_neg he]
    have hon : (w.enterOk && decide (mode ≠ .none)) = w.enterOk := by rw [decide_eq_true hmode, Bool.and_true]
    dsimp only
    rw [hon]
    cases hw : w.enterOk with
    | false =>
      have hcall : sessionStep (session s.calls) (.enterPs mode macid (s.enterProto mode macid) false) = session s.calls := by
        cases mode with
        | lps => cases s.enterProto .lps macid <;> rfl
        | ips => rfl
        | none => rfl
      rw [if_neg Bool.false_ne_true]
      refine ⟨⟨h.log hcall fun _ _ _ => nofun, fun hs => ?_⟩, fun _ => nofun, fun _ => ⟨fun hl => ⟨hl, rfl⟩, id⟩⟩
      exact (hstop hs).resolve_right fun hl => Bool.false_ne_true (hw.symm.trans (hok.paused hl.1 hs))
    | true =>
      have hsession : session s.calls = if s.psMode = .lps then s.macid else none := h.ongoing
      have hlvl := hok.level he hw
      have hproto : s.psState = .proto → mode = .lps ∧ macid = s.macid := fun hp => hok.session hp hw
      -- from the protocol-only state the session goes on, otherwise there is none
      have hbefore : session s.calls = if s.psState = .proto then s.macid else none := by
        rw [hsession]
        cases hst : s.psState with
        | leaved => exact if_neg fun hl => nomatch hl.symm.trans (h.leaved.mp hst)
        | proto => exact if_pos (h.proto hst)
        | entered => exact absurd hst he
      rw [if_pos rfl]
      refine ⟨⟨⟨⟨fun hl => absurd hl hlvl, fun hor => hor.elim nofun nofun⟩, nofun, ⟨nofun, fun hn => absurd hn hmode⟩, ?_, ?_⟩,
        fun hs => ?_⟩, fun _ _ => nofun, fun hno => absurd ⟨he, rfl⟩ hno⟩
      · show session (s.calls ++ [.enterPs mode macid (s.enterProto mode macid) true]) = if mode = .lps then macid else none
        rw [session_snoc, hbefore]
        by_cases hp : s.psState = .proto
        · obtain ⟨rfl, rfl⟩ := hproto hp
          have hno : s.enterProto .lps s.macid = false := decide_eq_false (not_not_intro hp)
          rw [if_pos hp, if_pos rfl, hno]; rfl
        · rw [if_neg hp]
          cases mode with
          | none => exact absurd rfl hmode
          | lps =>
            have hyes : s.enterProto .lps macid = true := decide_eq_true hp
            rw [hyes]; rfl
          | ips => rfl
      · refine h.kept.snoc fun mode' macid' proto' hcall x hx => ?_
        have hx := hbefore.symm.trans hx
        by_cases hp : s.psState = .proto
        · rw [if_pos hp] at hx
          obtain ⟨rfl, rfl⟩ := hproto hp
          cases hcall
          exact ⟨rfl, hx⟩
        · rw [if_neg hp] at hx; cases hx
      · show mode = .lps
        rcases hstop hs with hlps | ⟨-, hlps⟩
        · cases hst : s.psState with
          | leaved => exact nomatch hlps.symm.trans (h.leaved.mp hst)
          | proto => exact (hproto hst).1
          | entered => exact absurd hst he
        · exact hlps

/-! ### What a handler keeps -/

/-- The handler of a message with the entry `e` leads from `s` to `s'`. -/
def Kept (s : CmdPs) (w : World) (e : Option Entry) (s' : CmdPs) : Prop :=
  Inv s.power → (∀ x, e = some x → EntryOk w x) →
    Inv s'.power ∧ (Enters w e → Clean s'.power) ∧ (¬Enters w e → Settles s.power s'.power)

variable {s' : CmdPs}

theorem kept_none (h : Inv s.power → Inv s'.power ∧ Settles s.power s'.power) : Kept s w none s' := by
  intro hs _
  obtain ⟨hinv, hsettles⟩ := h hs
  exact ⟨hinv, fun ⟨x, hx, _⟩ => (nomatch hx), fun _ => hsettles⟩

theorem kept_same (h : s'.power = s.power) : Kept s w none s' := kept_none fun hs => ⟨h ▸ hs, h ▸ .refl _⟩

theorem kept_entry {s t : CmdPs} {mode : PsMode} {macid : Option ℕ} (hmode : mode ≠ .none)
    (ht : Inv s.power → Core t.power ∧ Settles s.power t.power ∧
      (t.stopDatapath = true → t.psMode = .lps ∨ (t.psState = .leaved ∧ mode = .lps)))
    (hs' : s'.power = (t.enterPs w mode macid).power) : Kept s w (some ⟨t, mode, macid⟩) s' := by
  intro hs hok
  obtain ⟨hcore, hsettles, hstop⟩ := ht hs
  obtain ⟨hinv, hin, hout⟩ := enterPs_inv (w := w) hcore hmode (hok _ rfl) hstop
  rw [hs']
  refine ⟨hinv, ?_, fun hno => hsettles.trans (hout fun hyes => hno ⟨_, rfl, hyes.1, hyes.2⟩)⟩
  rintro ⟨x, hx, hne, hw⟩
  cases hx
  exact hin hne hw

theorem cancelPwrReq_power (e : Evt) : (s.cancelPwrReq e).power = s.power := by
  unfold cancelPwrReq; cases s.busy <;> rfl

theorem addPwrReq_power (e : Evt) : (s.addPwrReq e).power = s.power := by
  unfold addPwrReq
  by_cases h : s.idle = 0
  · rw [if_pos h]
  · rw [if_neg h]; rfl

theorem kept_tryIps {s t : CmdPs} (ht : Inv s.power → Inv t.power ∧ Settles s.power t.power) :
    Kept s w (t.ipsEntry w) (t.tryIps w) := by
  unfold ipsEntry tryIps
  cases t.chkIpsEnter w with
  | none => exact kept_none ht
  | some macid =>
    refine kept_entry nofun (fun hs => ?_) rfl
    obtain ⟨hinv, hsettles⟩ := ht hs
    exact ⟨hinv.toCore, hsettles, fun hstop => Or.inl (hinv.paused hstop)⟩

theorem kept_cancel (e : Evt) : Kept s w ((s.cancelPwrReq e).ipsEntry w) ((s.cancelPwrReq e).tryIps w) := by
  refine kept_tryIps fun hs => ?_
  rw [cancelPwrReq_power]; exact ⟨hs, .refl _⟩

/-! ### Handlers that leave -/

theorem leaveSuccessHdlr_inv (h : Core s.power) : Inv s.leaveSuccessHdlr.power ∧ Settles s.power s.leaveSuccessHdlr.power := by
  unfold leaveSuccessHdlr
  cases hs : s.stopDatapath with
  | false =>
    refine ⟨⟨h, fun hstop => ?_⟩, .refl _⟩
    exact nomatch hs.symm.trans hstop
  | true =>
    have hlog : Core (s.log (.swTx false true)).power := h.log rfl fun _ _ _ => nofun
    exact ⟨⟨⟨hlog.level, hlog.proto, hlog.leaved, hlog.ongoing, hlog.kept⟩, nofun⟩, fun hl => ⟨hl, rfl⟩, id⟩

theorem leaveFailHdlr_inv (h : Inv s.power) : Inv (s.leaveFailHdlr w).1.power ∧ Settles s.power (s.leaveFailHdlr w).1.power := by
  have hlog : ∀ t : CmdPs, t.power = s.power → Inv (t.log .serL2Reset).power ∧ Settles s.power (t.log .serL2Reset).power := by
    intro t ht
    have h : Inv t.power := ht ▸ h
    rw [← ht]; exact ⟨⟨h.toCore.log rfl fun _ _ _ => nofun, h.paused⟩, fun hl => ⟨hl, rfl⟩, id⟩
  unfold leaveFailHdlr
  dsimp only
  split
  all_goals split
  all_goals split
  · exact hlog _ rfl
  · exact ⟨h, .refl _⟩
  · exact hlog _ rfl
  · exact ⟨h, .refl _⟩
  · exact hlog _ rfl
  · exact ⟨h, .refl _⟩
  · exact hlog _ rfl
  · exact ⟨h, .refl _⟩

theorem leavePs_failed_inv (h : Inv s.power) (hf : (s.leavePs w leaveProto).2 = false) :
    Inv (s.leavePs w leaveProto).1.power ∧ Settles s.power (s.leavePs w leaveProto).1.power := by
  obtain ⟨hcore, hsettles, hstop⟩ := leavePs_core (w := w) h.toCore leaveProto
  refine ⟨⟨hcore, fun hs => ?_⟩, hsettles⟩
  have hs : (s.leavePs w leaveProto).1.stopDatapath = true := hs
  exact (leavePs_failed hf).trans (h.paused (hstop.symm.trans hs))

theorem leaveWith_inv (leaveProto : Bool) (g : CmdPs → CmdPs)
    (hg : ∀ t, Core t.power → Inv (g t).power ∧ Settles t.power (g t).power)
    (hs' : s'.power = if (s.leavePs w leaveProto).2 then (g (s.leavePs w leaveProto).1).power
      else ((s.leavePs w leaveProto).1.leaveFailHdlr w).1.power) (h : Inv s.power) :
    Inv s'.power ∧ Settles s.power s'.power := by
  obtain ⟨hcore, hsettles, -⟩ := leavePs_core (w := w) h.toCore leaveProto
  rw [hs']
  cases hok : (s.leavePs w leaveProto).2 with
  | true =>
    obtain ⟨hinv, hset⟩ := hg _ hcore
    exact ⟨hinv, hsettles.trans hset⟩
  | false =>
    obtain ⟨hinv, hset⟩ := leavePs_failed_inv h hok
    obtain ⟨hinv', hset'⟩ := leaveFailHdlr_inv (w := w) hinv
    exact ⟨hinv', hset.trans hset'⟩

theorem leaveAnd_inv (g : CmdPs → CmdPs) (hg : ∀ t, Core t.power → Inv (g t).power ∧ Settles t.power (g t).power)
    (h : Inv s.power) : Inv (s.leaveAnd w g).1.power ∧ Settles s.power (s.leaveAnd w g).1.power := by
  refine leaveWith_inv (w := w) true g hg ?_ h
  unfold leaveAnd
  rcases s.leavePs w true with ⟨t, ok⟩
  cases ok <;> rfl

theorem addPwrReq_leaveSuccess (e : Evt) (h : Core s.power) :
    Inv (s.addPwrReq e).leaveSuccessHdlr.power ∧ Settles s.power (s.addPwrReq e).leaveSuccessHdlr.power := by
  have hpower := addPwrReq_power (s := s) e
  rw [← hpower]; exact leaveSuccessHdlr_inv (hpower ▸ h)

theorem psAddPwrReqCmn_kept (m : Msg) : Kept s w none (s.psAddPwrReqCmn m w).1 := by
  refine kept_none fun h => ?_
  unfold psAddPwrReqCmn
  split
  · exact ⟨h, .refl _⟩
  · split
    · exact leaveAnd_inv _ (fun t ht => addPwrReq_leaveSuccess m.evt ht) h
    · exact ⟨h, .refl _⟩

theorem extMsgPreHdlr_kept (e : Evt) : Kept s w none (s.extMsgPreHdlr w e).1 := by
  refine kept_none fun h => ?_
  unfold extMsgPreHdlr
  split
  · exact ⟨h, .refl _⟩
  · exact leaveAnd_inv _ (fun t ht => addPwrReq_leaveSuccess e ht) h

theorem linuxCmdWkardHdlr_kept : Kept s w none (s.linuxCmdWkardHdlr w).1 := by
  refine kept_none fun h => ?_
  unfold linuxCmdWkardHdlr
  split
  · exact ⟨h, .refl _⟩
  · exact leaveAnd_inv _ (fun t ht => leaveSuccessHdlr_inv ht) h

theorem txPwrReqMsgHdlr_kept (m : Msg) : Kept s w none (s.txPwrReqMsgHdlr m w).1 := by
  refine kept_none fun h => ?_
  unfold txPwrReqMsgHdlr
  split
  · exact ⟨h, .refl _⟩
  · split
    · refine leaveWith_inv (w := w) false leaveSuccessHdlr (fun t ht => leaveSuccessHdlr_inv ht) ?_ h
      rcases s.leavePs w false with ⟨t, ok⟩
      cases ok <;> rfl
    · exact ⟨h, .refl _⟩

theorem psLeaveDeferRson_kept (m : Msg) : Kept s w none (s.psLeaveDeferRson m w).1 := by
  refine kept_none fun h => ?_
  unfold psLeaveDeferRson
  split
  · exact ⟨h, .refl _⟩
  · split
    · refine leaveWith_inv (w := w) true leaveSuccessHdlr (fun t ht => leaveSuccessHdlr_inv ht) ?_ h
      rcases s.leavePs w true with ⟨t, ok⟩
      cases ok <;> rfl
    · exact ⟨h, .refl _⟩

theorem lpsJudgeLeave_power : (s.lpsJudgeLeave w).1.power = s.power := by
  unfold lpsJudgeLeave
  cases s.macid.bind w.rssi with
  | none => rfl
  | some rssi =>
    dsimp only
    split
    · rfl
    · unfold chkRssiDiffReachThld
      split
      · rfl
      · split
        · rfl
        · rfl

theorem psWatchdogPreHdlr_kept : Kept s w none (s.psWatchdogPreHdlr w).1 := by
  refine kept_none fun h => ?_
  have hjudge := lpsJudgeLeave_power (s := { s with wdgLeavePs := false }) (w := w)
  unfold psWatchdogPreHdlr
  dsimp only
  generalize ({ s with wdgLeavePs := false } : CmdPs).lpsJudgeLeave w = r at hjudge ⊢
  obtain ⟨t, changed⟩ := r
  have ht : t.power = s.power := hjudge
  split
  · exact ⟨h, .refl _⟩
  split
  · exact ⟨h, .refl _⟩
  split
  · exact ⟨h, .refl _⟩
  dsimp only
  have hu : (if changed = true then t else { t with wdgLeave := false }).power = s.power := by
    split
    · exact ht
    · exact ht
  generalize (if changed = true then t else { t with wdgLeave := false }) = u at hu ⊢
  have hinv : Inv u.power := hu ▸ h
  rw [← hu]
  split
  · refine leaveWith_inv (w := w) true (fun t => { t with wdgLeavePs := true }.leaveSuccessHdlr)
      (fun t ht => leaveSuccessHdlr_inv (s := { t with wdgLeavePs := true }) ht) ?_ hinv
    rcases u.leavePs w true with ⟨t, ok⟩
    cases ok <;> rfl
  · exact ⟨hinv, .refl _⟩

/-! ### Handlers that enter -/

theorem lpsPermitted_not_entered {macid : ℕ} (h : s.lpsPermitted w = some macid) : s.psState ≠ .entered := by
  unfold lpsPermitted at h
  split at h
  · cases h
  · have hjudge := (Option.filter_eq_some_iff.mp h).2
    unfold lpsJudgeEnter at hjudge
    split at hjudge
    · cases hjudge
    · exact of_decide_eq_true (Bool.and_eq_true_iff.mp hjudge).1

theorem chkLpsEnter_core (h : Inv s.power) :
    Core (s.chkLpsEnter w).1.power ∧ Settles s.power (s.chkLpsEnter w).1.power ∧
      ((s.chkLpsEnter w).2 = none → Inv (s.chkLpsEnter w).1.power) ∧
      ∀ macid, (s.chkLpsEnter w).2 = some macid → (s.chkLpsEnter w).1.psState ≠ .entered := by
  unfold chkLpsEnter
  cases hp : s.lpsPermitted w with
  | none => exact ⟨h.toCore, .refl _, fun _ => h, fun _ => nofun⟩
  | some macid =>
    have hne := lpsPermitted_not_entered hp
    dsimp only
    split
    · have hlog : ∀ ok, Core (s.log (.swTx true ok)).power := fun ok => h.toCore.log rfl fun _ _ _ => nofun
      unfold stopDatapathTx
      dsimp only
      cases w.pauseOk with
      | true =>
        exact ⟨⟨(hlog true).level, (hlog true).proto, (hlog true).leaved, (hlog true).ongoing, (hlog true).kept⟩,
          ⟨fun hl => ⟨hl, rfl⟩, id⟩, nofun, fun _ _ => hne⟩
      | false =>
        exact ⟨hlog false, ⟨fun hl => ⟨hl, rfl⟩, id⟩, fun _ => ⟨hlog false, h.paused⟩, fun _ => nofun⟩
    · exact ⟨h.toCore, .refl _, nofun, fun _ _ => hne⟩

theorem kept_tryLps {e : Option Entry}
    (hyes : ∀ macid, (s.chkLpsEnter w).2 = some macid → s'.power = ((s.chkLpsEnter w).1.enterPs w .lps (some macid)).power)
    (hno : (s.chkLpsEnter w).2 = none → (Inv s.power → Inv (s.chkLpsEnter w).1.power ∧ Settles s.power (s.chkLpsEnter w).1.power) →
      Kept s w e s') : Kept s w ((s.lpsEntry w).or e) s' := by
  unfold lpsEntry
  cases hlps : (s.chkLpsEnter w).2 with
  | none => exact hno hlps fun h => ⟨(chkLpsEnter_core h).2.2.1 hlps, (chkLpsEnter_core h).2.1⟩
  | some macid =>
    refine kept_entry nofun (fun h => ?_) (hyes macid hlps)
    obtain ⟨hcore, hsettles, -, hne⟩ := chkLpsEnter_core (w := w) h
    refine ⟨hcore, hsettles, fun _ => ?_⟩
    cases hst : (s.chkLpsEnter w).1.psState with
    | leaved => exact Or.inr ⟨rfl, rfl⟩
    | proto => exact Or.inl (hcore.proto hst)
    | entered => exact absurd hst (hne macid hlps)

theorem psWatchdogPostHdlr_kept :
    Kept s w ((s.lpsEntry w).or ((s.chkLpsEnter w).1.ipsEntry w)) (s.psWatchdogPostHdlr w).1 := by
  refine kept_tryLps (fun macid hlps => ?_) fun hlps hinv => ?_
  · unfold psWatchdogPostHdlr
    generalize s.chkLpsEnter w = r at hlps ⊢
    obtain ⟨t, x⟩ := r
    have hx : x = some macid := hlps
    rw [hx]
  · have hpost : (s.psWatchdogPostHdlr w).1 = (s.chkLpsEnter w).1.tryIps w := by
      unfold psWatchdogPostHdlr
      generalize s.chkLpsEnter w = r at hlps ⊢
      obtain ⟨t, x⟩ := r
      have hx : x = none := hlps
      rw [hx]
    rw [hpost]; exact kept_tryIps hinv

theorem psPeriodChkHdlr_kept (m : Msg) : Kept s w
      (if m.pre then none else if s.psState ≠ .entered then { s with wdgLeavePs := false }.lpsEntry w else none)
      (s.psPeriodChkHdlr m w).1 := by
  unfold psPeriodChkHdlr
  by_cases hpre : m.pre = true
  · rw [if_pos hpre, if_pos hpre]; exact kept_same rfl
  · rw [if_neg hpre, if_neg hpre]
    dsimp only
    by_cases hst : s.psState ≠ .entered
    · rw [if_pos hst, if_pos hst]
      have hor : ({ s with wdgLeavePs := false } : CmdPs).lpsEntry w =
          (({ s with wdgLeavePs := false } : CmdPs).lpsEntry w).or none := Option.or_none.symm
      rw [hor]
      show Kept { s with wdgLeavePs := false } w _ _
      refine kept_tryLps ?_ ?_
      · intro macid hlps
        generalize ({ s with wdgLeavePs := false } : CmdPs).chkLpsEnter w = r at hlps ⊢
        obtain ⟨t, x⟩ := r
        have hx : x = some macid := hlps
        rw [hx]
      · intro hlps hinv
        refine kept_none ?_
        generalize ({ s with wdgLeavePs := false } : CmdPs).chkLpsEnter w = r at hlps hinv ⊢
        obtain ⟨t, x⟩ := r
        have hx : x = none := hlps
        rw [hx]; exact hinv
    · rw [if_neg hst, if_neg hst]; exact kept_same rfl

theorem psCapChgMsgHdlr_kept (m : Msg) :
    Kept s w (if m.pre then none else if s.rtStopRson = 0 then s.ipsEntry w else none) (s.psCapChgMsgHdlr m w).1 := by
  unfold psCapChgMsgHdlr
  by_cases hpre : m.pre = true
  · rw [if_pos hpre, if_pos hpre]
    dsimp only
    generalize (if m.psAllow = true then s.rtStopRson &&& ~~~m.rtRson else s.rtStopRson ||| m.rtRson) = rson
    split
    · exact kept_same rfl
    split
    · exact kept_same rfl
    split
    · exact kept_none fun h => leaveAnd_inv (s := { s with rtStopRson := rson }) _ (fun t ht => leaveSuccessHdlr_inv ht) h
    · exact kept_same rfl
  · rw [if_neg hpre, if_neg hpre]
    by_cases hrson : s.rtStopRson = 0
    · rw [if_pos hrson, if_pos hrson]; exact kept_tryIps fun h => ⟨h, .refl _⟩
    · rw [if_neg hrson, if_neg hrson]; exact kept_same rfl

theorem psCancelPwrReqCmn_kept (m : Msg) :
    Kept s w (if m.pre then none else (s.cancelPwrReq m.evt).ipsEntry w) (s.psCancelPwrReqCmn m w).1 := by
  unfold psCancelPwrReqCmn
  by_cases hpre : m.pre = true
  · rw [if_pos hpre, if_pos hpre]; exact kept_same rfl
  · rw [if_neg hpre, if_neg hpre]; exact kept_cancel m.evt

theorem rfOffHdlr_kept : Kept s w
      (if (s.leavePs w true).2 then some ⟨{ (s.leavePs w true).1.leaveSuccessHdlr with rejPwrReq := true }, .ips, none⟩ else none)
      (s.rfOffHdlr w).1 := by
  cases hok : (s.leavePs w true).2 with
  | true =>
    rw [if_pos rfl]
    refine kept_entry nofun (fun h => ?_) ?_
    · obtain ⟨hcore, hsettles, -⟩ := leavePs_core (w := w) h.toCore true
      obtain ⟨hinv, hset⟩ := leaveSuccessHdlr_inv hcore
      exact ⟨hinv.toCore, hsettles.trans hset, fun hs => Or.inl (hinv.paused hs)⟩
    · unfold rfOffHdlr
      generalize s.leavePs w true = r at hok ⊢
      obtain ⟨t, ok⟩ := r
      have hok : ok = true := hok
      rw [hok]
  | false =>
    rw [if_neg Bool.false_ne_true]
    refine kept_none fun h => ?_
    have hfail : (s.rfOffHdlr w).1 = ((s.leavePs w true).1.leaveFailHdlr w).1 := by
      unfold rfOffHdlr
      generalize s.leavePs w true = r at hok ⊢
      obtain ⟨t, ok⟩ := r
      have hok : ok = false := hok
      rw [hok]
    obtain ⟨hinv, hset⟩ := leavePs_failed_inv h hok
    obtain ⟨hinv', hset'⟩ := leaveFailHdlr_inv (w := w) hinv
    rw [hfail]; exact ⟨hinv', hset.trans hset'⟩

theorem dbgEnter_kept (mode : PsMode) (hmode : mode ≠ .none) :
    Kept s w ((s.chkWroleWithPsMode w mode).map fun macid => ⟨s, mode, some macid⟩) (s.dbgEnter w mode) := by
  unfold dbgEnter
  cases s.chkWroleWithPsMode w mode with
  | none => exact kept_same rfl
  | some macid => exact kept_entry hmode (fun h => ⟨h.toCore, .refl _, fun hs => Or.inl (h.paused hs)⟩) rfl

theorem forcedLeave_kept (hleave : s.stopDatapath = false ∨ w.leaveOk = false) :
    Kept s w none { (s.leavePs w true).1 with rejPwrReq := false } := by
  refine kept_none fun h => ?_
  obtain ⟨hcore, hsettles, hstop⟩ := leavePs_core (w := w) h.toCore true
  refine ⟨⟨hcore, fun hs => ?_⟩, hsettles⟩
  have hs : (s.leavePs w true).1.stopDatapath = true := hs
  rw [hstop] at hs
  have hok : w.leaveOk = false := hleave.resolve_left fun hfree => Bool.false_ne_true (hfree.symm.trans hs)
  exact (leavePs_refused hok).trans (h.paused hs)

theorem psDbgCmdHdlr_kept (m : Msg)
    (hleave : m.dbg = .forceLpsLeave ∨ m.dbg = .forceIpsLeave → m.pre = true → s.stopDatapath = false ∨ w.leaveOk = false) :
    Kept s w (s.dbgEntry m w) (s.psDbgCmdHdlr m w).1 := by
  have hset : ∀ cap, Kept s w none ({ s with cap := cap }.leaveAnd w leaveSuccessHdlr).1 := fun cap =>
    kept_none fun h => leaveAnd_inv (s := { s with cap := cap }) _ (fun t ht => leaveSuccessHdlr_inv ht) h
  unfold dbgEntry psDbgCmdHdlr
  cases hdbg : m.dbg with
  | other => exact kept_same rfl
  | forceLpsEnter =>
    dsimp only
    by_cases hpre : m.pre = true
    · rw [if_pos hpre, if_pos hpre]; exact kept_same rfl
    · rw [if_neg hpre, if_neg hpre]; exact dbgEnter_kept .lps nofun
  | forceIpsEnter =>
    dsimp only
    by_cases hpre : m.pre = true
    · rw [if_pos hpre, if_pos hpre]; exact kept_same rfl
    · rw [if_neg hpre, if_neg hpre]; exact dbgEnter_kept .ips nofun
  | forceLpsLeave =>
    dsimp only
    by_cases hpre : m.pre = true
    · rw [if_pos hpre]; exact forcedLeave_kept (hleave (Or.inl hdbg) hpre)
    · rw [if_neg hpre]; exact kept_same rfl
  | forceIpsLeave =>
    dsimp only
    by_cases hpre : m.pre = true
    · rw [if_pos hpre]; exact forcedLeave_kept (hleave (Or.inr hdbg) hpre)
    · rw [if_neg hpre]; exact kept_same rfl
  | setLpsMode val =>
    dsimp only
    by_cases hval : m.pre = true ∧ s.cap.lpsEn ≠ val
    · rw [if_pos hval]
      split
      · exact hset _
      · exact kept_same rfl
    · rw [if_neg hval]; exact kept_same rfl
  | setLpsCap val =>
    dsimp only
    by_cases hval : m.pre = true ∧ s.cap.lpsCap ≠ val
    · rw [if_pos hval]
      split
      · exact hset _
      · exact kept_same rfl
    · rw [if_neg hval]; exact kept_same rfl
  | setIpsMode val =>
    dsimp only
    by_cases hval : m.pre = true ∧ s.cap.ipsEn ≠ val
    · rw [if_pos hval]
      -- IPS is left without the handler; TX is not paused in IPS
      have hleft : Inv s.power → ∀ t, t = (if s.psMode = .ips then
          (({ s with cap := { s.cap with ipsEn := val } } : CmdPs).leavePs w true).1 else { s with cap := { s.cap with ipsEn := val } }) →
          Inv t.power ∧ Settles s.power t.power := by
        rintro h t rfl
        split
        · rename_i hips
          obtain ⟨hcore, hsettles, hstop⟩ :=
            leavePs_core (s := { s with cap := { s.cap with ipsEn := val } }) (w := w) h.toCore true
          refine ⟨⟨hcore, fun hs => ?_⟩, hsettles⟩
          have hs : s.stopDatapath = true := hstop.symm.trans hs
          exact nomatch hips.symm.trans (h.paused hs)
        · exact ⟨h, .refl _⟩
      dsimp only
      generalize (if s.psMode = .ips then
          (({ s with cap := { s.cap with ipsEn := val } } : CmdPs).leavePs w true).1 else { s with cap := { s.cap with ipsEn := val } })
        = t at hleft ⊢
      by_cases hen : val ≠ .disabled
      · rw [if_pos hen, if_pos ⟨hval.1, hval.2, hen⟩]; exact kept_tryIps fun h => hleft h t rfl
      · rw [if_neg hen, if_neg fun hand => hen hand.2.2]; exact kept_none fun h => hleft h t rfl
    · rw [if_neg hval, if_neg fun hand => hval ⟨hand.1, hand.2.1⟩]; exact kept_same rfl

/-! ### A message -/

theorem psPktEvtHdlr_kept (m : Msg) (hevt : m.evt = .pktEvtNtfy) :
    Kept s w (if m.pkt = some .eapolEnd ∧ m.pre = false then (s.cancelPwrReq .pktEvtNtfy).ipsEntry w else none)
      (s.psPktEvtHdlr m w).1 := by
  unfold psPktEvtHdlr
  cases hpkt : m.pkt with
  | none =>
    rw [if_neg fun hand => nomatch hand.1]; exact kept_same rfl
  | some t =>
    cases t with
    | eapolEnd =>
      have hcancel := psCancelPwrReqCmn_kept (s := s) (w := w) m
      rw [hevt] at hcancel
      cases hpre : m.pre with
      | true =>
        rw [if_pos hpre] at hcancel
        rw [if_neg fun hand => nomatch hand.2]; exact hcancel
      | false =>
        rw [if_neg (by rw [hpre]; exact Bool.false_ne_true)] at hcancel
        rw [if_pos ⟨rfl, rfl⟩]; exact hcancel
    | eapolStart =>
      rw [if_neg fun hand => nomatch hand.1]; exact psAddPwrReqCmn_kept m
    | txPingReq =>
      rw [if_neg fun hand => nomatch hand.1]
      unfold psPingPktHdlr
      dsimp only
      split
      · exact psLeaveDeferRson_kept (s := { s with lastTxPingTime := w.now }) m
      · exact kept_same rfl
    | rxPingRsp =>
      rw [if_neg fun hand => nomatch hand.1]; exact kept_same rfl
    | other =>
      rw [if_neg fun hand => nomatch hand.1]; exact kept_same rfl

theorem generalMdlMsgHdlr_kept (m : Msg) : Kept s w (s.generalEntry m w) (s.generalMdlMsgHdlr m w).1 := by
  unfold generalEntry generalMdlMsgHdlr
  cases hevt : m.evt with
  | ext e =>
    dsimp only
    by_cases hpre : m.pre = true
    · rw [if_pos hpre, if_pos hpre]; exact extMsgPreHdlr_kept _
    · rw [if_neg hpre, if_neg hpre]; exact kept_cancel _
  | hwWatchdog =>
    dsimp only
    by_cases hpre : m.pre = true
    · rw [if_pos hpre, if_pos hpre]
      have hkept := psWatchdogPreHdlr_kept (s := s) (w := w)
      generalize s.psWatchdogPreHdlr w = r at hkept ⊢
      obtain ⟨t, ret⟩ := r
      cases ret <;> exact hkept
    · rw [if_neg hpre, if_neg hpre]; exact psWatchdogPostHdlr_kept
  | rfOff =>
    dsimp only
    by_cases hpre : m.pre = true
    · rw [if_pos hpre, if_pos hpre]; exact kept_same rfl
    · rw [if_neg hpre, if_neg hpre]; exact rfOffHdlr_kept
  | rfOn =>
    dsimp only
    split
    · exact kept_same rfl
    · exact kept_same rfl
  | linuxCmdWrk =>
    dsimp only
    split
    · exact linuxCmdWkardHdlr_kept
    · exact kept_same rfl
  | phyIdle =>
    have hcancel := psCancelPwrReqCmn_kept (s := s) (w := w) m
    rw [hevt] at hcancel; exact hcancel
  | phyOn => exact psAddPwrReqCmn_kept m
  | pktEvtNtfy => exact psPktEvtHdlr_kept m hevt
  | _ => exact kept_same rfl

theorem psMdlHdlInternalEvt_kept (m : Msg) (hleave : m.evt = .psDbgCmd → m.dbg = .forceLpsLeave ∨ m.dbg = .forceIpsLeave →
      m.pre = true → s.stopDatapath = false ∨ w.leaveOk = false) :
    Kept s w (s.internalEntry m w) (s.psMdlHdlInternalEvt m w).1 := by
  unfold internalEntry psMdlHdlInternalEvt
  cases hevt : m.evt with
  | phyIdle =>
    have hcancel := psCancelPwrReqCmn_kept (s := s) (w := w) m
    rw [hevt] at hcancel; exact hcancel
  | phyOn => exact psAddPwrReqCmn_kept m
  | psCapChg => exact psCapChgMsgHdlr_kept m
  | psPeriodChk => exact psPeriodChkHdlr_kept m
  | psDbgCmd => exact psDbgCmdHdlr_kept m (hleave hevt)
  | _ => exact kept_same rfl

theorem mrcMdlMsgHdlr_power (m : Msg) : (s.mrcMdlMsgHdlr m w).1.power = s.power := by
  unfold mrcMdlMsgHdlr
  split
  · split
    · rfl
    · rfl
  · rfl

theorem datapathMdlMsgHdlr_kept (m : Msg) : Kept s w none (s.datapathMdlMsgHdlr m w).1 := by
  unfold datapathMdlMsgHdlr
  split
  · exact txPwrReqMsgHdlr_kept m
  · exact kept_same rfl

theorem serMdlMsgHdlr_power (m : Msg) : (s.serMdlMsgHdlr m).1.power = s.power := by
  unfold serMdlMsgHdlr
  split
  · rfl
  · split
    · rfl
    · rfl

theorem psMdlPended_power (m : Msg) (ret : Ret) : (s.psMdlPended m ret).power = s.power := by
  unfold psMdlPended
  split
  · rfl
  · rfl

theorem psMdlMsgHdlr_kept (m : Msg) (hleave : LeaveOk s m w) : Kept s w (s.entry m w) (s.psMdlMsgHdlr m w).1 := by
  unfold entry psMdlMsgHdlr
  by_cases hpend : s.inRecovery = true ∧ m.mdl ≠ .ser
  · rw [if_pos (Or.inl hpend)]
    have hrecy : s.psRecyHdlr m = (s, .pending) := by
      unfold psRecyHdlr
      rw [if_pos hpend.1, if_pos hpend.2]
    rw [hrecy]; exact kept_same (psMdlPended_power m _)
  · obtain ⟨t, hrecy, hpower, hsame⟩ : ∃ t, s.psRecyHdlr m = (t, .ignore) ∧ t.power = s.power ∧ (m.mdl ≠ .ser → t = s) := by
      unfold psRecyHdlr
      cases hrec : s.inRecovery with
      | false => exact ⟨s, if_neg Bool.false_ne_true, rfl, fun _ => rfl⟩
      | true =>
        have hser : m.mdl = .ser := by
          by_contra hne
          exact hpend ⟨hrec, hne⟩
        rw [if_pos rfl, if_neg (not_not_intro hser)]
        split
        · exact ⟨_, rfl, rfl, fun hne => absurd hser hne⟩
        · exact ⟨_, rfl, rfl, fun hne => absurd hser hne⟩
    rw [hrecy]
    dsimp only
    by_cases hfail : m.fail = true
    · rw [if_pos hfail, if_pos (Or.inr hfail)]; exact kept_same hpower
    · rw [if_neg hfail, if_neg (not_or.mpr ⟨hpend, hfail⟩)]
      have hpended : ∀ {e u}, Kept s w e u → ∀ ret, Kept s w e (u.psMdlPended m ret) := by
        intro e u hu ret hs hok
        rw [psMdlPended_power]; exact hu hs hok
      refine hpended ?_ _
      unfold psMdlHdlEvt
      cases hmdl : m.mdl with
      | powerMgnt =>
        rw [hsame (by rw [hmdl]; exact nofun)]
        exact psMdlHdlInternalEvt_kept m (hleave hmdl)
      | general =>
        rw [hsame (by rw [hmdl]; exact nofun)]
        unfold psMdlHdlExternalEvt
        rw [hmdl]; exact generalMdlMsgHdlr_kept m
      | ser =>
        unfold psMdlHdlExternalEvt
        rw [hmdl]; exact kept_same ((serMdlMsgHdlr_power m).trans hpower)
      | mrc =>
        unfold psMdlHdlExternalEvt
        rw [hmdl]; exact kept_same ((mrcMdlMsgHdlr_power m).trans hpower)
      | tx =>
        rw [hsame (by rw [hmdl]; exact nofun)]
        unfold psMdlHdlExternalEvt
        rw [hmdl]; exact datapathMdlMsgHdlr_kept m
      | rx =>
        rw [hsame (by rw [hmdl]; exact nofun)]
        unfold psMdlHdlExternalEvt
        rw [hmdl]; exact datapathMdlMsgHdlr_kept m
      | btc =>
        unfold psMdlHdlExternalEvt
        rw [hmdl]; exact kept_same hpower
      | led =>
        unfold psMdlHdlExternalEvt
        rw [hmdl]; exact kept_same hpower
      | other id =>
        unfold psMdlHdlExternalEvt
        rw [hmdl]; exact kept_same hpower

end CmdPs

/-! ### Runs -/

variable {cap : PsCap} {now : ℕ} {acts pre : List Act}

/-- Power saving was entered: at the start, or by a message. -/
def WasEntered (cap : PsCap) (now : ℕ) (acts : List Act) : Prop :=
  cap.initRfOff = true ∨
    ∃ pre a, pre ++ [a] <+: acts ∧ Enters a.2 ((pre.foldl step (psMdlStart cap now)).entry a.1 a.2)

theorem psMdlStart_inv (cap : PsCap) (now : ℕ) :
    Inv (psMdlStart cap now).power ∧ (cap.initRfOff = true → Clean (psMdlStart cap now).power) ∧
      (cap.initRfOff = false → (psMdlStart cap now).psState = .leaved ∧ (psMdlStart cap now).macid = some 0) := by
  have hkept : SessionsKept [] := fun pre _ _ _ hpre =>
    absurd (List.prefix_nil.mp hpre) (List.append_ne_nil_of_right_ne_nil _ (List.cons_ne_nil _ _))
  unfold psMdlStart
  cases cap.initRfOff with
  | true => exact ⟨⟨⟨⟨nofun, fun hor => hor.elim nofun nofun⟩, nofun, ⟨nofun, nofun⟩, rfl, hkept⟩, nofun⟩, fun _ => nofun, nofun⟩
  | false =>
    exact ⟨⟨⟨⟨fun _ => Or.inl rfl, fun _ => rfl⟩, nofun, ⟨fun _ => rfl, fun _ => rfl⟩, rfl, hkept⟩, nofun⟩, nofun,
      fun _ => ⟨rfl, rfl⟩⟩

/-- **Runs.**  When all messages are as `ActOk` says, all is right in a state exactly when power saving was entered before. -/
theorem ps_states_right_iff (h : Lib.Legal step ActOk (psMdlStart cap now) acts) (hpre : pre <+: acts) :
    (pre.foldl step (psMdlStart cap now)).Right ↔ WasEntered cap now pre := by
  obtain ⟨hstart, hclean, hfresh⟩ := psMdlStart_inv cap now
  have hrun : ∀ pre, pre <+: acts → Inv (pre.foldl step (psMdlStart cap now)).power ∧
      (WasEntered cap now pre → Clean (pre.foldl step (psMdlStart cap now)).power) ∧
      (¬WasEntered cap now pre → (pre.foldl step (psMdlStart cap now)).psState = .leaved ∧
        (pre.foldl step (psMdlStart cap now)).macid = some 0) := by
    intro pre
    induction pre using List.reverseRecOn with
    | nil =>
      refine fun _ => ⟨hstart, ?_, fun hno => hfresh (Bool.eq_false_iff.mpr fun hrf => hno (Or.inl hrf))⟩
      rintro (hrf | ⟨pre, a, hpre, -⟩)
      · exact hclean hrf
      · exact absurd (List.prefix_nil.mp hpre) (List.append_ne_nil_of_right_ne_nil _ (List.cons_ne_nil _ _))
    | append_singleton pre a ih =>
      intro hpre
      obtain ⟨hinv, hyes, hno⟩ := ih ((List.prefix_append pre [a]).trans hpre)
      obtain ⟨hentry, hleave⟩ := h.last hpre
      obtain ⟨hinv', hin, hout⟩ := CmdPs.psMdlMsgHdlr_kept a.1 hleave hinv hentry
      rw [List.foldl_append]
      have hlater : WasEntered cap now (pre ++ [a]) →
          ¬Enters a.2 ((pre.foldl step (psMdlStart cap now)).entry a.1 a.2) → WasEntered cap now pre := by
        rintro (hrf | ⟨pre', a', hpre', hent⟩) hnot
        · exact Or.inl hrf
        · rcases snoc_prefix_snoc hpre' with ⟨rfl, rfl⟩ | hpre'
          · exact absurd hent hnot
          · exact Or.inr ⟨pre', a', hpre', hent⟩
      refine ⟨hinv', fun hwas => ?_, fun hnot => ?_⟩
      · by_cases hent : Enters a.2 ((pre.foldl step (psMdlStart cap now)).entry a.1 a.2)
        · exact hin hent
        · exact (hout hent).clean (hyes (hlater hwas hent))
      · have hent : ¬Enters a.2 ((pre.foldl step (psMdlStart cap now)).entry a.1 a.2) := fun hent =>
          hnot (Or.inr ⟨pre, a, List.prefix_rfl, hent⟩)
        have hwas : ¬WasEntered cap now pre := by
          rintro (hrf | ⟨pre', a', hpre', hent'⟩)
          · exact hnot (Or.inl hrf)
          · exact hnot (Or.inr ⟨pre', a', hpre'.trans (List.prefix_append pre [a]), hent'⟩)
        obtain ⟨hl, hm⟩ := hno hwas
        obtain ⟨hl', hm'⟩ := (hout hent).stays hl
        exact ⟨hl', hm'.trans hm⟩
  obtain ⟨hinv, hyes, hno⟩ := hrun pre hpre
  rw [hinv.right_iff]
  refine ⟨fun hc => ?_, hyes⟩
  by_contra hwas
  obtain ⟨hl, hm⟩ := hno hwas
  exact nomatch (hc hl).symm.trans hm

/-! ### A linked station -/

/-- LPS with the power gated and TX paused before. -/
def lpsOnly : PsCap where
  initRfOff := false
  initRtStopRson := 0
  leaveFailAct := 0
  ipsEn := .disabled
  ipsCap := 0
  lpsEn := .auto
  lpsCap := 8
  lpsRssiEnterThreshold := 40
  lpsRssiLeaveThreshold := 35
  lpsRssiDiffThreshold := 5
  deferRson := 0
  lpsPingDeferTime := 0
  lpsDhcpDeferTime := 0
  lpsPauseTx := true

/-- A linked station with the macid 3 and no traffic. -/
def idleLink (enterOk : Bool) : World where
  resuming := false
  fgEmpty := true
  roles := [⟨true, .station, .linked, some 3⟩]
  rssi := fun macid => if macid = 3 then some 60 else none
  txIdle := true
  rxIdle := true
  minRssiBcn := 60
  bcnOffsetChanged := false
  now := 0
  datapathActive := true
  enterOk := enterOk
  leaveOk := true
  pauseOk := true
  serL1 := false

def bareMsg (mdl : Mdl) (evt : Evt) (pre : Bool) : Msg where
  mdl := mdl
  evt := evt
  pre := pre
  fail := false
  pkt := none
  psAllow := false
  rtRson := 0
  dbg := .other
  roleCmd := false
  serState := 0

/-- The watchdog enters LPS, TX asks for power, the watchdog enters again, and the start of a role leaves. -/
theorem lps_of_idle_link :
    (([(bareMsg .general .hwWatchdog false, idleLink true), (bareMsg .tx .trxPwrReq true, idleLink true),
      (bareMsg .general .hwWatchdog false, idleLink true), (bareMsg .general (.ext .roleStart) true, idleLink true)] :
        List Act).foldl step (psMdlStart lpsOnly 0)).Right := by
  have hlegal : Lib.Legal step ActOk (psMdlStart lpsOnly 0)
      [(bareMsg .general .hwWatchdog false, idleLink true), (bareMsg .tx .trxPwrReq true, idleLink true),
        (bareMsg .general .hwWatchdog false, idleLink true), (bareMsg .general (.ext .roleStart) true, idleLink true)] := by
    refine ⟨⟨fun x hx => ?_, nofun⟩, ⟨fun x hx => ?_, nofun⟩, ⟨fun x hx => ?_, nofun⟩, ⟨fun x hx => ?_, nofun⟩, trivial⟩
    · cases hx; exact ⟨nofun, nofun, fun _ _ => rfl⟩
    · cases hx
    · cases hx; exact ⟨nofun, fun _ _ => ⟨rfl, rfl⟩, nofun⟩
    · cases hx
  exact (ps_states_right_iff hlegal List.prefix_rfl).mpr (Or.inr ⟨[], _, List.prefix_append [_] _, _, rfl, nofun, rfl⟩)

/-- TX stays paused when LPS cannot be entered. -/
theorem tx_stays_paused :
    ¬∀ (cap : PsCap) (now : ℕ) (acts : List Act), (acts.foldl step (psMdlStart cap now)).Right := fun h =>
  (h lpsOnly 0 [(bareMsg .general .hwWatchdog false, idleLink false)]).paused rfl rfl

end Rtl8852cu.Ps
