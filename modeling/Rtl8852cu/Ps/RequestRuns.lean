import Rtl8852cu.Ps.Requests
import Rtl8852cu.Ps.PowerRuns
import Mathlib.Data.List.Basic
import Mathlib.Data.List.Induction

/-!
# The account of the power requests

The queue of power requests against the messages and pairs of messages that have been granted power.

A message has a number, and the two messages of a pair have the same.
-/

namespace Rtl8852cu.Ps

/-! ### A tally -/

section Tally

variable {α β : Type} {f : α → β} {b : List β} {l : List α} {o : α} {r : β}

theorem tally_push (h : b.Perm (l.map f)) : (b ++ [f o]).Perm ((l ++ [o]).map f) := by
  rw [List.map_append]; exact h.append_right _

theorem tally_pop [DecidableEq α] (h : (b ++ [r]).Perm (l.map f)) (ho : o ∈ l) : b.Perm ((l.erase o).map f) ↔ r = f o := by
  have hcons : (r :: b).Perm (f o :: (l.erase o).map f) :=
    (List.perm_append_singleton r b).symm.trans (h.trans ((List.perm_cons_erase ho).map f))
  constructor
  · intro hb
    have hone : ([r] ++ (l.erase o).map f).Perm ([f o] ++ (l.erase o).map f) := (hb.cons r).symm.trans hcons
    exact List.singleton_perm_singleton.mp ((List.perm_append_right_iff _).mp hone)
  · rintro rfl; exact (List.perm_cons _).mp hcons

end Tally

/-! ### Runs -/

/-- A message that has been granted power, or a pair of messages. -/
structure Owner where
  id : ℕ
  evt : Evt
  deriving DecidableEq

def Evt.opening : Evt → Evt
  | .phyIdle => .phyOn
  | e => e

/-- What reaches the module: a message in what the module meets, and the two orders of `_ps_mdl_set_info`. -/
inductive ReqAct
  | msg (id : ℕ) (m : Msg) (w : World)
  | cancel (id : ℕ) (evt : Evt)
  | btc (req : Bool)

def ReqAct.owner : ReqAct → Option Owner
  | .msg id m _ => some ⟨id, m.evt.opening⟩
  | .cancel id evt => some ⟨id, evt.opening⟩
  | .btc _ => none

/-- The debug commands and RF off are left out. -/
def ReqAct.Included : ReqAct → Prop
  | .msg _ m _ => m.Included
  | _ => True

/-- Who has been granted power after a message.  A message that fails is finished when its module hears of it, and for those
of the general module that is the order to cancel. -/
def msgLedger (s : CmdPs) (l : List Owner) (o : Owner) (m : Msg) (w : World) : List Owner :=
  if m.fail then (if m.mdl = .powerMgnt then l.erase o else l)
  else if (s.psMdlMsgHdlr m w).2 = .success then
    if m.pre then (if m.asksPower then l ++ [o] else l)
    else if m.endsPower then l.erase o else l
  else l

/-- One action, with the list of those that have been granted power and are not finished. -/
def reqStep (x : CmdPs × List Owner) : ReqAct → CmdPs × List Owner
  | .msg id m w => ((x.1.psMdlMsgHdlr m w).1, msgLedger x.1 x.2 ⟨id, m.evt.opening⟩ m w)
  | .cancel id evt => (x.1.psMdlSetInfoCancel evt, x.2.erase ⟨id, evt.opening⟩)
  | .btc req => (x.1.psMdlSetInfoBtc req, x.2)

/-- A run of the module from its start. -/
def reqRun (cap : PsCap) (now : ℕ) (acts : List ReqAct) : CmdPs × List Owner := acts.foldl reqStep (psMdlStart cap now, [])

/-- There is one busy request for each that has been granted power and is not finished, and no request is lost. -/
structure Accounted (x : CmdPs × List Owner) : Prop where
  busy : x.1.busy.Perm (x.2.map Owner.evt)
  sum : x.1.idle + x.1.busy.length = maxPweReqNum

/-- A request that is taken away is that of the one it is taken away for, and power saving is entered only with no request and
no AP, mesh or GC in a link. -/
structure StepRight (x : CmdPs × List Owner) (a : ReqAct) : Prop where
  own : ∀ r, x.1.busy = (reqStep x a).1.busy ++ [r] → ∃ o ∈ x.2, a.owner = some o ∧ r = o.evt
  free : EntersPs x.1 (reqStep x a).1 → (reqStep x a).1.busy = []
  roles : EntersPs x.1 (reqStep x a).1 → ∀ id m w, a = .msg id m w → NoneLinked w.roles

/-- The request of one that has been granted power is the last; where nothing has been granted there is none. -/
def OnTop (s : CmdPs) (l : List Owner) (o : Owner) : Prop := (o ∈ l → s.busy.getLast? = some o.evt) ∧ (o ∉ l → s.busy = [])

def Listens (s : CmdPs) (m : Msg) : Prop := m.fail = false ∧ s.inRecovery = false

/-- A message for which the account is kept. -/
structure MsgFits (s : CmdPs) (l : List Owner) (o : Owner) (m : Msg) (w : World) : Prop where
  room : Listens s m → m.pre = true → m.asksPower = true → s.grantable w = true → s.idle ≠ 0
  top : Listens s m → m.pre = false → m.endsPower = true → OnTop s l o
  failed : m.fail = true → m.mdl = .powerMgnt → o ∉ l
  lps : Listens s m → s.lpsChoice m w ≠ none → NoneLinked w.roles

/-- An action for which the account is kept. -/
def Fits (x : CmdPs × List Owner) : ReqAct → Prop
  | .msg id m w => MsgFits x.1 x.2 ⟨id, m.evt.opening⟩ m w
  | .cancel id evt => (x.1.rejPwrReq = false → OnTop x.1 x.2 ⟨id, evt.opening⟩) ∧ (x.1.rejPwrReq = true → ⟨id, evt.opening⟩ ∉ x.2)
  | .btc _ => True

/-! ### The account -/

section Account

variable {s s' t : CmdPs} {l : List Owner} {o : Owner} {m : Msg} {w : World} {P : Prop}

theorem Accounted.length (h : Accounted (s, l)) : s.busy.length = l.length := by
  rw [h.busy.length_eq, List.length_map]

theorem accounted_calm (hx : Accounted (s, l)) (h : Calm P s s') : Accounted (s', l) := by
  refine ⟨?_, ?_⟩
  · show s'.busy.Perm _
    rw [h.busy]; exact hx.busy
  · show s'.idle + s'.busy.length = _
    rw [h.busy, h.idle]; exact hx.sum

theorem accounted_erase (hx : Accounted (s, l)) (h : Calm P s s') : Accounted (s', l.erase o) ↔ o ∉ l := by
  constructor
  · intro hx' ho
    have hlen := hx'.length
    have hpos := List.length_pos_of_mem ho
    have hlen' := hx.length
    rw [h.busy, List.length_erase_of_mem ho] at hlen; omega
  · intro ho
    rw [List.erase_of_not_mem ho]; exact accounted_calm hx h

theorem cancelPwrReq_nil {e : Evt} (h : s.busy = []) : s.cancelPwrReq e = s := by
  unfold CmdPs.cancelPwrReq
  rw [h]

theorem cancelPwrReq_concat {e r : Evt} {b : List Evt} (h : s.busy = b ++ [r]) :
    (s.cancelPwrReq e).busy = b ∧ (s.cancelPwrReq e).idle = s.idle + 1 := by
  unfold CmdPs.cancelPwrReq
  split
  · rename_i hnil
    exact absurd (h.symm.trans hnil) (List.append_ne_nil_of_right_ne_nil _ (List.cons_ne_nil _ _))
  · refine ⟨?_, rfl⟩
    show s.busy.dropLast = b
    rw [h, List.dropLast_concat]

theorem cancelPwrReq_calls (s : CmdPs) (e : Evt) : (s.cancelPwrReq e).calls = s.calls := by
  unfold CmdPs.cancelPwrReq
  split
  · rfl
  · rfl

theorem accounted_cancel {e : Evt} (hx : Accounted (s, l)) (h : Calm P (s.cancelPwrReq e) s') :
    (Accounted (s', l.erase o) ∧ ∀ r, s.busy = s'.busy ++ [r] → ∃ o' ∈ l, some o = some o' ∧ r = o'.evt) ↔ OnTop s l o := by
  have hlen := hx.length
  rcases List.eq_nil_or_concat' s.busy with hnil | ⟨b, r, hb⟩
  · have hl : l = [] := by
      rw [hnil] at hlen; exact List.length_eq_zero_iff.mp hlen.symm
    have hbusy : s'.busy = [] := by rw [h.busy, cancelPwrReq_nil hnil, hnil]
    have hkeep := h
    rw [cancelPwrReq_nil hnil] at hkeep
    refine ⟨fun _ => ⟨fun ho => absurd ho (hl ▸ List.not_mem_nil), fun _ => hnil⟩, fun _ => ⟨?_, fun r hr => ?_⟩⟩
    · exact (accounted_erase hx hkeep).mpr (hl ▸ List.not_mem_nil)
    · rw [hnil, hbusy] at hr; cases hr
  · obtain ⟨hbusy, hidle⟩ := cancelPwrReq_concat (e := e) hb
    have hbusy' : s'.busy = b := h.busy.trans hbusy
    have hidle' : s'.idle = s.idle + 1 := h.idle.trans hidle
    have hlast : s.busy.getLast? = some r := by rw [hb, List.getLast?_concat]
    have hperm : (b ++ [r]).Perm (l.map Owner.evt) := hb ▸ hx.busy
    constructor
    · rintro ⟨hacc, -⟩
      refine ⟨fun ho => ?_, fun ho => ?_⟩
      · have hp : b.Perm ((l.erase o).map Owner.evt) := hbusy' ▸ hacc.busy
        rw [hlast, (tally_pop hperm ho).mp hp]
      · have hlen' := hacc.length
        rw [List.erase_of_not_mem ho, hbusy'] at hlen'
        rw [hb, List.length_append] at hlen
        change b.length + 1 = l.length at hlen
        omega
    · intro htop
      by_cases ho : o ∈ l
      · have hr : r = o.evt := Option.some.inj (hlast.symm.trans (htop.1 ho))
        refine ⟨⟨?_, ?_⟩, fun r' hr' => ⟨o, ho, rfl, ?_⟩⟩
        · show s'.busy.Perm _
          rw [hbusy']; exact (tally_pop hperm ho).mpr hr
        · have hsum := hx.sum
          show s'.idle + s'.busy.length = _
          rw [hbusy', hidle']
          rw [hb, List.length_append] at hsum
          change s.idle + (b.length + 1) = maxPweReqNum at hsum
          omega
        · rw [hb, hbusy'] at hr'
          rw [← hr]; exact (List.singleton_inj.mp (List.append_cancel_left hr')).symm
      · have hnil := htop.2 ho
        rw [hb] at hnil
        exact absurd hnil (List.append_ne_nil_of_right_ne_nil _ (List.cons_ne_nil _ _))

theorem accounted_add (hx : Accounted (s, l)) (hcalm : Calm P s t) (h : Calm P (t.addPwrReq o.evt) s') :
    Accounted (s', l ++ [o]) ↔ s.idle ≠ 0 := by
  have hlen := hx.length
  have hsum := hx.sum
  change s.idle + s.busy.length = maxPweReqNum at hsum
  by_cases hidle : t.idle = 0
  · have hsame : t.addPwrReq o.evt = t := if_pos hidle
    rw [hsame] at h
    refine ⟨fun hacc => ?_, fun hne => absurd (hcalm.idle ▸ hidle) hne⟩
    have hlen' := hacc.length
    rw [h.busy, hcalm.busy, List.length_append] at hlen'
    change s.busy.length = l.length + 1 at hlen'
    omega
  · have hadd : t.addPwrReq o.evt = { t with idle := t.idle - 1, busy := t.busy ++ [o.evt] } := if_neg hidle
    rw [hadd] at h
    have hbusy : s'.busy = s.busy ++ [o.evt] := by rw [h.busy, ← hcalm.busy]
    have hidle' : s'.idle = s.idle - 1 := by rw [h.idle, ← hcalm.idle]
    rw [hcalm.idle] at hidle
    refine ⟨fun _ => hidle, fun _ => ⟨?_, ?_⟩⟩
    · show s'.busy.Perm _
      rw [hbusy]; exact tally_push hx.busy
    · show s'.idle + s'.busy.length = _
      rw [hbusy, hidle', List.length_append]
      change s.idle - 1 + (s.busy.length + 1) = maxPweReqNum
      omega

theorem own_of_busy (h : s'.busy = s.busy) {Q : Evt → Prop} : ∀ r, s.busy = s'.busy ++ [r] → Q r := by
  intro r hr
  rw [h] at hr
  have hlen := congrArg List.length hr
  rw [List.length_append] at hlen
  change _ = _ + 1 at hlen
  omega

end Account
/-! ### One message -/

section Messages

variable {s s' : CmdPs} {l : List Owner} {o : Owner} {id : ℕ} {m : Msg} {w : World}

theorem psMdlPended_calm (s : CmdPs) (m : Msg) (ret : Ret) : Calm False s (s.psMdlPended m ret) := by
  unfold CmdPs.psMdlPended
  split
  · exact .same rfl rfl rfl
  · exact .refl _ _

theorem neutral_of_mdl (hgen : m.mdl ≠ .general) (hpwr : m.mdl ≠ .powerMgnt) : m.asksPower = false ∧ m.endsPower = false := by
  constructor
  · unfold Msg.asksPower
    split
    · exact decide_eq_false hgen
    · rw [decide_eq_false hgen, decide_eq_false hpwr]; rfl
    · rw [decide_eq_false hgen]; rfl
    · rfl
  · unfold Msg.endsPower
    split
    · exact decide_eq_false hgen
    · rw [decide_eq_false hgen, decide_eq_false hpwr]; rfl
    · rw [decide_eq_false hgen]; rfl
    · rfl

theorem msg_listens (h : Listens s m) :
    s.psMdlMsgHdlr m w = ((s.psMdlHdlEvt m w).1.psMdlPended m (s.psMdlHdlEvt m w).2, (s.psMdlHdlEvt m w).2) := by
  have hrecy : s.psRecyHdlr m = (s, .ignore) := by
    unfold CmdPs.psRecyHdlr
    rw [if_neg (by rw [h.2]; decide)]
  unfold CmdPs.psMdlMsgHdlr
  rw [hrecy]
  dsimp only
  rw [if_neg (by rw [h.1]; decide)]

theorem psRecyHdlr_recovery (h : s.inRecovery = true) : (m.mdl ≠ .ser ∧ s.psRecyHdlr m = (s, .pending)) ∨
      (m.mdl = .ser ∧ ∃ t, Calm False s t ∧ s.psRecyHdlr m = (t, .ignore)) := by
  unfold CmdPs.psRecyHdlr
  rw [if_pos h]
  by_cases hmdl : m.mdl = .ser
  · refine .inr ⟨hmdl, _, ?_, if_neg (not_not.mpr hmdl)⟩
    split
    · exact .same rfl rfl rfl
    · exact .refl _ _
  · exact .inl ⟨hmdl, if_pos hmdl⟩

theorem msg_fail (h : m.fail = true) : Calm False s (s.psMdlMsgHdlr m w).1 := by
  unfold CmdPs.psMdlMsgHdlr
  cases hrec : s.inRecovery with
  | false =>
    have hrecy : s.psRecyHdlr m = (s, .ignore) := by
      unfold CmdPs.psRecyHdlr
      rw [if_neg (by rw [hrec]; decide)]
    rw [hrecy]
    dsimp only
    rw [if_pos h]; exact .refl _ _
  | true =>
    rcases psRecyHdlr_recovery hrec with ⟨-, hrecy⟩ | ⟨-, t, ht, hrecy⟩
    · rw [hrecy]; exact psMdlPended_calm s m _
    · rw [hrecy]
      dsimp only
      rw [if_pos h]; exact ht

theorem msgLedger_neutral (hf : m.fail = false) (hn : m.Neutral) : msgLedger s l o m w = l := by
  unfold msgLedger
  rw [if_neg (by rw [hf]; decide)]
  split
  · split
    · rename_i hpre
      rw [hn.1 hpre]; rfl
    · rename_i hpre
      rw [hn.2 (Bool.eq_false_iff.mpr hpre)]; rfl
  · rfl

theorem msg_recovery (hf : m.fail = false) (hrec : s.inRecovery = true) :
    Calm False s (s.psMdlMsgHdlr m w).1 ∧ msgLedger s l o m w = l := by
  rcases psRecyHdlr_recovery hrec with ⟨-, hrecy⟩ | ⟨hmdl, t, ht, hrecy⟩
  · unfold msgLedger CmdPs.psMdlMsgHdlr
    rw [if_neg (by rw [hf]; decide), hrecy]
    exact ⟨psMdlPended_calm s m _, if_neg nofun⟩
  · obtain ⟨hasks, hends⟩ := neutral_of_mdl (by rw [hmdl]; nofun) (by rw [hmdl]; nofun)
    have hevt : t.psMdlHdlEvt m w = t.serMdlMsgHdlr m := by
      unfold CmdPs.psMdlHdlEvt CmdPs.psMdlHdlExternalEvt
      rw [hmdl]
    refine ⟨?_, msgLedger_neutral hf ⟨fun _ => hasks, fun _ => hends⟩⟩
    unfold CmdPs.psMdlMsgHdlr
    rw [hrecy]
    dsimp only
    rw [if_neg (by rw [hf]; decide), hevt]
    exact (ht.trans (CmdPs.serMdlMsgHdlr_calm t m)).trans (psMdlPended_calm _ m _)

theorem stepRight_quiet (h : Calm False s (s.psMdlMsgHdlr m w).1) : StepRight (s, l) (.msg id m w) :=
  ⟨own_of_busy h.busy, fun he => (h.of_enters he).elim, fun he => (h.of_enters he).elim⟩

theorem msg_asks (hx : Accounted (s, l)) (hl : Listens s m) (hpre : m.pre = true) (hasks : m.asksPower = true) :
    (Accounted (reqStep (s, l) (.msg id m w)) ∧ StepRight (s, l) (.msg id m w)) ↔ (s.grantable w = true → s.idle ≠ 0) := by
  have hevt : m.evt.opening = m.evt := by
    unfold Msg.asksPower at hasks
    split at hasks
    · rename_i hevt
      rw [hevt]; rfl
    · rename_i hevt
      rw [hevt]; rfl
    · rename_i hevt
      rw [hevt]; rfl
    · cases hasks
  have hledger : msgLedger s l ⟨id, m.evt⟩ m w = if (s.askPower w m.evt).2 = .success then l ++ [⟨id, m.evt⟩] else l := by
    unfold msgLedger
    rw [if_neg (by rw [hl.1]; decide), msg_listens hl, CmdPs.psMdlHdlEvt_asks hpre hasks, if_pos hpre, if_pos hasks]
  have hstate : (s.psMdlMsgHdlr m w).1 = (s.askPower w m.evt).1.psMdlPended m (s.askPower w m.evt).2 := by
    rw [msg_listens hl, CmdPs.psMdlHdlEvt_asks hpre hasks]
  have hpend := psMdlPended_calm (s.askPower w m.evt).1 m (s.askPower w m.evt).2
  rw [← hstate] at hpend
  show (Accounted ((s.psMdlMsgHdlr m w).1, msgLedger s l ⟨id, m.evt.opening⟩ m w) ∧ _) ↔ _
  rw [hevt, hledger]
  cases hgrant : s.grantable w with
  | false =>
    obtain ⟨hret, hcalm⟩ := CmdPs.askPower_denied (e := m.evt) hgrant
    have hquiet := hcalm.trans hpend
    rw [if_neg hret]
    exact ⟨fun _ => nofun, fun _ => ⟨accounted_calm hx hquiet, stepRight_quiet hquiet⟩⟩
  | true =>
    obtain ⟨hret, t, ht, hadd⟩ := CmdPs.askPower_granted (e := m.evt) hgrant
    have hadd' := hadd.trans hpend
    rw [if_pos hret]
    have hacc := accounted_add (o := ⟨id, m.evt⟩) hx ht hadd'
    have hno : ¬EntersPs s (s.psMdlMsgHdlr m w).1 := by
      have hcalls : (t.addPwrReq m.evt).calls = t.calls := by
        unfold CmdPs.addPwrReq
        split
        · rfl
        · rfl
      obtain ⟨new, hnew, hP⟩ := ht.calls
      obtain ⟨new', hnew', hP'⟩ := hadd'.calls
      rintro ⟨all, hall, c, hc, hent⟩
      rw [hnew', hcalls, hnew, List.append_assoc] at hall
      rw [← List.append_cancel_left hall] at hc
      rcases List.mem_append.mp hc with hc | hc
      · exact hP c hc hent
      · exact hP' c hc hent
    refine ⟨fun h _ => hacc.mp h.1, fun h => ⟨hacc.mpr (h rfl), fun r hr => ?_, fun he => absurd he hno, fun he => absurd he hno⟩⟩
    have hlen := congrArg List.length hr
    have hidle : t.idle ≠ 0 := by
      rw [ht.idle]; exact h rfl
    have hbusy : (t.addPwrReq m.evt).busy = t.busy ++ [m.evt] := by
      unfold CmdPs.addPwrReq
      rw [if_neg hidle]
    have hbusy' : (reqStep (s, l) (.msg id m w)).1.busy = s.busy ++ [m.evt] := by
      show (s.psMdlMsgHdlr m w).1.busy = _
      rw [hadd'.busy, hbusy, ht.busy]
    rw [hbusy', List.length_append, List.length_append] at hlen
    change s.busy.length = s.busy.length + 1 + 1 at hlen
    omega

theorem msg_ends (hx : Accounted (s, l)) (hl : Listens s m) (hpre : m.pre = false) (hends : m.endsPower = true) :
    (Accounted (reqStep (s, l) (.msg id m w)) ∧ StepRight (s, l) (.msg id m w)) ↔ OnTop s l ⟨id, m.evt.opening⟩ := by
  have hledger : msgLedger s l ⟨id, m.evt.opening⟩ m w = l.erase ⟨id, m.evt.opening⟩ := by
    unfold msgLedger
    rw [if_neg (by rw [hl.1]; decide), msg_listens hl, CmdPs.psMdlHdlEvt_ends hpre hends, if_pos rfl,
      if_neg (by rw [hpre]; decide), if_pos hends]
  have hstate : (s.psMdlMsgHdlr m w).1 = ((s.cancelPwrReq m.evt).tryIps w).psMdlPended m .success := by
    rw [msg_listens hl, CmdPs.psMdlHdlEvt_ends hpre hends]
  have hcalm : Calm ((s.cancelPwrReq m.evt).IpsMay w) (s.cancelPwrReq m.evt) (s.psMdlMsgHdlr m w).1 := by
    rw [hstate]; exact (CmdPs.tryIps_calm _ w).trans ((psMdlPended_calm _ m _).mono False.elim)
  have hmay : EntersPs s (s.psMdlMsgHdlr m w).1 → (s.cancelPwrReq m.evt).IpsMay w := by
    rintro ⟨new, hnew, hent⟩
    exact hcalm.of_enters ⟨new, by rw [hnew, cancelPwrReq_calls], hent⟩
  rw [← accounted_cancel hx hcalm]
  show (Accounted ((s.psMdlMsgHdlr m w).1, msgLedger s l ⟨id, m.evt.opening⟩ m w) ∧ _) ↔ _
  rw [hledger]
  constructor
  · rintro ⟨hacc, hright⟩; exact ⟨hacc, hright.own⟩
  · rintro ⟨hacc, hown⟩
    refine ⟨hacc, hown, fun he => ?_, fun he => ?_⟩
    · show (s.psMdlMsgHdlr m w).1.busy = []
      rw [hcalm.busy]; exact (hmay he).1
    · rintro _ _ _ ⟨⟩; exact (hmay he).2

theorem msg_other (hx : Accounted (s, l)) (hl : Listens s m) (hincl : m.Included) (hn : m.Neutral) :
    (Accounted (reqStep (s, l) (.msg id m w)) ∧ StepRight (s, l) (.msg id m w)) ↔
      (s.lpsChoice m w ≠ none → NoneLinked w.roles) := by
  have hledger : msgLedger s l ⟨id, m.evt.opening⟩ m w = l := msgLedger_neutral hl.1 hn
  obtain ⟨hcalm, henters⟩ := CmdPs.psMdlHdlEvt_other (s := s) (w := w) hn hincl
  have hpend := psMdlPended_calm (s.psMdlHdlEvt m w).1 m (s.psMdlHdlEvt m w).2
  have hstate : (s.psMdlMsgHdlr m w).1 = (s.psMdlHdlEvt m w).1.psMdlPended m (s.psMdlHdlEvt m w).2 := by rw [msg_listens hl]
  rw [← hstate] at hpend
  have hall := hcalm.trans (hpend.mono False.elim)
  have hent : s.lpsChoice m w ≠ none → EntersPs s (s.psMdlMsgHdlr m w).1 := by
    intro hlps
    obtain ⟨new, hnew, c, hc, he⟩ := henters hlps
    obtain ⟨new', hnew', -⟩ := hpend.calls
    exact ⟨new ++ new', by rw [hnew', hnew, List.append_assoc], c, List.mem_append_left _ hc, he⟩
  show (Accounted ((s.psMdlMsgHdlr m w).1, msgLedger s l ⟨id, m.evt.opening⟩ m w) ∧ _) ↔ _
  rw [hledger]
  constructor
  · rintro ⟨-, hright⟩ hlps; exact hright.roles (hent hlps) id m w rfl
  · intro hroles
    refine ⟨accounted_calm hx hall, own_of_busy hall.busy, fun he => ?_, fun he => ?_⟩
    · show (s.psMdlMsgHdlr m w).1.busy = []
      rw [hall.busy]; exact (hall.of_enters he).1
    · rintro _ _ _ ⟨⟩; exact (hall.of_enters he).2.elim (fun h => h) hroles

theorem msg_step (hx : Accounted (s, l)) (hincl : m.Included) :
    (Accounted (reqStep (s, l) (.msg id m w)) ∧ StepRight (s, l) (.msg id m w)) ↔ MsgFits s l ⟨id, m.evt.opening⟩ m w := by
  cases hf : m.fail with
  | true =>
    have hdeaf : ¬Listens s m := fun hl => nomatch hf.symm.trans hl.1
    have hcalm := msg_fail (s := s) (w := w) hf
    have hledger : msgLedger s l ⟨id, m.evt.opening⟩ m w = if m.mdl = .powerMgnt then l.erase ⟨id, m.evt.opening⟩ else l :=
      if_pos hf
    show (Accounted ((s.psMdlMsgHdlr m w).1, msgLedger s l ⟨id, m.evt.opening⟩ m w) ∧ _) ↔ _
    rw [hledger]
    by_cases hmdl : m.mdl = .powerMgnt
    · rw [if_pos hmdl, accounted_erase hx hcalm]
      exact ⟨fun h => ⟨fun hl => absurd hl hdeaf, fun hl => absurd hl hdeaf, fun _ _ => h.1, fun hl => absurd hl hdeaf⟩,
        fun h => ⟨h.failed hf hmdl, stepRight_quiet hcalm⟩⟩
    · rw [if_neg hmdl]
      exact ⟨fun _ => ⟨fun hl => absurd hl hdeaf, fun hl => absurd hl hdeaf, fun _ h => absurd h hmdl, fun hl => absurd hl hdeaf⟩,
        fun _ => ⟨accounted_calm hx hcalm, stepRight_quiet hcalm⟩⟩
  | false =>
    cases hrec : s.inRecovery with
    | true =>
      have hdeaf : ¬Listens s m := fun hl => nomatch hrec.symm.trans hl.2
      obtain ⟨hcalm, hledger⟩ := msg_recovery (l := l) (o := ⟨id, m.evt.opening⟩) (w := w) hf hrec
      show (Accounted ((s.psMdlMsgHdlr m w).1, msgLedger s l ⟨id, m.evt.opening⟩ m w) ∧ _) ↔ _
      rw [hledger]
      exact ⟨fun _ => ⟨fun hl => absurd hl hdeaf, fun hl => absurd hl hdeaf, (fun h => nomatch hf.symm.trans h),
        fun hl => absurd hl hdeaf⟩, fun _ => ⟨accounted_calm hx hcalm, stepRight_quiet hcalm⟩⟩
    | false =>
      have hl : Listens s m := ⟨hf, hrec⟩
      by_cases hasks : m.pre = true ∧ m.asksPower = true
      · rw [msg_asks hx hl hasks.1 hasks.2]
        exact ⟨fun h => ⟨fun _ _ _ => h, (fun _ hpre => nomatch hasks.1.symm.trans hpre), (fun h => nomatch hf.symm.trans h),
          fun _ hlps => absurd (CmdPs.lpsChoice_pre hasks.1) hlps⟩, fun h => h.room hl hasks.1 hasks.2⟩
      · by_cases hends : m.pre = false ∧ m.endsPower = true
        · rw [msg_ends hx hl hends.1 hends.2]
          refine ⟨fun h => ⟨(fun _ hpre => nomatch hends.1.symm.trans hpre), fun _ _ _ => h, (fun h => nomatch hf.symm.trans h),
            fun _ hlps => absurd ?_ hlps⟩, fun h => h.top hl hends.1 hends.2⟩
          refine CmdPs.lpsChoice_none (fun _ hevt => ?_) fun _ hevt => ?_
          · have hno := hends.2
            unfold Msg.endsPower at hno
            rw [hevt] at hno; cases hno
          · have hno := hends.2
            unfold Msg.endsPower at hno
            rw [hevt] at hno; cases hno
        · have hn : m.Neutral := ⟨fun hpre => Bool.eq_false_iff.mpr fun h => hasks ⟨hpre, h⟩,
            fun hpre => Bool.eq_false_iff.mpr fun h => hends ⟨hpre, h⟩⟩
          rw [msg_other hx hl hincl hn]
          exact ⟨fun h => ⟨fun _ hpre hask => absurd ⟨hpre, hask⟩ hasks, fun _ hpre hend => absurd ⟨hpre, hend⟩ hends,
            (fun h => nomatch hf.symm.trans h), fun _ => h⟩, fun h => h.lps hl⟩

end Messages

/-! ### Whole runs -/

section Runs

variable {x : CmdPs × List Owner} {a : ReqAct}

theorem req_step (hx : Accounted x) (hincl : a.Included) : (Accounted (reqStep x a) ∧ StepRight x a) ↔ Fits x a := by
  obtain ⟨s, l⟩ := x
  cases a with
  | msg id m w => exact msg_step hx hincl
  | cancel id evt =>
    have henters : ∀ t : CmdPs, t.calls = s.calls → ¬EntersPs s t := by
      rintro t ht ⟨new, hnew, c, hc, -⟩
      rw [ht] at hnew
      rw [List.self_eq_append_right.mp hnew] at hc; cases hc
    show (Accounted (s.psMdlSetInfoCancel evt, l.erase ⟨id, evt.opening⟩) ∧ _) ↔ _
    cases hrej : s.rejPwrReq with
    | true =>
      have hsame : s.psMdlSetInfoCancel evt = s := if_pos hrej
      have hno : ¬EntersPs s (s.psMdlSetInfoCancel evt) := henters _ (by rw [hsame])
      rw [hsame, accounted_erase hx (Calm.refl False s)]
      refine ⟨fun h => ⟨(fun h' => nomatch hrej.symm.trans h'), fun _ => h.1⟩, fun h => ⟨h.2 hrej, own_of_busy ?_,
        fun he => absurd he hno, fun he => absurd he hno⟩⟩
      show (s.psMdlSetInfoCancel evt).busy = _
      rw [hsame]
    | false =>
      have hcancel : s.psMdlSetInfoCancel evt = s.cancelPwrReq evt := if_neg (by rw [hrej]; decide)
      have hno : ¬EntersPs s (s.psMdlSetInfoCancel evt) := henters _ (by rw [hcancel, cancelPwrReq_calls])
      have htop := accounted_cancel (o := ⟨id, evt.opening⟩) hx (Calm.refl False (s.cancelPwrReq evt))
      rw [hcancel]
      constructor
      · rintro ⟨hacc, hright⟩
        refine ⟨fun _ => htop.mp ⟨hacc, fun r hr => hright.own r ?_⟩, fun h' => nomatch hrej.symm.trans h'⟩
        show s.busy = (s.psMdlSetInfoCancel evt).busy ++ [r]
        rw [hcancel]; exact hr
      · intro h
        obtain ⟨hacc, hown⟩ := htop.mpr (h.1 hrej)
        refine ⟨hacc, fun r hr => hown r ?_, fun he => absurd he hno, fun he => absurd he hno⟩
        rw [← hcancel]; exact hr
  | btc req =>
    have hcalm : Calm False s (s.psMdlSetInfoBtc req) := .same rfl rfl rfl
    exact ⟨fun _ => trivial, fun _ => ⟨accounted_calm hx hcalm, own_of_busy rfl, fun he => (hcalm.of_enters he).elim,
      fun he => (hcalm.of_enters he).elim⟩⟩

theorem psMdlStart_accounted (cap : PsCap) (now : ℕ) : Accounted (psMdlStart cap now, []) := by
  unfold psMdlStart
  dsimp only
  split
  · exact ⟨.nil, rfl⟩
  · exact ⟨.nil, rfl⟩

/-- **The power requests** are accounted for in every state of a run, and every step of it is right, if and only if every action
finds what it needs. -/
theorem power_requests_iff (cap : PsCap) (now : ℕ) (acts : List ReqAct) (hincl : ∀ a ∈ acts, a.Included) :
    ((∀ pre, pre <+: acts → Accounted (reqRun cap now pre)) ∧
      ∀ pre a, pre ++ [a] <+: acts → StepRight (reqRun cap now pre) a) ↔
    ∀ pre a, pre ++ [a] <+: acts → Fits (reqRun cap now pre) a := by
  have hsnoc : ∀ pre a, reqRun cap now (pre ++ [a]) = reqStep (reqRun cap now pre) a := fun pre a => List.foldl_append
  have hin : ∀ pre a, pre ++ [a] <+: acts → a.Included := fun pre a h =>
    hincl a (h.subset (List.mem_append_right _ (List.mem_singleton_self a)))
  constructor
  · rintro ⟨hacc, hright⟩ pre a hpre
    have hacc' := hacc _ hpre
    rw [hsnoc] at hacc'
    exact (req_step (hacc pre ((List.prefix_append _ _).trans hpre)) (hin pre a hpre)).mp ⟨hacc', hright pre a hpre⟩
  · intro hfits
    have hacc : ∀ pre, pre <+: acts → Accounted (reqRun cap now pre) := by
      intro pre
      induction pre using List.reverseRecOn with
      | nil => exact fun _ => psMdlStart_accounted cap now
      | append_singleton pre a ih =>
        intro hpre
        rw [hsnoc]
        exact ((req_step (ih ((List.prefix_append _ _).trans hpre)) (hin pre a hpre)).mpr (hfits pre a hpre)).1
    exact ⟨hacc, fun pre a hpre =>
      ((req_step (hacc pre ((List.prefix_append _ _).trans hpre)) (hin pre a hpre)).mpr (hfits pre a hpre)).2⟩

end Runs
/-! ### Two pairs of messages -/

def eapolMsg (pkt : PktEvt) (pre : Bool) : Msg := { bareMsg .general .pktEvtNtfy pre with pkt := some pkt }

/-- EAPOL begins and ends while the driver works. -/
def nestedPairs : List ReqAct :=
  [.msg 1 (bareMsg .powerMgnt .phyOn true) (idleLink true), .msg 2 (eapolMsg .eapolStart true) (idleLink true),
    .msg 2 (eapolMsg .eapolEnd false) (idleLink true), .msg 1 (bareMsg .powerMgnt .phyIdle false) (idleLink true)]

/-- EAPOL begins before the driver works, and ends while it works. -/
def crossedPairs : List ReqAct :=
  [.msg 1 (eapolMsg .eapolStart true) (idleLink true), .msg 2 (bareMsg .powerMgnt .phyOn true) (idleLink true),
    .msg 1 (eapolMsg .eapolEnd false) (idleLink true)]

theorem nested_pairs_accounted : Accounted (reqRun lpsOnly 0 nestedPairs) := by
  refine ((power_requests_iff lpsOnly 0 nestedPairs fun a ha => ?_).mpr fun pre a hpre => ?_).1 _ (List.prefix_refl _)
  · simp only [nestedPairs, List.mem_cons, List.not_mem_nil, or_false] at ha
    rcases ha with rfl | rfl | rfl | rfl <;> exact ⟨(fun h => nomatch h.2), (fun h => nomatch h.2)⟩
  · unfold nestedPairs at hpre
    rcases pre with _ | ⟨b, _ | ⟨c, _ | ⟨d, _ | ⟨e, pre⟩⟩⟩⟩
    · simp only [List.nil_append, List.cons_prefix_cons] at hpre
      obtain ⟨rfl, -⟩ := hpre
      exact ⟨fun _ _ _ _ => by decide, nofun, nofun, fun _ h => absurd rfl h⟩
    · simp only [List.cons_append, List.nil_append, List.cons_prefix_cons] at hpre
      obtain ⟨rfl, rfl, -⟩ := hpre
      exact ⟨fun _ _ _ _ => by decide, nofun, nofun, fun _ h => absurd rfl h⟩
    · simp only [List.cons_append, List.nil_append, List.cons_prefix_cons] at hpre
      obtain ⟨rfl, rfl, rfl, -⟩ := hpre
      exact ⟨nofun, fun _ _ _ => ⟨fun _ => rfl, fun h => absurd (by decide) h⟩, nofun, fun _ h => absurd rfl h⟩
    · simp only [List.cons_append, List.nil_append, List.cons_prefix_cons] at hpre
      obtain ⟨rfl, rfl, rfl, rfl, -⟩ := hpre
      exact ⟨nofun, fun _ _ _ => ⟨fun _ => rfl, fun h => absurd (by decide) h⟩, nofun, fun _ h => absurd rfl h⟩
    · have hlen := hpre.length_le
      simp only [List.cons_append, List.length_cons, List.length_append, List.length_nil] at hlen
      omega

/-- The end of EAPOL takes the request of `PHY_ON` away. -/
theorem requests_not_kept : ¬∀ (cap : PsCap) (now : ℕ) (acts : List ReqAct), (∀ a ∈ acts, a.Included) →
      (∀ pre, pre <+: acts → Accounted (reqRun cap now pre)) ∧
        ∀ pre a, pre ++ [a] <+: acts → StepRight (reqRun cap now pre) a := by
  intro h
  have hincl : ∀ a ∈ crossedPairs, a.Included := by
    intro a ha
    simp only [crossedPairs, List.mem_cons, List.not_mem_nil, or_false] at ha
    rcases ha with rfl | rfl | rfl <;> exact ⟨(fun h => nomatch h.2), (fun h => nomatch h.2)⟩
  obtain ⟨-, hright⟩ := h lpsOnly 0 crossedPairs hincl
  obtain ⟨o, -, howner, hevt⟩ := (hright (crossedPairs.take 2) _ (List.prefix_rfl : crossedPairs <+: crossedPairs)).own .phyOn rfl
  cases howner
  cases hevt

end Rtl8852cu.Ps
