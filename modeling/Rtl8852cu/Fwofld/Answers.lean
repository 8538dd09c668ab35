import Rtl8852cu.Fwofld.Handlers
import Rtl8852cu.Fwofld.Calls
import Rtl8852cu.Lib.Reach

/-!
# Answers that come before the caller is ready

As soon as a command has been transmitted its answers may come, and the handlers run in between the steps that its caller
still has to take: a call of the packet offload has `last_op` to write, `proc_cmd_ofld` has a delay to wait for, a state
to set and that to poll.

`doneAcked` and `answered` note where the caller is when the answer comes. A done ack of another call, or a second
response of a command offload, is not among the steps; a packet-offload response may be that of any call.
-/

namespace Rtl8852cu.Fwofld

open Lib H2c

/-! ### Packet offload -/

/-- The three calls with their arguments. -/
inductive PktCall
  | read (id : ℕ)
  | del (id : ℕ)
  | add (pkt : List UInt8)

def PktCall.op : PktCall → PktOfldOp
  | .read _ => .read
  | .del _ => .del
  | .add _ => .add

def PktCall.run (call : PktCall) (fwReady : Bool) (env : TxEnv) (s : PktOfld) : Out PktOfld :=
  match call with
  | .read id => macReadPktOfld fwReady env id s
  | .del id => macDelPktOfld fwReady env id s
  | .add pkt => (macAddPktOfld fwReady env pkt s).1

/-- The state that the answer of a command leads to. -/
def PktOfldOp.answered (op : PktOfldOp) : OfldH2c := if op = .read then .done else .idle

/-- A call from the moment that `PLTFM_TX` has returned. -/
structure PktTx where
  drv : PktOfld
  op : PktOfldOp
  written : Bool
  rcvAcked : Bool
  doneAcked : Option Bool
  deriving DecidableEq

/-- `last_op` is still that of the call before. -/
def PktTx.start (op : PktOfldOp) (s : PktOfld) (out : Out PktOfld) : PktTx :=
  ⟨{ out.st with lastOp := s.lastOp }, op, false, false, none⟩

/-- The caller writes `last_op`, or a handler runs; the firmware acknowledges success. -/
inductive PktEv
  | write
  | rcvAck
  | doneAck
  | rsp (c2hContent : ℕ) (malloc : Bool)

def PktTx.step (t : PktTx) : PktEv → PktTx
  | .write => { t with drv := t.drv.sentOp t.op, written := true }
  | .rcvAck => { t with drv := t.drv.rcvAck, rcvAcked := true }
  | .doneAck => { t with drv := t.drv.doneAck true, doneAcked := some t.written }
  | .rsp c2hContent malloc => { t with drv := (c2hPktOfldRspHdl c2hContent malloc t.drv).2 }

def PktTx.Ok (t : PktTx) : PktEv → Prop
  | .write => t.written = false
  | .rcvAck => t.rcvAcked = false
  | .doneAck => t.rcvAcked = true ∧ t.doneAcked = none
  | .rsp _ _ => True

/-! ### Command offload -/

/-- `MAC_AX_CMD_OFLD_*`. -/
inductive CmdState
  | idle
  | proc
  | sending
  | rcvd
  deriving DecidableEq, Repr

/-- What `chk_cmd_ofld_pkt` returns. -/
inductive ChkRet
  | success
  | drvRm
  | pollTo
  | fioOfld
  deriving DecidableEq, Repr

abbrev cmdOfldPollCnt : ℕ := 1000

/-- Where `proc_cmd_ofld` is after `PLTFM_TX`: before the delay, before it sets the state, in the loop of
`chk_cmd_ofld_pkt` with its `cnt`, or back from there. -/
inductive ProcPc
  | delay
  | arm
  | poll (cnt : ℕ)
  | ret (ret : ChkRet)
  deriving DecidableEq, Repr

structure CmdTx where
  cmdState : CmdState
  result : Bool
  drvRm : Bool
  pc : ProcPc
  answered : Option ProcPc
  deriving DecidableEq, Repr

/-- The state is still that which `mac_cmd_ofld` or one of its siblings has set. -/
def CmdTx.start (accuDelay : ℕ) (result drvRm : Bool) : CmdTx :=
  ⟨.proc, result, drvRm, if accuDelay ≠ 0 then .delay else .arm, none⟩

/-- A step of `proc_cmd_ofld`, an iteration of the loop being one. -/
def CmdTx.caller (t : CmdTx) : CmdTx :=
  match t.pc with
  | .delay => { t with pc := .arm }
  | .arm => { t with cmdState := .sending, pc := .poll cmdOfldPollCnt }
  | .poll cnt =>
    if cnt - 1 = 0 then { t with pc := .ret .pollTo }
    else if t.cmdState = .rcvd then { t with pc := .ret (if t.result = true then .fioOfld else .success) }
    else if t.drvRm = true then { t with pc := .ret .drvRm }
    else { t with pc := .poll (cnt - 1) }
  | .ret _ => t

/-- `c2h_cmd_ofld_rsp_hdl`. -/
def CmdTx.rsp (t : CmdTx) (result : Bool) : CmdTx :=
  { t with
    result := result
    cmdState := if t.cmdState ≠ .sending then t.cmdState else .rcvd
    answered := some t.pc }

inductive CmdEv
  | caller
  | rsp (result : Bool)
  | remove

def CmdTx.step (t : CmdTx) : CmdEv → CmdTx
  | .caller => t.caller
  | .rsp result => t.rsp result
  | .remove => { t with drvRm := true }

/-- The firmware responds once, with success, before the caller has given up. -/
def CmdTx.Ok (t : CmdTx) : CmdEv → Prop
  | .caller => True
  | .rsp result => result = false ∧ t.answered = none ∧ ∀ ret, t.pc ≠ .ret ret
  | .remove => True

/-! ### What is left to the caller of a packet call -/

section Pkt

variable {fwReady : Bool} {env : TxEnv} {s : PktOfld}

theorem h2cSend_sent {σ : Type*} {func : ℕ} {dack : Bool} {h2cb : H2cb} {undo after : σ → σ} {st : σ}
    (h : (h2cSend env func dack h2cb undo after st).sent ≠ none) :
    (h2cSend env func dack h2cb undo after st).st = after st := by
  unfold h2cSend at h ⊢
  split at h
  · exact absurd rfl h
  split at h
  next htx => rw [if_pos htx]
  next => exact absurd rfl h

theorem h2cCmd_sent {σ : Type*} {type : H2cbType} {func : ℕ} {dack : Bool} {bytes : List UInt8} {undo after : σ → σ}
    {st : σ} (h : (h2cCmd env type func dack bytes undo after st).sent ≠ none) :
    (h2cCmd env type func dack bytes undo after st).st = after st := by
  unfold h2cCmd at h ⊢
  split at h
  · exact absurd rfl h
  · exact h2cSend_sent h

theorem pktOfldCmd_sent {op : PktOfldOp} {id : ℕ} (h : (pktOfldCmd env op id s).sent ≠ none) :
    (pktOfldCmd env op id s).st = { s with st := .sending, lastOp := op } := by
  unfold pktOfldCmd at h ⊢
  split at h
  · exact absurd rfl h
  next hst =>
  rw [if_neg hst]; exact h2cCmd_sent h

theorem PktCall.run_sent {call : PktCall} (h : (call.run fwReady env s).sent ≠ none) :
    (call.run fwReady env s).st = { s with st := .sending, lastOp := call.op } := by
  unfold PktCall.run at h ⊢
  cases call with
  | read id =>
    simp only at h ⊢
    unfold macReadPktOfld at h ⊢
    split at h
    · exact absurd rfl h
    split at h
    · exact absurd rfl h
    split at h
    · exact absurd rfl h
    next h1 h2 h3 =>
    rw [if_neg h1, if_neg h2, if_neg h3]; exact pktOfldCmd_sent h
  | del id =>
    simp only at h ⊢
    unfold macDelPktOfld at h ⊢
    split at h
    · exact absurd rfl h
    split at h
    · exact absurd rfl h
    split at h
    · exact absurd rfl h
    split at h
    · exact absurd rfl h
    next h1 h2 h3 h4 =>
    rw [if_neg h1, if_neg h2, if_neg h3, if_neg h4]; exact pktOfldCmd_sent h
  | add pkt =>
    simp only at h ⊢
    unfold macAddPktOfld at h ⊢
    split at h
    · exact absurd rfl h
    split at h
    · exact absurd rfl h
    split at h
    · exact absurd rfl h
    next h1 h2 h3 =>
    rw [if_neg h1, if_neg h2, if_neg h3]
    simp only at h ⊢
    split at h
    · exact absurd rfl h
    split at h
    · exact absurd rfl h
    split at h
    · exact absurd rfl h
    split at h
    · exact absurd rfl h
    · exact h2cSend_sent h

end Pkt

/-! ### Runs of a packet call -/

theorem answered_eq_iff {op op' : PktOfldOp} : op.answered = op'.answered ↔ (op = .read ↔ op' = .read) := by
  cases op <;> cases op' <;> decide

theorem answered_ne (op : PktOfldOp) : op.answered ≠ .error ∧ op.answered ≠ .sending := by
  cases op <;> decide

theorem c2hPktOfldRspHdl_st (w : ℕ) (malloc : Bool) {s : PktOfld} (h : s.st ≠ .error) :
    (c2hPktOfldRspHdl w malloc s).2.st = s.st ∧ (c2hPktOfldRspHdl w malloc s).2.lastOp = s.lastOp := by
  unfold c2hPktOfldRspHdl
  simp only
  split
  · exact ⟨rfl, rfl⟩
  split
  · exact ⟨rfl, rfl⟩
  split
  · exact ⟨if_neg h, rfl⟩
  split
  · exact ⟨if_neg h, rfl⟩
  · exact ⟨if_neg h, rfl⟩

/-- The state and `last_op` in a call that follows one with `last`. -/
structure PktTx.Inv (last op : PktOfldOp) (t : PktTx) : Prop where
  op_eq : t.op = op
  lastOp : t.drv.lastOp = if t.written = true then op else last
  waiting : t.doneAcked = none → t.drv.st = if t.rcvAcked = true then .rcvd else .sending
  acked : ∀ written, t.doneAcked = some written → t.drv.st = (if written = true then op else last).answered

theorem PktTx.Inv.st_ne {last op : PktOfldOp} {t : PktTx} (h : t.Inv last op) : t.drv.st ≠ .error := by
  cases hd : t.doneAcked with
  | none =>
    rw [h.waiting hd]
    split <;> nofun
  | some written =>
    rw [h.acked written hd]; exact (answered_ne _).1

theorem PktTx.Inv.step {last op : PktOfldOp} {t : PktTx} (h : t.Inv last op) {e : PktEv} (hok : t.Ok e) :
    (t.step e).Inv last op := by
  cases e with
  | write => exact ⟨h.op_eq, h.op_eq, h.waiting, h.acked⟩
  | rcvAck =>
    have hrcv : t.rcvAcked = false := hok
    refine ⟨h.op_eq, h.lastOp, fun hd => ?_, fun written hd => ?_⟩
    · have hst := h.waiting hd
      rw [hrcv, if_neg nofun] at hst; exact if_pos hst
    · show t.drv.st.rcvAck = _
      rw [h.acked written hd]; exact if_neg (answered_ne _).2
  | doneAck =>
    obtain ⟨hrcv, hd⟩ := hok
    refine ⟨h.op_eq, h.lastOp, nofun, fun written hw => ?_⟩
    have hst := h.waiting hd
    rw [hrcv, if_pos rfl] at hst
    show t.drv.st.doneAck _ true = _
    unfold OfldH2c.doneAck
    rw [if_pos hst, if_pos rfl, h.lastOp, Option.some.inj hw]; rfl
  | rsp w malloc =>
    obtain ⟨hst, hlast⟩ := c2hPktOfldRspHdl_st w malloc h.st_ne
    exact ⟨h.op_eq, hlast.trans h.lastOp, fun hd => hst.trans (h.waiting hd), fun written hd =>
      hst.trans (h.acked written hd)⟩

theorem pktTx_answered {call : PktCall} {fwReady : Bool} {env : TxEnv} {s : PktOfld}
    (h : (call.run fwReady env s).sent ≠ none) {es : List PktEv}
    (hes : Legal PktTx.step PktTx.Ok (PktTx.start call.op s (call.run fwReady env s)) es) {written : Bool}
    (hd : (es.foldl PktTx.step (PktTx.start call.op s (call.run fwReady env s))).doneAcked = some written) :
    (es.foldl PktTx.step (PktTx.start call.op s (call.run fwReady env s))).drv.st = call.op.answered ↔
      written = true ∨ (s.lastOp = .read ↔ call.op = .read) := by
  have hstart : (PktTx.start call.op s (call.run fwReady env s)).Inv s.lastOp call.op := by
    unfold PktTx.start
    rw [PktCall.run_sent h]; exact ⟨rfl, rfl, fun _ => rfl, fun _ hd => nomatch hd⟩
  have hinv := Reach.invariant (I := PktTx.Inv s.lastOp call.op) hstart (fun t e ht he => ht.step he) hes.reach
  rw [hinv.acked written hd, answered_eq_iff]
  cases written with
  | true => exact ⟨fun _ => Or.inl rfl, fun _ => Iff.rfl⟩
  | false => exact ⟨Or.inr, fun hw => hw.resolve_left nofun⟩

/-! ### Runs of the poll -/

/-- The caller has not found a response, and finds none in its next step. -/
def CmdTx.Missed (t : CmdTx) : Prop := t.cmdState ≠ .rcvd ∧ ∀ ret, t.pc = .ret ret → ret ≠ .success

/-- What the caller finds, in terms of where it was when the response came. -/
def CmdTx.Inv (t : CmdTx) : Prop :=
  match t.answered with
  | none => t.Missed ∧ ∀ cnt, t.pc = .poll cnt → t.cmdState = .sending
  | some .delay => t.Missed
  | some .arm => t.Missed
  | some (.poll cnt) =>
    if 1 < cnt then t.result = false ∧ (t.cmdState = .rcvd ∧ t.pc = .poll cnt ∨ t.pc = .ret .success)
    else t.pc = .poll cnt ∨ t.pc = .ret .pollTo
  | some (.ret _) => False

def CmdTx.Unset (t : CmdTx) : Prop := (t.pc = .delay ∨ t.pc = .arm) → t.cmdState = .proc

theorem CmdTx.Unset.step {t : CmdTx} (h : t.Unset) {e : CmdEv} : (t.step e).Unset := by
  cases e with
  | caller =>
    intro hpc
    unfold CmdTx.step CmdTx.caller at hpc ⊢
    cases ht : t.pc with
    | delay =>
      rw [ht] at hpc; exact h (Or.inl ht)
    | arm =>
      rw [ht] at hpc; exact hpc.elim nofun nofun
    | poll cnt =>
      rw [ht] at hpc
      simp only at hpc
      split at hpc
      · exact hpc.elim nofun nofun
      split at hpc
      · exact hpc.elim nofun nofun
      split at hpc
      · exact hpc.elim nofun nofun
      · exact hpc.elim nofun nofun
    | ret r =>
      rw [ht] at hpc
      simp only at hpc
      rw [ht] at hpc; exact hpc.elim nofun nofun
  | rsp result =>
    intro hpc
    have hproc := h hpc
    show (if t.cmdState ≠ .sending then t.cmdState else .rcvd) = .proc
    rw [if_pos (by rw [hproc]; nofun), hproc]
  | remove => exact h

theorem CmdTx.Missed.caller {t : CmdTx} (h : t.Missed) : t.caller.Missed := by
  unfold CmdTx.caller
  cases ht : t.pc with
  | delay => exact ⟨h.1, fun ret hpc => (nomatch hpc)⟩
  | arm => exact ⟨nofun, fun ret hpc => (nomatch hpc)⟩
  | poll cnt =>
    simp only
    split
    · refine ⟨h.1, fun ret hpc => ?_⟩
      rw [← ProcPc.ret.inj hpc]
      nofun
    rw [if_neg h.1]
    split
    · refine ⟨h.1, fun ret hpc => ?_⟩
      rw [← ProcPc.ret.inj hpc]
      nofun
    · exact ⟨h.1, fun ret hpc => (nomatch hpc)⟩
  | ret r => exact h

theorem CmdTx.Inv.caller {t : CmdTx} (h : t.Inv) : t.caller.Inv := by
  have hans : t.caller.answered = t.answered := by
    unfold CmdTx.caller
    cases t.pc with
    | poll cnt =>
      simp only
      split
      · rfl
      split
      · rfl
      split
      · rfl
      · rfl
    | _ => rfl
  unfold CmdTx.Inv at h ⊢
  rw [hans]
  cases ha : t.answered with
  | none =>
    rw [ha] at h
    simp only at h ⊢
    refine ⟨h.1.caller, fun cnt hpc => ?_⟩
    unfold CmdTx.caller at hpc ⊢
    cases ht : t.pc with
    | delay =>
      rw [ht] at hpc; exact nomatch hpc
    | arm => rfl
    | poll n =>
      have hsend := h.2 n ht
      simp only
      split
      · exact hsend
      split
      · exact hsend
      split
      · exact hsend
      · exact hsend
    | ret r =>
      rw [ht] at hpc
      simp only at hpc
      rw [ht] at hpc; exact nomatch hpc
  | some p =>
    rw [ha] at h
    cases p with
    | delay => exact h.caller
    | arm => exact h.caller
    | ret r => exact h
    | poll cnt =>
      simp only at h ⊢
      by_cases hcnt : 1 < cnt
      · rw [if_pos hcnt] at h ⊢
        obtain ⟨hres, ⟨hst, hpc⟩ | hpc⟩ := h
        · unfold CmdTx.caller
          rw [hpc]
          simp only
          rw [if_neg (by omega), if_pos hst, hres]; exact ⟨rfl, Or.inr rfl⟩
        · unfold CmdTx.caller
          rw [hpc]; exact ⟨hres, Or.inr hpc⟩
      · rw [if_neg hcnt] at h ⊢
        unfold CmdTx.caller
        rcases h with hpc | hpc
        · rw [hpc]
          simp only
          rw [if_pos (by omega)]; exact Or.inr rfl
        · rw [hpc]; exact Or.inr hpc

theorem CmdTx.Inv.rsp {t : CmdTx} (h : t.Inv) (hunset : t.Unset) {result : Bool} (hok : t.Ok (.rsp result)) :
    (t.rsp result).Inv := by
  obtain ⟨rfl, hans, hpc⟩ := hok
  unfold CmdTx.Inv at h ⊢
  rw [hans] at h
  simp only at h
  have hearly : t.cmdState = .proc → (t.rsp false).Missed := by
    intro hproc
    refine ⟨?_, h.1.2⟩
    show (if t.cmdState ≠ .sending then t.cmdState else .rcvd) ≠ .rcvd
    rw [if_pos (by rw [hproc]; nofun), hproc]
    nofun
  have hnote : (t.rsp false).answered = some t.pc := rfl
  rw [hnote]
  cases ht : t.pc with
  | delay => exact hearly (hunset (Or.inl ht))
  | arm => exact hearly (hunset (Or.inr ht))
  | ret r => exact absurd ht (hpc r)
  | poll cnt =>
    simp only
    split
    · refine ⟨rfl, Or.inl ⟨?_, ht⟩⟩; exact if_neg (not_not_intro (h.2 cnt ht))
    · exact Or.inl ht

theorem CmdTx.Inv.step {t : CmdTx} (h : t.Inv ∧ t.Unset) {e : CmdEv} (hok : t.Ok e) :
    (t.step e).Inv ∧ (t.step e).Unset := by
  refine ⟨?_, h.2.step⟩
  cases e with
  | caller => exact h.1.caller
  | rsp result => exact h.1.rsp h.2 hok
  | remove => exact h.1

theorem CmdTx.inv_start (accuDelay : ℕ) (result drvRm : Bool) :
    (CmdTx.start accuDelay result drvRm).Inv ∧ (CmdTx.start accuDelay result drvRm).Unset := by
  unfold CmdTx.start
  by_cases h : accuDelay ≠ 0
  · rw [if_pos h]
    exact ⟨⟨⟨nofun, fun ret hpc => (nomatch hpc)⟩, fun cnt hpc => (nomatch hpc)⟩, fun _ => rfl⟩
  · rw [if_neg h]
    exact ⟨⟨⟨nofun, fun ret hpc => (nomatch hpc)⟩, fun cnt hpc => (nomatch hpc)⟩, fun _ => rfl⟩

theorem cmdTx_answered {accuDelay : ℕ} {result drvRm : Bool} {es : List CmdEv}
    (hes : Legal CmdTx.step CmdTx.Ok (CmdTx.start accuDelay result drvRm) es) {p : ProcPc} {ret : ChkRet}
    (hans : (es.foldl CmdTx.step (CmdTx.start accuDelay result drvRm)).answered = some p)
    (hret : (es.foldl CmdTx.step (CmdTx.start accuDelay result drvRm)).pc = .ret ret) :
    ret = .success ↔ ∃ cnt, 1 < cnt ∧ p = .poll cnt := by
  have hinv := (Reach.invariant (I := fun t : CmdTx => t.Inv ∧ t.Unset) (CmdTx.inv_start accuDelay result drvRm)
    (fun t e ht he => CmdTx.Inv.step ht he) hes.reach).1
  unfold CmdTx.Inv at hinv
  rw [hans] at hinv
  cases p with
  | delay => exact ⟨fun h => absurd h (hinv.2 ret hret), fun ⟨cnt, _, h⟩ => nomatch h⟩
  | arm => exact ⟨fun h => absurd h (hinv.2 ret hret), fun ⟨cnt, _, h⟩ => nomatch h⟩
  | ret r => exact hinv.elim
  | poll cnt =>
    simp only at hinv
    by_cases hcnt : 1 < cnt
    · rw [if_pos hcnt, hret] at hinv
      have hsucc := ProcPc.ret.inj (hinv.2.resolve_left fun h => nomatch h.2)
      exact ⟨fun _ => ⟨cnt, hcnt, rfl⟩, fun _ => hsucc⟩
    · rw [if_neg hcnt, hret] at hinv
      have hto := ProcPc.ret.inj (hinv.resolve_left nofun)
      constructor
      · intro h
        rw [h] at hto; exact nomatch hto
      · rintro ⟨n, hn, h⟩; exact absurd hn (by rw [← ProcPc.poll.inj h]; exact hcnt)

/-! ### The answers of both -/

/-- **No answer is lost** exactly when it finds the caller ready: a done ack `last_op` of the kind of its command, a
response of a command offload the loop of `chk_cmd_ofld_pkt` before its last check. -/
theorem answers_iff (call : PktCall) (fwReady : Bool) (env : TxEnv) (s : PktOfld) (pktEs : List PktEv)
    (accuDelay : ℕ) (result drvRm : Bool) (cmdEs : List CmdEv) :
    (∀ written, (call.run fwReady env s).sent ≠ none →
      Legal PktTx.step PktTx.Ok (PktTx.start call.op s (call.run fwReady env s)) pktEs →
      (pktEs.foldl PktTx.step (PktTx.start call.op s (call.run fwReady env s))).doneAcked = some written →
      ((pktEs.foldl PktTx.step (PktTx.start call.op s (call.run fwReady env s))).drv.st = call.op.answered ↔
        written = true ∨ (s.lastOp = .read ↔ call.op = .read))) ∧
    ∀ p ret, Legal CmdTx.step CmdTx.Ok (CmdTx.start accuDelay result drvRm) cmdEs →
      (cmdEs.foldl CmdTx.step (CmdTx.start accuDelay result drvRm)).answered = some p →
      (cmdEs.foldl CmdTx.step (CmdTx.start accuDelay result drvRm)).pc = .ret ret →
      (ret = .success ↔ ∃ cnt, 1 < cnt ∧ p = .poll cnt) :=
  ⟨fun _ h hes hd => pktTx_answered h hes hd, fun _ _ hes hans hret => cmdTx_answered hes hans hret⟩

/-- A packet has been added under the id `0`. -/
def oneAdded : PktOfld := ⟨.idle, .add, 254, 2, {0, pktOfldNotExistsId}⟩

/-- A packet that is read after one was added, and a command offload without a delay. -/
theorem answers_ready : (([.write, .rcvAck, .doneAck].foldl PktTx.step
        (PktTx.start .read oneAdded ((PktCall.read 0).run true .good oneAdded))).drv.st = PktOfldOp.read.answered ↔
      true = true ∨ (PktOfldOp.add = .read ↔ PktOfldOp.read = .read)) ∧
    (ChkRet.success = .success ↔ ∃ cnt, 1 < cnt ∧ ProcPc.poll 1000 = .poll cnt) := by
  have hes : Legal PktTx.step PktTx.Ok (PktTx.start .read oneAdded ((PktCall.read 0).run true .good oneAdded))
      [.write, .rcvAck, .doneAck] := ⟨rfl, rfl, ⟨rfl, rfl⟩, trivial⟩
  have hcmd : Legal CmdTx.step CmdTx.Ok (CmdTx.start 0 false false) [.caller, .rsp false, .caller] :=
    ⟨trivial, ⟨rfl, rfl, fun ret h => nomatch h⟩, trivial, trivial⟩
  have h := answers_iff (.read 0) true .good oneAdded [.write, .rcvAck, .doneAck] 0 false false
    [.caller, .rsp false, .caller]
  exact ⟨h.1 true (by decide) hes (by decide), h.2 (.poll 1000) .success hcmd (by decide) (by decide)⟩

/-- The firmware answers a read before `last_op` is written: the state is that of a packet added. -/
theorem read_answer_lost : ¬ ∀ (call : PktCall) (fwReady : Bool) (env : TxEnv) (s : PktOfld) (es : List PktEv)
    (written : Bool), (call.run fwReady env s).sent ≠ none →
    Legal PktTx.step PktTx.Ok (PktTx.start call.op s (call.run fwReady env s)) es →
    (es.foldl PktTx.step (PktTx.start call.op s (call.run fwReady env s))).doneAcked = some written →
    (es.foldl PktTx.step (PktTx.start call.op s (call.run fwReady env s))).drv.st = call.op.answered := by
  intro h
  have hst := h (.read 0) true .good oneAdded [.rcvAck, .doneAck, .write] false (by decide)
    ⟨rfl, ⟨rfl, rfl⟩, rfl, trivial⟩ (by decide)
  exact absurd hst (by decide)

end Rtl8852cu.Fwofld
