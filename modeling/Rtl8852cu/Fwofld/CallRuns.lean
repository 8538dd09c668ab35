import Rtl8852cu.Fwofld.Handlers
import Rtl8852cu.Fwofld.Request
import Rtl8852cu.Lib.Reach

/-!
# Failing calls of the firmware offload

A call of `fwofld.c` sets its variables of the state machine before it has a packet for the command, and takes this back
after `PLTFM_TX` at most. A call that fails in between leaves them as they are while a command is on its way, and no
answer comes to one that was not sent.
-/

namespace Rtl8852cu.Fwofld

open Lib H2c

/-- What `fwofld.c` works on; `fwReady` says that `sm.fwdl` is `MAC_AX_FWDL_INIT_RDY`. -/
structure Adapter where
  fwReady : Bool
  pkt : PktOfld
  efuse : EfuseOfld
  write : ReqOfld
  read : ReqOfld
  deriving DecidableEq

/-- The variables of the state machine. -/
structure Sm where
  pktOfld : OfldH2c
  efuseOfld : OfldH2c
  writeRequest : OfldReq
  writeH2c : OfldH2c
  readRequest : OfldReq
  readH2c : OfldH2c
  deriving DecidableEq, Repr

def Adapter.sm (a : Adapter) : Sm :=
  ⟨a.pkt.st, a.efuse.st, a.write.request, a.write.h2c, a.read.request, a.read.h2c⟩

/-- The six calls with their arguments. -/
inductive Call
  | readPkt (id : ℕ)
  | delPkt (id : ℕ)
  | addPkt (pkt : List UInt8)
  | dumpEfuse (malloc : Bool) (efuseSize : ℕ) (type : DumpType)
  | writeOfld
  | readOfld

def Out.map {σ τ : Type*} (f : σ → τ) (out : Out σ) : Out τ := ⟨out.ret, out.sent, f out.st⟩

def Adapter.call (a : Adapter) (env : TxEnv) : Call → Out Adapter
  | .readPkt id => (macReadPktOfld a.fwReady env id a.pkt).map fun pkt => { a with pkt := pkt }
  | .delPkt id => (macDelPktOfld a.fwReady env id a.pkt).map fun pkt => { a with pkt := pkt }
  | .addPkt pkt => (macAddPktOfld a.fwReady env pkt a.pkt).1.map fun pkt => { a with pkt := pkt }
  | .dumpEfuse malloc efuseSize type =>
    (macDumpEfuseOfld a.fwReady env malloc efuseSize type a.efuse).map fun efuse => { a with efuse := efuse }
  | .writeOfld => (macWriteOfld a.fwReady env a.write).map fun write => { a with write := write }
  | .readOfld => (macReadOfld a.fwReady env a.read).map fun read => { a with read := read }

/-- What else changes these variables: the firmware, which is loaded or lost, and answers; the calls that fetch what was
read, put requests together and throw them away; and the resets. -/
inductive Other
  | fwdl (ready : Bool)
  | pktRcvAck
  | pktDoneAck (ok : Bool)
  | pktRsp (c2hContent : ℕ) (malloc : Bool)
  | pktPacket (malloc : Bool)
  | pktReset
  | efuseRcvAck
  | efuseDoneAck (ok : Bool)
  | efuseRsp (malloc : Bool)
  | efuseMap
  | efuseReset
  | writeRcvAck
  | writeDoneAck (ok : Bool)
  | addWrite (malloc : Bool) (req : WriteReq) (value mask : Option (Vector UInt8 req.valueLen.val))
  | clearWrite
  | writeReset
  | readRcvAck
  | readDoneAck (ok : Bool)
  | readValue (malloc : Bool)
  | addRead (malloc : Bool) (req : ReadReq)
  | clearRead
  | readReset

def Adapter.other (a : Adapter) : Other → Adapter
  | .fwdl ready => { a with fwReady := ready }
  | .pktRcvAck => { a with pkt := a.pkt.rcvAck }
  | .pktDoneAck ok => { a with pkt := a.pkt.doneAck ok }
  | .pktRsp c2hContent malloc => { a with pkt := (c2hPktOfldRspHdl c2hContent malloc a.pkt).2 }
  | .pktPacket malloc => { a with pkt := (macPktOfldPacket malloc a.pkt).2 }
  | .pktReset => { a with pkt := .reset }
  | .efuseRcvAck => { a with efuse := a.efuse.rcvAck }
  | .efuseDoneAck ok => { a with efuse := a.efuse.doneAck ok }
  | .efuseRsp malloc => { a with efuse := (c2hDumpEfuseHdl malloc a.efuse).2 }
  | .efuseMap => { a with efuse := (macEfuseOfldMap a.efuse).2 }
  | .efuseReset => { a with efuse := { a.efuse with st := .idle } }
  | .writeRcvAck => { a with write := a.write.rcvAck }
  | .writeDoneAck ok => { a with write := a.write.doneAck .idle ok }
  | .addWrite malloc req value mask => { a with write := (macAddWriteRequest malloc req value mask a.write).2 }
  | .clearWrite => { a with write := (macClearRequest a.write).2 }
  | .writeReset => { a with write := a.write.reset }
  | .readRcvAck => { a with read := a.read.rcvAck }
  | .readDoneAck ok => { a with read := a.read.doneAck .done ok }
  | .readValue malloc => { a with read := (macReadOfldValue malloc a.read).2 }
  | .addRead malloc req => { a with read := (macAddReadRequest malloc req a.read).2 }
  | .clearRead => { a with read := (macClearRequest a.read).2 }
  | .readReset => { a with read := a.read.reset }

inductive Move
  | call (env : TxEnv) (call : Call)
  | other (other : Other)

def Adapter.step (a : Adapter) : Move → Adapter
  | .call env call => (a.call env call).st
  | .other other => a.other other

/-- What the claim of the state machine is: a call that returns an error and has transmitted nothing leaves the variables
as they were, and no call is refused after it that was not before. -/
def Restores (a : Adapter) (env : TxEnv) (call : Call) : Prop :=
  (a.call env call).ret ≠ .success → (a.call env call).sent = none → (a.call env call).st.sm = a.sm ∧
      ∀ env' later, ((a.call env call).st.call env' later).ret = .procErr → (a.call env' later).ret = .procErr

/-! ### When a command fails before `PLTFM_TX` -/

/-- There is no packet of the type, it has no room for the bytes, the firmware is not there any more, or there is no room
for the header and the descriptor. -/
def TxEnv.Fails (env : TxEnv) (type : H2cbType) (len : ℕ) : Prop :=
  match env.alloc type with
  | none => True
  | some h2cb => h2cb.room < len ∨ env.h2c.fwReady = false ∨
      h2cb.head < fwcmdHdrLen + txdescLen env.h2c.usb (h2cb.data.length + len + fwcmdHdrLen)

/-- What keeps `mac_add_pkt_ofld` from a command, after it has set the state. -/
def AddStops (env : TxEnv) (s : PktOfld) (len : ℕ) : Prop :=
  s.allocId = none ∨ match pktOfldType len with
    | none => True
    | some type => env.Fails type (sizeofPktOfldHdr + len)

/-- A packet call that is accepted fails where the state stays `MAC_AX_OFLD_H2C_SENDING`. -/
def StopsLate (a : Adapter) (env : TxEnv) : Call → Prop
  | .readPkt id => a.fwReady = true ∧ id ≠ pktOfldNotExistsId ∧ id ∈ a.pkt.idBitmap ∧ a.pkt.st = .idle ∧
      env.Fails .cmd sizeofPktOfldHdr
  | .delPkt id => a.fwReady = true ∧ id ≠ pktOfldNotExistsId ∧ id ∈ a.pkt.idBitmap ∧ a.pkt.usedIdCount ≠ 0 ∧
      a.pkt.st = .idle ∧ env.Fails .cmd sizeofPktOfldHdr
  | .addPkt pkt => a.fwReady = true ∧ a.pkt.freeIdCount ≠ 0 ∧ a.pkt.st = .idle ∧ AddStops env a.pkt pkt.length
  | .dumpEfuse malloc _ _ => a.fwReady = true ∧ a.efuse.st = .idle ∧
      (a.efuse.buf = false ∧ malloc = false ∨ env.Fails .cmd sizeofPktOfldHdr ∨ env.tx = false)
  | .writeOfld => a.fwReady = true ∧ a.write.usedSize + fwcmdHdrLen ≤ readOfldMaxLen ∧ a.write.h2c = .idle ∧
      a.write.request = .created ∧ (env.Fails .longData ((a.write.buf.getD []).take a.write.usedSize).length ∨ env.tx = false)
  | .readOfld => a.fwReady = true ∧ a.read.usedSize + fwcmdHdrLen ≤ readOfldMaxLen ∧ a.read.h2c = .idle ∧
      a.read.request = .created ∧ (env.Fails .longData ((a.read.buf.getD []).take a.read.usedSize).length ∨ env.tx = false)

section Cmd

variable {σ : Type*} {env : TxEnv} {type : H2cbType} (func : ℕ) (dack : Bool) {bytes : List UInt8} (undo after : σ → σ)
  (s : σ)

theorem h2cPktSetHdr_error {henv : H2cEnv} {h2cb : H2cb} (id : FwcmdId) (rack dack : Bool)
    (h : henv.fwReady = false ∨ h2cb.head < fwcmdHdrLen) :
    ∃ ret, ret ≠ MacRet.success ∧ h2cPktSetHdr henv h2cb id rack dack = .error ret := by
  unfold h2cPktSetHdr h2cbPush
  rw [length_fwcmdHdr]
  by_cases hrdy : henv.fwReady = false
  · exact ⟨.fwNonRdy, nofun, if_pos hrdy⟩
  · rw [if_neg hrdy, if_pos (h.resolve_left hrdy)]; exact ⟨.nptr, nofun, rfl⟩

theorem h2cFinish_error (h2cb : H2cb) (h : env.h2c.fwReady = false ∨
    h2cb.head < fwcmdHdrLen + txdescLen env.h2c.usb (h2cb.data.length + fwcmdHdrLen)) :
    ∃ ret, ret ≠ MacRet.success ∧ h2cFinish env func dack h2cb = .error ret := by
  unfold h2cFinish
  by_cases hearly : env.h2c.fwReady = false ∨ h2cb.head < fwcmdHdrLen
  · obtain ⟨ret, hret, heq⟩ := h2cPktSetHdr_error (fwOfldId func) true dack hearly
    exact ⟨ret, hret, by rw [heq]⟩
  · obtain ⟨hrdy, hhead⟩ := not_or.mp hearly
    have hlong := h.resolve_left hrdy
    rw [h2cPktSetHdr_ok _ _ _ _ _ (Bool.eq_true_of_not_eq_false hrdy) (Nat.not_lt.mp hhead)]
    simp only
    rw [h2cPktBuildTxd_eq, if_pos]
    · exact ⟨.nptr, nofun, rfl⟩
    · simp only [List.length_append, length_fwcmdHdr]
      rw [Nat.add_comm fwcmdHdrLen h2cb.data.length]; omega

theorem h2cFinish_ok (h2cb : H2cb) (hrdy : env.h2c.fwReady ≠ false)
    (hhead : fwcmdHdrLen + txdescLen env.h2c.usb (h2cb.data.length + fwcmdHdrLen) ≤ h2cb.head) :
    ∃ sent, h2cFinish env func dack h2cb = .ok sent := by
  unfold h2cFinish
  rw [h2cPktSetHdr_ok _ _ _ _ _ (Bool.eq_true_of_not_eq_false hrdy) (by omega)]
  simp only
  rw [h2cPktBuildTxd_eq, if_neg]
  · exact ⟨_, rfl⟩
  · simp only [List.length_append, length_fwcmdHdr]
    rw [Nat.add_comm fwcmdHdrLen h2cb.data.length]; omega

theorem h2cCmd_fails (h : env.Fails type bytes.length) :
    ∃ ret, ret ≠ MacRet.success ∧ h2cCmd env type func dack bytes undo after s = .fail (.mac ret) s := by
  unfold TxEnv.Fails at h
  unfold h2cCmd h2cbAllocPut
  cases halloc : env.alloc type with
  | none => exact ⟨.nptr, nofun, rfl⟩
  | some h2cb =>
    rw [halloc] at h
    simp only at h ⊢
    by_cases hroom : h2cb.room < bytes.length
    · have hput : h2cbPut h2cb bytes = none := if_pos hroom
      rw [hput]; exact ⟨.noBuf, nofun, rfl⟩
    · rw [h2cbPut_some (Nat.not_lt.mp hroom)]
      have hlate := h.resolve_left hroom
      rw [← List.length_append] at hlate
      obtain ⟨ret, hret, heq⟩ := h2cFinish_error func dack
        { h2cb with data := h2cb.data ++ bytes, room := h2cb.room - bytes.length } hlate
      refine ⟨ret, hret, ?_⟩
      simp only
      unfold h2cSend
      rw [heq]

theorem h2cCmd_tx (h : ¬ env.Fails type bytes.length) : ∃ h2cb, h2cCmd env type func dack bytes undo after s =
      if env.tx = true then ⟨.success, some h2cb, after s⟩ else .fail (.mac .txFail) (undo s) := by
  unfold TxEnv.Fails at h
  unfold h2cCmd h2cbAllocPut
  cases halloc : env.alloc type with
  | none =>
    rw [halloc] at h; exact absurd trivial h
  | some h2cb =>
    rw [halloc] at h
    simp only at h ⊢
    obtain ⟨hroom, hlate⟩ := not_or.mp h
    obtain ⟨hrdy, hhead⟩ := not_or.mp hlate
    rw [← List.length_append] at hhead
    rw [h2cbPut_some (Nat.not_lt.mp hroom)]
    obtain ⟨sent, heq⟩ := h2cFinish_ok func dack
      { h2cb with data := h2cb.data ++ bytes, room := h2cb.room - bytes.length } hrdy (Nat.not_lt.mp hhead)
    refine ⟨sent, ?_⟩
    simp only
    unfold h2cSend
    rw [heq]

end Cmd

/-! ### The calls -/

section Pkt

variable {fwReady : Bool} {env : TxEnv} {op : PktOfldOp} {id : ℕ} {pkt : List UInt8} {s : PktOfld}

theorem length_fwcmdPacketOfld (id : ℕ) (op : PktOfldOp) (len : ℕ) :
    (fwcmdPacketOfld id op len).length = sizeofPktOfldHdr := length_le32 _

theorem pktOfldCmd_late (hst : s.st = .idle) (h : env.Fails .cmd sizeofPktOfldHdr) :
    ∃ ret, ret ≠ MacRet.success ∧ pktOfldCmd env op id s = .fail (.mac ret) { s with st := .sending } := by
  unfold pktOfldCmd
  rw [if_neg (not_not_intro hst)]
  exact h2cCmd_fails _ _ _ _ _ (by rw [length_fwcmdPacketOfld]; exact h)

theorem pktOfldCmd_kept (h : ¬ (s.st = .idle ∧ env.Fails .cmd sizeofPktOfldHdr)) :
    (pktOfldCmd env op id s).ret = .success ∨ (pktOfldCmd env op id s).st = s := by
  unfold pktOfldCmd
  by_cases hst : s.st = .idle
  · rw [if_neg (not_not_intro hst)]
    have hF : ¬ env.Fails .cmd (fwcmdPacketOfld id op 0).length := by
      rw [length_fwcmdPacketOfld]; exact fun hF => h ⟨hst, hF⟩
    obtain ⟨h2cb, heq⟩ := h2cCmd_tx funcPacketOfld true PktOfld.undo (PktOfld.sentOp op)
      { s with st := .sending } hF
    rw [heq]
    by_cases htx : env.tx = true
    · rw [if_pos htx]; exact Or.inl rfl
    · rw [if_neg htx]
      refine Or.inr ?_
      show ({ s with st := .idle } : PktOfld) = s
      rw [← hst]
  · rw [if_pos hst]; exact Or.inr rfl

theorem macAddPktOfld_eq {id : ℕ} {type : H2cbType} (hrdy : fwReady = true) (hfree : s.freeIdCount ≠ 0)
    (hst : s.st = .idle) (hid : s.allocId = some id) (htype : pktOfldType pkt.length = some type) :
    (macAddPktOfld fwReady env pkt s).1 =
      h2cCmd env type funcPacketOfld true (fwcmdPacketOfld id .add pkt.length ++ pkt) PktOfld.undo (PktOfld.sentOp .add)
        { s with st := .sending } := by
  have hid' : ({ s with st := .sending } : PktOfld).allocId = some id := hid
  unfold macAddPktOfld h2cCmd h2cbAllocPut
  rw [if_neg (by rw [hrdy]; nofun), if_neg hfree, if_neg (not_not_intro hst)]
  simp only
  rw [hid', htype]
  simp only
  cases env.alloc type with
  | none => rfl
  | some h2cb =>
    simp only
    unfold h2cbPut
    simp only [List.length_append]
    by_cases hhdr : h2cb.room < (fwcmdPacketOfld id .add pkt.length).length
    · rw [if_pos hhdr, if_pos (by omega)]
    · rw [if_neg hhdr]
      by_cases hall : h2cb.room < (fwcmdPacketOfld id .add pkt.length).length + pkt.length
      · rw [if_pos hall]
        simp only
        rw [if_pos (by omega)]
      · rw [if_neg hall]
        simp only
        rw [if_neg (by omega), Nat.sub_sub, List.append_assoc]

theorem addPkt_early (h : ¬ (fwReady = true ∧ s.freeIdCount ≠ 0 ∧ s.st = .idle)) :
    ∃ ret, ret ≠ Ret.success ∧ (macAddPktOfld fwReady env pkt s).1 = .fail ret s := by
  unfold macAddPktOfld
  by_cases hrdy : fwReady = false
  · exact ⟨.noFw, nofun, by rw [if_pos hrdy]⟩
  by_cases hfree : s.freeIdCount = 0
  · exact ⟨.mac .noBuf, by decide, by rw [if_neg hrdy, if_pos hfree]⟩
  by_cases hst : s.st = .idle
  · exact absurd ⟨Bool.eq_true_of_not_eq_false hrdy, hfree, hst⟩ h
  · exact ⟨.procErr, nofun, by rw [if_neg hrdy, if_neg hfree, if_pos hst]⟩

section

variable (hrdy : fwReady = true) (hfree : s.freeIdCount ≠ 0) (hst : s.st = .idle)

include hrdy hfree hst

theorem addPkt_late (h : AddStops env s pkt.length) : ∃ ret, ret ≠ Ret.success ∧
      (macAddPktOfld fwReady env pkt s).1 = .fail ret { s with st := .sending } := by
  have hallocId : ({ s with st := .sending } : PktOfld).allocId = s.allocId := rfl
  cases hid : s.allocId with
  | none =>
    refine ⟨.mac .noBuf, nofun, ?_⟩
    unfold macAddPktOfld
    rw [if_neg (by rw [hrdy]; nofun), if_neg hfree, if_neg (not_not_intro hst)]
    simp only
    rw [hallocId, hid]
  | some id =>
    cases htype : pktOfldType pkt.length with
    | none =>
      refine ⟨.bufSz, nofun, ?_⟩
      unfold macAddPktOfld
      rw [if_neg (by rw [hrdy]; nofun), if_neg hfree, if_neg (not_not_intro hst)]
      simp only
      rw [hallocId, hid, htype]
    | some type =>
      have hF := h.resolve_left (by rw [hid]; nofun)
      rw [htype] at hF
      rw [← length_fwcmdPacketOfld id .add pkt.length, ← List.length_append] at hF
      obtain ⟨ret, hret, heq⟩ := h2cCmd_fails funcPacketOfld true PktOfld.undo (PktOfld.sentOp .add)
        { s with st := .sending } hF
      refine ⟨.mac ret, Ret.mac_ne hret, ?_⟩
      rw [macAddPktOfld_eq hrdy hfree hst hid htype, heq]

theorem addPkt_past (h : ¬ AddStops env s pkt.length) : ∃ id type h2cb, s.allocId = some id ∧
      pktOfldType pkt.length = some type ∧ ¬ env.Fails type (sizeofPktOfldHdr + pkt.length) ∧
      (macAddPktOfld fwReady env pkt s).1 = if env.tx = true then ⟨.success, some h2cb, { s with st := .sending }.sentOp .add⟩
        else .fail (.mac .txFail) s := by
  unfold AddStops at h
  obtain ⟨hid, hF⟩ := not_or.mp h
  obtain ⟨id, hid⟩ := Option.ne_none_iff_exists'.mp hid
  cases htype : pktOfldType pkt.length with
  | none =>
    rw [htype] at hF; exact absurd trivial hF
  | some type =>
    rw [htype] at hF
    have hF' := hF
    rw [← length_fwcmdPacketOfld id .add pkt.length, ← List.length_append] at hF'
    obtain ⟨h2cb, heq⟩ := h2cCmd_tx funcPacketOfld true PktOfld.undo (PktOfld.sentOp .add)
      { s with st := .sending } hF'
    have hundo : PktOfld.undo { s with st := .sending } = s := by
      show ({ s with st := .idle } : PktOfld) = s
      rw [← hst]
    rw [hundo] at heq
    exact ⟨id, type, h2cb, hid, rfl, hF, (macAddPktOfld_eq hrdy hfree hst hid htype).trans heq⟩

end

theorem addPkt_kept (h : ¬ (fwReady = true ∧ s.freeIdCount ≠ 0 ∧ s.st = .idle ∧ AddStops env s pkt.length)) :
    (macAddPktOfld fwReady env pkt s).1.ret = .success ∨ (macAddPktOfld fwReady env pkt s).1.st = s := by
  by_cases hacc : fwReady = true ∧ s.freeIdCount ≠ 0 ∧ s.st = .idle
  · obtain ⟨hrdy, hfree, hst⟩ := hacc
    obtain ⟨_, _, h2cb, -, -, -, heq⟩ := addPkt_past hrdy hfree hst fun hstop => h ⟨hrdy, hfree, hst, hstop⟩
    rw [heq]
    split
    · exact Or.inl rfl
    · exact Or.inr rfl
  · obtain ⟨ret, -, heq⟩ := addPkt_early hacc
    rw [heq]; exact Or.inr rfl

end Pkt

section Lists

variable {fwReady : Bool} {env : TxEnv} {func : ℕ} {s : ReqOfld}

theorem reqOfldSend_late (hrdy : fwReady = true) (hlen : s.usedSize + fwcmdHdrLen ≤ readOfldMaxLen) (hst : s.h2c = .idle)
    (hreq : s.request = .created)
    (h : env.Fails .longData ((s.buf.getD []).take s.usedSize).length ∨ env.tx = false) :
    ∃ ret st, ret ≠ Ret.success ∧ st.request ≠ .created ∧ reqOfldSend func fwReady env s = .fail ret st := by
  have hcnv : s.request.cnv .h2cSent = some .h2cSent := by rw [hreq]; rfl
  unfold reqOfldSend
  rw [if_neg (by rw [hrdy]; nofun), if_neg (Nat.not_lt.mpr hlen), if_neg (not_not_intro hst),
    if_neg (not_not_intro hreq), hcnv]
  simp only
  by_cases hF : env.Fails .longData ((s.buf.getD []).take s.usedSize).length
  · obtain ⟨ret, hret, heq⟩ := h2cCmd_fails func true (fun s : ReqOfld => { s with request := .idle, h2c := .idle }) id
      { s with request := .h2cSent, h2c := .sending } hF
    have hne : Ret.mac ret ≠ .success := Ret.mac_ne hret
    rw [heq]
    refine ⟨.mac ret, { s with request := .h2cSent, h2c := .sending }, hne, nofun, if_pos hne⟩
  · obtain ⟨h2cb, heq⟩ := h2cCmd_tx func true (fun s : ReqOfld => { s with request := .idle, h2c := .idle }) id
      { s with request := .h2cSent, h2c := .sending } hF
    rw [if_neg (by rw [h.resolve_left hF]; nofun)] at heq
    have hne : Ret.mac .txFail ≠ .success := by decide
    rw [heq]
    exact ⟨.mac .txFail, { s with request := .idle, h2c := .idle }, hne, nofun, if_pos hne⟩

theorem reqOfldSend_kept (h : ¬ (fwReady = true ∧ s.usedSize + fwcmdHdrLen ≤ readOfldMaxLen ∧ s.h2c = .idle ∧
      s.request = .created ∧ (env.Fails .longData ((s.buf.getD []).take s.usedSize).length ∨ env.tx = false))) :
    (reqOfldSend func fwReady env s).ret = .success ∨ (reqOfldSend func fwReady env s).st = s := by
  unfold reqOfldSend
  by_cases hrdy : fwReady = false
  · rw [if_pos hrdy]; exact Or.inr rfl
  rw [if_neg hrdy]
  by_cases hlen : s.usedSize + fwcmdHdrLen > readOfldMaxLen
  · rw [if_pos hlen]; exact Or.inr rfl
  rw [if_neg hlen]
  by_cases hst : s.h2c = .idle
  · rw [if_neg (not_not_intro hst)]
    by_cases hreq : s.request = .created
    · have hcnv : s.request.cnv .h2cSent = some .h2cSent := by rw [hreq]; rfl
      rw [if_neg (not_not_intro hreq), hcnv]
      simp only
      obtain ⟨hF, htx⟩ := not_or.mp fun hstop =>
        h ⟨Bool.eq_true_of_not_eq_false hrdy, Nat.not_lt.mp hlen, hst, hreq, hstop⟩
      obtain ⟨h2cb, heq⟩ := h2cCmd_tx func true (fun s : ReqOfld => { s with request := .idle, h2c := .idle }) id
        { s with request := .h2cSent, h2c := .sending } hF
      rw [if_pos (Bool.eq_true_of_not_eq_false htx)] at heq
      rw [heq]; exact Or.inl rfl
    · rw [if_pos hreq]; exact Or.inr rfl
  · rw [if_pos hst]; exact Or.inr rfl

end Lists

section Efuse

variable {fwReady malloc : Bool} {env : TxEnv} {efuseSize : ℕ} {type : DumpType} {s : EfuseOfld}

theorem length_fwcmdDumpEfuse (efuseSize : ℕ) (type : DumpType) :
    (fwcmdDumpEfuse efuseSize type).length = sizeofPktOfldHdr := length_le32 _

theorem dumpEfuse_late (hrdy : fwReady = true) (hst : s.st = .idle)
    (h : s.buf = false ∧ malloc = false ∨ env.Fails .cmd sizeofPktOfldHdr ∨ env.tx = false) :
    ∃ ret st, ret ≠ Ret.success ∧ st.st = .sending ∧
      macDumpEfuseOfld fwReady env malloc efuseSize type s = .fail ret st := by
  unfold macDumpEfuseOfld
  rw [if_neg (by rw [hrdy]; nofun), if_neg (not_not_intro hst)]
  simp only
  by_cases hbuf : s.buf = false ∧ malloc = false
  · exact ⟨.mac .bufAlloc, { s with st := .sending }, nofun, rfl, if_pos hbuf⟩
  rw [if_neg hbuf]
  rw [← length_fwcmdDumpEfuse efuseSize type] at h
  by_cases hF : env.Fails .cmd (fwcmdDumpEfuse efuseSize type).length
  · obtain ⟨ret, hret, heq⟩ := h2cCmd_fails funcDumpEfuse false id id { s with st := .sending, buf := true } hF
    exact ⟨.mac ret, _, Ret.mac_ne hret, rfl, heq⟩
  · obtain ⟨h2cb, heq⟩ := h2cCmd_tx funcDumpEfuse false id id { s with st := .sending, buf := true } hF
    rw [heq, if_neg (by rw [(h.resolve_left hbuf).resolve_left hF]; nofun)]
    exact ⟨.mac .txFail, _, nofun, rfl, rfl⟩

theorem dumpEfuse_kept (h : ¬ (fwReady = true ∧ s.st = .idle ∧
      (s.buf = false ∧ malloc = false ∨ env.Fails .cmd sizeofPktOfldHdr ∨ env.tx = false))) :
    (macDumpEfuseOfld fwReady env malloc efuseSize type s).ret = .success ∨
      (macDumpEfuseOfld fwReady env malloc efuseSize type s).st = s := by
  unfold macDumpEfuseOfld
  by_cases hrdy : fwReady = false
  · rw [if_pos hrdy]; exact Or.inr rfl
  rw [if_neg hrdy]
  by_cases hst : s.st = .idle
  · rw [if_neg (not_not_intro hst)]
    simp only
    obtain ⟨hbuf, hlate⟩ := not_or.mp fun hstop => h ⟨Bool.eq_true_of_not_eq_false hrdy, hst, hstop⟩
    obtain ⟨hF, htx⟩ := not_or.mp hlate
    rw [if_neg hbuf]
    rw [← length_fwcmdDumpEfuse efuseSize type] at hF
    obtain ⟨h2cb, heq⟩ := h2cCmd_tx funcDumpEfuse false id id { s with st := .sending, buf := true } hF
    rw [heq, if_pos (Bool.eq_true_of_not_eq_false htx)]; exact Or.inl rfl
  · rw [if_pos hst]; exact Or.inr rfl

end Efuse

/-! ### One call, and runs -/

variable {a : Adapter} {env : TxEnv} {call : Call}

variable {s : PktOfld} {id : ℕ}

theorem getBitmap_eq_false (hid : id ≠ pktOfldNotExistsId) : s.getBitmap id = false ↔ id ∉ s.idBitmap := by
  unfold PktOfld.getBitmap
  rw [decide_eq_false_iff_not, not_or, and_iff_right hid]

variable {fwReady : Bool}

theorem macReadPktOfld_eq (hrdy : fwReady = true) (hne : id ≠ pktOfldNotExistsId) (hid : id ∈ s.idBitmap) :
    macReadPktOfld fwReady env id s = pktOfldCmd env .read id s := by
  unfold macReadPktOfld
  rw [if_neg (by rw [hrdy]; nofun), if_neg hne, if_neg fun h => (getBitmap_eq_false hne).mp h hid]

theorem macDelPktOfld_eq (hrdy : fwReady = true)
    (hne : id ≠ pktOfldNotExistsId) (hid : id ∈ s.idBitmap) (hused : s.usedIdCount ≠ 0) :
    macDelPktOfld fwReady env id s = pktOfldCmd env .del id s := by
  unfold macDelPktOfld
  rw [if_neg (by rw [hrdy]; nofun), if_neg hne, if_neg fun h => (getBitmap_eq_false hne).mp h hid, if_neg hused]

theorem readPkt_kept (h : ¬ (fwReady = true ∧ id ≠ pktOfldNotExistsId ∧
      id ∈ s.idBitmap ∧ s.st = .idle ∧ env.Fails .cmd sizeofPktOfldHdr)) :
    (macReadPktOfld fwReady env id s).ret = .success ∨ (macReadPktOfld fwReady env id s).st = s := by
  by_cases hacc : fwReady = true ∧ id ≠ pktOfldNotExistsId ∧ id ∈ s.idBitmap
  · obtain ⟨hrdy, hne, hid⟩ := hacc
    rw [macReadPktOfld_eq hrdy hne hid]; exact pktOfldCmd_kept fun hF => h ⟨hrdy, hne, hid, hF⟩
  · refine Or.inr ?_
    unfold macReadPktOfld
    by_cases hrdy : fwReady = false
    · rw [if_pos hrdy]; rfl
    rw [if_neg hrdy]
    by_cases hne : id = pktOfldNotExistsId
    · rw [if_pos hne]; rfl
    rw [if_neg hne, if_pos ((getBitmap_eq_false hne).mpr fun hid =>
      hacc ⟨Bool.eq_true_of_not_eq_false hrdy, hne, hid⟩)]
    rfl

theorem delPkt_kept (h : ¬ (fwReady = true ∧ id ≠ pktOfldNotExistsId ∧
      id ∈ s.idBitmap ∧ s.usedIdCount ≠ 0 ∧ s.st = .idle ∧ env.Fails .cmd sizeofPktOfldHdr)) :
    (macDelPktOfld fwReady env id s).ret = .success ∨ (macDelPktOfld fwReady env id s).st = s := by
  by_cases hacc : fwReady = true ∧ id ≠ pktOfldNotExistsId ∧ id ∈ s.idBitmap ∧ s.usedIdCount ≠ 0
  · obtain ⟨hrdy, hne, hid, hused⟩ := hacc
    rw [macDelPktOfld_eq hrdy hne hid hused]
    exact pktOfldCmd_kept fun hF => h ⟨hrdy, hne, hid, hused, hF⟩
  · refine Or.inr ?_
    unfold macDelPktOfld
    by_cases hrdy : fwReady = false
    · rw [if_pos hrdy]; rfl
    rw [if_neg hrdy]
    by_cases hne : id = pktOfldNotExistsId
    · rw [if_pos hne]; rfl
    rw [if_neg hne]
    by_cases hid : id ∈ s.idBitmap
    · rw [if_neg fun h => (getBitmap_eq_false hne).mp h hid, if_pos]
      · rfl
      · exact not_not.mp fun hused => hacc ⟨Bool.eq_true_of_not_eq_false hrdy, hne, hid, hused⟩
    · rw [if_pos ((getBitmap_eq_false hne).mpr hid)]; rfl

theorem late_map {σ : Type*} {f : σ → Adapter} {out : Out σ} {ret : Ret} {st : σ} (hout : out = .fail ret st)
    (hret : ret ≠ .success) (hsm : (f st).sm ≠ a.sm) :
    (out.map f).ret ≠ .success ∧ (out.map f).sent = none ∧ (out.map f).st.sm ≠ a.sm := by
  rw [hout]; exact ⟨hret, rfl, hsm⟩

theorem kept_map {σ : Type*} {f : σ → Adapter} {out : Out σ} {s : σ} (h : out.ret = .success ∨ out.st = s)
    (hf : f s = a) : (out.map f).ret = .success ∨ (out.map f).st = a := by
  rcases h with hret | hst
  · exact Or.inl hret
  · refine Or.inr ?_
    show f out.st = a
    rw [hst, hf]

theorem call_late (h : StopsLate a env call) :
    (a.call env call).ret ≠ .success ∧ (a.call env call).sent = none ∧ (a.call env call).st.sm ≠ a.sm := by
  have hpkt : a.pkt.st = .idle → ({ a with pkt := { a.pkt with st := .sending } } : Adapter).sm ≠ a.sm := by
    intro hst h
    have h : OfldH2c.sending = a.pkt.st := congrArg Sm.pktOfld h
    rw [hst] at h; exact nomatch h
  cases call with
  | readPkt id =>
    obtain ⟨hrdy, hne, hid, hst, hF⟩ := h
    obtain ⟨ret, hret, heq⟩ := pktOfldCmd_late hst hF
    exact late_map ((macReadPktOfld_eq hrdy hne hid).trans heq) (Ret.mac_ne hret) (hpkt hst)
  | delPkt id =>
    obtain ⟨hrdy, hne, hid, hused, hst, hF⟩ := h
    obtain ⟨ret, hret, heq⟩ := pktOfldCmd_late hst hF
    exact late_map ((macDelPktOfld_eq hrdy hne hid hused).trans heq) (Ret.mac_ne hret) (hpkt hst)
  | addPkt pkt =>
    obtain ⟨hrdy, hfree, hst, hstop⟩ := h
    obtain ⟨ret, hret, heq⟩ := addPkt_late hrdy hfree hst hstop
    exact late_map heq hret (hpkt hst)
  | dumpEfuse malloc efuseSize type =>
    obtain ⟨hrdy, hst, hstop⟩ := h
    obtain ⟨ret, st, hret, hsend, heq⟩ := dumpEfuse_late hrdy hst hstop
    refine late_map heq hret fun h => ?_
    have h : st.st = a.efuse.st := congrArg Sm.efuseOfld h
    rw [hsend, hst] at h; exact nomatch h
  | writeOfld =>
    obtain ⟨hrdy, hlen, hst, hreq, hstop⟩ := h
    obtain ⟨ret, st, hret, hleft, heq⟩ := reqOfldSend_late hrdy hlen hst hreq hstop
    refine late_map heq hret fun h => hleft ?_
    have h : st.request = a.write.request := congrArg Sm.writeRequest h
    rw [h, hreq]
  | readOfld =>
    obtain ⟨hrdy, hlen, hst, hreq, hstop⟩ := h
    obtain ⟨ret, st, hret, hleft, heq⟩ := reqOfldSend_late hrdy hlen hst hreq hstop
    refine late_map heq hret fun h => hleft ?_
    have h : st.request = a.read.request := congrArg Sm.readRequest h
    rw [h, hreq]

theorem call_kept (h : ¬ StopsLate a env call) : (a.call env call).ret = .success ∨ (a.call env call).st = a := by
  cases call with
  | readPkt id => exact kept_map (readPkt_kept h) rfl
  | delPkt id => exact kept_map (delPkt_kept h) rfl
  | addPkt pkt => exact kept_map (addPkt_kept h) rfl
  | dumpEfuse malloc efuseSize type => exact kept_map (dumpEfuse_kept h) rfl
  | writeOfld => exact kept_map (reqOfldSend_kept h) rfl
  | readOfld => exact kept_map (reqOfldSend_kept h) rfl

theorem restores_iff : Restores a env call ↔ ¬ StopsLate a env call := by
  constructor
  · intro hres hlate
    obtain ⟨hret, hsent, hsm⟩ := call_late hlate
    exact hsm (hres hret hsent).1
  · intro hkept hret _
    have hst := (call_kept hkept).resolve_left hret
    exact ⟨congrArg Adapter.sm hst, fun env' later h => by rw [← hst]; exact h⟩

/-- **Failing calls restore the state machine** in a run exactly when none of the calls fails between the change of a
variable and `PLTFM_TX`, nor, where it is not a packet call, in that. -/
theorem calls_restore_iff (a : Adapter) (moves : List Move) :
    (∀ pre env call, pre ++ [Move.call env call] <+: moves → Restores (pre.foldl Adapter.step a) env call) ↔
      ∀ pre env call, pre ++ [Move.call env call] <+: moves → ¬ StopsLate (pre.foldl Adapter.step a) env call :=
  forall₄_congr fun _ _ _ _ => restores_iff

/-- Nothing has been sent, and the firmware is there. -/
def Adapter.start : Adapter :=
  let req : ReqOfld := ⟨.idle, .idle, none, none, 0, 0, 0, 0⟩
  ⟨true, .reset, ⟨.idle, false⟩, req, req⟩

def TxEnv.noPkt : TxEnv := ⟨fun _ => none, ⟨true, true, 0⟩, true⟩

/-- The pool is empty when the efuse is to be dumped: the next dump is refused as if the first was on its way. -/
theorem dumpEfuse_not_restored : ¬ ∀ (a : Adapter) (moves : List Move) (pre : List Move) (env : TxEnv) (call : Call),
    pre ++ [Move.call env call] <+: moves → Restores (pre.foldl Adapter.step a) env call := by
  intro h
  have hres := h .start [.call .noPkt (.dumpEfuse true 1024 .other)] [] .noPkt (.dumpEfuse true 1024 .other)
    (List.prefix_refl _)
  have hsm := (hres (by decide) (by decide)).2 .good
    (.dumpEfuse true 1024 .other) (by decide)
  exact absurd hsm (by decide)

end Rtl8852cu.Fwofld
