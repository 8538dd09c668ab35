import Rtl8852cu.Fwofld.CallRuns
import Mathlib.Data.Finset.Card

/-!
# The ids of the packet offload

Packets that are added to the firmware, read and deleted, in any order of the calls and of the answers to them. An answer
is an acknowledgement of reception, one of completion, or a response; the responses move the bits of `id_bitmap` and the
counters, the acknowledgements let the next call through.

The firmware holds a packet from the command that adds it to the one that deletes it; it may refuse either, and then
responds with the length zero. It does not delete what it does not hold.
-/

namespace Rtl8852cu.Fwofld

open Lib H2c

/-- A command the firmware has, and which of its answers have come. -/
structure PktCmd where
  op : PktOfldOp
  id : ℕ
  /-- The firmware has done it. -/
  done : Bool
  /-- What the acknowledgement of completion says. -/
  ok : Bool
  rcvAcked : Bool
  doneAcked : Bool
  responded : Bool
  deriving DecidableEq, Repr

/-- The driver, the commands that were sent, and the ids of the packets that the firmware holds. -/
structure Sys where
  drv : PktOfld
  cmds : List PktCmd
  held : Finset ℕ
  deriving DecidableEq

inductive Step
  | add (fwReady : Bool) (env : TxEnv) (pkt : List UInt8) (done ok : Bool)
  | del (fwReady : Bool) (env : TxEnv) (id : ℕ) (done ok : Bool)
  | read (fwReady : Bool) (env : TxEnv) (id : ℕ) (done ok : Bool)
  | rcvAck (k : ℕ)
  | doneAck (k : ℕ)
  | rsp (k : ℕ) (c2hContent : ℕ) (malloc : Bool)
  | packet (malloc : Bool)

/-- What the firmware holds after a command. -/
def heldAfter (op : PktOfldOp) (id : ℕ) (done : Bool) (held : Finset ℕ) : Finset ℕ :=
  if done = false then held
  else if op = .add then insert id held
  else if op = .del then held.erase id
  else held

/-- A call; the firmware has the command when the call has transmitted it. -/
def Sys.sent (s : Sys) (out : Out PktOfld) (op : PktOfldOp) (id : ℕ) (done ok : Bool) : Sys :=
  if out.sent = none then { s with drv := out.st }
  else ⟨out.st, s.cmds ++ [⟨op, id, done, ok, false, false, false⟩], heldAfter op id done s.held⟩

def Sys.cmd (s : Sys) (k : ℕ) (P : PktCmd → Prop) : Prop := ∃ c, s.cmds[k]? = some c ∧ P c

def Sys.step (s : Sys) : Step → Sys
  | .add fwReady env pkt done ok =>
    s.sent (macAddPktOfld fwReady env pkt s.drv).1 .add ((macAddPktOfld fwReady env pkt s.drv).2.getD 0) done ok
  | .del fwReady env id done ok => s.sent (macDelPktOfld fwReady env id s.drv) .del id done ok
  | .read fwReady env id done ok => s.sent (macReadPktOfld fwReady env id s.drv) .read id done ok
  | .rcvAck k => { s with
      drv := s.drv.rcvAck
      cmds := s.cmds.modify k fun c => { c with rcvAcked := true } }
  | .doneAck k => { s with
      drv := s.drv.doneAck ((s.cmds[k]?.map PktCmd.ok).getD false)
      cmds := s.cmds.modify k fun c => { c with doneAcked := true } }
  | .rsp k c2hContent malloc => { s with
      drv := (c2hPktOfldRspHdl c2hContent malloc s.drv).2
      cmds := s.cmds.modify k fun c => { c with responded := true } }
  | .packet malloc => { s with drv := (macPktOfldPacket malloc s.drv).2 }

/-- Each answer comes once, the acknowledgement of reception first, and a response is one to its command. -/
def Sys.Ok (s : Sys) : Step → Prop
  | .add _ _ _ _ _ => True
  | .del _ _ id done _ => done = true → id ∈ s.held
  | .read _ _ _ _ _ => True
  | .rcvAck k => s.cmd k fun c => c.rcvAcked = false
  | .doneAck k => s.cmd k fun c => c.rcvAcked = true ∧ c.doneAcked = false
  | .rsp k c2hContent _ => s.cmd k fun c => c.rcvAcked = true ∧ c.responded = false ∧
      getField c2hContent 0 0xff = c.id ∧ getField c2hContent 8 0x7 = c.op.val ∧
      (getField c2hContent 16 0xffff ≠ 0 ↔ c.done = true)
  | .packet _ => True

/-- The counters agree with the bitmap, in which the reserved id is always marked. -/
structure Counted (s : PktOfld) : Prop where
  reserved : pktOfldNotExistsId ∈ s.idBitmap
  bound : ∀ id ∈ s.idBitmap, id < pktOfldMaxCount
  used : s.usedIdCount = s.idBitmap.card
  free : s.freeIdCount + s.usedIdCount = pktOfldMaxCount

/-- `mac_add_pkt_ofld` does not hand out the id of a packet that the firmware holds. -/
def Fresh (s : Sys) : Step → Prop
  | .add fwReady env pkt _ _ => ∀ id, (macAddPktOfld fwReady env pkt s.drv).1.ret = .success →
      (macAddPktOfld fwReady env pkt s.drv).2 = some id → id ∉ s.held
  | _ => True

def AddGoes (fwReady : Bool) (env : TxEnv) (len : ℕ) (s : PktOfld) : Prop :=
  fwReady = true ∧ s.freeIdCount ≠ 0 ∧ s.st = .idle ∧ ¬ AddStops env s len ∧ env.tx = true

/-- A call that goes through finds the id free that a packet has which was added, and the response to that has not
come. -/
def Early (s : Sys) : Step → Prop
  | .add fwReady env pkt _ _ => AddGoes fwReady env pkt.length s.drv ∧
      ∃ c ∈ s.cmds, c.op = .add ∧ c.done = true ∧ c.responded = false ∧ s.drv.allocId = some c.id
  | _ => False

def Sys.start : Sys := ⟨.reset, [], ∅⟩

/-! ### What the calls leave alone -/

def SameIds (s s' : PktOfld) : Prop :=
  s'.idBitmap = s.idBitmap ∧ s'.freeIdCount = s.freeIdCount ∧ s'.usedIdCount = s.usedIdCount

theorem SameIds.refl (s : PktOfld) : SameIds s s := ⟨rfl, rfl, rfl⟩

theorem SameIds.counted {s s' : PktOfld} (h : SameIds s s') (hc : Counted s) : Counted s' := by
  obtain ⟨hbit, hfree, hused⟩ := h
  exact ⟨by rw [hbit]; exact hc.reserved, by rw [hbit]; exact hc.bound, by rw [hbit, hused]; exact hc.used,
    by rw [hfree, hused]; exact hc.free⟩

section Calls

variable {fwReady : Bool} {env : TxEnv} {id : ℕ} {pkt : List UInt8} {s : PktOfld}

theorem h2cSend_st {σ : Type*} {func : ℕ} {dack : Bool} {h2cb : H2cb} {undo after : σ → σ} {st : σ} {P : σ → Prop}
    (h : P st) (hundo : P (undo st)) (hafter : P (after st)) : P (h2cSend env func dack h2cb undo after st).st := by
  unfold h2cSend
  split
  · exact h
  · split
    · exact hafter
    · exact hundo

theorem h2cCmd_st {σ : Type*} {type : H2cbType} {func : ℕ} {dack : Bool} {bytes : List UInt8} {undo after : σ → σ}
    {st : σ} {P : σ → Prop} (h : P st) (hundo : P (undo st)) (hafter : P (after st)) :
    P (h2cCmd env type func dack bytes undo after st).st := by
  unfold h2cCmd
  split
  · exact h
  · exact h2cSend_st h hundo hafter

theorem pktOfldCmd_ids (op : PktOfldOp) : SameIds s (pktOfldCmd env op id s).st := by
  unfold pktOfldCmd
  split
  · exact .refl s
  · exact h2cCmd_st ⟨rfl, rfl, rfl⟩ ⟨rfl, rfl, rfl⟩ ⟨rfl, rfl, rfl⟩

theorem readPkt_ids : SameIds s (macReadPktOfld fwReady env id s).st := by
  unfold macReadPktOfld
  split
  · exact .refl s
  split
  · exact .refl s
  split
  · exact .refl s
  · exact pktOfldCmd_ids .read

theorem delPkt_ids : SameIds s (macDelPktOfld fwReady env id s).st := by
  unfold macDelPktOfld
  split
  · exact .refl s
  split
  · exact .refl s
  split
  · exact .refl s
  split
  · exact .refl s
  · exact pktOfldCmd_ids .del

theorem addPkt_ids : SameIds s (macAddPktOfld fwReady env pkt s).1.st := by
  unfold macAddPktOfld
  split
  · exact .refl s
  split
  · exact .refl s
  split
  · exact .refl s
  simp only
  split
  · exact ⟨rfl, rfl, rfl⟩
  split
  · exact ⟨rfl, rfl, rfl⟩
  split
  · exact ⟨rfl, rfl, rfl⟩
  split
  · exact ⟨rfl, rfl, rfl⟩
  · exact h2cSend_st (P := SameIds s) ⟨rfl, rfl, rfl⟩ ⟨rfl, rfl, rfl⟩ ⟨rfl, rfl, rfl⟩

theorem delPkt_sent (h : (macDelPktOfld fwReady env id s).sent ≠ none) : id ≠ pktOfldNotExistsId ∧ id ∈ s.idBitmap := by
  unfold macDelPktOfld at h
  split at h
  · exact absurd rfl h
  split at h
  · exact absurd rfl h
  next hne =>
  split at h
  · exact absurd rfl h
  next hbit => exact ⟨hne, not_not.mp fun hid => hbit ((getBitmap_eq_false hne).mpr hid)⟩

theorem readPkt_sent (h : (macReadPktOfld fwReady env id s).sent ≠ none) : id ≠ pktOfldNotExistsId := by
  unfold macReadPktOfld at h
  split at h
  · exact absurd rfl h
  split at h
  · exact absurd rfl h
  next hne => exact hne

theorem allocId_some (h : s.allocId = some id) : id ≠ pktOfldNotExistsId ∧ id < pktOfldMaxCount ∧ id ∉ s.idBitmap := by
  unfold PktOfld.allocId at h
  have hfree := List.find?_some h
  have hfree := of_decide_eq_true hfree
  have hlt := List.mem_range.mp (List.mem_of_find?_eq_some h)
  have hne : id ≠ pktOfldNotExistsId := Nat.ne_of_lt hlt
  exact ⟨hne, Nat.lt_of_lt_of_le hlt (Nat.sub_le _ _), (getBitmap_eq_false hne).mp hfree⟩

theorem addPkt_id {type : H2cbType} (hrdy : fwReady = true) (hfree : s.freeIdCount ≠ 0) (hst : s.st = .idle)
    (hid : s.allocId = some id) (htype : pktOfldType pkt.length = some type)
    (hF : ¬ env.Fails type (sizeofPktOfldHdr + pkt.length)) : (macAddPktOfld fwReady env pkt s).2 = some id := by
  have hid' : ({ s with st := .sending } : PktOfld).allocId = some id := hid
  unfold TxEnv.Fails at hF
  unfold macAddPktOfld h2cbAllocPut
  rw [if_neg (by rw [hrdy]; nofun), if_neg hfree, if_neg (not_not_intro hst)]
  simp only
  rw [hid', htype]
  simp only
  cases halloc : env.alloc type with
  | none =>
    rw [halloc] at hF; exact absurd trivial hF
  | some h2cb =>
    rw [halloc] at hF
    simp only at hF ⊢
    have hroom := (not_or.mp hF).1
    rw [h2cbPut_some (by rw [length_fwcmdPacketOfld]; omega)]
    simp only
    split
    · rfl
    · rfl

theorem addPkt_goes (h : AddGoes fwReady env pkt.length s) : ∃ id, s.allocId = some id ∧
    (macAddPktOfld fwReady env pkt s).2 = some id ∧ (macAddPktOfld fwReady env pkt s).1.ret = .success ∧
    (macAddPktOfld fwReady env pkt s).1.sent ≠ none := by
  obtain ⟨hrdy, hfree, hst, hgo, htx⟩ := h
  obtain ⟨id, type, h2cb, hid, htype, hF, heq⟩ := addPkt_past hrdy hfree hst hgo
  refine ⟨id, hid, addPkt_id hrdy hfree hst hid htype hF, ?_⟩
  rw [heq, if_pos htx]; exact ⟨rfl, nofun⟩

theorem addPkt_stays (h : ¬ AddGoes fwReady env pkt.length s) :
    (macAddPktOfld fwReady env pkt s).1.ret ≠ .success ∧ (macAddPktOfld fwReady env pkt s).1.sent = none := by
  have hfails : ∃ ret st, ret ≠ Ret.success ∧ (macAddPktOfld fwReady env pkt s).1 = .fail ret st := by
    by_cases hacc : fwReady = true ∧ s.freeIdCount ≠ 0 ∧ s.st = .idle
    · obtain ⟨hrdy, hfree, hst⟩ := hacc
      by_cases hstop : AddStops env s pkt.length
      · obtain ⟨ret, hlate⟩ := addPkt_late hrdy hfree hst hstop; exact ⟨ret, _, hlate⟩
      · obtain ⟨_, _, h2cb, -, -, -, heq⟩ := addPkt_past hrdy hfree hst hstop
        rw [if_neg fun htx => h ⟨hrdy, hfree, hst, hstop, htx⟩] at heq; exact ⟨_, _, by decide, heq⟩
    · obtain ⟨ret, hearly⟩ := addPkt_early hacc; exact ⟨ret, _, hearly⟩
  obtain ⟨ret, st, hret, heq⟩ := hfails
  rw [heq]; exact ⟨hret, rfl⟩

end Calls

/-! ### The counters -/

section Counters

variable {w : ℕ} {malloc : Bool} {s : PktOfld}

theorem getField_lt (w sh : ℕ) : getField w sh 0xff < 0x100 := Nat.lt_succ_of_le Nat.and_le_right

theorem counted_reset : Counted .reset :=
  ⟨Finset.mem_singleton_self _, fun id hid => by rw [Finset.mem_singleton.mp hid]; decide, rfl, rfl⟩

theorem Counted.card_le (h : Counted s) : s.idBitmap.card ≤ pktOfldMaxCount := by
  have hfree := h.free
  rw [← h.used]; omega

theorem Counted.mark (h : Counted s) {id : ℕ} (hlt : id < pktOfldMaxCount) (hid : id ∉ s.idBitmap) : Counted { s with
      freeIdCount := (s.freeIdCount + 0xffff) % 0x10000
      usedIdCount := (s.usedIdCount + 1) % 0x10000
      idBitmap := insert id s.idBitmap } := by
  have hbound : ∀ i ∈ insert id s.idBitmap, i < pktOfldMaxCount := by
    intro i hi
    rcases Finset.mem_insert.mp hi with rfl | hi
    · exact hlt
    · exact h.bound i hi
  have hcard : (insert id s.idBitmap).card = s.idBitmap.card + 1 := Finset.card_insert_of_notMem hid
  have hle : (insert id s.idBitmap).card ≤ pktOfldMaxCount := by
    have hsub : insert id s.idBitmap ⊆ Finset.range pktOfldMaxCount := fun i hi =>
      Finset.mem_range.mpr (hbound i hi)
    exact (Finset.card_le_card hsub).trans (Finset.card_range _).le
  have hused := h.used
  have hfree := h.free
  unfold pktOfldMaxCount at hle hfree
  refine ⟨Finset.mem_insert_of_mem h.reserved, hbound, ?_, ?_⟩
  · show (s.usedIdCount + 1) % 0x10000 = (insert id s.idBitmap).card; omega
  · show (s.freeIdCount + 0xffff) % 0x10000 + (s.usedIdCount + 1) % 0x10000 = 256; omega

theorem Counted.unmark (h : Counted s) {id : ℕ} (hne : id ≠ pktOfldNotExistsId) (hid : id ∈ s.idBitmap) :
    Counted { s with
      freeIdCount := (s.freeIdCount + 1) % 0x10000
      usedIdCount := (s.usedIdCount + 0xffff) % 0x10000
      idBitmap := s.idBitmap.erase id } := by
  have hcard : (s.idBitmap.erase id).card + 1 = s.idBitmap.card := Finset.card_erase_add_one hid
  have hle := h.card_le
  have hused := h.used
  have hfree := h.free
  unfold pktOfldMaxCount at hle hfree
  refine ⟨Finset.mem_erase.mpr ⟨Ne.symm hne, h.reserved⟩, fun i hi => h.bound i (Finset.mem_of_mem_erase hi), ?_, ?_⟩
  · show (s.usedIdCount + 0xffff) % 0x10000 = (s.idBitmap.erase id).card; omega
  · show (s.freeIdCount + 1) % 0x10000 + (s.usedIdCount + 0xffff) % 0x10000 = 256; omega

theorem Counted.rsp (h : Counted s) : Counted (c2hPktOfldRspHdl w malloc s).2 := by
  unfold c2hPktOfldRspHdl
  simp only
  split
  · exact h
  next hne =>
  split
  · exact h
  split
  · by_cases hid : getField w 0 0xff ∈ s.idBitmap
    · simp only [if_pos hid, Finset.insert_eq_of_mem hid]
      exact ⟨h.reserved, h.bound, h.used, h.free⟩
    · simp only [if_neg hid]
      have hc := h.mark (getField_lt w 0) hid
      exact ⟨hc.reserved, hc.bound, hc.used, hc.free⟩
  split
  · by_cases hid : getField w 0 0xff ∈ s.idBitmap
    · simp only [if_pos hid]
      have hc := h.unmark hne hid
      exact ⟨hc.reserved, hc.bound, hc.used, hc.free⟩
    · simp only [if_neg hid, Finset.erase_eq_of_notMem hid]
      exact ⟨h.reserved, h.bound, h.used, h.free⟩
  · exact ⟨h.reserved, h.bound, h.used, h.free⟩

theorem packet_ids : SameIds s (macPktOfldPacket malloc s).2 := by
  unfold macPktOfldPacket
  split
  · exact .refl s
  split
  · exact .refl s
  · exact ⟨rfl, rfl, rfl⟩

end Counters

theorem Sys.sent_drv (s : Sys) (out : Out PktOfld) (op : PktOfldOp) (id : ℕ) (done ok : Bool) :
    (s.sent out op id done ok).drv = out.st := by
  unfold Sys.sent
  split
  · rfl
  · rfl

theorem Counted.step {s : Sys} (h : Counted s.drv) (a : Step) : Counted (s.step a).drv := by
  cases a with
  | add fwReady env pkt done ok =>
    show Counted (s.sent _ _ _ _ _).drv
    rw [Sys.sent_drv]; exact addPkt_ids.counted h
  | del fwReady env id done ok =>
    show Counted (s.sent _ _ _ _ _).drv
    rw [Sys.sent_drv]; exact delPkt_ids.counted h
  | read fwReady env id done ok =>
    show Counted (s.sent _ _ _ _ _).drv
    rw [Sys.sent_drv]; exact readPkt_ids.counted h
  | rcvAck k => exact ⟨h.reserved, h.bound, h.used, h.free⟩
  | doneAck k => exact ⟨h.reserved, h.bound, h.used, h.free⟩
  | rsp k w malloc => exact h.rsp
  | packet malloc => exact packet_ids.counted h

/-! ### The packets -/

/-- The bitmap does not know of it yet: the firmware has added or deleted a packet, and the response has not come. -/
def PktCmd.Open (c : PktCmd) : Prop := c.done = true ∧ c.responded = false ∧ c.op ≠ .read

/-- The firmware and the bitmap agree on every id but those of the open commands, and there is one at most for an id. -/
structure Tracked (s : Sys) : Prop where
  inj : ∀ (k l : ℕ) (c d : PktCmd), s.cmds[k]? = some c → s.cmds[l]? = some d → c.Open → d.Open → c.id = d.id → k = l
  add : ∀ (k : ℕ) (c : PktCmd), s.cmds[k]? = some c → c.Open → c.op = .add → c.id ∈ s.held ∧ c.id ∉ s.drv.idBitmap
  del : ∀ (k : ℕ) (c : PktCmd), s.cmds[k]? = some c → c.Open → c.op = .del → c.id ∉ s.held ∧ c.id ∈ s.drv.idBitmap
  rest : ∀ id, id ≠ pktOfldNotExistsId → (∀ (k : ℕ) (c : PktCmd), s.cmds[k]? = some c → c.Open → c.id ≠ id) →
    (id ∈ s.held ↔ id ∈ s.drv.idBitmap)
  real : ∀ (k : ℕ) (c : PktCmd), s.cmds[k]? = some c → c.op ≠ .max ∧ c.id ≠ pktOfldNotExistsId

theorem tracked_start : Tracked .start := by
  refine ⟨fun k _ c _ h => (nomatch h), fun k c h => (nomatch h), fun k c h => (nomatch h), fun id hne _ => ?_,
    fun k c h => (nomatch h)⟩
  refine ⟨fun h => absurd h (Finset.notMem_empty id), fun h => ?_⟩
  exact absurd (Finset.mem_singleton.mp h) hne

variable {s s' : Sys}

theorem Tracked.congr (h : Tracked s) (hheld : s'.held = s.held) (hbit : s'.drv.idBitmap = s.drv.idBitmap)
    (hback : ∀ (k : ℕ) (c' : PktCmd), s'.cmds[k]? = some c' →
      ∃ c : PktCmd, s.cmds[k]? = some c ∧ c'.op = c.op ∧ c'.id = c.id ∧ (c'.Open ↔ c.Open))
    (hforth : ∀ (k : ℕ) (c : PktCmd), s.cmds[k]? = some c → ∃ c' : PktCmd, s'.cmds[k]? = some c' ∧ c'.id = c.id ∧ (c'.Open ↔ c.Open)) :
    Tracked s' := by
  refine ⟨?_, ?_, ?_, ?_, ?_⟩
  · intro k l c' d' hc' hd' hco hdo hid
    obtain ⟨c, hc, -, hcid, hcopen⟩ := hback k c' hc'
    obtain ⟨d, hd, -, hdid, hdopen⟩ := hback l d' hd'
    exact h.inj k l c d hc hd (hcopen.mp hco) (hdopen.mp hdo) (by rw [← hcid, ← hdid, hid])
  · intro k c' hc' hco hop
    obtain ⟨c, hc, hcop, hcid, hcopen⟩ := hback k c' hc'
    rw [hheld, hbit, hcid]; exact h.add k c hc (hcopen.mp hco) (by rw [← hcop, hop])
  · intro k c' hc' hco hop
    obtain ⟨c, hc, hcop, hcid, hcopen⟩ := hback k c' hc'
    rw [hheld, hbit, hcid]; exact h.del k c hc (hcopen.mp hco) (by rw [← hcop, hop])
  · intro id hne hno
    rw [hheld, hbit]
    refine h.rest id hne fun k c hc hco => ?_
    obtain ⟨c', hc', hcid, hcopen⟩ := hforth k c hc
    rw [← hcid]; exact hno k c' hc' (hcopen.mpr hco)
  · intro k c' hc'
    obtain ⟨c, hc, hcop, hcid, -⟩ := hback k c' hc'
    rw [hcop, hcid]; exact h.real k c hc

variable {k : ℕ}

theorem Tracked.modify (h : Tracked s) {f : PktCmd → PktCmd} (hheld : s'.held = s.held)
    (hbit : s'.drv.idBitmap = s.drv.idBitmap) (hcmds : s'.cmds = s.cmds.modify k f)
    (hf : ∀ c : PktCmd, s.cmds[k]? = some c → (f c).op = c.op ∧ (f c).id = c.id ∧ ((f c).Open ↔ c.Open)) : Tracked s' := by
  refine h.congr hheld hbit ?_ ?_
  · intro l c' hc'
    rw [hcmds, List.getElem?_modify] at hc'
    obtain ⟨c, hc, rfl⟩ := Option.map_eq_some_iff.mp hc'
    refine ⟨c, hc, ?_⟩
    by_cases hk : k = l
    · rw [if_pos hk]; exact hf c (by rw [hk]; exact hc)
    · rw [if_neg hk]; exact ⟨rfl, rfl, Iff.rfl⟩
  · intro l c hc
    rw [hcmds, List.getElem?_modify, hc]
    refine ⟨if k = l then f c else c, rfl, ?_⟩
    by_cases hk : k = l
    · rw [if_pos hk]; exact (hf c (by rw [hk]; exact hc)).2
    · rw [if_neg hk]; exact ⟨rfl, Iff.rfl⟩

variable {c : PktCmd}

theorem getElem?_snoc {cmds : List PktCmd} {d : PktCmd} :
    (cmds ++ [c])[k]? = some d ↔ cmds[k]? = some d ∨ (k = cmds.length ∧ d = c) := by
  rcases Nat.lt_trichotomy k cmds.length with hlt | heq | hgt
  · rw [List.getElem?_append_left hlt]
    exact ⟨Or.inl, fun h => h.resolve_right fun hk => absurd hk.1 (Nat.ne_of_lt hlt)⟩
  · rw [heq, List.getElem?_append_right le_rfl, Nat.sub_self, List.getElem?_eq_none le_rfl]
    constructor
    · intro h; exact Or.inr ⟨rfl, (Option.some.inj h).symm⟩
    · rintro (h | ⟨-, rfl⟩)
      · exact nomatch h
      · rfl
  · have hnone : cmds[k]? = none := List.getElem?_eq_none hgt.le
    rw [List.getElem?_eq_none (by rw [List.length_append, List.length_singleton]; omega), hnone]
    exact ⟨fun h => (nomatch h), fun h => h.elim (fun h => (nomatch h)) fun hk => absurd hk.1 (Nat.ne_of_gt hgt)⟩

theorem Tracked.snoc (h : Tracked s) (hheld : s'.held = s.held) (hbit : s'.drv.idBitmap = s.drv.idBitmap)
    (hcmds : s'.cmds = s.cmds ++ [c]) (hopen : ¬ c.Open) (hreal : c.op ≠ .max ∧ c.id ≠ pktOfldNotExistsId) :
    Tracked s' := by
  have hold : ∀ (k : ℕ) (d : PktCmd), s'.cmds[k]? = some d → d.Open → s.cmds[k]? = some d := by
    intro k d hd hdo
    rw [hcmds] at hd
    rcases getElem?_snoc.mp hd with hd | ⟨-, rfl⟩
    · exact hd
    · exact absurd hdo hopen
  refine ⟨?_, ?_, ?_, ?_, ?_⟩
  · intro k l d e hd he hdo heo hid
    exact h.inj k l d e (hold k d hd hdo) (hold l e he heo) hdo heo hid
  · intro k d hd hdo hop
    rw [hheld, hbit]; exact h.add k d (hold k d hd hdo) hdo hop
  · intro k d hd hdo hop
    rw [hheld, hbit]; exact h.del k d (hold k d hd hdo) hdo hop
  · intro id hne hno
    rw [hheld, hbit]
    refine h.rest id hne fun k d hd hdo => hno k d ?_ hdo
    rw [hcmds]; exact getElem?_snoc.mpr (Or.inl hd)
  · intro k d hd
    rw [hcmds] at hd
    rcases getElem?_snoc.mp hd with hd | ⟨-, rfl⟩
    · exact h.real k d hd
    · exact hreal

theorem Tracked.snocOpen (h : Tracked s) (hbit : s'.drv.idBitmap = s.drv.idBitmap)
    (hcmds : s'.cmds = s.cmds ++ [c]) (hreal : c.op ≠ .max ∧ c.id ≠ pktOfldNotExistsId)
    (hother : ∀ (k : ℕ) (d : PktCmd), s.cmds[k]? = some d → d.Open → d.id ≠ c.id)
    (hheld : ∀ id, id ≠ c.id → (id ∈ s'.held ↔ id ∈ s.held))
    (hadd : c.op = .add → c.id ∈ s'.held ∧ c.id ∉ s.drv.idBitmap)
    (hdel : c.op = .del → c.id ∉ s'.held ∧ c.id ∈ s.drv.idBitmap) (hopen : c.Open) : Tracked s' := by
  have hcase : ∀ (k : ℕ) (d : PktCmd), s'.cmds[k]? = some d →
      s.cmds[k]? = some d ∨ (k = s.cmds.length ∧ d = c) := fun k d hd => by
    rw [hcmds] at hd; exact getElem?_snoc.mp hd
  refine ⟨?_, ?_, ?_, ?_, ?_⟩
  · intro k l d e hd he hdo heo hid
    rcases hcase k d hd with hd | ⟨rfl, rfl⟩
    · rcases hcase l e he with he | ⟨rfl, rfl⟩
      · exact h.inj k l d e hd he hdo heo hid
      · exact absurd hid (hother k d hd hdo)
    · rcases hcase l e he with he | ⟨rfl, rfl⟩
      · exact absurd hid.symm (hother l e he heo)
      · rfl
  · intro k d hd hdo hop
    rw [hbit]
    rcases hcase k d hd with hd | ⟨rfl, rfl⟩
    · rw [hheld d.id (hother k d hd hdo)]; exact h.add k d hd hdo hop
    · exact hadd hop
  · intro k d hd hdo hop
    rw [hbit]
    rcases hcase k d hd with hd | ⟨rfl, rfl⟩
    · rw [hheld d.id (hother k d hd hdo)]; exact h.del k d hd hdo hop
    · exact hdel hop
  · intro id hne hno
    have hc : id ≠ c.id := by
      rintro rfl
      refine hno s.cmds.length c ?_ hopen rfl
      rw [hcmds]; exact getElem?_snoc.mpr (Or.inr ⟨rfl, rfl⟩)
    rw [hbit, hheld id hc]
    refine h.rest id hne fun k d hd hdo => hno k d ?_ hdo
    rw [hcmds]; exact getElem?_snoc.mpr (Or.inl hd)
  · intro k d hd
    rcases hcase k d hd with hd | ⟨rfl, rfl⟩
    · exact h.real k d hd
    · exact hreal

theorem Tracked.close (h : Tracked s) (hc : s.cmds[k]? = some c) (hco : c.Open)
    (hheld : s'.held = s.held) (hcmds : s'.cmds = s.cmds.modify k fun c => { c with responded := true })
    (hbit : ∀ id, id ≠ c.id → (id ∈ s'.drv.idBitmap ↔ id ∈ s.drv.idBitmap))
    (hid : c.id ∈ s.held ↔ c.id ∈ s'.drv.idBitmap) : Tracked s' := by
  have hopen : ∀ (l : ℕ) (d : PktCmd), s'.cmds[l]? = some d → d.Open → s.cmds[l]? = some d ∧ d.id ≠ c.id := by
    intro l d hd hdo
    rw [hcmds, List.getElem?_modify] at hd
    obtain ⟨e, he, heq⟩ := Option.map_eq_some_iff.mp hd
    by_cases hk : k = l
    · rw [if_pos hk] at heq
      rw [← heq] at hdo; exact nomatch hdo.2.1
    · rw [if_neg hk] at heq
      rw [heq] at he; exact ⟨he, fun hid => hk (h.inj k l c d hc he hco hdo hid.symm)⟩
  refine ⟨?_, ?_, ?_, ?_, ?_⟩
  · intro l m d e hd he hdo heo hid
    exact h.inj l m d e (hopen l d hd hdo).1 (hopen m e he heo).1 hdo heo hid
  · intro l d hd hdo hop
    obtain ⟨hd, hne⟩ := hopen l d hd hdo
    rw [hheld, hbit d.id hne]; exact h.add l d hd hdo hop
  · intro l d hd hdo hop
    obtain ⟨hd, hne⟩ := hopen l d hd hdo
    rw [hheld, hbit d.id hne]; exact h.del l d hd hdo hop
  · intro id hne hno
    rw [hheld]
    by_cases hic : id = c.id
    · rw [hic]; exact hid
    · rw [hbit id hic]
      refine h.rest id hne fun l d hd hdo hdid => ?_
      by_cases hk : k = l
      · rw [← hk, hc] at hd; exact hic (by rw [← hdid, Option.some.inj hd])
      · refine hno l d ?_ hdo hdid
        rw [hcmds, List.getElem?_modify, hd]; exact congrArg some (if_neg hk)
  · intro l d hd
    rw [hcmds, List.getElem?_modify] at hd
    obtain ⟨e, he, heq⟩ := Option.map_eq_some_iff.mp hd
    rw [← heq]
    by_cases hk : k = l
    · rw [if_pos hk]; exact h.real l e he
    · rw [if_neg hk]; exact h.real l e he

theorem Tracked.same (h : Tracked s) (hheld : s'.held = s.held) (hbit : s'.drv.idBitmap = s.drv.idBitmap)
    (hcmds : s'.cmds = s.cmds) : Tracked s' :=
  h.congr hheld hbit (fun k c hc => ⟨c, by rw [← hcmds]; exact hc, rfl, rfl, Iff.rfl⟩)
    (fun k c hc => ⟨c, by rw [hcmds]; exact hc, rfl, Iff.rfl⟩)

/-! ### What a response does to the bitmap -/

section Rsp

variable {w : ℕ} {malloc : Bool} {p : PktOfld}

theorem rsp_same (h : getField w 16 0xffff = 0 ∨ getField w 8 0x7 = PktOfldOp.read.val) :
    (c2hPktOfldRspHdl w malloc p).2.idBitmap = p.idBitmap := by
  unfold c2hPktOfldRspHdl
  simp only
  split
  · rfl
  split
  · rfl
  rw [if_neg, if_neg]
  · rintro ⟨hop, hlen⟩; exact absurd ((h.resolve_left hlen).symm.trans hop) (by decide)
  · rintro ⟨hop, hlen⟩; exact absurd ((h.resolve_left hlen).symm.trans hop) (by decide)

theorem rsp_add (malloc : Bool) (hne : getField w 0 0xff ≠ pktOfldNotExistsId) (hlen : getField w 16 0xffff ≠ 0)
    (hop : getField w 8 0x7 = PktOfldOp.add.val) :
    (c2hPktOfldRspHdl w malloc p).2.idBitmap = insert (getField w 0 0xff) p.idBitmap := by
  unfold c2hPktOfldRspHdl
  simp only
  rw [if_neg hne, if_neg (by rw [hop]; exact fun h => nomatch h.1), if_pos ⟨hop, hlen⟩]

theorem rsp_del (malloc : Bool) (hne : getField w 0 0xff ≠ pktOfldNotExistsId) (hlen : getField w 16 0xffff ≠ 0)
    (hop : getField w 8 0x7 = PktOfldOp.del.val) :
    (c2hPktOfldRspHdl w malloc p).2.idBitmap = p.idBitmap.erase (getField w 0 0xff) := by
  unfold c2hPktOfldRspHdl
  simp only
  rw [if_neg hne, if_neg (by rw [hop]; exact fun h => nomatch h.1), if_neg (by rw [hop]; exact fun h => nomatch h.1),
    if_pos ⟨hop, hlen⟩]

end Rsp

/-! ### Steps and runs -/

variable {id : ℕ} {done ok : Bool}

theorem Sys.sent_none {out : Out PktOfld} {op : PktOfldOp} (h : out.sent = none) :
    s.sent out op id done ok = { s with drv := out.st } := if_pos h

theorem Sys.sent_some {out : Out PktOfld} {op : PktOfldOp} (h : out.sent ≠ none) : s.sent out op id done ok =
      ⟨out.st, s.cmds ++ [⟨op, id, done, ok, false, false, false⟩], heldAfter op id done s.held⟩ := if_neg h

variable {fwReady : Bool}

theorem Tracked.stepAdd (h : Tracked s) {env : TxEnv} {pkt : List UInt8}
    (hnot : ¬ Early s (.add fwReady env pkt done ok)) : Tracked (s.step (.add fwReady env pkt done ok)) := by
  show Tracked (s.sent _ _ _ _ _)
  have hids : SameIds s.drv (macAddPktOfld fwReady env pkt s.drv).1.st := addPkt_ids
  by_cases hgo : AddGoes fwReady env pkt.length s.drv
  · obtain ⟨id, halloc, hid, -, hsent⟩ := addPkt_goes hgo
    obtain ⟨hne, -, hfree⟩ := allocId_some halloc
    rw [hid, Sys.sent_some hsent]
    cases done with
    | false => exact h.snoc rfl hids.1 rfl (fun hopen => nomatch hopen.1) ⟨nofun, hne⟩
    | true =>
      refine h.snocOpen hids.1 rfl ⟨nofun, hne⟩ ?_ (fun i hi => ?_) (fun _ => ⟨?_, hfree⟩) nofun ⟨rfl, rfl, nofun⟩
      · rintro k d hd hdo rfl
        cases hop : d.op with
        | add => exact hnot ⟨hgo, d, List.mem_of_getElem? hd, hop, hdo.1, hdo.2.1, halloc⟩
        | del => exact hfree (h.del k d hd hdo hop).2
        | read => exact hdo.2.2 hop
        | max => exact (h.real k d hd).1 hop
      · have hi : i ≠ id := hi
        show i ∈ insert id s.held ↔ i ∈ s.held
        rw [Finset.mem_insert, or_iff_right hi]
      · exact Finset.mem_insert_self _ _
  · rw [Sys.sent_none (addPkt_stays hgo).2]; exact h.same rfl hids.1 rfl

theorem Tracked.stepDel (h : Tracked s) {env : TxEnv}
    (hok : s.Ok (.del fwReady env id done ok)) : Tracked (s.step (.del fwReady env id done ok)) := by
  show Tracked (s.sent _ _ _ _ _)
  have hids : SameIds s.drv (macDelPktOfld fwReady env id s.drv).st := delPkt_ids
  by_cases hsent : (macDelPktOfld fwReady env id s.drv).sent = none
  · rw [Sys.sent_none hsent]; exact h.same rfl hids.1 rfl
  · obtain ⟨hne, hbit⟩ := delPkt_sent hsent
    rw [Sys.sent_some hsent]
    cases done with
    | false => exact h.snoc rfl hids.1 rfl (fun hopen => nomatch hopen.1) ⟨nofun, hne⟩
    | true =>
      have hheld : id ∈ s.held := hok rfl
      refine h.snocOpen hids.1 rfl ⟨nofun, hne⟩ ?_ (fun i hi => ?_) nofun (fun _ => ⟨?_, hbit⟩) ⟨rfl, rfl, nofun⟩
      · rintro k d hd hdo rfl
        cases hop : d.op with
        | add => exact (h.add k d hd hdo hop).2 hbit
        | del => exact (h.del k d hd hdo hop).1 hheld
        | read => exact hdo.2.2 hop
        | max => exact (h.real k d hd).1 hop
      · have hi : i ≠ id := hi
        show i ∈ s.held.erase id ↔ i ∈ s.held
        rw [Finset.mem_erase, and_iff_right hi]
      · exact Finset.notMem_erase _ _

theorem Tracked.stepRead (h : Tracked s) {env : TxEnv} : Tracked (s.step (.read fwReady env id done ok)) := by
  show Tracked (s.sent _ _ _ _ _)
  have hids : SameIds s.drv (macReadPktOfld fwReady env id s.drv).st := readPkt_ids
  by_cases hsent : (macReadPktOfld fwReady env id s.drv).sent = none
  · rw [Sys.sent_none hsent]; exact h.same rfl hids.1 rfl
  · rw [Sys.sent_some hsent]
    refine h.snoc ?_ hids.1 rfl (fun hopen => hopen.2.2 rfl) ⟨nofun, readPkt_sent hsent⟩
    unfold heldAfter
    split
    · rfl
    · rfl

theorem Tracked.stepRsp (h : Tracked s) {w : ℕ} {malloc : Bool} (hok : s.Ok (.rsp k w malloc)) :
    Tracked (s.step (.rsp k w malloc)) := by
  obtain ⟨c, hc, -, hrsp, hid, hop, hlen⟩ := hok
  obtain ⟨hmax, hne⟩ := h.real k c hc
  by_cases hopen : c.Open
  · have hlen := hlen.mpr hopen.1
    cases hcop : c.op with
    | add =>
      obtain ⟨hheld, -⟩ := h.add k c hc hopen hcop
      have hbit := rsp_add malloc (p := s.drv) (by rw [hid]; exact hne) hlen (by rw [hop, hcop])
      rw [hid] at hbit
      refine h.close hc hopen rfl rfl (fun i hi => ?_) ⟨fun _ => ?_, fun _ => hheld⟩
      · show i ∈ (c2hPktOfldRspHdl w malloc s.drv).2.idBitmap ↔ i ∈ s.drv.idBitmap
        rw [hbit, Finset.mem_insert, or_iff_right hi]
      · show c.id ∈ (c2hPktOfldRspHdl w malloc s.drv).2.idBitmap
        rw [hbit]; exact Finset.mem_insert_self _ _
    | del =>
      obtain ⟨hheld, -⟩ := h.del k c hc hopen hcop
      have hbit := rsp_del malloc (p := s.drv) (by rw [hid]; exact hne) hlen (by rw [hop, hcop])
      rw [hid] at hbit
      refine h.close hc hopen rfl rfl (fun i hi => ?_) ⟨fun hin => absurd hin hheld, fun hin => ?_⟩
      · show i ∈ (c2hPktOfldRspHdl w malloc s.drv).2.idBitmap ↔ i ∈ s.drv.idBitmap
        rw [hbit, Finset.mem_erase, and_iff_right hi]
      · have hin : c.id ∈ (c2hPktOfldRspHdl w malloc s.drv).2.idBitmap := hin
        rw [hbit] at hin; exact absurd hin (Finset.notMem_erase _ _)
    | read => exact absurd hcop hopen.2.2
    | max => exact absurd hcop hmax
  · have hidle : getField w 16 0xffff = 0 ∨ getField w 8 0x7 = PktOfldOp.read.val := by
      by_cases hz : getField w 16 0xffff = 0
      · exact Or.inl hz
      · refine Or.inr ?_; rw [hop, not_not.mp fun hread => hopen ⟨hlen.mp hz, hrsp, hread⟩]
    refine h.modify rfl (rsp_same hidle) rfl fun d hd => ⟨rfl, rfl, ?_⟩
    rw [Option.some.inj (hc.symm.trans hd)] at hopen
    exact ⟨fun ho => (nomatch ho.2.1), fun ho => absurd ho hopen⟩

theorem Tracked.step (h : Tracked s) {a : Step} (hok : s.Ok a) (hnot : ¬ Early s a) : Tracked (s.step a) := by
  cases a with
  | add fwReady env pkt done ok => exact h.stepAdd hnot
  | del fwReady env id done ok => exact h.stepDel hok
  | read fwReady env id done ok => exact h.stepRead
  | rcvAck k => exact h.modify rfl rfl rfl fun c _ => ⟨rfl, rfl, Iff.rfl⟩
  | doneAck k => exact h.modify rfl rfl rfl fun c _ => ⟨rfl, rfl, Iff.rfl⟩
  | rsp k w malloc => exact h.stepRsp hok
  | packet malloc => exact h.same rfl packet_ids.1 rfl

theorem Tracked.fresh_iff (h : Tracked s) (a : Step) : Fresh s a ↔ ¬ Early s a := by
  cases a with
  | add fwReady env pkt done ok =>
    by_cases hgo : AddGoes fwReady env pkt.length s.drv
    · obtain ⟨id, halloc, hid, hret, -⟩ := addPkt_goes hgo
      obtain ⟨hne, -, hfree⟩ := allocId_some halloc
      constructor
      · rintro hfresh ⟨-, c, hc, hop, hdone, hrsp, hcid⟩
        obtain ⟨k, hk⟩ := List.mem_iff_getElem?.mp hc
        rw [halloc] at hcid
        have hheld := (h.add k c hk ⟨hdone, hrsp, by rw [hop]; nofun⟩ hop).1
        rw [← Option.some.inj hcid] at hheld; exact hfresh id hret hid hheld
      · intro hnot i _ hi hheld
        rw [hid] at hi
        rw [← Option.some.inj hi] at hheld
        refine hfree ((h.rest id hne ?_).mp hheld)
        rintro k c hk hopen rfl
        cases hop : c.op with
        | add => exact hnot ⟨hgo, c, List.mem_of_getElem? hk, hop, hopen.1, hopen.2.1, halloc⟩
        | del => exact (h.del k c hk hopen hop).1 hheld
        | read => exact hopen.2.2 hop
        | max => exact (h.real k c hk).1 hop
    · exact ⟨fun _ hearly => hgo hearly.1, fun _ id hret _ => absurd hret (addPkt_stays hgo).1⟩
  | _ => exact ⟨fun _ => id, fun _ => trivial⟩

/-- The counters agree with the bitmap in every state, and no id is handed out that the firmware holds a packet for. -/
def IdsCorrect (steps : List Step) : Prop :=
  (∀ pre, pre <+: steps → Counted (pre.foldl Sys.step .start).drv) ∧ Legal Sys.step Fresh .start steps

theorem counted_run (steps : List Step) : Counted (steps.foldl Sys.step .start).drv :=
  Reach.invariant (I := fun s : Sys => Counted s.drv) counted_reset (fun _ a h _ => h.step a)
    (Reach.foldl steps fun _ _ _ => trivial)

/-- **The ids of the packets.** In any order of calls and answers the counters agree with the bitmap; an id is handed out
twice exactly when a call goes through between the last acknowledgement and the response of the one before. -/
theorem ids_correct_iff {steps : List Step} (h : Legal Sys.step Sys.Ok .start steps) :
    IdsCorrect steps ↔ Legal Sys.step (fun s a => ¬ Early s a) .start steps := by
  have hcongr : Legal Sys.step (fun s a => s.Ok a ∧ Fresh s a) .start steps ↔
      Legal Sys.step (fun s a => s.Ok a ∧ ¬ Early s a) .start steps :=
    legal_congr tracked_start (fun s a hs => and_congr_right fun _ => hs.fresh_iff a)
      fun s a hs hboth => hs.step hboth.1 ((hs.fresh_iff a).mp hboth.2)
  rw [legal_and, legal_and, and_iff_right h, and_iff_right h] at hcongr
  exact ⟨fun hcor => hcongr.mp hcor.2, fun hnot => ⟨fun pre _ => counted_run pre, hcongr.mpr hnot⟩⟩

/-- A packet of one byte is added, and the firmware adds it. -/
def addOne : Step := .add true .good [0] true true

/-- The response of the first packet comes before the second is added. -/
theorem ids_correct_answered : IdsCorrect [addOne, .rcvAck 0, .rsp 0 0x10000 true, .doneAck 0, addOne] := by
  have hok : Legal Sys.step Sys.Ok .start [addOne, .rcvAck 0, .rsp 0 0x10000 true, .doneAck 0, addOne] :=
    ⟨trivial, ⟨_, rfl, rfl⟩, ⟨_, rfl, rfl, rfl, by decide, by decide, by decide⟩, ⟨_, rfl, rfl, rfl⟩, trivial, trivial⟩
  exact (ids_correct_iff hok).mpr
    ⟨fun h => absurd h.2 (by decide), id, id, id, fun h => absurd h.2 (by decide), trivial⟩

/-- The second packet gets the id of the first when it is added before the response. -/
theorem id_handed_out_twice : ¬ ∀ steps, Legal Sys.step Sys.Ok .start steps → IdsCorrect steps := by
  intro h
  have hcor := h [addOne, .rcvAck 0, .doneAck 0, addOne]
    ⟨trivial, ⟨_, rfl, rfl⟩, ⟨_, rfl, rfl, rfl⟩, trivial, trivial⟩
  have hfresh := hcor.2.2.2.2.1 0 (by decide) (by decide)
  exact hfresh (by decide)

end Rtl8852cu.Fwofld
