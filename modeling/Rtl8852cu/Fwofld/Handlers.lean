import Mathlib.Data.Finset.Erase
import Rtl8852cu.Fwofld.State

/-!
# The answers of the firmware

What `fwcmd.c` does with the acknowledgements and the responses to the commands of the firmware offload, and what
`fwofld.c` then hands to the caller. The contents of a packet, of the efuse and of what was read are left out.
-/

namespace Rtl8852cu.Fwofld

open Lib H2c

def getField (w sh msk : ℕ) : ℕ := (w >>> sh) &&& msk

/-- A variable of the state machine in `c2h_fwofld_rcv_ack_hdl`. -/
def OfldH2c.rcvAck (state : OfldH2c) : OfldH2c := if state = .sending then .rcvd else state

/-- A variable of the state machine in `c2h_fwofld_done_ack_hdl`; `ok` says that `h2c_return` is `MACSUCCESS`, and
`success` is the state that this leads to. -/
def OfldH2c.doneAck (state success : OfldH2c) (ok : Bool) : OfldH2c :=
  if state = .rcvd then (if ok = true then success else .error) else state

/-! ### Packet offload -/

/-- The receive ack of `FWCMD_H2C_FUNC_PACKET_OFLD`. -/
def PktOfld.rcvAck (s : PktOfld) : PktOfld := { s with st := s.st.rcvAck }

/-- The done ack of `FWCMD_H2C_FUNC_PACKET_OFLD`. -/
def PktOfld.doneAck (s : PktOfld) (ok : Bool) : PktOfld :=
  { s with st := s.st.doneAck (if s.lastOp = .read then .done else .idle) ok }

/-- The state that a packet-offload response leaves `sm.pkt_ofld` in. -/
def PktOfld.rspSt (s : PktOfld) : OfldH2c :=
  if s.st = .error then (if s.lastOp = .read then .done else .idle) else s.st

/-- `c2h_pkt_ofld_rsp_hdl`; the counters have 16 bits, and `malloc` says whether there is memory for a packet that was
read. -/
def c2hPktOfldRspHdl (c2hContent : ℕ) (malloc : Bool) (s : PktOfld) : MacRet × PktOfld :=
  let pktOp := getField c2hContent 8 0x7
  let pktLen := getField c2hContent 16 0xffff
  let id := getField c2hContent 0 0xff
  if id = pktOfldNotExistsId then (.noItem, s)
  else if pktOp = PktOfldOp.read.val ∧ pktLen ≠ 0 ∧ malloc = false then (.bufAlloc, s)
  else
    let s :=
      if pktOp = PktOfldOp.add.val ∧ pktLen ≠ 0 then
        { s with
          freeIdCount := if id ∈ s.idBitmap then s.freeIdCount else (s.freeIdCount + 0xffff) % 0x10000
          usedIdCount := if id ∈ s.idBitmap then s.usedIdCount else (s.usedIdCount + 1) % 0x10000
          idBitmap := insert id s.idBitmap }
      else if pktOp = PktOfldOp.del.val ∧ pktLen ≠ 0 then
        { s with
          freeIdCount := if id ∈ s.idBitmap then (s.freeIdCount + 1) % 0x10000 else s.freeIdCount
          usedIdCount := if id ∈ s.idBitmap then (s.usedIdCount + 0xffff) % 0x10000 else s.usedIdCount
          idBitmap := s.idBitmap.erase id }
      else s
    (.success, { s with st := s.rspSt })

/-- `mac_pkt_ofld_packet`; `malloc` says whether there is memory for the packet. -/
def macPktOfldPacket (malloc : Bool) (s : PktOfld) : Ret × PktOfld :=
  if s.st ≠ .done then (.procErr, s)
  else if malloc = false then (.mac .bufAlloc, s)
  else (.success, { s with st := .idle })

/-! ### Dump of the efuse -/

def EfuseOfld.rcvAck (s : EfuseOfld) : EfuseOfld := { s with st := s.st.rcvAck }

def EfuseOfld.doneAck (s : EfuseOfld) (ok : Bool) : EfuseOfld := { s with st := s.st.doneAck .done ok }

def c2hDumpEfuseHdl (malloc : Bool) (s : EfuseOfld) : Ret × EfuseOfld :=
  if s.st ≠ .rcvd then (.procErr, s)
  else if s.buf = false ∧ malloc = false then (.mac .bufAlloc, s)
  else (.success, ⟨.done, true⟩)

def macEfuseOfldMap (s : EfuseOfld) : Ret × EfuseOfld :=
  if s.st ≠ .done then (.procErr, s) else (.success, { s with st := .idle })

/-! ### The lists of requests -/

def ReqOfld.rcvAck (s : ReqOfld) : ReqOfld := { s with h2c := s.h2c.rcvAck }

/-- A list that was written has been used up with the done ack, the values that were read are fetched after it. -/
def ReqOfld.doneAck (s : ReqOfld) (success : OfldH2c) (ok : Bool) : ReqOfld :=
  { s with h2c := s.h2c.doneAck success ok }

def macReadOfldValue (malloc : Bool) (s : ReqOfld) : Ret × ReqOfld :=
  if s.h2c ≠ .done then (.procErr, s)
  else if malloc = false then (.mac .bufAlloc, s)
  else (.success, { s with h2c := .idle })

/-- `mac_reset_fwofld_state` of `FW_OFLD_OP_WRITE_OFLD` and of `FW_OFLD_OP_READ_OFLD`. -/
def ReqOfld.reset (s : ReqOfld) : ReqOfld := { s with request := .idle, h2c := .idle }

end Rtl8852cu.Fwofld
