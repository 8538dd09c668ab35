import Mathlib.Data.Finset.Insert
import Rtl8852cu.H2c.Packet

/-!
# The state of the firmware offload

`fwofld.c`, its fields of `struct mac_ax_state_mach` and what they are kept with, and how a command of it is handed to
the platform.

The packet that `h2cb_alloc` gets is whatever the pool holds, so that each step after it may fail. An id is one byte; the
set bits of `id_bitmap` are a set of numbers.
-/

namespace Rtl8852cu.Fwofld

open Lib H2c

/-- `MAC_AX_OFLD_H2C_*`. -/
inductive OfldH2c
  | idle
  | sending
  | rcvd
  | done
  | error
  deriving DecidableEq, Repr

/-- `MAC_AX_OFLD_REQ_*`. -/
inductive OfldReq
  | idle
  | h2cSent
  | created
  | cleaned
  deriving DecidableEq, Repr

inductive PktOfldOp
  | add
  | del
  | read
  | max
  deriving DecidableEq, Repr

def PktOfldOp.val : PktOfldOp → ℕ
  | .add => 0
  | .del => 1
  | .read => 2
  | .max => 3

/-- The codes that are returned here, beside those of the functions called. -/
inductive Ret
  | noFw
  | bufSz
  | procErr
  | mac (ret : MacRet)
  deriving DecidableEq, Repr

abbrev Ret.success : Ret := .mac .success

theorem Ret.mac_ne {ret : MacRet} (h : ret ≠ .success) : Ret.mac ret ≠ .success := fun heq => h (by injection heq)

/-- `sm.pkt_ofld`, and `struct mac_ax_pkt_ofld_info`. -/
structure PktOfld where
  st : OfldH2c
  lastOp : PktOfldOp
  freeIdCount : ℕ
  usedIdCount : ℕ
  idBitmap : Finset ℕ
  deriving DecidableEq

/-- `sm.efuse_ofld`, and whether `efuse_ofld_info` has a buffer. -/
structure EfuseOfld where
  st : OfldH2c
  buf : Bool
  deriving DecidableEq

/-- `sm.write_request` and `sm.write_h2c` with `struct mac_ax_write_ofld_info`, or what is of the same form for reading.
The buffer is what was written up to `buf_wptr`, `last_req` the place of a header in it. -/
structure ReqOfld where
  request : OfldReq
  h2c : OfldH2c
  buf : Option (List UInt8)
  lastReq : Option ℕ
  bufSize : ℕ
  avlBufSize : ℕ
  usedSize : ℕ
  reqNum : ℕ
  deriving DecidableEq

abbrev pktOfldMaxCount : ℕ := 256
abbrev pktOfldNotExistsId : ℕ := 0xFF
abbrev pktOfldMaxValidIdNum : ℕ := pktOfldMaxCount - 1
abbrev readOfldMaxLen : ℕ := 2000
abbrev writeOfldMaxLen : ℕ := 2000

/-- `mac_pkt_ofld_get_bitmap`. -/
def PktOfld.getBitmap (s : PktOfld) (id : ℕ) : Bool := id = pktOfldNotExistsId ∨ id ∈ s.idBitmap

/-- `mac_reset_fwofld_state` of `FW_OFLD_OP_PACKET_OFLD`. -/
def PktOfld.reset : PktOfld := ⟨.idle, .max, pktOfldMaxValidIdNum, 1, {pktOfldNotExistsId}⟩

/-! ### The transmission of a command -/

/-- What decides how far a command gets: the packet that `h2cb_alloc` has of each type, what the header and the
descriptor depend on, and whether `PLTFM_TX` succeeds. -/
structure TxEnv where
  alloc : H2cbType → Option H2cb
  h2c : H2cEnv
  tx : Bool

/-- There is a packet of each type, and what is handed to the platform is taken. -/
def TxEnv.good : TxEnv := ⟨fun type => some (.reset type), ⟨true, true, 0⟩, true⟩

/-- `h2cb_alloc`, and the first `h2cb_put`. -/
def h2cbAllocPut (env : TxEnv) (type : H2cbType) (bytes : List UInt8) : Except MacRet H2cb :=
  match env.alloc type with
  | none => .error .nptr
  | some h2cb =>
    match h2cbPut h2cb bytes with
    | none => .error .noBuf
    | some h2cb => .ok h2cb

/-- The category and the class of the commands here are `FWCMD_H2C_CAT_MAC` and `FWCMD_H2C_CL_FW_OFLD`. -/
def fwOfldId (func : ℕ) : FwcmdId := ⟨0, 0x1, 0x9, func⟩

/-- `h2c_pkt_set_hdr` and `h2c_pkt_build_txd`, what comes before `PLTFM_TX`. -/
def h2cFinish (env : TxEnv) (func : ℕ) (dack : Bool) (h2cb : H2cb) : Except MacRet H2cb :=
  match h2cPktSetHdr env.h2c h2cb (fwOfldId func) true dack with
  | .error ret => .error ret
  | .ok h2cb => h2cPktBuildTxd env.h2c h2cb

/-- What a call returns, the packet it has transmitted, and the state it leaves. -/
structure Out (σ : Type*) where
  ret : Ret
  sent : Option H2cb
  st : σ

variable {σ : Type*}

/-- A call that ends before `PLTFM_TX`. -/
def Out.fail (ret : Ret) (st : σ) : Out σ := ⟨ret, none, st⟩

/-- The end of a call, from `h2c_pkt_set_hdr` on; `undo` is what it does when `PLTFM_TX` fails, `after` when that
succeeds. -/
def h2cSend (env : TxEnv) (func : ℕ) (dack : Bool) (h2cb : H2cb) (undo after : σ → σ) (st : σ) : Out σ :=
  match h2cFinish env func dack h2cb with
  | .error ret => .fail (.mac ret) st
  | .ok h2cb => if env.tx = true then ⟨.success, some h2cb, after st⟩ else .fail (.mac .txFail) (undo st)

/-- A command that is put into its packet at once. -/
def h2cCmd (env : TxEnv) (type : H2cbType) (func : ℕ) (dack : Bool) (bytes : List UInt8) (undo after : σ → σ) (st : σ) :
    Out σ :=
  match h2cbAllocPut env type bytes with
  | .error ret => .fail (.mac ret) st
  | .ok h2cb => h2cSend env func dack h2cb undo after st

end Rtl8852cu.Fwofld
