import Rtl8852cu.Fwofld.State

/-!
# The calls of the firmware offload

The six calls of `fwofld.c` that send a command and wait for the firmware in a state of their own: reading, deleting and
adding a packet, dumping the efuse, and the lists of write and of read requests.
-/

namespace Rtl8852cu.Fwofld

open Lib H2c

/-- `FWCMD_H2C_FUNC_*`. -/
abbrev funcDumpEfuse : ℕ := 0x0
abbrev funcPacketOfld : ℕ := 0x1
abbrev funcReadOfld : ℕ := 0x2
abbrev funcWriteOfld : ℕ := 0x3

/-! ### Packet offload -/

def fwcmdPacketOfld (id : ℕ) (op : PktOfldOp) (len : ℕ) : List UInt8 :=
  le32 (setWord id 0 0xff ||| setWord op.val 8 0x7 ||| setWord len 16 0xffff)

/-- What the three commands do when `PLTFM_TX` fails. -/
def PktOfld.undo (s : PktOfld) : PktOfld := { s with st := .idle }

def PktOfld.sentOp (op : PktOfldOp) (s : PktOfld) : PktOfld := { s with lastOp := op }

/-- `mac_read_pkt_ofld` and `mac_del_pkt_ofld`, after their checks. -/
def pktOfldCmd (env : TxEnv) (op : PktOfldOp) (id : ℕ) (s : PktOfld) : Out PktOfld :=
  if s.st ≠ .idle then .fail .procErr s
  else
    h2cCmd env .cmd funcPacketOfld true (fwcmdPacketOfld id op 0) PktOfld.undo (PktOfld.sentOp op) { s with st := .sending }

def macReadPktOfld (fwReady : Bool) (env : TxEnv) (id : ℕ) (s : PktOfld) : Out PktOfld :=
  if fwReady = false then .fail .noFw s
  else if id = pktOfldNotExistsId then .fail (.mac .noItem) s
  else if s.getBitmap id = false then .fail (.mac .noItem) s
  else pktOfldCmd env .read id s

def macDelPktOfld (fwReady : Bool) (env : TxEnv) (id : ℕ) (s : PktOfld) : Out PktOfld :=
  if fwReady = false then .fail .noFw s
  else if id = pktOfldNotExistsId then .fail (.mac .noItem) s
  else if s.getBitmap id = false then .fail (.mac .noItem) s
  else if s.usedIdCount = 0 then .fail (.mac .noItem) s
  else pktOfldCmd env .del id s

/-- The search for an id that is not used; `none` where it ends at `PKT_OFLD_NOT_EXISTS_ID`. -/
def PktOfld.allocId (s : PktOfld) : Option ℕ :=
  (List.range (pktOfldMaxCount - 1)).find? fun id => s.getBitmap id = false

/-- `sizeof(struct mac_ax_pkt_ofld_hdr)`. -/
abbrev sizeofPktOfldHdr : ℕ := 4

/-- The type of the packet that a command with `len` bytes is put in. -/
def pktOfldType (len : ℕ) : Option H2cbType :=
  if len + sizeofPktOfldHdr ≤ h2cCmdLen - fwcmdHdrLen then some .cmd
  else if len + sizeofPktOfldHdr ≤ h2cDataLen - fwcmdHdrLen then some .data
  else if len + sizeofPktOfldHdr ≤ h2cLongDataLen - fwcmdHdrLen then some .longData
  else none

/-- `mac_add_pkt_ofld`, with what it leaves in `*id`. -/
def macAddPktOfld (fwReady : Bool) (env : TxEnv) (pkt : List UInt8) (s : PktOfld) : Out PktOfld × Option ℕ :=
  if fwReady = false then (.fail .noFw s, none)
  else if s.freeIdCount = 0 then (.fail (.mac .noBuf) s, none)
  else if s.st ≠ .idle then (.fail .procErr s, none)
  else
    let s := { s with st := .sending }
    match s.allocId with
    | none => (.fail (.mac .noBuf) s, none)
    | some id =>
      match pktOfldType pkt.length with
      | none => (.fail .bufSz s, none)
      | some type =>
        match h2cbAllocPut env type (fwcmdPacketOfld id .add pkt.length) with
        | .error ret => (.fail (.mac ret) s, none)
        | .ok h2cb =>
          match h2cbPut h2cb pkt with
          | none => (.fail (.mac .noBuf) s, some id)
          | some h2cb => (h2cSend env funcPacketOfld true h2cb PktOfld.undo (PktOfld.sentOp .add) s, some id)

/-! ### Dump of the efuse -/

/-- The types that `mac_dump_efuse_ofld` tells apart. -/
inductive DumpType
  | hidden
  | dav
  | other
  deriving DecidableEq, Repr

def fwcmdDumpEfuse (efuseSize : ℕ) (type : DumpType) : List UInt8 :=
  le32 (setWord efuseSize 0 0x7ff ||| (if type = .hidden then 2 ^ 11 else 0) ||| (if type = .dav then 2 ^ 12 else 0))

/-- `mac_dump_efuse_ofld`; `malloc` says whether there is memory for the buffer. -/
def macDumpEfuseOfld (fwReady : Bool) (env : TxEnv) (malloc : Bool) (efuseSize : ℕ) (type : DumpType) (s : EfuseOfld) :
    Out EfuseOfld :=
  if fwReady = false then .fail .noFw s
  else if s.st ≠ .idle then .fail .procErr s
  else
    let s := { s with st := .sending }
    if s.buf = false ∧ malloc = false then .fail (.mac .bufAlloc) s
    else h2cCmd env .cmd funcDumpEfuse false (fwcmdDumpEfuse efuseSize type) id id { s with buf := true }

/-! ### The lists of requests -/

/-- `cnv_write_ofld_state` and `cnv_read_ofld_state`. -/
def OfldReq.cnv (state dest : OfldReq) : Option OfldReq :=
  match dest with
  | .idle => if state ≠ .h2cSent then none else some dest
  | .cleaned => if state = .h2cSent then none else some dest
  | .created => if state = .idle ∨ state = .h2cSent then none else some dest
  | .h2cSent => if state ≠ .created then none else some dest

/-- What the two calls do; the length is checked against `READ_OFLD_MAX_LEN` in both. -/
def reqOfldSend (func : ℕ) (fwReady : Bool) (env : TxEnv) (s : ReqOfld) : Out ReqOfld :=
  if fwReady = false then .fail .noFw s
  else if s.usedSize + fwcmdHdrLen > readOfldMaxLen then .fail .bufSz s
  else if s.h2c ≠ .idle then .fail .procErr s
  else if s.request ≠ .created then .fail .procErr s
  else
    match s.request.cnv .h2cSent with
    | none => .fail .procErr s
    | some request =>
      let out := h2cCmd env .longData func true ((s.buf.getD []).take s.usedSize)
        (fun s => { s with request := .idle, h2c := .idle }) id { s with request := request, h2c := .sending }
      if out.ret ≠ .success then out
      else
        match out.st.request.cnv .idle with
        | none => { out with ret := .procErr }
        | some request => { out with st := { out.st with request := request } }

def macWriteOfld (fwReady : Bool) (env : TxEnv) (s : ReqOfld) : Out ReqOfld := reqOfldSend funcWriteOfld fwReady env s

def macReadOfld (fwReady : Bool) (env : TxEnv) (s : ReqOfld) : Out ReqOfld := reqOfldSend funcReadOfld fwReady env s

end Rtl8852cu.Fwofld
