import Mathlib.Algebra.Ring.Nat
import Rtl8852cu.Lib.Framed

/-!
# The buffers of H2C packets

`struct rtw_h2c_pkt` of `phl_trx_def.h`, its reset in `phl_tx.c`, and the functions of `fwcmd.c` that put a command, its
header and its descriptor into it. The descriptor is that of `trx_desc_8852c.c`, a receive descriptor.

A buffer is the bytes from `vir_data` to `vir_tail`, `data_len` in number, with the room in front of them and behind
them. What a buffer is given room for has been zero since the reset, and is written at once.
-/

namespace Rtl8852cu.H2c

open Lib

/-- `enum rtw_h2c_pkt_type`. -/
inductive H2cbType
  | cmd
  | data
  | longData
  deriving DecidableEq, Repr

abbrev fwcmdHdrLen : ℕ := 8
/-- `sizeof(struct wd_body_t)`. -/
abbrev wdBodyLen : ℕ := 24
abbrev h2cCmdLen : ℕ := 64
abbrev h2cDataLen : ℕ := 256
abbrev h2cLongDataLen : ℕ := 2048
abbrev rxdShortLen : ℕ := 16
abbrev rxdLongLen : ℕ := 32

/-- The room that `_phl_reset_h2c_pkt` leaves behind `vir_data`. -/
def H2cbType.len : H2cbType → ℕ
  | .cmd => h2cCmdLen
  | .data => h2cDataLen
  | .longData => h2cLongDataLen

/-- The type, category, class and function of a command. -/
structure FwcmdId where
  type : ℕ
  cat : ℕ
  cls : ℕ
  func : ℕ
  deriving DecidableEq, Repr

structure H2cb where
  type : H2cbType
  id : FwcmdId
  /-- `vir_data - vir_head` -/
  head : ℕ
  data : List UInt8
  /-- `vir_end - vir_tail` -/
  room : ℕ
  deriving DecidableEq, Repr

/-- `_phl_reset_h2c_pkt`. -/
def H2cb.reset (type : H2cbType) : H2cb := ⟨type, ⟨0, 0, 0, 0⟩, fwcmdHdrLen + wdBodyLen, [], type.len⟩

/-- `h2cb_push`, and what is written there; `none` where it returns `NULL`. -/
def h2cbPush (h2cb : H2cb) (bytes : List UInt8) : Option H2cb :=
  if h2cb.head < bytes.length then none
  else some { h2cb with head := h2cb.head - bytes.length, data := bytes ++ h2cb.data }

/-- `h2cb_put`, and what is written there; `none` where it returns `NULL`. -/
def h2cbPut (h2cb : H2cb) (bytes : List UInt8) : Option H2cb :=
  if h2cb.room < bytes.length then none
  else some { h2cb with data := h2cb.data ++ bytes, room := h2cb.room - bytes.length }

inductive MacRet
  | success
  | fwNonRdy
  | nptr
  | noItem
  | noBuf
  | bufAlloc
  | txFail
  deriving DecidableEq, Repr

def setWord (v sh msk : ℕ) : ℕ := (v &&& msk) <<< sh

/-- `struct fwcmd_hdr` as `h2c_pkt_set_hdr` fills it. -/
def fwcmdHdr (id : FwcmdId) (h2cSeq dataLen : ℕ) (rack dack : Bool) : List UInt8 :=
  le32 (setWord id.type 16 0xf ||| setWord id.cat 0 0x3 ||| setWord id.cls 2 0x3f ||| setWord id.func 8 0xff |||
    setWord h2cSeq 24 0xff) ++
  le32 (setWord dataLen 0 0x3fff ||| (if rack then 2 ^ 14 else 0) ||| (if dack then 2 ^ 15 else 0))

theorem length_fwcmdHdr (id : FwcmdId) (h2cSeq dataLen : ℕ) (rack dack : Bool) :
    (fwcmdHdr id h2cSeq dataLen rack dack).length = fwcmdHdrLen := rfl

/-- What the header and the descriptor depend on beside the command: `sm.fwdl` is `MAC_AX_FWDL_INIT_RDY`, the interface
is USB, and the sequence number. -/
structure H2cEnv where
  fwReady : Bool
  usb : Bool
  h2cSeq : ℕ
  deriving DecidableEq, Repr

def h2cPktSetHdr (env : H2cEnv) (h2cb : H2cb) (id : FwcmdId) (rack dack : Bool) : Except MacRet H2cb :=
  if env.fwReady = false then .error .fwNonRdy
  else
    match h2cbPush h2cb (fwcmdHdr id env.h2cSeq (h2cb.data.length + fwcmdHdrLen) rack dack) with
    | none => .error .nptr
    | some h2cb => .ok { h2cb with id := id }

/-- `mac_txdesc_len_8852c` for a command. -/
def txdescLen (usb : Bool) (pktlen : ℕ) : ℕ :=
  if usb = true ∧ (pktlen + rxdShortLen) % 0x200 = 0 then rxdLongLen else rxdShortLen

/-- `txdes_proc_h2c_fwdl_8852c` for a command. -/
def txdesc (pktlen len : ℕ) : List UInt8 :=
  le32 (setWord pktlen 0 0x3fff ||| setWord 13 24 0xf ||| (if len = rxdLongLen then 2 ^ 31 else 0)) ++
    List.replicate (len - 4) 0

theorem length_txdesc {pktlen len : ℕ} (h : 4 ≤ len) : (txdesc pktlen len).length = len := by
  unfold txdesc
  rw [List.length_append, length_le32, List.length_replicate]; omega

def h2cPktBuildTxd (env : H2cEnv) (h2cb : H2cb) : Except MacRet H2cb :=
  let txdLen := txdescLen env.usb h2cb.data.length
  if env.usb = true ∧ (h2cb.data.length + txdLen) % 512 = 0 then
    match h2cbPut h2cb [0, 0, 0, 0] with
    | none => .error .nptr
    | some h2cb =>
      match h2cbPush h2cb (txdesc h2cb.data.length (txdescLen env.usb h2cb.data.length)) with
      | none => .error .nptr
      | some h2cb => .ok h2cb
  else
    match h2cbPush h2cb (txdesc h2cb.data.length txdLen) with
    | none => .error .nptr
    | some h2cb => .ok h2cb

/-! ### When they succeed -/

variable {env : H2cEnv} {h2cb : H2cb}

theorem h2cbPut_some {bytes : List UInt8} (h : bytes.length ≤ h2cb.room) :
    h2cbPut h2cb bytes = some { h2cb with data := h2cb.data ++ bytes, room := h2cb.room - bytes.length } :=
  if_neg (Nat.not_lt.mpr h)

theorem h2cPktSetHdr_ok (env : H2cEnv) (h2cb : H2cb) (id : FwcmdId) (rack dack : Bool) (hrdy : env.fwReady = true)
    (hhead : fwcmdHdrLen ≤ h2cb.head) : h2cPktSetHdr env h2cb id rack dack = .ok { h2cb with
      id := id
      head := h2cb.head - fwcmdHdrLen
      data := fwcmdHdr id env.h2cSeq (h2cb.data.length + fwcmdHdrLen) rack dack ++ h2cb.data } := by
  unfold h2cPktSetHdr h2cbPush
  rw [hrdy, if_neg nofun, length_fwcmdHdr, if_neg (Nat.not_lt.mpr hhead)]

theorem txdescLen_pos (usb : Bool) (pktlen : ℕ) : 4 ≤ txdescLen usb pktlen := by
  unfold txdescLen
  split <;> decide

theorem txdescLen_off (pktlen : ℕ) : ¬ (pktlen + txdescLen true pktlen) % 512 = 0 := by
  unfold txdescLen
  split
  · next h =>
    have h := h.2
    unfold rxdShortLen at h
    unfold rxdLongLen; omega
  · next h => exact fun hz => h ⟨rfl, hz⟩

theorem h2cPktBuildTxd_eq (env : H2cEnv) (h2cb : H2cb) : h2cPktBuildTxd env h2cb =
      if h2cb.head < txdescLen env.usb h2cb.data.length then .error .nptr
      else .ok { h2cb with
        head := h2cb.head - txdescLen env.usb h2cb.data.length
        data := txdesc h2cb.data.length (txdescLen env.usb h2cb.data.length) ++ h2cb.data } := by
  have hno : ¬ (env.usb = true ∧ (h2cb.data.length + txdescLen env.usb h2cb.data.length) % 512 = 0) := by
    rintro ⟨husb, hz⟩
    rw [husb] at hz; exact txdescLen_off _ hz
  unfold h2cPktBuildTxd h2cbPush
  simp only
  rw [if_neg hno, length_txdesc (txdescLen_pos _ _)]
  by_cases hlt : h2cb.head < txdescLen env.usb h2cb.data.length
  · rw [if_pos hlt, if_pos hlt]
  · rw [if_neg hlt, if_neg hlt]

end Rtl8852cu.H2c
