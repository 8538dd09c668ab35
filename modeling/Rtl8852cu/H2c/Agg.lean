import Rtl8852cu.H2c.Packet

/-!
# Aggregation of H2C packets

`h2c_agg_enqueue` of `fwcmd.c`, and `h2c_agg.c`: the queue is sent, commands that fit together in one packet.

A lock that is taken while it is held is never got: the functions that take it have no result then. The platform has
what was handed to it by a `PLTFM_TX` that succeeds.
-/

namespace Rtl8852cu.H2c

open Lib

/-- `FWCMD_H2C_FUNC_H2C_AGG`. -/
def h2cAggId : FwcmdId := ⟨0, 0x1, 0x9, 0x15⟩

/-- A command that has its header, and not yet its descriptor. No function but that of the aggregation sets the header of
an aggregate. -/
structure Cmd where
  type : H2cbType
  id : FwcmdId
  data : List UInt8
  fit : data.length ≤ fwcmdHdrLen + type.len
  notAgg : id ≠ h2cAggId

/-- `data_len`. -/
abbrev Cmd.len (cmd : Cmd) : ℕ := cmd.data.length

def Cmd.h2cb (cmd : Cmd) : H2cb := ⟨cmd.type, cmd.id, wdBodyLen, cmd.data, fwcmdHdrLen + cmd.type.len - cmd.len⟩

def align4Byte (len : ℕ) : ℕ := (len + 0x3) / 4 * 4

abbrev h2cAggSubHdrLen : ℕ := 4

def H2cPktAggregatable (len : ℕ) : Prop := align4Byte len + wdBodyLen + fwcmdHdrLen + h2cAggSubHdrLen < h2cLongDataLen

instance (len : ℕ) : Decidable (H2cPktAggregatable len) := inferInstanceAs (Decidable (_ < _))

/-- What is handed to the platform: a packet, and the command whose own packet it is. -/
structure Sent where
  h2cb : H2cb
  own : Option Cmd

/-- `struct mac_ax_h2c_agg_info`, and where the packets have gone. -/
structure AggInfo where
  h2cAggEn : Bool
  queue : List Cmd
  h2cAggPktNum : ℕ
  locked : Bool
  sent : List Sent
  recycled : List Cmd
  aggRecycled : ℕ

/-- `PLTFM_MUTEX_LOCK` of `h2c_agg_lock`. -/
def AggInfo.lock (s : AggInfo) : Option AggInfo := if s.locked = true then none else some { s with locked := true }

def AggInfo.unlock (s : AggInfo) : AggInfo := { s with locked := false }

/-- The aggregation is enabled, and nothing is queued. -/
def AggInfo.start : AggInfo := ⟨true, [], 0, false, [], [], 0⟩

/-- `h2c_agg_enqueue`; `malloc` says whether there is memory for the node. -/
def h2cAggEnqueue (malloc : Bool) (cmd : Cmd) (s : AggInfo) : Option (MacRet × AggInfo) :=
  match s.lock with
  | none => none
  | some s =>
    if s.h2cAggEn = false then some (.noItem, s.unlock)
    else if malloc = false then some (.bufAlloc, s.unlock)
    else some (.success, { s with queue := s.queue ++ [cmd], h2cAggPktNum := s.h2cAggPktNum + 1 }.unlock)

/-- What decides whether a transmission goes through. -/
structure AggEnv where
  /-- There is a `LONG_DATA` packet. -/
  alloc : Bool
  fwReady : Bool
  h2cSeq : ℕ
  /-- `PLTFM_TX` succeeds. -/
  tx : Bool

def AggEnv.h2c (usb : Bool) (env : AggEnv) : H2cEnv := ⟨env.fwReady, usb, env.h2cSeq⟩

def macH2cAggTxSingleNormalH2c (usb : Bool) (env : AggEnv) (h2cb : H2cb) : Except MacRet H2cb :=
  match h2cPktBuildTxd (env.h2c usb) h2cb with
  | .error ret => .error ret
  | .ok h2cb => if env.tx = true then .ok h2cb else .error .txFail

def macH2cAggTxSingleAggH2c (usb : Bool) (env : AggEnv) (aggH2cb : H2cb) : Except MacRet H2cb :=
  match h2cPktSetHdr (env.h2c usb) aggH2cb h2cAggId false false with
  | .error ret => .error ret
  | .ok h2cb =>
    match h2cPktBuildTxd (env.h2c usb) h2cb with
    | .error ret => .error ret
    | .ok h2cb => if env.tx = true then .ok h2cb else .error .txFail

/-- A command in the packet that is put together, up to the next word. -/
def pad4 (data : List UInt8) : List UInt8 := data ++ List.replicate (align4Byte data.length - data.length) 0

/-- The length of the next command, `0` where there is none. -/
def nextLen : List Cmd → ℕ
  | [] => 0
  | next :: _ => next.len

/-- A command that is sent as it is, when no packet is being put together. -/
def Alone (cur : Cmd) (rest : List Cmd) : Prop :=
  ¬ H2cPktAggregatable cur.len ∨ rest.isEmpty = true ∨ ¬ H2cPktAggregatable (nextLen rest)

instance (cur : Cmd) (rest : List Cmd) : Decidable (Alone cur rest) := inferInstanceAs (Decidable (_ ∨ _ ∨ _))

/-- Nothing more goes into a packet of `aggLen` bytes. -/
def Full (aggLen : ℕ) (rest : List Cmd) : Prop :=
  rest.isEmpty = true ∨ aggLen + align4Byte (nextLen rest) + h2cAggSubHdrLen ≥ h2cLongDataLen

instance (aggLen : ℕ) (rest : List Cmd) : Decidable (Full aggLen rest) := inferInstanceAs (Decidable (_ ∨ _))

/-- The variables of `mac_h2c_agg_tx`; `k` is the number of transmissions there have been. -/
structure AggVars where
  aggH2cb : Option H2cb
  aggLen : ℕ
  k : ℕ

inductive Place
  | alone
  | into (aggH2cb : H2cb) (aggLen : ℕ)
  | noBuf

def place (env : AggEnv) (v : AggVars) (cur : Cmd) (rest : List Cmd) : Place :=
  match v.aggH2cb with
  | some aggH2cb => .into aggH2cb v.aggLen
  | none =>
    if Alone cur rest then .alone
    else if env.alloc = false then .noBuf
    else .into (H2cb.reset .longData) (wdBodyLen + fwcmdHdrLen)

/-- The loop of `mac_h2c_agg_tx`. -/
def aggTxLoop (usb : Bool) (env : ℕ → AggEnv) : List Cmd → AggVars → AggInfo → MacRet × AggVars × AggInfo
  | [], v, s => (.success, v, s)
  | cur :: rest, v, s =>
    match place (env v.k) v cur rest with
    | .noBuf => (.noBuf, v, s)
    | .alone =>
      match macH2cAggTxSingleNormalH2c usb (env v.k) cur.h2cb with
      | .error ret => (ret, v, s)
      | .ok h2cb =>
        aggTxLoop usb env rest { v with k := v.k + 1 } { s with queue := rest, sent := s.sent ++ [⟨h2cb, some cur⟩] }
    | .into aggH2cb aggLen =>
      match h2cbPut aggH2cb (frame (pad4 cur.data)) with
      | none => (.noItem, { v with aggH2cb := some aggH2cb, aggLen := aggLen }, s)
      | some aggH2cb =>
        let aggLen := aggLen + align4Byte cur.len + h2cAggSubHdrLen
        let s := { s with queue := rest, recycled := s.recycled ++ [cur] }
        if Full aggLen rest then
          match macH2cAggTxSingleAggH2c usb (env v.k) aggH2cb with
          | .error ret => (ret, { v with aggH2cb := some aggH2cb, aggLen := aggLen }, s)
          | .ok h2cb =>
            aggTxLoop usb env rest ⟨none, 0, v.k + 1⟩ { s with sent := s.sent ++ [⟨h2cb, none⟩] }
        else aggTxLoop usb env rest ⟨some aggH2cb, aggLen, v.k⟩ s

def macH2cAggFlush (s : AggInfo) : Option AggInfo :=
  match s.lock with
  | none => none
  | some s => some { s with recycled := s.recycled ++ s.queue, queue := [], h2cAggPktNum := 0 }.unlock

/-- `mac_h2c_agg_tx`; `env k` is for the transmission that comes after `k` others. -/
def macH2cAggTx (usb : Bool) (env : ℕ → AggEnv) (s : AggInfo) : Option (MacRet × AggInfo) :=
  match s.lock with
  | none => none
  | some s =>
    let (ret, v, s) := aggTxLoop usb env s.queue ⟨none, 0, 0⟩ s
    if ret = .success then some (ret, { s with queue := [], h2cAggPktNum := 0 }.unlock)
    else
      match macH2cAggFlush s with
      | none => none
      | some s =>
        some (ret, { s with aggRecycled := if v.aggH2cb.isSome then s.aggRecycled + 1 else s.aggRecycled }.unlock)

end Rtl8852cu.H2c
