import Rtl8852cu.Lib.Reach

/-!
# CSI buffers

`hal_g6/hal_csi_buffer.c`: the CSI buffers of the beamformer.  A buffer is of 80 MHz, `sub_idx` of a
buffer has a bit for each of its four parts of 20 MHz; `sub_idx` of a handle is the code of the
parts that it covers.

A handle is a `struct hal_csi_buf` of the caller, here a number; `live` has what is in it between a
successful query and its release.  `rtw_hal_var_init` asks for 4 SU and 6 MU buffers, `idx` has room
for 32.
-/

namespace Rtl8852cu.Hal

open Lib

namespace CsiBufSubIdx

def fullBw : BitVec 6 := 0b0#6
def u40 : BitVec 6 := 0b100100#6
def l40 : BitVec 6 := 0b101000#6
def uu20 : BitVec 6 := 0b000100#6
def ul20 : BitVec 6 := 0b001000#6
def lu20 : BitVec 6 := 0b001100#6
def ll20 : BitVec 6 := 0b010000#6
def non : BitVec 6 := 0b111111#6

end CsiBufSubIdx

open CsiBufSubIdx

inductive ChannelWidth where
  | w20 | w40 | w80 | w160 | w80_80 | w5 | w10 | max
  deriving DecidableEq

/-- `enum hal_csi_buf_size`. -/
inductive CsiBufSize where
  | none | s20 | s40 | s80 | s160
  deriving DecidableEq

/-- `struct hal_csi_buf`. -/
structure CsiBuf where
  subIdx : BitVec 6
  idx : BitVec 5
  mu : Bool
  b160mhz : Bool
  deriving DecidableEq

def isSub20Busy (s : BitVec 6) (idx : ℕ) : Bool := s.getLsbD idx

def is40LBusy (s : BitVec 6) : Bool := s &&& 0b11#6 = 0b11#6

def is40UBusy (s : BitVec 6) : Bool := s &&& 0b1100#6 = 0b1100#6

/-- `__query_avl_buf_idx_20`: the new `sub_idx` of the buffer and the code. -/
def queryAvlBufIdx20 (s : BitVec 6) : BitVec 6 × BitVec 6 :=
  if !isSub20Busy s 0 then (s ||| 0b1#6, ll20)
  else if !isSub20Busy s 1 then (s ||| 0b10#6, lu20)
  else if !isSub20Busy s 2 then (s ||| 0b100#6, ul20)
  else if !isSub20Busy s 3 then (s ||| 0b1000#6, uu20)
  else (s, non)

def queryAvlBufIdx40 (s : BitVec 6) : BitVec 6 × BitVec 6 :=
  if !is40LBusy s then (s ||| 0b11#6, l40)
  else if !is40UBusy s then (s ||| 0b1100#6, u40)
  else (s, non)

def queryAvlBufIdx80 (s : BitVec 6) : BitVec 6 × BitVec 6 :=
  if s = 0#6 then (0xF#6, fullBw) else (s, non)

def queryAvlBufIdx160 (s : BitVec 6) : BitVec 6 × BitVec 6 :=
  if s = 0#6 then (0xF#6, fullBw) else (s, non)

/-- `struct hal_csi_obj`, with what is in the handles. -/
structure CsiObj where
  maxCsiBufNrSu : ℕ
  maxCsiBufNr : ℕ
  csiBuf : ℕ → CsiBuf
  live : ℕ → Option CsiBuf

/-- `hal_csi_init`. -/
def csiInit (suBufNr muBufNr : ℕ) : CsiObj where
  maxCsiBufNrSu := suBufNr
  maxCsiBufNr := suBufNr + muBufNr
  csiBuf idx := ⟨0#6, BitVec.ofNat 5 idx, suBufNr ≤ idx, false⟩
  live _ := none

namespace CsiObj

section Query

variable (obj : CsiObj)

/-- The loops of `_query_csi_buf_su` and `_query_csi_buf_mu`: the first buffer that has room. -/
def queryLoop (query : BitVec 6 → BitVec 6 × BitVec 6) : List ℕ → CsiObj × Option CsiBuf × BitVec 6
  | [] => (obj, none, non)
  | i :: is =>
    let r := query (obj.csiBuf i).subIdx
    if r.2 ≠ non then
      let buf := { obj.csiBuf i with subIdx := r.1 }
      ({ obj with csiBuf := Function.update obj.csiBuf i buf }, some buf, r.2)
    else queryLoop query is

/-- The `switch` over the sizes. -/
def queryCsiBuf (size : CsiBufSize) (is : List ℕ) : CsiObj × Option CsiBuf × BitVec 6 :=
  match size with
  | .s20 => obj.queryLoop queryAvlBufIdx20 is
  | .s40 => obj.queryLoop queryAvlBufIdx40 is
  | .s80 => obj.queryLoop queryAvlBufIdx80 is
  | .s160 => obj.queryLoop queryAvlBufIdx160 is
  | .none => (obj, none, non)

def queryCsiBufSu (size : CsiBufSize) : CsiObj × Option CsiBuf × BitVec 6 :=
  obj.queryCsiBuf size (List.range obj.maxCsiBufNrSu)

def queryCsiBufMu (size : CsiBufSize) : CsiObj × Option CsiBuf × BitVec 6 :=
  obj.queryCsiBuf size
    (List.range' obj.maxCsiBufNrSu (obj.maxCsiBufNr - obj.maxCsiBufNrSu))

def bw2csi : ChannelWidth → CsiBufSize
  | .w20 => .s20
  | .w40 => .s40
  | .w80 => .s80
  | .w160 => .s160
  | _ => .none

/-- `hal_csi_query_idle_csi_buf` into the handle `h`. -/
def queryIdleCsiBuf (mu : Bool) (bw : ChannelWidth) (h : ℕ) : CsiObj :=
  let r := if mu then obj.queryCsiBufMu (bw2csi bw) else obj.queryCsiBufSu (bw2csi bw)
  match r.2.1 with
  | none => r.1
  | some tmp =>
    if r.2.2 = non then r.1
    else { r.1 with
      live := Function.update r.1.live h (some ⟨r.2.2, tmp.idx, mu, bw = .w160⟩) }

/-- The bits that `hal_csi_release_csi_buf` clears for a code. -/
def clearCsiSts (code s : BitVec 6) : BitVec 6 :=
  if code = fullBw then 0#6
  else if code = u40 then s &&& ~~~0b1000#6 &&& ~~~0b100#6
  else if code = l40 then s &&& ~~~0b10#6 &&& ~~~0b1#6
  else if code = uu20 then s &&& ~~~0b1000#6
  else if code = ul20 then s &&& ~~~0b100#6
  else if code = lu20 then s &&& ~~~0b10#6
  else if code = ll20 then s &&& ~~~0b1#6
  else s

/-- `hal_csi_release_csi_buf` of the handle `h`. -/
def releaseCsiBuf (h : ℕ) : CsiObj :=
  match obj.live h with
  | none => obj
  | some buf =>
    let i := buf.idx.toNat
    if i < obj.maxCsiBufNr then
      { obj with
        csiBuf := Function.update obj.csiBuf i
          { obj.csiBuf i with subIdx := clearCsiSts buf.subIdx (obj.csiBuf i).subIdx }
        live := Function.update obj.live h none }
    else obj

end Query

/-- The parts of a buffer that the code covers. -/
def parts (code : BitVec 6) : BitVec 6 :=
  if code = fullBw then 0b1111#6
  else if code = u40 then 0b1100#6
  else if code = l40 then 0b0011#6
  else if code = uu20 then 0b1000#6
  else if code = ul20 then 0b0100#6
  else if code = lu20 then 0b0010#6
  else if code = ll20 then 0b0001#6
  else 0#6

end CsiObj

inductive CsiEv where
  | query (mu : Bool) (bw : ChannelWidth) (h : ℕ)
  | release (h : ℕ)
  deriving DecidableEq

namespace CsiObj

/-- A query is for a handle that is not live, a release of one that is. -/
def Enabled (obj : CsiObj) : CsiEv → Prop
  | .query _ _ h => obj.live h = none
  | .release h => (obj.live h).isSome

instance (obj : CsiObj) (e : CsiEv) : Decidable (obj.Enabled e) := by
  unfold Enabled; cases e <;> infer_instance

def step (obj : CsiObj) : CsiEv → CsiObj
  | .query mu bw h => obj.queryIdleCsiBuf mu bw h
  | .release h => obj.releaseCsiBuf h

end CsiObj

end Rtl8852cu.Hal
