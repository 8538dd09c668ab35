import Rtl8852cu.Fwofld.Calls

/-!
# The lists of requests of the firmware offload

`mac_add_write_request` and `mac_add_read_request` of `fwofld.c`, which put a request into the buffer that `mac_write_ofld`
or `mac_read_ofld` sends, and the functions that throw the list away.

The flag of the last request is cleared through the bit field `ls` of `struct mac_ax_write_req`, the top bit of its first
two bytes.
-/

namespace Rtl8852cu.Fwofld

open Lib H2c

/-- `struct mac_ax_write_req`, without the flag that the call sets. -/
structure WriteReq where
  valueLen : Fin 2048
  polling : Bool
  maskEn : Bool
  ofldId : UInt8
  entryNum : UInt8
  offset : UInt16
  deriving DecidableEq

/-- `struct mac_ax_read_req`, without the flag that the call sets. -/
structure ReadReq where
  valueLen : Fin 2048
  ofldId : UInt8
  entryNum : UInt8
  offset : UInt16
  deriving DecidableEq

/-- `sizeof(struct mac_ax_write_req)`, which is that of the other. -/
abbrev sizeofReq : ℕ := 8

/-- `struct fwcmd_write_ofld_req` as it is written. -/
def fwcmdWriteOfldReq (req : WriteReq) : List UInt8 :=
  le32 (setWord req.valueLen.val 0 0x7ff ||| setWord req.ofldId.toNat 16 0xff ||| setWord req.entryNum.toNat 24 0xff |||
    req.polling.toNat ||| req.maskEn.toNat ||| true.toNat) ++
  le32 (setWord req.offset.toNat 0 0xffff)

/-- `struct fwcmd_read_ofld_req` as it is written. -/
def fwcmdReadOfldReq (req : ReadReq) : List UInt8 :=
  le32 (setWord req.valueLen.val 0 0x7ff ||| setWord req.ofldId.toNat 16 0xff ||| setWord req.entryNum.toNat 24 0xff |||
    true.toNat) ++
  le32 (setWord req.offset.toNat 0 0xffff)

namespace ReqOfld

/-- The states in which a request is taken. -/
def Takes (s : ReqOfld) : Prop := s.request = .created ∨ s.request = .cleaned

instance (s : ReqOfld) : Decidable s.Takes := inferInstanceAs (Decidable (_ ∨ _))

/-- The buffer, which is allocated with the first request; `none` where there is no memory for it. -/
def alloc (malloc : Bool) (maxLen : ℕ) (s : ReqOfld) : Option ReqOfld :=
  if s.buf.isSome = true then some s
  else if malloc = false then none
  else some { s with buf := some [], bufSize := maxLen, avlBufSize := maxLen, usedSize := 0, reqNum := 0 }

/-- Bytes are written at `buf_wptr`, and the counters moved on. -/
def put (bytes : List UInt8) (s : ReqOfld) : ReqOfld :=
  { s with
    buf := s.buf.map (· ++ bytes)
    avlBufSize := s.avlBufSize - bytes.length
    usedSize := s.usedSize + bytes.length }

/-- `last_req->ls = 0`. -/
def clearLs (s : ReqOfld) : ReqOfld :=
  match s.lastReq with
  | none => s
  | some last => { s with buf := s.buf.map fun bytes => bytes.modify (last + 1) (· &&& 0x7f) }

/-- The request at `buf_wptr` becomes the last one. -/
def newLast (s : ReqOfld) : ReqOfld :=
  let s := if s.reqNum ≠ 0 then s.clearLs else s
  { s with lastReq := s.buf.map List.length }

end ReqOfld

/-- The bytes that `data` points to. -/
def bytesAt {n : ℕ} (data : Option (Vector UInt8 n)) : List UInt8 := (data.map Vector.toList).getD []

/-- `mac_add_write_request`; `malloc` says whether there is memory for the buffer. -/
def macAddWriteRequest (malloc : Bool) (req : WriteReq) (value mask : Option (Vector UInt8 req.valueLen.val))
    (s : ReqOfld) : Ret × ReqOfld :=
  if ¬ s.Takes then (.procErr, s)
  else
    match s.alloc malloc writeOfldMaxLen with
    | none => (.mac .nptr, s)
    | some s =>
      if s.avlBufSize < sizeofReq + req.valueLen.val + (if req.maskEn = true then req.valueLen.val else 0) then
        (.mac .noBuf, s)
      else if value = none then (.mac .nptr, s)
      else if req.maskEn = true ∧ mask = none then (.mac .nptr, s)
      else
        match s.request.cnv .created with
        | none => (.procErr, s)
        | some request =>
          let s := ((({ s with request := request }).newLast).put (fwcmdWriteOfldReq req)).put (bytesAt value)
          let s := if req.maskEn = true then s.put (bytesAt mask) else s
          (.success, { s with reqNum := s.reqNum + 1 })

def macAddReadRequest (malloc : Bool) (req : ReadReq) (s : ReqOfld) : Ret × ReqOfld :=
  if ¬ s.Takes then (.procErr, s)
  else
    match s.alloc malloc readOfldMaxLen with
    | none => (.mac .nptr, s)
    | some s =>
      if s.avlBufSize < sizeofReq then (.mac .noBuf, s)
      else
        match s.request.cnv .created with
        | none => (.procErr, s)
        | some request =>
          let s := (({ s with request := request }).newLast).put (fwcmdReadOfldReq req)
          (.success, { s with reqNum := s.reqNum + 1 })

/-- `mac_clear_write_request` and `mac_clear_read_request`. -/
def macClearRequest (s : ReqOfld) : Ret × ReqOfld :=
  if s.request = .h2cSent then (.procErr, s)
  else
    match s.request.cnv .cleaned with
    | none => (.procErr, s)
    | some request => (.success, { s with
        request := request
        buf := none
        lastReq := none
        bufSize := 0
        avlBufSize := 0
        usedSize := 0
        reqNum := 0 })

end Rtl8852cu.Fwofld
