import Mathlib.Data.Int.Basic
import Mathlib.Data.Nat.Digits.Defs

/-!
# The data of the receive path

The structures of `rtw_recv.h`, `sta_info.h` and `rtw_security.h` that the receive path of
`core/rtw_recv.c` reads and writes, and the functions that take a packet number out of a frame.

A `RecvFrame` is a `union recv_frame` without its list node: `rxData` holds the bytes from `rx_data`
to `rx_tail` (so `len` is its length) and `room` is `rx_end - rx_tail`.  A read past the end of a
buffer reads zero.  Addresses are lists of six bytes, stations are numbered, and arrays indexed by a
TID or a key id are functions of the index.
-/

namespace Rtl8852cu.Recv

/-- `enum security_type`, the values a data frame can have. -/
inductive SecurityType where
  | noPrivacy
  | wep40
  | tkip
  | tkipWtmic
  | aes
  | wep104
  | sms4
  | gcmp
  | ccmp256
  | gcmp256
  deriving DecidableEq, Repr

abbrev StaId := ℕ

/-- The fields of `struct rx_pkt_attrib` that the receive path uses. -/
structure RxPktAttrib where
  hdrlen : ℕ
  toFrDs : ℕ
  amsdu : Bool
  qos : Bool
  priority : ℕ
  seqNum : ℕ
  fragNum : ℕ
  mfrag : Bool
  order : Bool
  privacy : Bool
  bdecrypted : Bool
  encrypt : SecurityType
  ivLen : ℕ
  icvLen : ℕ
  dst : List UInt8
  src : List UInt8
  ta : List UInt8
  ra : List UInt8
  bssid : List UInt8
  keyIndex : ℕ
  ethType : ℕ
  bsnaphdr : Bool
  deriving DecidableEq, Repr

structure RecvFrame where
  attrib : RxPktAttrib
  rxData : List UInt8
  room : ℕ
  psta : Option StaId
  keytrack : Int
  deriving DecidableEq, Repr

/-- `u.hdr.len`. -/
abbrev RecvFrame.len (f : RecvFrame) : ℕ := f.rxData.length

/-- The byte at offset `i`. -/
def byteAt (d : List UInt8) (i : ℕ) : UInt8 := d.getD i 0

def getLe64 (d : List UInt8) : BitVec 64 :=
  BitVec.ofNat 64 (Nat.ofDigits 256 ((d.take 8).map UInt8.toNat))

def isMcast (da : List UInt8) : Bool := (byteAt da 0).toNat % 2 = 1

/-- `rtw_iv_to_pn`: the bytes of the packet number and the key id; `none` is `_FAIL`. -/
def rtwIvToPn (iv : List UInt8) (encAlgo : SecurityType) : Option (List UInt8 × ℕ) :=
  let rest := [byteAt iv 4, byteAt iv 5, byteAt iv 6, byteAt iv 7]
  let keyId := (byteAt iv 3).toNat / 64
  match encAlgo with
  | .tkip => some (byteAt iv 2 :: byteAt iv 0 :: rest, keyId)
  | .aes | .gcmp | .ccmp256 | .gcmp256 => some (byteAt iv 0 :: byteAt iv 1 :: rest, keyId)
  | _ => none

/-- The header of the cipher, right after the WLAN header. -/
def RecvFrame.iv (f : RecvFrame) : List UInt8 := f.rxData.drop f.attrib.hdrlen

/-- The packet number a frame carries, if its cipher has one. -/
def RecvFrame.pn (f : RecvFrame) : Option (BitVec 64) :=
  (rtwIvToPn f.iv f.attrib.encrypt).map fun r => getLe64 r.1

/-- The id of the key a frame is protected with. -/
def RecvFrame.keyId (f : RecvFrame) : ℕ := (byteAt f.iv 3).toNat / 64

end Rtl8852cu.Recv
