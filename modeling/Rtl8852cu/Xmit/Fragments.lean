import Mathlib.Algebra.Ring.Nat
import Mathlib.Data.List.Basic

/-!
# Fragments of a packet

`get_wl_frag_paras`, `fill_txreq_pkt_perfrag_txos` and `fill_txreq_list_skb` of `rtw_xmit.c` for a frame of the type `RTW_TX_OS`,
once `get_txreq_buffer` has given a buffer.  A list entry holds the bytes that it points to.  `diffs` are the unsigned differences
that the code takes without a test before, each with what is subtracted.
-/

namespace Rtl8852cu.Xmit

/-- `enum security_type`, as far as it encrypts data. -/
inductive SecurityType
  | noPrivacy | wep40 | tkip | tkipWtmic | aes | wep104 | sms4 | gcmp | ccmp256 | gcmp256
  deriving DecidableEq

def szLlc : ℕ := 8

def szFcs : ℕ := 4

def tkipMicLen : ℕ := 8

def maxFragNum : ℕ := 10

def numPktListPerTxreq : ℕ := 8

/-- The number of values of a `u32`. -/
def u32Values : ℕ := 4294967296

/-- The number of values of a `u16`. -/
def u16Values : ℕ := 65536

/-- A difference of two `u32`. -/
def sub32 (a b : ℕ) : ℕ := (a + u32Values - b) % u32Values

/-- A sum of two `u32`. -/
def add32 (a b : ℕ) : ℕ := (a + b) % u32Values

/-- The part of `struct pkt_attrib` that says how a packet is cut. -/
structure PktAttrib where
  hdrlen : ℕ
  pktHdrlen : ℕ
  pktlen : ℕ
  amsdu : Bool
  encrypt : SecurityType
  ivLen : ℕ
  icvLen : ℕ
  bswenc : Bool

namespace PktAttrib

variable (a : PktAttrib) (fragLen : ℕ)

/-- `attrib.encrypt` as a condition -/
def encrypts : Bool := a.encrypt ≠ .noPrivacy

/-! ### `get_wl_frag_paras` -/

def wlHead : ℕ := a.hdrlen + if a.encrypts then a.ivLen else 0

def wlTail : ℕ := szFcs + if a.encrypts then a.icvLen else 0

/-- The length of the MIC that is added to the payload. -/
def micLen : ℕ := if a.encrypt = .tkip then tkipMicLen else 0

def payloadFragsz : ℕ := sub32 (sub32 fragLen a.wlHead) a.wlTail

def payloadTotalsz : ℕ := add32 (add32 a.pktlen szLlc) a.micLen

def divRoundUp (n d : ℕ) : ℕ := (add32 n (d - 1)) / d

def wlFragNum : ℕ :=
  if a.amsdu then 1
  else if a.payloadFragsz fragLen < a.payloadTotalsz then divRoundUp a.payloadTotalsz (a.payloadFragsz fragLen)
  else 1

/-- The differences of `get_wl_frag_paras`. -/
def parasDiffs : List (ℕ × ℕ) := [(fragLen, a.wlHead), (sub32 fragLen a.wlHead, a.wlTail)]

end PktAttrib

/-! ### The packet and the requests -/

/-- `struct sk_buff`: the linear part, the pages, and the packets of the fragment list with theirs. -/
structure Skb (α : Type*) where
  head : List α
  frags : List (List α)
  fragList : List (List α × List (List α))

inductive PktBuf (α : Type*)
  | head (pos length : ℕ)
  | payload (bytes : List α)
  | tail (pos length : ℕ)

structure XmitReq (α : Type*) where
  pktCnt : ℕ
  totalLen : ℕ
  pktList : List (PktBuf α)

variable {α : Type*}

def PktBuf.length : PktBuf α → ℕ
  | .head _ n => n
  | .payload bytes => bytes.length
  | .tail _ n => n

namespace XmitReq

/-- An entry is added, with what is counted for it. -/
def push (r : XmitReq α) (buf : PktBuf α) (len : ℕ) : XmitReq α :=
  ⟨(r.pktCnt + 1) % 256, add32 r.totalLen len, r.pktList ++ [buf]⟩

/-- `PKT_LIST_APPEND` for so many bytes from the start of the list; the length of an entry is a `u16`. -/
def append (r : XmitReq α) (bytes : List α) (len : ℕ) : XmitReq α :=
  if len = 0 then r else r.push (.payload (bytes.take (len % u16Values))) len

end XmitReq

/-! ### `fill_txreq_list_skb` -/

/-- The request that is filled, and what `_fill_txreq_list_skb` is given and gives back by pointers. -/
structure FillSt (α : Type*) where
  req : XmitReq α
  remSz : ℕ
  offset : ℕ

def fillHead (head : List α) (s : FillSt α) : FillSt α :=
  if s.offset < head.length then
    let curFragRem := min (head.length - s.offset) s.remSz
    ⟨s.req.append (head.drop s.offset) curFragRem, s.remSz - curFragRem, 0⟩
  else { s with offset := s.offset - head.length }

/-- The pages of a packet, until one is not used up. -/
def fillPages : List (List α) → FillSt α → FillSt α
  | [], s => s
  | page :: pages, s =>
    if s.offset < page.length then
      let curFragRem := page.length - s.offset
      if s.remSz < curFragRem then { s with req := s.req.append (page.drop s.offset) s.remSz, remSz := 0 }
      else fillPages pages ⟨s.req.append (page.drop s.offset) curFragRem, s.remSz - curFragRem, 0⟩
    else fillPages pages { s with offset := s.offset - page.length }

/-- `_fill_txreq_list_skb` -/
def fillTxreqListSkbOne (skb : List α × List (List α)) (s : FillSt α) : FillSt α :=
  fillPages skb.2 (fillHead skb.1 s)

namespace Skb

/-- All parts of a packet in their order. -/
def parts (skb : Skb α) : List (List α) := (skb.head :: skb.frags) ++ skb.fragList.flatMap fun s => s.1 :: s.2

def bytes (skb : Skb α) : List α := skb.parts.flatten

/-- `skb->len` -/
def len (skb : Skb α) : ℕ := skb.bytes.length

/-- `skb_total_frag_nr` -/
def totalFragNr (skb : Skb α) : ℕ := (1 + skb.frags.length) + (skb.fragList.map fun s => 1 + s.2.length).sum

/-- `rtw_skb_linearize`, when there is memory for it. -/
def linearize (skb : Skb α) : Skb α := ⟨skb.bytes, [], []⟩

/-- The packet after the test at the start of `fill_txreq_list_skb`; `linear` says whether there is memory. -/
def settle (linear : Bool) (skb : Skb α) : Skb α :=
  if skb.totalFragNr > numPktListPerTxreq - 2 ∧ linear then skb.linearize else skb

end Skb

/-- `fill_txreq_list_skb` for a packet that has been tested. -/
def fillTxreqListSkb (req : XmitReq α) (skb : Skb α) (reqSz offset : ℕ) : XmitReq α :=
  (skb.fragList.foldl (fun s f => fillTxreqListSkbOne f s) (fillTxreqListSkbOne (skb.head, skb.frags) ⟨req, reqSz, offset⟩)).req

/-! ### `fill_txreq_pkt_perfrag_txos` -/

namespace PktAttrib

variable (a : PktAttrib)

def headSz : ℕ := a.hdrlen + (if a.amsdu then 0 else szLlc) + if a.encrypts then a.ivLen else 0

def tailSz : ℕ := if a.encrypts then a.micLen + (if a.bswenc then a.icvLen else 0) else 0

end PktAttrib

structure PerfragSt (α : Type*) where
  skb : Skb α
  payloadOffset : ℕ
  headPos : ℕ
  tailPos : ℕ
  reqs : List (XmitReq α)
  diffs : List (ℕ × ℕ)

section Loop

variable (linear : Bool) (a : PktAttrib) (fragPerfr wlFrags : ℕ)

/-- The length of the header of a fragment, with its difference; the length of an entry is a `u16`. -/
def headLength (idx : ℕ) : ℕ × List (ℕ × ℕ) :=
  let length := a.headSz % u16Values
  if idx = 0 then (length, []) else ((length + u16Values - szLlc) % u16Values, [(length, szLlc)])

/-- The size of the payload of a fragment, with its difference. -/
def payloadSz (skbLen payloadOffset idx : ℕ) : ℕ × List (ℕ × ℕ) :=
  if idx = wlFrags - 1 then (sub32 skbLen payloadOffset, [(skbLen, payloadOffset)])
  else if idx = 0 then (sub32 fragPerfr szLlc, [(fragPerfr, szLlc)])
  else (fragPerfr, [])

/-- The length of the tail of a fragment, with its difference. -/
def wlanTail (idx : ℕ) : ℕ × List (ℕ × ℕ) :=
  if a.tailSz = 0 then (0, [])
  else if a.encrypt = .tkip ∧ idx ≠ wlFrags - 1 then (sub32 a.tailSz tkipMicLen, [(a.tailSz, tkipMicLen)])
  else (a.tailSz, [])

def perfragStep (s : PerfragSt α) (idx : ℕ) : PerfragSt α :=
  let head := headLength a idx
  let req : XmitReq α := XmitReq.push ⟨0, 0, []⟩ (.head s.headPos head.1) head.1
  let payload := payloadSz fragPerfr wlFrags s.skb.len s.payloadOffset idx
  let skb := s.skb.settle linear
  let req := fillTxreqListSkb req skb payload.1 s.payloadOffset
  let tail := wlanTail a wlFrags idx
  let req := if tail.1 = 0 then req else req.push (.tail s.tailPos tail.1) tail.1
  { skb := skb
    payloadOffset := add32 s.payloadOffset payload.1
    headPos := s.headPos + head.1
    tailPos := s.tailPos + tail.1
    reqs := s.reqs ++ [req]
    diffs := s.diffs ++ (head.2 ++ payload.2 ++ tail.2) }

def perfragRounds (skb : Skb α) (rounds : ℕ) : PerfragSt α :=
  (List.range rounds).foldl (perfragStep linear a fragPerfr wlFrags) ⟨skb, a.pktHdrlen, 0, 0, [], []⟩

end Loop

/-- `core_wlan_fill_txreq_pre` for a packet of the OS: the requests, and all differences that were taken. -/
def fillTxreqPktPerfragTxos (linear : Bool) (fragLen : ℕ) (a : PktAttrib) (skb : Skb α) : List (XmitReq α) × List (ℕ × ℕ) :=
  let s := perfragRounds linear a (a.payloadFragsz fragLen) (a.wlFragNum fragLen) skb (a.wlFragNum fragLen)
  (s.reqs, a.parasDiffs fragLen ++ s.diffs)

end Rtl8852cu.Xmit
