import Mathlib.Algebra.Ring.Nat

/-!
# Aggregation of transmit requests on USB

`_usb_tx_agg_preprocess`, `_phl_handle_xmit_ring_usb` and `_phl_prepare_tx_usb` of
`phl/hci/phl_trx_usb.c`, with the descriptor length of `trx_desc_8852c.c`.

A ring is the list of its busy entries from `phl_next_idx` on, `none` for an entry that is NULL.  The
buffers of a request are those `PKT_LIST_APPEND` has put into it, so each of them has an address and
`total_len` is their sum.  Sums of `u32` wrap; `agg_cnt`, `trasc_agg_cnt` and `trasc_idx` are `u8`.
The build options `CONFIG_PHL_USB_TX_PADDING_CHK` and `CONFIG_PHL_USB_TX_AGGREGATION` are fields of
the configuration; without the first `_usb_tx_agg_preprocess` is not called.
-/

namespace Rtl8852cu.Usb

/-- `enum rtw_packet_type`. -/
inductive PktType where
  | data
  | mgnt
  | h2c
  | ctrl
  | fwdl
  deriving DecidableEq, Repr

abbrev pktOffsetDummy : ℕ := 8

/-- The range of a `u32`. -/
abbrev u32 : ℕ := 2 ^ 32

/-- `_ALIGN(len, 8)`. -/
def align8 (len : ℕ) : ℕ := (len + 7) / 8 * 8

/-- `struct rtw_xmit_req`.  `fillWd` says whether `rtw_hal_fill_wd` succeeds on it. -/
structure XmitReq where
  type : PktType
  pktlen : ℕ
  wdinfoEn : Bool
  usbPktOfst : ℕ
  pktList : List ℕ
  totalLen : ℕ
  totalLen_eq : totalLen = pktList.sum
  fillWd : Bool
  deriving DecidableEq

/-- What the aggregation depends on beside the ring. -/
structure UsbCfg where
  txBufSize : ℕ
  bulkSize : ℕ
  maxBulkoutWdNum : ℕ
  maxDmaTxaggMsk : ℕ
  paddingChk : Bool
  txAggregation : Bool
  deriving DecidableEq

def getShiftOffset (bulkSize : ℕ) : ℕ :=
  if bulkSize = 1024 then 10 else if bulkSize = 512 then 9 else 6

/-- `mac_txdesc_len_8852c` on USB. -/
def macTxdescLen (type : PktType) (pktlen : ℕ) (wdinfoEn : Bool) : ℕ :=
  match type with
  | .h2c | .fwdl => if (pktlen + 16) % 0x200 = 0 then 32 else 16
  | _ => if wdinfoEn then 32 + 24 else 32

/-- `rtw_hal_get_wd_len`. -/
def XmitReq.wdLen (r : XmitReq) : ℕ := macTxdescLen r.type r.pktlen r.wdinfoEn

/-- `_ALIGN(wd_len + total_len, 8) + tx_len`. -/
def spaceNeeded (wdLen totalLen txLen : ℕ) : ℕ := (align8 (wdLen + totalLen) + txLen) % u32

/-! ### The prediction -/

/-- The variables of `_usb_tx_agg_preprocess`; `lastIdx` is `none` for `IDX_NONE`. -/
structure PreSt where
  cnt : ℕ
  txLen : ℕ
  packetLen : ℕ
  trascAggCnt : ℕ
  trascIdx : ℕ
  lastIdx : Option ℕ
  deriving DecidableEq

/-- `(cnt) ? (cnt - 1) : (IDX_NONE)`. -/
def PreSt.stop (s : PreSt) : PreSt := { s with lastIdx := if s.cnt = 0 then none else some (s.cnt - 1) }

/-- A request accepted for aggregation: the lengths and the transaction counters. -/
def PreSt.accept (cfg : UsbCfg) (s : PreSt) (r : XmitReq) : PreSt :=
  let txLen := (s.txLen + (align8 s.packetLen - s.packetLen) + (r.wdLen + r.totalLen)) % u32
  let tr := txLen >>> getShiftOffset cfg.bulkSize
  { s with
    txLen := txLen
    packetLen := r.wdLen + r.totalLen
    trascAggCnt := if s.trascIdx ≠ tr then 0 else (s.trascAggCnt + 1) % 256
    trascIdx := if s.trascIdx ≠ tr then tr % 256 else s.trascIdx }

/-- The loop of `_usb_tx_agg_preprocess`. -/
def preLoop (cfg : UsbCfg) (s : PreSt) : List (Option XmitReq) → PreSt
  | [] => s
  | none :: _ => s.stop
  | some r :: rest =>
    if cfg.txBufSize - pktOffsetDummy < spaceNeeded r.wdLen r.totalLen s.txLen then s.stop
    -- RTW_WKARD_USB_TXAGG_BULK_END_WD
    else if (s.txLen + r.wdLen + (align8 s.packetLen - s.packetLen)) % u32 % cfg.bulkSize = 0 then
      s.stop
    else
      let s' := s.accept cfg r
      if cfg.maxBulkoutWdNum ≤ s'.trascAggCnt ∨ s.cnt + 1 = cfg.maxDmaTxaggMsk then
        { s' with lastIdx := some s.cnt }
      else
        let s' := { s' with cnt := s.cnt + 1 }
        if r.type ≠ .data ∨ ¬ cfg.txAggregation then s' else preLoop cfg s' rest

/-- `_usb_tx_agg_preprocess`: `*last_idx` and `*add_dummy`. -/
def usbTxAggPreprocess (cfg : UsbCfg) (ring : List (Option XmitReq)) : Option ℕ × Bool :=
  let s := preLoop cfg ⟨0, 0, 0, 0, 0, none⟩ ring
  let lastIdx := if s.lastIdx = none ∧ s.txLen ≠ 0 ∧ s.cnt ≤ ring.length then some (s.cnt - 1)
    else s.lastIdx
  (lastIdx, s.txLen ≠ 0 ∧ s.txLen % cfg.bulkSize = 0)

/-! ### The aggregation loop -/

/-- A packet in the buffer: its offset, its length from the descriptor to the last byte, and whether
the descriptor is followed by the dummy. -/
structure Placed where
  off : ℕ
  len : ℕ
  dummy : Bool
  req : XmitReq
  deriving DecidableEq

/-- `enum rtw_phl_status` of the last request. -/
inductive PStatus where
  | success
  | failure
  deriving DecidableEq, Repr

/-- The variables of `_phl_handle_xmit_ring_usb`.  `off` is `tx_buf_data - tx_buf->buffer`, `placed`
what has been written. -/
structure AggSt where
  off : ℕ
  packetLen : ℕ
  txLen : ℕ
  aggCnt : ℕ
  trascAggCnt : ℕ
  trascIdx : ℕ
  pstatus : PStatus
  placed : List Placed
  deriving DecidableEq

def AggSt.init : AggSt := ⟨0, 0, 0, 0, 0, 0, .failure, []⟩

section Loop

variable (cfg : UsbCfg) (lastIdx : Option ℕ) (isDummy : Bool)

/-- `last_idx != IDX_NONE && agg_cnt == (u8)last_idx && is_dummy`. -/
def enlarged (s : AggSt) : Bool :=
  match lastIdx with
  | some i => s.aggCnt = i % 256 ∧ isDummy
  | none => false

/-- The request as the loop hands it on: `pktlen` and the enlargement are set. -/
def prepared (s : AggSt) (r : XmitReq) : XmitReq :=
  { r with
    pktlen := r.totalLen % 2 ^ 16
    usbPktOfst := if enlarged lastIdx isDummy s then 1 else r.usbPktOfst }

/-- `wd_len` as the loop counts it. -/
def countedWdLen (s : AggSt) (r : XmitReq) : ℕ :=
  (prepared lastIdx isDummy s r).wdLen + if enlarged lastIdx isDummy s then pktOffsetDummy else 0

/-- The space test lets the request pass. -/
def hasSpace (s : AggSt) (r : XmitReq) : Bool :=
  spaceNeeded (countedWdLen lastIdx isDummy s r) r.totalLen s.txLen ≤
    if cfg.paddingChk then cfg.txBufSize - pktOffsetDummy else cfg.txBufSize

/-- `agg_en && type == RTW_PHL_PKT_TYPE_DATA`: the request goes behind the one before it. -/
def appended (r : XmitReq) : Bool := cfg.txAggregation ∧ r.type = .data

/-- RTW_WKARD_USB_TXAGG_BULK_END_WD: the descriptor would end at the end of a bulk transfer. -/
def atBulkEnd (s : AggSt) (r : XmitReq) : Bool :=
  appended cfg r ∧ s.txLen ≠ 0 ∧ (s.txLen + countedWdLen lastIdx isDummy s r +
    (align8 s.packetLen - s.packetLen)) % u32 % cfg.bulkSize = 0

def packetOff (s : AggSt) (r : XmitReq) : ℕ :=
  if appended cfg r then s.off + align8 s.packetLen else s.off

/-- `tx_len` before the packet is copied. -/
def paddedTxLen (s : AggSt) (r : XmitReq) : ℕ :=
  if appended cfg r then s.txLen + (align8 s.packetLen - s.packetLen) else s.txLen

/-- `_phl_prepare_tx_usb`: the packet it puts at `off` when `rtw_hal_fill_wd` succeeds. -/
def phlPrepareTxUsb (r : XmitReq) (off : ℕ) : Placed :=
  let dummy := r.usbPktOfst = 1
  ⟨off, r.wdLen + (if dummy then pktOffsetDummy else 0) + r.pktList.sum, dummy, r⟩

/-- The request is copied into the transfer. -/
def copies (s : AggSt) (r : XmitReq) : Bool :=
  hasSpace cfg lastIdx isDummy s r ∧ ¬ atBulkEnd cfg lastIdx isDummy s r ∧ r.fillWd

/-- The variables after a request has been copied. -/
def copied (s : AggSt) (r : XmitReq) : AggSt :=
  let w := phlPrepareTxUsb (prepared lastIdx isDummy s r) (packetOff cfg s r)
  let txLen := (paddedTxLen cfg s r + w.len) % u32
  let tr := txLen >>> getShiftOffset cfg.bulkSize
  { off := w.off
    packetLen := w.len
    txLen := txLen
    aggCnt := (s.aggCnt + 1) % 256
    trascAggCnt := if s.trascIdx ≠ tr then 0 else (s.trascAggCnt + 1) % 256
    trascIdx := if s.trascIdx ≠ tr then tr % 256 else s.trascIdx
    pstatus := .success
    placed := s.placed ++ [w] }

/-- The loop goes on behind a copied request. -/
def goesOn (s : AggSt) (r : XmitReq) : Bool :=
  r.type = .data ∧ if cfg.txAggregation then
    ¬ cfg.maxBulkoutWdNum ≤ s.trascAggCnt ∧ s.aggCnt ≠ cfg.maxDmaTxaggMsk
  else s.aggCnt ≠ 1

/-- The loop of `_phl_handle_xmit_ring_usb`. -/
def aggLoop (s : AggSt) : List (Option XmitReq) → AggSt
  | [] => s
  | none :: _ => s
  | some r :: rest =>
    if copies cfg lastIdx isDummy s r then
      let s' := copied cfg lastIdx isDummy s r
      if goesOn cfg s' r then aggLoop s' rest else s'
    -- `_phl_prepare_tx_usb` is only reached behind the two tests
    else if hasSpace cfg lastIdx isDummy s r ∧ ¬ atBulkEnd cfg lastIdx isDummy s r then
      { s with pstatus := .failure }
    else s

end Loop

/-- `last_idx` and `is_dummy` when the loop starts. -/
def prediction (cfg : UsbCfg) (ring : List (Option XmitReq)) : Option ℕ × Bool :=
  if cfg.paddingChk then usbTxAggPreprocess cfg ring else (none, false)

/-- `_phl_handle_xmit_ring_usb` up to the end of its loop. -/
def phlHandleXmitRingUsb (cfg : UsbCfg) (ring : List (Option XmitReq)) : AggSt :=
  aggLoop cfg (prediction cfg ring).1 (prediction cfg ring).2 .init ring

/-- The length given to `os_usb_tx`, if the transfer is sent. -/
def AggSt.urbLen (s : AggSt) : Option ℕ := if s.pstatus = .success then some s.txLen else none

end Rtl8852cu.Usb
