import Mathlib.Algebra.Ring.Nat
import Mathlib.Logic.Function.Basic

/-!
# PPDU status per packet

The functions of `phl_rx.c` that park received packets until the status report of their PPDU arrives, and the cases of
`phl_rx_process_usb` that call them.  A queue is one of eight of its band, by the counter of the PPDU.  `indicated` are the
packets that were handed to `rx_handle_normal`.
-/

namespace Rtl8852cu.Rx

/-- `enum phl_band_idx` -/
inductive HwBand
  | band0 | band1
  deriving DecidableEq

def maxPpduCnt : ℕ := 8

/-- `struct rtw_phl_ppdu_phy_info`, with one value for each of the four paths. -/
structure PhyInfo where
  isValid : Bool
  isPktWithData : Bool
  rssi : UInt8
  rssiPath : Vector UInt8 4
  txBf : UInt8
  frameType : UInt8
  snrFdAvg : UInt8
  snrFd : Vector UInt8 4
  snrTdAvg : UInt8
  snrTd : Vector UInt8 4
  isDrvinfoVld : Bool
  signalStrength : UInt8
  chIdx : UInt8
  rxsc : UInt8
  deriving DecidableEq

/-- The part of `struct rtw_r_meta_data` for the status of a packet. -/
structure MetaData where
  ppduCnt : UInt8
  bbSel : UInt8
  longRxd : UInt8
  frameType : UInt8
  rxRate : UInt16
  bw : UInt8
  rxGiLtf : UInt8
  ppduType : UInt8
  deriving DecidableEq

/-- `struct rtw_phl_rx_pkt`, a packet or a status report, by its number; `hdrType` is the type and subtype of its header, and
`ppdu` numbers the PPDU that it is of, which no function knows. -/
structure StsPkt where
  id : ℕ
  ppdu : ℕ
  mdata : MetaData
  hdrType : UInt8
  phyInfo : PhyInfo
  deriving DecidableEq

def StsPkt.band (pkt : StsPkt) : HwBand := if 0 < pkt.mdata.bbSel then .band1 else .band0

/-- The moving averages of `struct rtw_phl_rssi_stat` that a status is made up from. -/
inductive RssiType
  | mgnt | ctrl | data | unknown
  deriving DecidableEq

/-- What a made-up status is read from: `ma_rssi` and `rtw_hal_get_cur_ch`. -/
structure RssiEnv where
  maRssi : RssiType → UInt8
  curCh : UInt8 → UInt8

/-- `struct rtw_phl_ppdu_sts_info` -/
structure PstsInfo where
  enPstsPerPkt : Bool
  enPpduSts : HwBand → Bool
  pstsAmpdu : Bool
  ppduStsFilter : UInt8
  enFakePsts : Bool
  curPpduCnt : HwBand → UInt8
  frames : HwBand → ℕ → List StsPkt
  indicated : List StsPkt

namespace PstsInfo

variable (s : PstsInfo)

def setFrames (band : HwBand) (i : ℕ) (frames : List StsPkt) : PstsInfo :=
  { s with frames := Function.update s.frames band (Function.update (s.frames band) i frames) }

/-- `rx_handle_normal` -/
def handleNormal (pkt : StsPkt) : PstsInfo := { s with indicated := s.indicated ++ [pkt] }

/-- `_phl_rx_proc_frame_list` and `pq_reset`, for a queue that is not empty. -/
def procFrameList (band : HwBand) (i : ℕ) : PstsInfo :=
  if s.frames band i = [] then s else { s with indicated := s.indicated ++ s.frames band i }.setFrames band i []

/-- All queues of a band, one after the other. -/
def flushBand (band : HwBand) : PstsInfo := (List.range maxPpduCnt).foldl (fun s i => s.procFrameList band i) s

def handlePpduStsQ : PstsInfo := (s.flushBand .band0).flushBand .band1

/-- The filter: a long descriptor, and a frame type that is waited for. -/
def passesFilter (pkt : StsPkt) : Bool := pkt.mdata.longRxd == 1 && s.ppduStsFilter.toNat.testBit pkt.mdata.frameType.toNat

/-- `phl_rx_proc_wait_phy_sts`: whether the packet waits for its status. -/
def procWaitPhySts (pkt : StsPkt) : Bool × PstsInfo :=
  if !s.enPstsPerPkt then (false, s)
  else if maxPpduCnt ≤ pkt.mdata.ppduCnt.toNat then (false, s)
  else if !s.enPpduSts pkt.band then (false, s)
  else
    let i := pkt.mdata.ppduCnt.toNat
    if s.curPpduCnt pkt.band ≠ pkt.mdata.ppduCnt then
      -- the start of a PPDU
      let s := s.flushBand pkt.band
      let (ret, s) := if s.passesFilter pkt then (true, s.setFrames pkt.band i [pkt]) else (false, s)
      (ret, { s with curPpduCnt := Function.update s.curPpduCnt pkt.band pkt.mdata.ppduCnt })
    else if s.passesFilter pkt then (true, s.setFrames pkt.band i (s.frames pkt.band i ++ [pkt]))
    else (false, s)

end PstsInfo

/-- `_phl_rx_copy_phy_sts` -/
def PhyInfo.copyPhySts (src dest : PhyInfo) : PhyInfo :=
  { dest with
    isValid := src.isValid
    isPktWithData := src.isPktWithData
    rssi := src.rssi
    rssiPath := src.rssiPath
    snrFd := src.snrFd
    snrTd := src.snrTd
    txBf := src.txBf
    frameType := src.frameType
    snrFdAvg := src.snrFdAvg
    snrTdAvg := src.snrTdAvg }

/-- The average that is used for a frame of a type. -/
def rssiTypeOf (frameType : UInt8) : RssiType :=
  if frameType = 0 then .mgnt else if frameType = 2 then .data else if frameType = 1 then .ctrl else .unknown

/-- A status that is made up from the first packet. -/
def fakePsts (env : RssiEnv) (front : StsPkt) (phyInfo : PhyInfo) : PhyInfo :=
  if front.phyInfo.isDrvinfoVld then
    { phyInfo with
      rssi := front.phyInfo.signalStrength
      rssiPath := Vector.replicate 4 front.phyInfo.signalStrength
      isValid := true }
  else
    { phyInfo with
      rssi := env.maRssi (rssiTypeOf front.mdata.frameType)
      rssiPath := Vector.replicate 4 (env.maRssi (rssiTypeOf front.mdata.frameType))
      chIdx := env.curCh front.mdata.bbSel
      isValid := true }

/-- Whether the report is for the packet: what the workaround compares. -/
def sameReception (sts pkt : StsPkt) : Bool :=
  sts.phyInfo.isPktWithData && pkt.mdata.rxRate == sts.mdata.rxRate && pkt.mdata.bw == sts.mdata.bw &&
    pkt.mdata.rxGiLtf == sts.mdata.rxGiLtf && pkt.mdata.ppduType == sts.mdata.ppduType

def pstsPhyInfo (env : RssiEnv) (enFakePsts : Bool) (front sts : StsPkt) : PhyInfo :=
  let phyInfo := { sts.phyInfo with frameType := front.hdrType }
  if !phyInfo.isValid && enFakePsts then fakePsts env front phyInfo else phyInfo

/-- A packet with the status: what came with its descriptor is not overridden. -/
def StsPkt.withPhySts (phyInfo : PhyInfo) (pkt : StsPkt) : StsPkt :=
  { pkt with phyInfo := if pkt.phyInfo.isDrvinfoVld then phyInfo.copyPhySts pkt.phyInfo else phyInfo }

/-- The packets of a queue with the status: all of them, or the first. -/
def updatePsts (pstsAmpdu : Bool) (phyInfo : PhyInfo) : List StsPkt → List StsPkt
  | [] => []
  | front :: frames => front.withPhySts phyInfo :: if pstsAmpdu then frames.map (·.withPhySts phyInfo) else frames

namespace PstsInfo

variable (s : PstsInfo)

/-- `phl_rx_proc_phy_sts` -/
def procPhySts (env : RssiEnv) (sts : StsPkt) : PstsInfo :=
  if !s.enPstsPerPkt then s
  else if maxPpduCnt ≤ sts.mdata.ppduCnt.toNat then s
  else if !s.enPpduSts sts.band then s
  else
    let i := (s.curPpduCnt sts.band).toNat
    match s.frames sts.band i with
    | [] => s
    | front :: frames =>
      let uptPsts := decide (sts.mdata.ppduCnt = s.curPpduCnt sts.band) && sameReception sts front
      if uptPsts then
        (s.setFrames sts.band i (updatePsts s.pstsAmpdu (pstsPhyInfo env s.enFakePsts front sts) (front :: frames))).procFrameList
          sts.band i
      else s.procFrameList sts.band i

/-- A packet in `phl_rx_process_usb`. -/
def rxWifi (pkt : StsPkt) : PstsInfo :=
  let (ret, s) := s.procWaitPhySts pkt
  if ret then s else s.handleNormal pkt

end PstsInfo

end Rtl8852cu.Rx
