import Mathlib.Algebra.Ring.Nat
import Mathlib.Algebra.Ring.Int.Defs
import Mathlib.Logic.Function.Basic

/-!
# The channel list of a scan

`_cmd_scan_req_init` and `_cmd_scan_select_chnl` of `phl_cmd_scan.c` with the functions they call, where the request has been
assigned its scan controls.  A channel object is known by `ptr`.  In the time mode the durations that `_cmd_scan_update_chparam`
computes at the start are left out.
-/

namespace Rtl8852cu.Scan

/-- `enum phl_band_idx` -/
inductive HwBand
  | band0 | band1
  deriving DecidableEq

namespace HwBand

/-- The number of the band, by which arrays are indexed. -/
def idx : HwBand → ℕ
  | band0 => 0
  | band1 => 1

def other : HwBand → HwBand
  | band0 => band1
  | band1 => band0

end HwBand

inductive BandType
  | on24g | on5g | on6g
  deriving DecidableEq

inductive ScanMode
  | null | normal | backop | p2pScan | p2pListen
  deriving DecidableEq

/-- `enum scan_bkop_mode` -/
inductive BkopMode
  | none | cnt | timer
  deriving DecidableEq

structure ScanChannel where
  ptr : ℕ
  band : BandType
  channel : ℕ
  duration : ℕ
  scanMode : ScanMode
  deriving DecidableEq

/-- `struct scan_backop_para` -/
structure BackopPara where
  mode : BkopMode
  chIntv : ℕ
  offChDurMs : ℕ

/-- `struct cmd_scan_ctrl`; `repeats` is its field `repeat`. -/
structure ScanCtrl where
  hwBand : HwBand
  repeats : ℕ
  isCckphy : Bool
  backOpCh : List ScanChannel
  chlist : List ScanChannel
  scanCh : Option ScanChannel
  chIdx : ℤ
  lastOpchAddTime : ℕ

structure ScanParam where
  ch : List ScanChannel
  bkop : BackopPara
  sctrl : ℕ → ScanCtrl
  sctrlNum : ℕ

namespace ScanParam

def modify (p : ScanParam) (i : ℕ) (f : ScanCtrl → ScanCtrl) : ScanParam :=
  { p with sctrl := Function.update p.sctrl i (f (p.sctrl i)) }

/-- `phl_cmd_scan_ctrl`: the first scan control of the band. -/
def cmdScanCtrl (p : ScanParam) (band : HwBand) : Option ℕ :=
  (List.range p.sctrlNum).find? fun i => (p.sctrl i).hwBand = band

/-- The band type that `_cmd_scan_update_chlist` selects with two scan controls. -/
def selBand (isCckphy : Bool) : BandType :=
  if isCckphy then .on24g else .on5g

/-- `_cmd_scan_update_chlist` -/
def updateChlist (p : ScanParam) (sctrlIdx : ℕ) (isCckphy : Bool) : ScanParam :=
  let p := p.modify sctrlIdx fun c => { c with chlist := [] }
  if 1 < p.sctrlNum then
    p.modify sctrlIdx fun c =>
      { c with isCckphy := isCckphy, chlist := c.chlist ++ p.ch.filter fun ch => ch.band = selBand isCckphy }
  else
    p.modify 0 fun c => { c with isCckphy := isCckphy, chlist := c.chlist ++ p.ch }

end ScanParam

/-- `_cmd_scan_enqueue_opch`: each channel of the array goes to the front, up to the first entry that is not used. -/
def enqueueOpch (c : ScanCtrl) : ScanCtrl :=
  { c with chlist := (c.backOpCh.takeWhile fun ch => ch.channel ≠ 0).foldl (fun l ch => ch :: l) c.chlist }

def backOpIsRequired (c : ScanCtrl) : Bool :=
  (c.backOpCh.head?.any fun ch => ch.channel ≠ 0)

/-- What `_cmd_scan_select_chnl` does with a channel of the normal mode; `passing` is the time since the start of the scan. -/
def normalTurn (bkop : BackopPara) (passing : ℕ) (c : ScanCtrl) : ScanCtrl :=
  let c := { c with chIdx := c.chIdx + 1 }
  if backOpIsRequired c ∧ bkop.mode = .cnt then
    if (c.chIdx + 1) % (bkop.chIntv : ℤ) = 0 then enqueueOpch c else c
  else if backOpIsRequired c ∧ bkop.mode = .timer then
    if bkop.offChDurMs < passing - c.lastOpchAddTime then enqueueOpch { c with lastOpchAddTime := passing } else c
  else c

namespace ScanParam

/-- The duration of a channel object is written, wherever it is listed. -/
def setDuration (p : ScanParam) (ptr duration : ℕ) : ScanParam :=
  { p with ch := p.ch.map fun ch => if ch.ptr = ptr then { ch with duration := duration } else ch }

/-- `_cmd_scan_select_chnl` after `pq_pop` has taken a channel, which is first in the list. -/
def popped (p : ScanParam) (passing i : ℕ) (scanCh : ScanChannel) : ScanChannel × ScanParam :=
  let p := p.modify i fun c => { c with chlist := c.chlist.tail }
  match scanCh.scanMode with
  | .normal => (scanCh, p.modify i fun c => { normalTurn p.bkop passing c with scanCh := some scanCh })
  | .p2pListen =>
    if backOpIsRequired (p.sctrl i) ∧ p.bkop.mode = .timer then
      let ch := { scanCh with duration := p.bkop.offChDurMs }
      (ch, (p.setDuration ch.ptr ch.duration).modify i fun c =>
        { enqueueOpch c with chIdx := c.chIdx + 1, scanCh := some ch })
    else (scanCh, p.modify i fun c => { c with chIdx := c.chIdx + 1, scanCh := some scanCh })
  | _ => (scanCh, p.modify i fun c => { c with scanCh := some scanCh })

/-- The branch of `_cmd_scan_select_chnl` for an empty list that is repeated. -/
def nextRound (p : ScanParam) (band : HwBand) (i : ℕ) : ScanParam :=
  (p.updateChlist band.idx (p.sctrl i).isCckphy).modify i fun c =>
    { c with chIdx := 0, repeats := if c.repeats ≠ 255 then c.repeats - 1 else c.repeats }

/-- `_cmd_scan_select_chnl` from `next_ch` on; `none` when the label is reached more often than `fuel` says. -/
def nextCh (passing : ℕ) (band : HwBand) (i : ℕ) : ℕ → ScanParam → Option (Option ScanChannel × ScanParam)
  | 0, _ => none
  | fuel + 1, p =>
    match (p.sctrl i).chlist with
    | scanCh :: _ =>
      let r := p.popped passing i scanCh
      some (some r.1, r.2)
    | [] => if 0 < (p.sctrl i).repeats then nextCh passing band i fuel (p.nextRound band i) else some (none, p)

/-- `_cmd_scan_select_chnl`; `none` when it does not return. -/
def selectChnl (p : ScanParam) (passing : ℕ) (band : HwBand) : Option (Option ScanChannel × ScanParam) :=
  match p.cmdScanCtrl band with
  | none => some (none, p)
  | some i => nextCh passing band i ((p.sctrl i).repeats + 2) p

end ScanParam

/-! ### The request -/

def maxWifiRoleNumber : ℕ := 5

/-- An entry of `chdef_list` with the duration that `_assign_opch_duration` finds for it. -/
structure OpChanDef where
  ptr : ℕ
  band : BandType
  chan : ℕ
  duration : ℕ

/-- A request with what the other modules say of it: `dual` when `_cmd_scan_dbcc_policy` gives two scan controls, the PHY with CCK
and the channels that `rtw_phl_mr_get_opch_list` lists for a band. -/
structure ScanReq where
  ch : List ScanChannel
  repeats : UInt8
  bkop : BackopPara
  hwBand : HwBand
  dual : Bool
  cckPhyidx : HwBand
  opchList : HwBand → List OpChanDef

/-- An entry of `back_op_ch` that is not used. -/
def zeroChannel : ScanChannel := ⟨0, .on24g, 0, 0, .null⟩

/-- A scan control after `_os_mem_set`. -/
def zeroCtrl : ScanCtrl := ⟨.band0, 0, false, [], [], none, 0, 0⟩

namespace ScanReq

def assignOpchList (req : ScanReq) (band : HwBand) : List ScanChannel :=
  ((req.opchList band).take maxWifiRoleNumber).map fun d =>
    if d.chan ≠ 0 then ⟨d.ptr, d.band, d.chan, d.duration, .backop⟩ else zeroChannel

def sctrlNum (req : ScanReq) : ℕ := if req.dual then 2 else 1

/-- The band of a scan control, by the role that `_phl_cmd_scan_select_wrole` gives it. -/
def ctrlBand (req : ScanReq) (i : ℕ) : HwBand := if i = 0 then req.hwBand else req.hwBand.other

/-- `phl_mr_is_cckphy` -/
def isCckphy (req : ScanReq) (band : HwBand) : Bool := req.cckPhyidx = band

/-- One round of the loop of `_cmd_scan_req_init`. -/
def initCtrl (req : ScanReq) (p : ScanParam) (i : ℕ) : ScanParam :=
  let p := p.modify i fun c =>
    { c with repeats := req.repeats.toNat, chIdx := -1, lastOpchAddTime := 0, chlist := [], hwBand := req.ctrlBand i }
  let p := p.updateChlist i (req.isCckphy (req.ctrlBand i))
  if req.bkop.mode ≠ .none then p.modify i fun c => { c with backOpCh := req.assignOpchList (req.ctrlBand i) } else p

def cmdScanReqInit (req : ScanReq) : ScanParam :=
  (List.range req.sctrlNum).foldl req.initCtrl ⟨req.ch, req.bkop, fun _ => zeroCtrl, req.sctrlNum⟩

end ScanReq

/-! ### Calls one after the other -/

/-- A call for a band, at a time after the start of the scan. -/
structure SelectCall where
  band : HwBand
  passing : ℕ

/-- The calls of a scan, each with what it returns. -/
def runCalls : ScanParam → List SelectCall → Option (List (HwBand × Option ScanChannel) × ScanParam)
  | p, [] => some ([], p)
  | p, c :: cs =>
    match p.selectChnl c.passing c.band with
    | none => none
    | some (r, p') => (runCalls p' cs).map fun q => ((c.band, r) :: q.1, q.2)

/-- What the calls for one band return. -/
def resultsOf (band : HwBand) (rs : List (HwBand × Option ScanChannel)) : List (Option ScanChannel) :=
  (rs.filter fun r => r.1 = band).map (·.2)

end Rtl8852cu.Scan
