import Mathlib.Algebra.Ring.Nat

/-!
# The power-save module

The state of `phl_cmd_ps.c` and what its handlers are made of: `_leave_ps`, `_enter_ps`, the queues of power requests, the conditions
of LPS and IPS and the pause of TX.  A call of `phl_ps_enter_ps`, `phl_ps_leave_ps` or the data path is logged with its outcome.
`PS_MACID_NONE` is `none`; beacon tracking, the PVB setting and the texts of the reasons are left out.
-/

namespace Rtl8852cu.Ps

inductive PsMode
  | none | lps | ips
  deriving DecidableEq

/-- `PS_STATE_*` -/
inductive PsState
  | leaved | proto | entered
  deriving DecidableEq

/-- `enum phl_ps_pwr_lvl` -/
inductive PwrLvl
  | pwrOff | pwrGated | clkGated | rfOff | pwrOn
  deriving DecidableEq

/-- `enum phl_ps_operation_mode` -/
inductive OpMode
  | disabled | forceEnabled | auto | other (val : ℕ)
  deriving DecidableEq

/-- `enum phl_mdl_ret_code` -/
inductive Ret
  | success | fail | cannotIo | pending | ignore
  deriving DecidableEq

/-- The messages of the general module that request power. -/
inductive ExtEvt
  | tsfSyncDone | chgOpChDefStart | chgOpChDefEnd | swchStart | pcieTrxMit | forceUsbSw | hwseqGetHwSequence | cfgAmpdu
  | cfgAmsduTx | dfsPauseTx | roleRecover | roleSuspend | halSetL2Leave | notifyHal | issueBcn | stopBcn | secKey | roleStart
  | roleChange | roleStop | staInfoCtrl | staMediaStatusUpt | cfgChinfo | staChgStainfo | twtStaAccept | twtStaTeardown | twtGetTwt
  | getCurTsf | dfsRdIsDetecting | dfsRdSetup | txpwrSetup | noaDisable | noaUp | linuxCmdWrkTriPs | dbgRxDump | updtExtTxpwrLmt
  | setMacidPause | setMacidPktDrop | setUlFixinfo | setStaSecIv
  deriving DecidableEq

/-- `enum phl_msg_evt_id`, as far as the handlers tell them apart -/
inductive Evt
  | ext (e : ExtEvt)
  | swWatchdog | getUsbSwAbility | getUsbSpeed | linuxCmdWrk | hwWatchdog | rfOn | rfOff | phyOn | phyIdle | pktEvtNtfy
  | roleNtfy | trxPwrReq | serM5Ready | serM9L2Reset | serPollingChk
  | psCapChg | psPeriodChk | psDbgCmd | txPktNtfy
  | other (id : ℕ)
  deriving DecidableEq

/-- `enum role_type`, as far as the module tells them apart -/
inductive RoleType
  | station | ap | vap | p2pGo | mesh | p2pGc | other
  deriving DecidableEq

inductive MlmeState
  | noLink | linking | linked
  deriving DecidableEq

/-- `struct rtw_wifi_role_t`; `sta` is the macid of the station that `rtw_phl_get_stainfo_self` finds for the primary link. -/
structure WRole where
  active : Bool
  type : RoleType
  mstate : MlmeState
  sta : Option ℕ
  deriving DecidableEq

/-- `rtw_phl_role_is_ap_category` -/
def WRole.isApCategory (r : WRole) : Bool := r.type = .ap || r.type = .p2pGo || r.type = .vap

/-- `struct rtw_ps_cap_t` -/
structure PsCap where
  initRfOff : Bool
  initRtStopRson : BitVec 32
  leaveFailAct : ℕ
  ipsEn : OpMode
  ipsCap : ℕ
  lpsEn : OpMode
  lpsCap : ℕ
  lpsRssiEnterThreshold : ℕ
  lpsRssiLeaveThreshold : ℕ
  lpsRssiDiffThreshold : ℕ
  deferRson : ℕ
  lpsPingDeferTime : ℕ
  lpsDhcpDeferTime : ℕ
  lpsPauseTx : Bool

/-- What the module reads from the rest of the driver while it handles a message, and how its calls end. -/
structure World where
  resuming : Bool
  fgEmpty : Bool
  roles : List WRole
  rssi : ℕ → Option ℕ
  txIdle : Bool
  rxIdle : Bool
  minRssiBcn : ℕ
  bcnOffsetChanged : Bool
  now : ℕ
  datapathActive : Bool
  enterOk : Bool
  leaveOk : Bool
  pauseOk : Bool
  serL1 : Bool

/-- The calls of the module: a mode is entered or left for a macid, with the protocol or without, the TX of the data path is paused or
resumed, and SER is asked for a reset. -/
inductive Call
  | enterPs (mode : PsMode) (macid : Option ℕ) (proto ok : Bool)
  | leavePs (mode : PsMode) (macid : Option ℕ) (proto ok : Bool)
  | swTx (pause ok : Bool)
  | serL2Reset
  deriving DecidableEq

/-- `struct cmd_ps`; `cap` is `dev_cap.ps_cap` and `idle` counts `req_idle_q`. -/
structure CmdPs where
  busy : List Evt
  idle : ℕ
  rejPwrReq : Bool
  btcReqPwr : Bool
  stopDatapath : Bool
  curPwrLvl : PwrLvl
  psState : PsState
  psMode : PsMode
  macid : Option ℕ
  wdgLeavePs : Bool
  lastTxPingTime : ℕ
  lastTxDhcpTime : ℕ
  rtStopRson : BitVec 32
  apActive : Bool
  gcActive : Bool
  rssiBcnMin : ℕ
  inRecovery : Bool
  wdgLeave : Bool
  recyCnt : ℕ
  cap : PsCap
  calls : List Call

def maxPweReqNum : ℕ := 16

def phlPsJudgePwrLvl (psCap : ℕ) : PsMode → PwrLvl
  | .ips =>
    if psCap.testBit 4 then .pwrOff
    else if psCap.testBit 3 then .pwrGated
    else if psCap.testBit 2 then .clkGated
    else if psCap.testBit 1 then .rfOff
    else if psCap.testBit 0 then .pwrOn
    else .pwrOff
  | .lps =>
    if psCap.testBit 3 then .pwrGated
    else if psCap.testBit 2 then .clkGated
    else if psCap.testBit 1 then .rfOff
    else .pwrOn
  | .none => .pwrOn

def phlGetPassingTimeMs (now start : ℕ) : ℕ := if start ≤ now then now - start else 0xffffffff - start + now

namespace CmdPs

variable (s : CmdPs) (w : World)

def log (c : Call) : CmdPs := { s with calls := s.calls ++ [c] }

/-! ### Leave and enter -/

/-- What `_leave_ps` writes when it succeeds. -/
def left (leaveProto : Bool) : CmdPs :=
  if s.psMode = .lps ∧ leaveProto = false then { s with curPwrLvl := .pwrOn, psState := .proto }
  else { s with curPwrLvl := .pwrOn, psMode := .none, psState := .leaved, macid := none }

/-- `_leave_ps`: whether it succeeds. -/
def leavePs (leaveProto : Bool) : CmdPs × Bool :=
  if s.psState = .leaved then (s, true)
  else if s.psMode = .lps ∧ leaveProto = false ∧ s.psState = .proto then (s, true)
  else
    let proto := match s.psMode with
      | .lps => leaveProto
      | .ips => s.curPwrLvl ≠ .pwrOff
      | .none => false
    let ok := w.leaveOk && s.psMode ≠ .none
    let s := s.log (.leavePs s.psMode s.macid proto ok)
    if ok then (s.left leaveProto, true) else (s, false)

/-- The power level that `_enter_ps` configures. -/
def enterLvl (mode : PsMode) (macid : Option ℕ) : PwrLvl :=
  match mode with
  | .lps => phlPsJudgePwrLvl s.cap.lpsCap .lps
  | .ips => if macid = none then .pwrOff else phlPsJudgePwrLvl s.cap.ipsCap .ips
  | .none => .pwrOff

/-- Whether `_enter_ps` configures the protocol. -/
def enterProto (mode : PsMode) (macid : Option ℕ) : Bool :=
  match mode with
  | .lps => s.psState ≠ .proto
  | .ips => s.enterLvl .ips macid ≠ .pwrOff
  | .none => false

/-- What `_enter_ps` writes when it succeeds. -/
def entered (mode : PsMode) (macid : Option ℕ) : CmdPs :=
  { s with curPwrLvl := s.enterLvl mode macid, psMode := mode, macid := macid, psState := .entered }

def enterPs (mode : PsMode) (macid : Option ℕ) : CmdPs :=
  if s.psState = .entered then s
  else
    let ok := w.enterOk && mode ≠ .none
    let p := s.log (.enterPs mode macid (s.enterProto mode macid) ok)
    if ok then p.entered mode macid else p

/-! ### Power requests -/

/-- `_cancel_pwr_req`: the last request goes, whatever its event is. -/
def cancelPwrReq (_evtId : Evt) : CmdPs :=
  match s.busy with
  | [] => s
  | _ => { s with busy := s.busy.dropLast, idle := s.idle + 1 }

/-- `_add_pwr_req`; nobody looks at its status. -/
def addPwrReq (evtId : Evt) : CmdPs :=
  if s.idle = 0 then s else { s with idle := s.idle - 1, busy := s.busy ++ [evtId] }

def resetPwrReqQ : CmdPs := { s with busy := [], idle := maxPweReqNum }

/-! ### After the leave -/

def leaveSuccessHdlr : CmdPs :=
  if s.stopDatapath then { s.log (.swTx false true) with stopDatapath := false } else s

def leaveFailHdlr : CmdPs × Ret :=
  let s := if s.cap.leaveFailAct.testBit 0 then { s with rejPwrReq := true } else s
  let (s, ret) :=
    if s.cap.leaveFailAct.testBit 2 && w.serL1 then
      ({ s with inRecovery := true, recyCnt := s.recyCnt + 1 }, Ret.pending)
    else (s, Ret.cannotIo)
  (if s.cap.leaveFailAct.testBit 1 then s.log .serL2Reset else s, ret)

def leaveAnd (onSuccess : CmdPs → CmdPs) : CmdPs × Ret :=
  match s.leavePs w true with
  | (s, true) => (onSuccess s, .success)
  | (s, false) => s.leaveFailHdlr w

/-! ### Conditions -/

/-- `_stop_datapath` -/
def stopDatapathTx : CmdPs × Bool :=
  let s := s.log (.swTx true w.pauseOk)
  if w.pauseOk then ({ s with stopDatapath := true }, true) else (s, false)

def chkRssiDiffReachThld : CmdPs × Bool :=
  if s.rssiBcnMin = 0 ∨ s.rssiBcnMin = 0xFF then ({ s with rssiBcnMin := w.minRssiBcn }, false)
  else if max s.rssiBcnMin w.minRssiBcn - min s.rssiBcnMin w.minRssiBcn < s.cap.lpsRssiDiffThreshold then (s, false)
  else ({ s with rssiBcnMin := w.minRssiBcn }, true)

/-- `_lps_state_judge_changed` for the target `PS_STATE_ENTERED` -/
def lpsJudgeEnter (macid : ℕ) : Bool :=
  match w.rssi macid with
  | none => false
  | some rssi => s.psState ≠ .entered && (s.cap.lpsRssiEnterThreshold < rssi && w.txIdle && w.rxIdle)

/-- `_lps_state_judge_changed` for the target `PS_STATE_LEAVED` -/
def lpsJudgeLeave : CmdPs × Bool :=
  match s.macid.bind w.rssi with
  | none => (s, false)
  | some rssi =>
    if s.psState = .leaved then (s, false)
    else
      let (s, diff) := s.chkRssiDiffReachThld w
      (s, diff || w.bcnOffsetChanged || rssi < s.cap.lpsRssiLeaveThreshold || !w.txIdle || !w.rxIdle)

def psChkDefer : Bool :=
  (s.cap.deferRson.testBit 0 && phlGetPassingTimeMs w.now s.lastTxPingTime < s.cap.lpsPingDeferTime) ||
    (s.cap.deferRson.testBit 1 && phlGetPassingTimeMs w.now s.lastTxDhcpTime < s.cap.lpsDhcpDeferTime)

def chkPsCap (mode : PsMode) : Bool :=
  match (match mode with | .lps => s.cap.lpsEn | .ips => s.cap.ipsEn | .none => .disabled) with
  | .forceEnabled => true
  | .auto => s.rtStopRson = 0
  | _ => false

end CmdPs

def chkRoleAllNoLink (roles : List WRole) : Bool := roles.all fun r => !r.active || r.mstate = .noLink

def getRoleOfPsPermitted (roles : List WRole) (mode : PsMode) : Option WRole :=
  roles.find? fun r => r.active && r.type = .station &&
    (mode = .lps && r.mstate = .linked || mode = .ips && r.mstate = .noLink)

namespace CmdPs

variable (s : CmdPs) (w : World)

/-- `_chk_wrole_with_ps_mode`: the macid. -/
def chkWroleWithPsMode (mode : PsMode) : Option ℕ :=
  if s.apActive || s.gcActive then none
  else if mode = .ips ∧ chkRoleAllNoLink w.roles = false then none
  else (getRoleOfPsPermitted w.roles mode).bind WRole.sta

/-- What `_chk_ips_enter` and `_chk_lps_enter` ask first. -/
def psBarred (mode : PsMode) : Bool :=
  w.resuming || s.rejPwrReq || !s.chkPsCap mode || !w.fgEmpty || !s.busy.isEmpty || s.btcReqPwr

def chkIpsEnter : Option ℕ := if s.psBarred w .ips then none else s.chkWroleWithPsMode w .ips

/-- The conditions of `_chk_lps_enter`. -/
def lpsPermitted : Option ℕ :=
  if s.psBarred w .lps || s.wdgLeavePs || s.psChkDefer w then none
  else (s.chkWroleWithPsMode w .lps).filter fun macid => s.lpsJudgeEnter w macid

def chkLpsEnter : CmdPs × Option ℕ :=
  match s.lpsPermitted w with
  | none => (s, none)
  | some macid =>
    if s.cap.lpsPauseTx && w.datapathActive then
      match s.stopDatapathTx w with
      | (s, true) => (s, some macid)
      | (s, false) => (s, none)
    else (s, some macid)

def tryIps : CmdPs :=
  match s.chkIpsEnter w with
  | some macid => s.enterPs w .ips (some macid)
  | none => s

end CmdPs

end Rtl8852cu.Ps
