import Rtl8852cu.Ps.State

/-!
# The handlers of the power-save module

`_ps_mdl_msg_hdlr` with all it calls, `_ps_mdl_set_info`, and the state after `_ps_mdl_init` and `_ps_mdl_start` on band 0, as
configured for Linux: `RTW_WKARD_LINUX_CMD_WKARD` and P2PPS on, `RTW_WKARD_PHL_NTFY_MEDIA_STS` off.
-/

namespace Rtl8852cu.Ps

/-- `enum phl_module_id`, as far as the module tells them apart -/
inductive Mdl
  | powerMgnt | general | mrc | tx | rx | ser | btc | led
  | other (id : ℕ)
  deriving DecidableEq

/-- `enum phl_pkt_evt_type` -/
inductive PktEvt
  | txPingReq | rxPingRsp | eapolStart | eapolEnd | other
  deriving DecidableEq

/-- `enum ps_mdl_dbg_op` with the value of `struct ps_mdl_dbg_info` -/
inductive DbgOp
  | forceLpsEnter | forceLpsLeave | forceIpsEnter | forceIpsLeave
  | setLpsMode (val : OpMode)
  | setIpsMode (val : OpMode)
  | setLpsCap (val : ℕ)
  | other
  deriving DecidableEq

/-- `struct phl_msg` with what its buffer holds: the type of a packet event, `struct rt_ps`, the debug command, whether there is a
`struct rtw_role_cmd`, and the state of SER. -/
structure Msg where
  mdl : Mdl
  evt : Evt
  pre : Bool
  fail : Bool
  pkt : Option PktEvt
  psAllow : Bool
  rtRson : BitVec 32
  dbg : DbgOp
  roleCmd : Bool
  serState : ℕ

namespace CmdPs

variable (s : CmdPs) (m : Msg) (w : World)

/-- Without power a message gets no IO. -/
def ioRet : Ret := if s.curPwrLvl ≠ .pwrOn then .cannotIo else .success

def psWatchdogPreHdlr : CmdPs × Ret :=
  let s := { s with wdgLeavePs := false }
  if s.rejPwrReq then (s, .cannotIo)
  else if s.psMode = .ips then (s, .cannotIo)
  else if s.psState = .leaved then (s, .success)
  else
    let (s, changed) := s.lpsJudgeLeave w
    -- `_lps_judge_wdg_leave`
    let leave := changed || s.wdgLeave
    let s := if changed then s else { s with wdgLeave := false }
    if leave then
      match s.leavePs w true with
      | (s, true) => ({ s with wdgLeavePs := true }.leaveSuccessHdlr, .success)
      | (s, false) => s.leaveFailHdlr w
    else (s, if s.psState = .proto then .success else .cannotIo)

def psWatchdogPostHdlr : CmdPs × Ret :=
  match s.chkLpsEnter w with
  | (s, some macid) => (s.enterPs w .lps (some macid), .success)
  | (s, none) => (s.tryIps w, .success)

def psLeaveDeferRson : CmdPs × Ret :=
  if s.rejPwrReq then (s, .cannotIo)
  else if m.pre then
    match s.leavePs w true with
    | (s, true) => (s.leaveSuccessHdlr, .success)
    | (s, false) => ((s.leaveFailHdlr w).1, .cannotIo)
  else (s, .success)

def psPingPktHdlr (type : PktEvt) : CmdPs × Ret :=
  match type with
  | .txPingReq =>
    if s.cap.deferRson.testBit 0 then { s with lastTxPingTime := w.now }.psLeaveDeferRson m w else (s, .fail)
  | .rxPingRsp => (s, .success)
  | _ => (s, .fail)

/-- `_ps_add_pwr_req_cmn`, and `_phy_on_msg_hdlr` -/
def psAddPwrReqCmn : CmdPs × Ret :=
  if s.rejPwrReq then (s, .cannotIo)
  else if m.pre then s.leaveAnd w fun s => (s.addPwrReq m.evt).leaveSuccessHdlr
  else (s, .success)

/-- `_ps_cancel_pwr_req_cmn`, and `_phy_idle_msg_hdlr` -/
def psCancelPwrReqCmn : CmdPs × Ret := (if m.pre then s else (s.cancelPwrReq m.evt).tryIps w, .success)

def psPktEvtHdlr : CmdPs × Ret :=
  match m.pkt with
  | none => (s, .fail)
  | some .txPingReq => s.psPingPktHdlr m w .txPingReq
  | some .rxPingRsp => s.psPingPktHdlr m w .rxPingRsp
  | some .eapolStart => s.psAddPwrReqCmn m w
  | some .eapolEnd => s.psCancelPwrReqCmn m w
  | some .other => (s, .success)

def phyOnMsgHdlr : CmdPs × Ret := s.psAddPwrReqCmn m w

def phyIdleMsgHdlr : CmdPs × Ret := s.psCancelPwrReqCmn m w

def txPwrReqMsgHdlr : CmdPs × Ret :=
  if s.rejPwrReq then (s, .cannotIo)
  else if m.pre then
    match s.leavePs w false with
    | (s, true) => (s.leaveSuccessHdlr, .success)
    | (s, false) => s.leaveFailHdlr w
  else (s, .success)

def extMsgPreHdlr (evtId : Evt) : CmdPs × Ret :=
  if s.rejPwrReq then (s, .cannotIo) else s.leaveAnd w fun s => (s.addPwrReq evtId).leaveSuccessHdlr

def extMsgPostHdlr (evtId : Evt) : CmdPs × Ret := ((s.cancelPwrReq evtId).tryIps w, .success)

/-- `_ps_mr_info_upt`: the last role of an AP or a mesh decides. -/
def psMrInfoUpt : CmdPs :=
  { s with
    gcActive := false
    apActive := w.roles.foldl
      (fun ap r => if r.active && (r.isApCategory || r.type = .mesh) then r.mstate ≠ .noLink else ap) false }

def mrcMdlMsgHdlr : CmdPs × Ret :=
  match m.evt with
  | .roleNtfy => (if !m.pre && m.roleCmd then s.psMrInfoUpt w else s, .success)
  | _ => (s, s.ioRet)

def isIgnoredSerEvt : Bool :=
  match m.evt with
  | .serM9L2Reset => false
  | .serPollingChk => m.serState ≠ 0
  | _ => true

def serMdlMsgHdlr : CmdPs × Ret :=
  if isIgnoredSerEvt m then (s, .success)
  else
    match m.evt with
    | .serM9L2Reset => (s, .success)
    | _ => (s, s.ioRet)

def linuxCmdWkardHdlr : CmdPs × Ret := if s.rejPwrReq then (s, .cannotIo) else s.leaveAnd w leaveSuccessHdlr

/-- The post phase of `MSG_EVT_RF_OFF`. -/
def rfOffHdlr : CmdPs × Ret :=
  match s.leavePs w true with
  | (s, true) => ({ s.leaveSuccessHdlr with rejPwrReq := true }.enterPs w .ips none, .success)
  | (s, false) => s.leaveFailHdlr w

def generalMdlMsgHdlr : CmdPs × Ret :=
  match m.evt with
  | .swWatchdog => (s, .success)
  | .getUsbSwAbility => (s, .success)
  | .getUsbSpeed => (s, .success)
  | .ext e => if m.pre then s.extMsgPreHdlr w (.ext e) else s.extMsgPostHdlr w (.ext e)
  | .linuxCmdWrk => if m.pre then s.linuxCmdWkardHdlr w else (s, .success)
  | .hwWatchdog =>
    if m.pre then
      match s.psWatchdogPreHdlr w with
      | (s, .success) => ({ s with rssiBcnMin := w.minRssiBcn }, .success)
      | (s, ret) => (s, ret)
    else s.psWatchdogPostHdlr w
  | .rfOn => (if m.pre then s else { s with rejPwrReq := false }, .success)
  | .rfOff => if m.pre then (s, .success) else s.rfOffHdlr w
  | .phyOn => s.phyOnMsgHdlr m w
  | .phyIdle => s.phyIdleMsgHdlr m w
  | .pktEvtNtfy => s.psPktEvtHdlr m w
  | _ => (s, s.ioRet)

def datapathMdlMsgHdlr : CmdPs × Ret :=
  match m.evt with
  | .trxPwrReq => s.txPwrReqMsgHdlr m w
  | _ => (s, s.ioRet)

def psMdlHdlExternalEvt : CmdPs × Ret :=
  match m.mdl with
  | .btc => (s, .success)
  | .led => (s, .success)
  | .general => s.generalMdlMsgHdlr m w
  | .mrc => s.mrcMdlMsgHdlr m w
  | .tx => s.datapathMdlMsgHdlr m w
  | .rx => s.datapathMdlMsgHdlr m w
  | .ser => s.serMdlMsgHdlr m
  | _ => (s, s.ioRet)

def psCapChgMsgHdlr : CmdPs × Ret :=
  if m.pre then
    let isSet : Bool := s.rtStopRson &&& m.rtRson = m.rtRson
    if m.psAllow ≠ isSet then (s, .success)
    else
      let s := { s with rtStopRson := if m.psAllow then s.rtStopRson &&& ~~~m.rtRson else s.rtStopRson ||| m.rtRson }
      if s.rejPwrReq then (s, .cannotIo)
      else if s.rtStopRson ≠ 0 then s.leaveAnd w leaveSuccessHdlr
      else (s, .success)
  else (if s.rtStopRson = 0 then s.tryIps w else s, .success)

def psPeriodChkHdlr : CmdPs × Ret :=
  if m.pre then (s, .success)
  else
    let s := { s with wdgLeavePs := false }
    if s.psState ≠ .entered then
      match s.chkLpsEnter w with
      | (s, some macid) => (s.enterPs w .lps (some macid), .success)
      | (s, none) => (s, .success)
    else (s, .success)

/-- A forced entry of `_ps_dbg_cmd_hdlr`. -/
def dbgEnter (mode : PsMode) : CmdPs :=
  match s.chkWroleWithPsMode w mode with
  | none => s
  | some macid => { s.enterPs w mode (some macid) with rejPwrReq := true }

def psDbgCmdHdlr : CmdPs × Ret :=
  match m.dbg with
  | .forceLpsEnter => (if m.pre then s else s.dbgEnter w .lps, .success)
  | .forceLpsLeave => (if m.pre then { (s.leavePs w true).1 with rejPwrReq := false } else s, .success)
  | .forceIpsEnter => (if m.pre then s else s.dbgEnter w .ips, .success)
  | .forceIpsLeave => (if m.pre then { (s.leavePs w true).1 with rejPwrReq := false } else s, .success)
  | .setLpsMode val =>
    if m.pre ∧ s.cap.lpsEn ≠ val then
      let s := { s with cap := { s.cap with lpsEn := val } }
      if s.psMode = .lps then s.leaveAnd w leaveSuccessHdlr else (s, .success)
    else (s, .success)
  | .setIpsMode val =>
    if m.pre ∧ s.cap.ipsEn ≠ val then
      let s := { s with cap := { s.cap with ipsEn := val } }
      let s := if s.psMode = .ips then (s.leavePs w true).1 else s
      (if val ≠ .disabled then s.tryIps w else s, .success)
    else (s, .success)
  | .setLpsCap val =>
    if m.pre ∧ s.cap.lpsCap ≠ val then
      let s := { s with cap := { s.cap with lpsCap := val } }
      if s.psMode = .lps then s.leaveAnd w leaveSuccessHdlr else (s, .success)
    else (s, .success)
  | .other => (s, .success)

def psMdlHdlInternalEvt : CmdPs × Ret :=
  match m.evt with
  | .phyOn => s.phyOnMsgHdlr m w
  | .phyIdle => s.phyIdleMsgHdlr m w
  | .psCapChg => s.psCapChgMsgHdlr m w
  | .psPeriodChk => s.psPeriodChkHdlr m w
  | .psDbgCmd => s.psDbgCmdHdlr m w
  | .txPktNtfy => (s, .success)
  | _ => (s, .cannotIo)

def psRecyHdlr : CmdPs × Ret :=
  if s.inRecovery then
    if m.mdl ≠ .ser then (s, .pending)
    else (if m.evt = .serM5Ready ∧ m.pre then { s with inRecovery := false } else s, .ignore)
  else (s, .ignore)

/-- The handlers of `_ps_mdl_msg_hdlr` behind the recovery. -/
def psMdlHdlEvt : CmdPs × Ret :=
  match m.mdl with
  | .powerMgnt => s.psMdlHdlInternalEvt m w
  | _ => s.psMdlHdlExternalEvt m w

/-- The end of `_ps_mdl_msg_hdlr`. -/
def psMdlPended (ret : Ret) : CmdPs := if ret = .pending ∧ m.evt = .hwWatchdog then { s with wdgLeave := true } else s

def psMdlMsgHdlr : CmdPs × Ret :=
  match s.psRecyHdlr m with
  | (s, .pending) => (s.psMdlPended m .pending, .pending)
  | (s, _) =>
    if m.fail then (s, .success)
    else
      let (s, ret) := s.psMdlHdlEvt m w
      (s.psMdlPended m ret, ret)

/-- `_ps_mdl_set_info`: a power request is cancelled. -/
def psMdlSetInfoCancel (evtId : Evt) : CmdPs := if s.rejPwrReq then s else s.cancelPwrReq evtId

/-- `_ps_mdl_set_info`: BT asks for power. -/
def psMdlSetInfoBtc (req : Bool) : CmdPs := { s with btcReqPwr := req }

end CmdPs

/-- `_ps_mdl_init` at the time `now`; the memory is set to 0. -/
def psMdlInit (cap : PsCap) (now : ℕ) : CmdPs where
  busy := []
  idle := maxPweReqNum
  rejPwrReq := false
  btcReqPwr := false
  stopDatapath := false
  curPwrLvl := .pwrOn
  psState := .leaved
  psMode := .none
  macid := some 0
  wdgLeavePs := false
  lastTxPingTime := now
  lastTxDhcpTime := now
  rtStopRson := 0
  apActive := false
  gcActive := false
  rssiBcnMin := 0
  inRecovery := false
  wdgLeave := false
  recyCnt := 0
  cap := cap
  calls := []

/-- `_ps_mdl_start` on band 0; the entry for RF off is in software only. -/
def psMdlStart (cap : PsCap) (now : ℕ) : CmdPs :=
  let s := { psMdlInit cap now with rtStopRson := cap.initRtStopRson }.resetPwrReqQ
  if cap.initRfOff then { s with rejPwrReq := true }.entered .ips none else s

end Rtl8852cu.Ps
