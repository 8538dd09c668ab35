import Rtl8852cu.Mcc.Calculate
import Mathlib.Logic.Function.Basic

/-!
# Filling in an MCC info

`phl/phl_mcc.c`: the durations of the two roles and of BT are settled, and a pattern is computed for them, in each of
the three modes.

The answers of the HAL are an argument.  The limit of a role is asked for, and the core answers with its
duration of 50 TU or not at all (`core/rtw_phl.c`, `_mcc_get_setting`; it leaves the firmware log as it
is).  Start times, null data, the NoA of a beacon and what only the HAL reads are left out; where the
source copies an info, the pointers to roles are those of the copy, here they are indices.
-/

namespace Rtl8852cu.Mcc

/-- `enum rtw_phl_tdmra_wmode`. -/
inductive WMode where
  | none | apClient | twoClients | ap | unknown
  deriving DecidableEq

inductive MccState where
  | none | cfgEnInfo | triggerFwEn | fwEnFail | running | triggerFwDis | fwDisFail | stop
  deriving DecidableEq

/-- `enum rtw_phl_mcc_coex_mode`. -/
inductive CoexMode where
  | none | btMaster | wifiMaster | btWifiBalance
  deriving DecidableEq

/-- `rtw_phl_role_is_ap_category`, `rtw_phl_role_is_client_category`. -/
inductive RoleCat where
  | ap | client | other
  deriving DecidableEq

/-- `struct rtw_phl_mcc_role`; a wifi role is its id. -/
structure MccRole where
  wrole : ℕ
  cat : RoleCat
  /-- `chandef->band == BAND_ON_24G`. -/
  on24g : Bool
  bcnIntvl : ℕ
  durInfo : DurInfo
  deriving DecidableEq

/-- `struct rtw_phl_mcc_bt_info`. -/
structure BtInfo where
  btDur : ℕ
  btSegNum : ℕ
  addBtRole : Bool
  deriving DecidableEq

/-- `struct phl_mcc_info`, with its `en_info`. -/
structure MccInfo where
  mccRole : Fin 2 → MccRole
  refRoleIdx : Fin 2
  mroleMap : Fin 2 → Bool
  mroleNum : ℕ
  mPattern : Pattern
  mccIntvl : ℕ
  syncEn : Bool
  syncOffset : ℕ
  mccMode : WMode
  state : MccState
  coexMode : CoexMode
  btInfo : BtInfo

/-- `struct phl_mcc_dur_lim_req_info`. -/
structure DurReq where
  enable : Bool
  startTH : ℕ
  startTL : ℕ
  dur : ℕ
  intvl : ℕ

/-- What is asked for before a pattern is computed. -/
structure Asked where
  /-- `rtw_hal_get_btc_req_slot`. -/
  btReqSlot : ℕ
  /-- `phl_mr_coex_query_role_time_slot_lim`. -/
  durReq : Fin 2 → DurReq
  /-- Whether `_mcc_get_setting` succeeds. -/
  setting : Fin 2 → Bool

/-- The answers of the HAL to one operation. -/
structure Hal where
  /-- The offsets from the beacons in `_mcc_get_2_clients_bcn_offset`. -/
  ofsts : Option (ℕ × ℕ)
  /-- `_mcc_calculate_start_tsf`. -/
  startTsf : Bool
  changePattern : Bool
  /-- The offset of `rtw_phl_tbtt_sync`. -/
  tbttSync : Option ℕ
  syncEnable : Bool

/-- `MIN_CLIENT_DUR`, `MIN_AP_DUR`. -/
def MccRole.minDur (r : MccRole) : ℕ := if r.cat = .ap then 20 else 15

/-- The conversion to `u32`. -/
def u32 (x : ℤ) : ℕ := (x % 4294967296).toNat

/-- `_mcc_fill_dur_lim_info`. -/
def fillDurLimInfo (bcnIntvl : ℕ) (lim : DurLimInfo) (req : DurReq) : DurLimInfo :=
  if !req.enable ∨ bcnIntvl * 1024 ≠ req.intvl then { lim with enable := false }
  else
    let maxToa := (req.startTH * 4294967296 + req.startTL) % (bcnIntvl * 1024) % 65536
    if maxToa ≥ u32 (bcnIntvl * 1024 - req.dur) ∨ maxToa = 0 then { lim with enable := false }
    else
      let maxDur := u32 (req.intvl - req.dur) / 1024
      let maxTob := u32 (maxDur - (maxToa / 1024 : ℕ))
      ⟨true, maxTob % 65536, maxToa / 1024, maxDur % 65536⟩

/-- `_mcc_fill_mcc_role_policy_info`. -/
def MccRole.fillPolicyInfo (r : MccRole) (setting : Bool) (req : DurReq) : MccRole :=
  { r with durInfo :=
    { dur := if setting then 50 else if r.cat = .client then 40 else 60
      durLimit := fillDurLimInfo r.bcnIntvl r.durInfo.durLimit req } }

namespace MccInfo

variable (m : MccInfo)

/-- The index of the role that is not the reference. -/
def anoIdx : Fin 2 := if m.refRoleIdx = 0 then 1 else 0

/-- `get_ref_role`. -/
def roleRef : MccRole := m.mccRole m.refRoleIdx

def roleAno : MccRole := m.mccRole m.anoIdx

def modifyRole (i : Fin 2) (f : MccRole → MccRole) : MccInfo :=
  { m with mccRole := Function.update m.mccRole i (f (m.mccRole i)) }

def setDur (i : Fin 2) (dur : ℕ) : MccInfo :=
  m.modifyRole i fun r => { r with durInfo := { r.durInfo with dur := dur } }

/-- `_mcc_reset_minfo` of the BT info and of the pattern. -/
def resetBtPattern : MccInfo :=
  { m with btInfo := ⟨0, 0, false⟩, mPattern := .zero }

/-- `_mcc_fill_bt_dur`. -/
def fillBtDur (slot : ℕ) : MccInfo :=
  { m with btInfo := { m.btInfo with btDur := slot % 65536, btSegNum := 1 } }

end MccInfo

/-! ### Durations -/

/-- A round of the loop of `_mcc_adjust_dur_for_2g_mcc_2role_bt`. -/
def adjustRound (min1 max1 min2 max2 wifiDur d1 d2 : ℕ) : ℕ × ℕ :=
  let d1 := d1 * 100 / (d1 + d2) * wifiDur / 100 % 65536
  let d1 := if d1 < min1 then min1 else if d1 > max1 then max1 else d1
  let d2 := u16 (wifiDur - d1)
  if d2 < min2 then (u16 (wifiDur - min2), min2)
  else if d2 > max2 then (u16 (wifiDur - max2), max2)
  else (d1, d2)

/-- The loop of `_mcc_adjust_dur_for_2g_mcc_2role_bt`, with `n` rounds left: the durations and the BT
duration that it ends with. -/
def adjustLoop (intvl min1 max1 min2 max2 : ℕ) : ℕ → ℕ → ℕ → ℕ → Option (ℕ × ℕ × ℕ)
  | 0, _, _, _ => none
  | n + 1, btDur, d1, d2 =>
    let (d1, d2) := adjustRound min1 max1 min2 max2 (u16 (intvl - btDur)) d1 d2
    if min1 ≤ d1 ∧ d1 ≤ max1 ∧ min2 ≤ d2 ∧ d2 ≤ max2 then some (d1, d2, btDur)
    else adjustLoop intvl min1 max1 min2 max2 n (u16 (btDur - 1)) d1 d2

/-- `_mcc_set_dur_for_2_clients_mode`. -/
def setDurFor2ClientsMode (i1 i2 : DurInfo) (intvl : ℕ) : ℕ × ℕ :=
  let (d1, d2) :=
    if i1.dur = 0xff then (u16 (intvl - i2.dur), i2.dur) else (i1.dur, u16 (intvl - i1.dur))
  let (d1, d2) :=
    if d1 < 15 then (15, u16 (intvl - 15))
    else if d2 < 15 then (u16 (intvl - 15), 15)
    else (d1, d2)
  let (d1, d2) :=
    if i1.durLimit.enable ∧ i1.durLimit.maxDur ≠ 0 ∧ d1 > i1.durLimit.maxDur then
      (i1.durLimit.maxDur, u16 (intvl - i1.durLimit.maxDur))
    else (d1, d2)
  if i2.durLimit.enable ∧ i2.durLimit.maxDur ≠ 0 ∧ d2 > i2.durLimit.maxDur then
    (u16 (intvl - i2.durLimit.maxDur), i2.durLimit.maxDur)
  else (d1, d2)

/-- `_mcc_set_dur_for_ap_client_mode`. -/
def setDurForApClientMode (apDur clientDur intvl : ℕ) : ℕ × ℕ :=
  let apDur := if apDur = 0xff then u16 (intvl - clientDur) else apDur
  let apDur :=
    if apDur < 20 then 20
    else if (apDur : ℤ) > intvl - 15 then u16 (intvl - 15)
    else apDur
  (apDur, u16 (intvl - apDur))

namespace MccInfo

variable (m : MccInfo)

def maxDur (i : Fin 2) : ℕ :=
  let lim := (m.mccRole i).durInfo.durLimit
  if lim.enable then lim.maxDur else m.mccIntvl

/-- `_mcc_adjust_dur_for_2g_mcc_2role_bt`. -/
def adjustDurFor2gMcc2roleBt : Bool × MccInfo :=
  match adjustLoop m.mccIntvl (m.mccRole 0).minDur (m.maxDur 0) (m.mccRole 1).minDur (m.maxDur 1)
    m.mccIntvl m.btInfo.btDur (m.mccRole 0).durInfo.dur (m.mccRole 1).durInfo.dur with
  | none => (false, m)
  | some (d1, d2, btDur) =>
    let m := (m.setDur 0 d1).setDur 1 d2
    (true, { m with
      btInfo := { m.btInfo with btDur := btDur }
      mPattern := { m.mPattern with spacingMax := btDur } })

/-- `_mcc_adjust_dur_for_2_band_mcc_2role_bt`, for the roles on 2.4G and on another band. -/
def adjustDurFor2BandMcc2roleBt (i2g iNon2g : Fin 2) : MccInfo :=
  let dur2g := (m.mccRole i2g).durInfo
  let durNon2g := (m.mccRole iNon2g).durInfo
  let btDur := m.btInfo.btDur
  if durNon2g.dur ≥ btDur then m
  else if durNon2g.durLimit.enable ∧ durNon2g.durLimit.maxDur < btDur then m
  else if m.coexMode = .btMaster then
    let (new2g, newNon2g) :=
      if dur2g.durLimit.enable ∧ dur2g.durLimit.maxDur < u16 (m.mccIntvl - btDur) then
        (dur2g.durLimit.maxDur, u16 (m.mccIntvl - dur2g.durLimit.maxDur))
      else (u16 (m.mccIntvl - btDur), btDur)
    (m.setDur iNon2g newNon2g).setDur i2g new2g
  else m

/-- `_mcc_discision_dur_for_2g_mcc_2role_bt`; the durations may stay as they are. -/
def discisionDurFor2gMcc2roleBt : MccInfo :=
  let m := if m.btInfo.btDur > 33 then { m with btInfo := { m.btInfo with btDur := 33 } } else m
  m.adjustDurFor2gMcc2roleBt.2

/-- `_mcc_discision_duration_for_2role_bt`. -/
def discisionDurationFor2roleBt : Bool × MccInfo :=
  if m.btInfo.btDur = 0 then (false, m)
  else match (m.mccRole 0).on24g, (m.mccRole 1).on24g with
    | true, true => (true, m.discisionDurFor2gMcc2roleBt)
    | false, false => (false, m)
    | true, false => (false, m.adjustDurFor2BandMcc2roleBt 0 1)
    | false, true => (false, m.adjustDurFor2BandMcc2roleBt 1 0)

/-! ### Patterns -/

/-- `_mcc_fill_2_wrole_bt_pattern`. -/
def fill2WroleBtPattern : MccInfo :=
  if m.btInfo.btSegNum = 1 then
    let ref := m.roleRef.durInfo
    let ano := m.roleAno.durInfo
    { m with
      btInfo := { m.btInfo with addBtRole := true }
      mPattern :=
        match calculate2Wslot1BtslotPattern ref ano (s16 m.btInfo.btDur) m.mPattern with
        | some p => p
        | none => set2ClientsWorsecaseDefaultPattern ref.dur ref.dur ano.dur m.mPattern }
  else m

/-- `_mcc_fill_2wrole_pattern_with_limitation`. -/
def fill2wrolePatternWithLimitation : Bool × MccInfo :=
  let ref := m.roleRef.durInfo
  let ano := m.roleAno.durInfo
  if ¬ (ref.durLimit.enable ∨ ano.durLimit.enable) then (false, m)
  else if ref.durLimit.enable ∧ ano.durLimit.enable then (false, m)
  else match m.discisionDurationFor2roleBt with
    | (true, m) => (true, m.fill2WroleBtPattern)
    | (false, m) =>
      match calculate2WrolePattern m.roleRef.durInfo m.roleAno.durInfo m.mPattern.bcnsOffset
        m.mPattern with
      | some p => (true, { m with mPattern := p })
      | none => (false, m)

/-- `_mcc_fill_2_clients_pattern`. -/
def fill2ClientsPattern (worsecase : Bool) : MccInfo :=
  let refDur := m.roleRef.durInfo.dur
  let anoDur := m.roleAno.durInfo.dur
  if !worsecase then
    { m with mPattern :=
        calculate2ClientsPattern refDur anoDur m.mPattern.bcnsOffset m.mPattern }
  else match calc2ClientsWorsecasePattern refDur anoDur m.mPattern.bcnsOffset m.roleRef.bcnIntvl
    m.mPattern with
    | (true, p) => { m with mPattern := p }
    | (false, p) => { m with mPattern := set2ClientsWorsecaseDefaultPattern refDur refDur anoDur p }

/-- `_mcc_set_worsecase_dur_for_2_clients_mode`. -/
def setWorsecaseDurFor2ClientsMode : MccInfo :=
  let (refDur, anoDur) :=
    if m.roleRef.durInfo.dur > m.roleAno.durInfo.dur then (90, 60) else (60, 90)
  { (m.setDur m.refRoleIdx refDur).setDur m.anoIdx anoDur with mccIntvl := 150 }

/-- `_mcc_set_ap_client_default_pattern`. -/
def setApClientDefaultPattern : MccInfo :=
  let refDur := m.roleRef.durInfo.dur
  let anoDur := m.roleAno.durInfo.dur
  let bcnsOffset := m.mccIntvl / 2 % 256
  let toaR := s16 (refDur / 2)
  let tobA := (bcnsOffset - toaR) % 256
  let p := { m.mPattern with
    bcnsOffset := bcnsOffset
    toaR := toaR
    tobR := s16 (refDur - toaR)
    tobA := tobA
    toaA := s16 (anoDur - tobA) }
  let p := p.fillSlotInfo false refDur (some m.refRoleIdx)
  { m with mPattern := p.fillSlotInfo false anoDur (some m.anoIdx) }

/-! ### The three modes -/

/-- `_mcc_get_2_clients_bcn_offset`. -/
def get2ClientsBcnOffset (hal : Hal) : Option ℕ :=
  hal.ofsts.map fun (ofstR, ofstA) =>
    let ofstR := if ofstR < ofstA then (ofstR + m.roleRef.bcnIntvl) % 65536 else ofstR
    u16 (ofstR - ofstA)

/-- The durations of two clients, in the beacon interval of the reference role. -/
def setDurs2Clients : MccInfo :=
  let intvl := m.roleRef.bcnIntvl
  let (refDur, anoDur) := setDurFor2ClientsMode m.roleRef.durInfo m.roleAno.durInfo intvl
  { (m.setDur m.refRoleIdx refDur).setDur m.anoIdx anoDur with mccIntvl := intvl }

/-- The roles of a pattern, and the offset of their beacons. -/
def startPattern (bcnsOffset : ℕ) : MccInfo :=
  { m with mPattern := { m.mPattern with
      roleRef := some m.refRoleIdx
      roleAno := some m.anoIdx
      bcnsOffset := bcnsOffset } }

/-- The pattern of two clients, with their durations. -/
def pattern2Clients (worsecase : Bool) : MccInfo :=
  match m.fill2wrolePatternWithLimitation with
  | (true, m) => m
  | (false, m) =>
    match m.discisionDurationFor2roleBt with
    | (true, m) => m.fill2WroleBtPattern
    | (false, m) =>
      (if worsecase then m.setWorsecaseDurFor2ClientsMode else m).fill2ClientsPattern worsecase

/-- `_mcc_fill_info_for_2_clients_mode`. -/
def fillInfoFor2ClientsMode (hal : Hal) : Option MccInfo :=
  match m.get2ClientsBcnOffset hal with
  | none => none
  | some bcnsOffset =>
    let worsecase := decide (bcnsOffset < 15 ∨ (bcnsOffset : ℤ) > m.roleRef.bcnIntvl - 15)
    let m := ((m.startPattern bcnsOffset).setDurs2Clients).pattern2Clients worsecase
    if hal.startTsf then some m else none

/-- `_mcc_get_mrole_by_category`. -/
def getMroleByCategory (cat : RoleCat) : Option (Fin 2) :=
  [0, 1].find? fun i => m.mroleMap i && (m.mccRole i).cat = cat

/-- The durations of an AP and a client, in the beacon interval of the AP. -/
def setDursApClient (iAp iClient : Fin 2) : MccInfo :=
  let intvl := (m.mccRole iAp).bcnIntvl
  let (apDur, clientDur) := setDurForApClientMode (m.mccRole iAp).durInfo.dur
    (m.mccRole iClient).durInfo.dur intvl
  { (m.setDur iAp apDur).setDur iClient clientDur with mccIntvl := intvl }

/-- The pattern of an AP and a client, with their durations. -/
def patternApClient : MccInfo :=
  match m.discisionDurationFor2roleBt with
  | (true, m) =>
    { m with mPattern := { m.mPattern with bcnsOffset := 40 } }.fill2WroleBtPattern
  | (false, m) => m.setApClientDefaultPattern

/-- `_mcc_fill_info_for_ap_client_mode`. -/
def fillInfoForApClientMode (hal : Hal) : Option MccInfo :=
  match m.getMroleByCategory .ap, m.getMroleByCategory .client with
  | some iAp, some iClient =>
    let m := ((m.startPattern m.mPattern.bcnsOffset).setDursApClient iAp iClient).patternApClient
    match hal.tbttSync with
    | none => none
    | some offset =>
      if hal.startTsf then some { m with syncEn := true, syncOffset := offset } else none
  | _, _ => none

/-- `_mcc_fill_info_for_ap_bt_mode`. -/
def fillInfoForApBtMode (hal : Hal) : Option MccInfo :=
  let intvl := m.roleRef.bcnIntvl
  let dur := ((intvl - m.btInfo.btDur : ℤ) % 256).toNat
  let p := { m.mPattern with
    roleRef := some m.refRoleIdx
    toaR := s16 (dur / 2)
    tobR := s16 (dur - s16 (dur / 2)) }
  let p := p.fillSlotInfo false dur (some m.refRoleIdx)
  let m := { m.setDur m.refRoleIdx dur with
    btInfo := { m.btInfo with addBtRole := true }
    mccIntvl := intvl
    mPattern := p.fillSlotInfo true m.btInfo.btDur none }
  if hal.startTsf then some m else none

end MccInfo

end Rtl8852cu.Mcc
