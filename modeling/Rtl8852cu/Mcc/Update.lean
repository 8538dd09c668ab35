import Rtl8852cu.Mcc.Fill

/-!
# Changes of a running pattern

`phl/phl_mcc.c`: the durations of a role and of BT, the limit of a role and the offset of the beacons change while
MCC runs.  Each operation works on a copy of the info and stores it when everything has succeeded.
-/

namespace Rtl8852cu.Mcc

/-- `enum rtw_phl_status`, as far as it is returned here. -/
inductive PhlStatus where
  | success | failure
  deriving DecidableEq

namespace MccInfo

variable (m : MccInfo)

/-- `_mcc_update_2_clients_pattern`, with the new info. -/
def update2ClientsPattern (newMinfo : MccInfo) (hal : Hal) : Option MccInfo :=
  match newMinfo.fillInfoFor2ClientsMode hal with
  | none => none
  | some newMinfo => if hal.changePattern then some newMinfo else none

/-- `_mcc_update_ap_client_pattern`, with the new info. -/
def updateApClientPattern (newMinfo : MccInfo) (hal : Hal) : Option MccInfo :=
  match newMinfo.fillInfoForApClientMode hal with
  | none => none
  | some newMinfo =>
    if !hal.changePattern then none
    else if newMinfo.syncEn ∧ newMinfo.syncOffset ≠ m.syncOffset then
      if hal.syncEnable then some newMinfo else none
    else some newMinfo

/-- `_mcc_update_ap_bt_pattern`, with the new info. -/
def updateApBtPattern (newMinfo : MccInfo) (hal : Hal) : Option MccInfo :=
  match newMinfo.fillInfoForApBtMode hal with
  | none => none
  | some newMinfo => if hal.changePattern then some newMinfo else none

def mccDurationChange (newMinfo : MccInfo) (hal : Hal) : PhlStatus × MccInfo :=
  let new :=
    match m.mccMode with
    | .apClient => m.updateApClientPattern newMinfo hal
    | .twoClients => update2ClientsPattern newMinfo hal
    | .ap => updateApBtPattern newMinfo hal
    | _ => none
  match new with
  | none => (.failure, m)
  | some newMinfo => (.success, newMinfo)

/-- `_mcc_get_mrole_by_wrole`. -/
def getMroleByWrole (wrole : ℕ) : Option (Fin 2) :=
  [0, 1].find? fun i => m.mroleMap i && (m.mccRole i).wrole = wrole

/-- `_mcc_set_unspecific_dur`. -/
def setUnspecificDur : MccInfo :=
  { m with mccRole := fun i =>
      if m.mroleMap i then
        { m.mccRole i with durInfo := { (m.mccRole i).durInfo with dur := 0xff } }
      else m.mccRole i }

/-- The roles of the loops over `mrole_num`. -/
def inLoop (i : Fin 2) : Bool := i.val < m.mroleNum && m.mroleMap i

/-- The original BT slot and wifi slots, for the roles of `which`. -/
def fillOriginal (which : Fin 2 → Bool) (asked : Asked) : MccInfo :=
  let m := m.resetBtPattern.fillBtDur asked.btReqSlot
  { m with mccRole := fun i =>
      if which i then (m.mccRole i).fillPolicyInfo (asked.setting i) (asked.durReq i)
      else m.mccRole i }

/-- `rtw_phl_mcc_duration_change`. -/
def durationChange (wrole dur : ℕ) (hal : Hal) : PhlStatus × MccInfo :=
  let newMinfo := m.setUnspecificDur
  match newMinfo.getMroleByWrole wrole with
  | none => (.failure, m)
  | some i => m.mccDurationChange (newMinfo.setDur i dur) hal

/-- `rtw_phl_mcc_bt_duration_change`. -/
def btDurationChange (dur : ℕ) (asked : Asked) (hal : Hal) : PhlStatus × MccInfo :=
  if dur = m.btInfo.btDur then (.success, m)
  else
    let newMinfo := m.fillOriginal m.inLoop asked
    if [0, 1].all fun i => !(m.inLoop i && (m.mccRole i).on24g) then (.success, m)
    else m.mccDurationChange newMinfo hal

/-- `rtw_phl_mcc_dur_lim_change`; `mld` says whether the role has more than one link. -/
def durLimChange (wrole : ℕ) (mld : Bool) (limReq : DurReq) (asked : Asked) (hal : Hal) : PhlStatus × MccInfo :=
  if mld then (.failure, m)
  else if m.state ≠ .running then (.failure, m)
  else match m.getMroleByWrole wrole with
    | none => (.failure, m)
    | some i =>
      let newMinfo := m.fillOriginal m.inLoop asked
      m.mccDurationChange (newMinfo.modifyRole i fun r => { r with durInfo :=
        { r.durInfo with durLimit := fillDurLimInfo r.bcnIntvl r.durInfo.durLimit limReq } }) hal

/-- `tol` of `_mcc_2_clients_tracking`. -/
def trackingTol (negativeSign : Bool) : ℕ :=
  let p := m.mPattern
  if p.courtesyI.cEn then 3
  else if m.mccIntvl = 150 then 3
  else if negativeSign then
    if p.tobA ≤ earlyRxBcnT then 2
    else if p.tobA ≥ 2 * earlyRxBcnT then u16 (p.tobA - 7)
    else 3
  else if p.toaA ≤ minRxBcnT then 2
  else if p.toaA ≥ 2 * minRxBcnT then u16 (p.toaA - 15)
  else 3

/-- `_mcc_2_clients_tracking`, which returns nothing; `hal₀` answers for the offset that is tracked. -/
def tracking (hal₀ : Hal) (asked : Asked) (hal : Hal) : MccInfo :=
  match m.get2ClientsBcnOffset hal₀ with
  | none => m
  | some bcnsOffset =>
    let old := m.mPattern.bcnsOffset
    let diff := if bcnsOffset > old then bcnsOffset - old else old - bcnsOffset
    if diff < m.trackingTol (decide (bcnsOffset ≤ old)) then m
    else match update2ClientsPattern (m.fillOriginal (fun _ => true) asked) hal with
      | none => m
      | some newMinfo => newMinfo

end MccInfo

inductive MccOp where
  | durationChange (wrole dur : ℕ) (hal : Hal)
  | btDurationChange (dur : ℕ) (asked : Asked) (hal : Hal)
  | durLimChange (wrole : ℕ) (mld : Bool) (limReq : DurReq) (asked : Asked) (hal : Hal)
  | watchdog (hal₀ : Hal) (asked : Asked) (hal : Hal)

namespace MccInfo

/-- An operation: what it returns, and the info that is stored.  `rtw_phl_tdmra_duration_change` and
`rtw_phl_mcc_watchdog` test the state, the watchdog the mode. -/
def call (m : MccInfo) : MccOp → PhlStatus × MccInfo
  | .durationChange wrole dur hal =>
    if m.state ≠ .running then (.failure, m) else m.durationChange wrole dur hal
  | .btDurationChange dur asked hal =>
    if m.state ≠ .running then (.failure, m) else m.btDurationChange dur asked hal
  | .durLimChange wrole mld limReq asked hal => m.durLimChange wrole mld limReq asked hal
  | .watchdog hal₀ asked hal =>
    if m.state = .running ∧ m.mccMode = .twoClients then (.success, m.tracking hal₀ asked hal)
    else (.success, m)

def step (m : MccInfo) (op : MccOp) : MccInfo := (m.call op).2

end MccInfo

end Rtl8852cu.Mcc
