import Mathlib.Algebra.Ring.Nat
import Mathlib.Logic.Function.Basic

/-!
# The role table and its CAM entries

`phl/hal_g6/mac/mac_ax/role.c`, `addr_cam.c`: a role is a `struct mac_role_tbl`, taken from a pool and put on a
list.  It has an entry of the address CAM for itself, and one of the BSSID CAM that it may share.  Which entries are
in use is not stored, it is read off the valid roles on the list.

What may fail is part of a call (`RoleEnv`).  The two lists are their members in order, each a structure with its own
`id`.  The firmware answers nothing here, so an update that was sent is one that the hardware has.
-/

namespace Rtl8852cu.Role

/-- The codes that are returned here; `other` is what the transport or the DBCC code returns. -/
inductive MacStatus where
  | success | nptr | noBuf | bufAlloc | funcInput | saMacid | noItem | macidFl | roleInitFl
  | fwNonRdy | addrCamFl | bssidCamFl | noRole | other
  deriving DecidableEq

/-- The sizes of `hw_info`, which fit into the fields for an index. -/
structure HwInfo where
  macidNum : ℕ
  bssidNum : ℕ
  macidNum_le : macidNum ≤ 256
  bssidNum_lt : bssidNum < 64

abbrev Mac := Fin 6 → UInt8

/-- `PLTFM_MEMCMP` of the first `len` bytes, no difference. -/
def macEq (len : ℕ) (a b : Mac) : Bool := decide (∀ k : Fin 6, k.val < len → a k = b k)

inductive SelfRole where
  | client | ap | apClient
  deriving DecidableEq

inductive NetType where
  | noLink | adhoc | infra | ap
  deriving DecidableEq

inductive UpdMode where
  | create | remove | typeChange | infoChange | conDisconn | bandSw | fwRestore
  deriving DecidableEq

inductive Opmode where
  | connect | disconn
  deriving DecidableEq

inductive MskSel where
  | no | sma | tma | bssid
  deriving DecidableEq

/-- A slot of an address CAM entry: a bit of `sec_ent_valid`, with its `sec_ent_keyid` and `sec_ent`. -/
structure SecEnt where
  valid : Bool
  keyid : UInt8
  ent : ℕ
  deriving DecidableEq

/-- `struct mac_ax_addr_cam_info`. -/
structure AddrCamInfo where
  addrCamIdx : ℕ
  valid : Bool
  netType : NetType
  bbSel : ℕ
  maskSel : MskSel
  addrMask : ℕ
  bssidCamIdx : ℕ
  isMulEnt : Bool
  sma : Mac
  tma : Mac
  macid : UInt8
  secEntMode : ℕ
  secEnt : Fin 7 → SecEnt

/-- `struct mac_ax_bssid_cam_info`. -/
structure BssidCamInfo where
  bssidCamIdx : ℕ
  valid : Bool
  bbSel : ℕ
  bssid : Mac

/-- `struct mac_ax_role_info`. -/
structure RoleInfo where
  selfRole : SelfRole
  netType : NetType
  updMode : UpdMode
  opmode : Opmode
  band : ℕ
  maskSel : MskSel
  addrMask : ℕ
  macid : UInt8
  selfMac : Mac
  targetMac : Mac
  bssid : Mac
  isMulEnt : Bool
  secEntMode : ℕ
  dbccRole : Bool
  aInfo : AddrCamInfo
  bInfo : BssidCamInfo

/-- `struct mac_role_tbl`; `id` is the structure itself. -/
structure MacRoleTbl where
  id : ℕ
  macid : UInt8
  info : RoleInfo

/-- `struct sec_cam_entry_t`. -/
structure SecCamEntry where
  valid : Bool
  macId : UInt8
  keyId : UInt8
  keyType : ℕ
  deriving DecidableEq

/-- `struct sec_cam_table_t`. -/
structure SecCamTable where
  entry : ℕ → SecCamEntry
  nextCamStorageIdx : ℕ

/-- The adapter: the list of roles, the pool, the security CAM, and what the two CAMs of the hardware hold. -/
structure Adapter where
  roleTbl : List MacRoleTbl
  pool : List MacRoleTbl
  secCam : SecCamTable
  addrCam : ℕ → AddrCamInfo
  bssidCam : ℕ → BssidCamInfo

/-- What becomes of an H2C command: no buffer, no room in it, or what is returned once it is filled. -/
inductive H2c where
  | noMem | noBuf
  | sent (ret : MacStatus)
  deriving DecidableEq

structure RoleEnv where
  /-- `sm.fwdl == MAC_AX_FWDL_INIT_RDY`. -/
  fwRdy : Bool
  macidPause : MacStatus
  dbccAdd : MacStatus
  dbccRm : MacStatus
  dbccMove : MacStatus
  fwRole : MacStatus
  joinInfo : MacStatus
  addrCam : H2c

/-! ### Searches -/

def roleSrch (roles : List MacRoleTbl) (macid : UInt8) : Option MacRoleTbl := roles.find? (·.macid = macid)

def macRoleSrchByAddrCam (roles : List MacRoleTbl) (idx : ℕ) : Option MacRoleTbl :=
  roles.find? fun r => idx = r.info.aInfo.addrCamIdx && r.info.aInfo.valid

def macRoleSrchByBssid (roles : List MacRoleTbl) (idx : ℕ) : Option MacRoleTbl :=
  roles.find? fun r => idx = r.info.bInfo.bssidCamIdx && r.info.aInfo.valid

/-! ### The CAM entries of a role -/

/-- `get_set_bits_of_msk`: each round clears the lowest bit, of eight. -/
def getSetBitsOfMsk (msk : ℕ) : ℕ :=
  let rec go : ℕ → ℕ → ℕ
    | 0, _ => 0
    | n + 1, msk =>
      if msk = 0 then 0
      else if msk &&& (msk - 1) = 0 then 1
      else go n (msk &&& (msk - 1)) + 1
  go 8 msk

def maddrCmpLen (a : AddrCamInfo) : ℕ := if a.maskSel = .bssid then getSetBitsOfMsk a.addrMask else 6

def findAvailAddrCamEntry (hw : HwInfo) (roles : List MacRoleTbl) (info : RoleInfo) : MacStatus × RoleInfo :=
  match (List.range hw.macidNum).find? fun i => (macRoleSrchByAddrCam roles i).isNone with
  | none => (.addrCamFl, info)
  | some i => (.success, { info with aInfo := { info.aInfo with addrCamIdx := i } })

/-- The loop over the entries: the one with this BSSID, or else the first free one (`free`), and the BSSID that is
taken over. -/
def bssidCamLoop (roles : List MacRoleTbl) (info : RoleInfo) : List ℕ → Option ℕ → Option (ℕ × Mac)
  | [], free => free.map (·, info.bInfo.bssid)
  | i :: is, free =>
    match macRoleSrchByBssid roles i with
    | some role =>
      if macEq (maddrCmpLen info.aInfo) info.bssid role.info.bssid && info.band = role.info.band then
        some (role.info.aInfo.bssidCamIdx,
          if maddrCmpLen info.aInfo < 6 then role.info.bInfo.bssid else info.bInfo.bssid)
      else bssidCamLoop roles info is free
    | none => bssidCamLoop roles info is (free.or (some i))

def RoleInfo.setBssidCamIdx (info : RoleInfo) (idx : ℕ) : RoleInfo :=
  { info with
    aInfo := { info.aInfo with bssidCamIdx := idx }
    bInfo := { info.bInfo with bssidCamIdx := idx } }

/-- `find_avail_bssid_cam_entry`: the role itself has none while it is searched. -/
def findAvailBssidCamEntry (hw : HwInfo) (roles : List MacRoleTbl) (id : ℕ) (info : RoleInfo) :
    MacStatus × RoleInfo :=
  let info := info.setBssidCamIdx hw.bssidNum
  let roles := roles.map fun r => if r.id = id then { r with info } else r
  match bssidCamLoop roles info (List.range hw.bssidNum) none with
  | none => (.bssidCamFl, info)
  | some (idx, bssid) =>
    let info := { info with
      aInfo := { info.aInfo with bssidCamIdx := idx }
      bInfo := { info.bInfo with bssid } }
    if idx = hw.bssidNum then (.bssidCamFl, info)
    else (.success, info.setBssidCamIdx idx)

/-- `enum mac_ax_role_opmode`. -/
inductive RoleOp where
  | add | chg
  deriving DecidableEq

/-- `init_addr_cam_info`, `change_addr_cam_info`: the entries of the role `id`. -/
def camInfo (hw : HwInfo) (roles : List MacRoleTbl) (id : ℕ) (info : RoleInfo) : RoleOp → MacStatus × RoleInfo
  | .chg => findAvailBssidCamEntry hw roles id info
  | .add =>
    match findAvailAddrCamEntry hw roles info with
    | (.success, info) => findAvailBssidCamEntry hw roles id info
    | r => r

/-- The two entries that an update writes. -/
def Adapter.writeCam (s : Adapter) (info : RoleInfo) : Adapter :=
  { s with
    addrCam := Function.update s.addrCam info.aInfo.addrCamIdx info.aInfo
    bssidCam := Function.update s.bssidCam info.bInfo.bssidCamIdx info.bInfo }

/-- `mac_upd_addr_cam`, for the role `id`. -/
def macUpdAddrCam (hw : HwInfo) (env : RoleEnv) (s : Adapter) (id : ℕ) (info : RoleInfo) (op : RoleOp) :
    MacStatus × RoleInfo × Adapter :=
  if env.fwRdy then
    match env.addrCam with
    | .noMem => (.nptr, info, s)
    | .noBuf => (.noBuf, info, s)
    | .sent ret =>
      match camInfo hw s.roleTbl id info op with
      | (.success, info) => (ret, info, if ret = .success then s.writeCam info else s)
      | (err, info) => (err, info, s)
  else
    match camInfo hw s.roleTbl id info op with
    | (.success, info) => (.success, info, s.writeCam info)
    | (err, info) => (err, info, s)

/-! ### The information of a role -/

/-- The checks of `role_info_valid` that are made for any operation, on the 8852C. -/
def roleInfoChecks (info : RoleInfo) : MacStatus :=
  if info.netType = .infra ∧ (info.selfRole = .ap ∨ info.selfRole = .apClient) then .funcInput
  else if info.netType = .ap ∧ info.selfRole = .client then .funcInput
  else if info.selfRole = .ap ∧ info.netType = .ap ∧
      (macEq 6 info.selfMac info.bssid = false ∨ macEq 6 info.targetMac info.bssid = false) then .funcInput
  else if info.isMulEnt =
      ((info.netType ≠ .ap && info.selfMac 0 &&& 1 = 0) || (info.netType = .ap && info.bssid 0 &&& 1 = 0)) then
    .funcInput
  else if info.band ≥ 2 then .funcInput
  else .success

def roleInfoValid (roles : List MacRoleTbl) (info : RoleInfo) : RoleOp → MacStatus
  | .add =>
    if info.opmode ≠ .disconn then .funcInput
    else if info.updMode ≠ .create then .funcInput
    else if (roleSrch roles info.macid).isSome then .saMacid
    else roleInfoChecks info
  | .chg =>
    if info.updMode = .create then .funcInput
    else if (roleSrch roles info.macid).isNone then .noItem
    else roleInfoChecks info

def roleInfoInit (info : RoleInfo) : RoleInfo :=
  { info with
    aInfo := { info.aInfo with
      maskSel := info.maskSel
      addrMask := info.addrMask
      isMulEnt := info.isMulEnt
      bbSel := info.band
      macid := info.macid
      secEntMode := info.secEntMode
      netType := info.netType
      sma := info.selfMac
      tma := info.targetMac }
    bInfo := { info.bInfo with
      valid := true
      bbSel := info.band
      bssid := info.bssid } }

def SecEnt.none : SecEnt := ⟨false, 0, 0⟩

def secInfoInit (info : RoleInfo) : RoleInfo :=
  { info with aInfo := { info.aInfo with secEnt := fun _ => .none } }

/-- `role_init`, for a role of the pool. -/
def roleInit (env : RoleEnv) (role : MacRoleTbl) (info : RoleInfo) : MacStatus × MacRoleTbl :=
  let info := roleInfoInit info
  if env.macidPause ≠ .success then (env.macidPause, role)
  else
    let role := { role with macid := info.macid }
    if info.dbccRole && env.dbccAdd ≠ .success then (env.dbccAdd, role)
    else (.success, { role with info })

def macFwRoleMaintain (env : RoleEnv) : MacStatus := if env.fwRdy then env.fwRole else .fwNonRdy

def macH2cJoinInfo (env : RoleEnv) : MacStatus := if env.fwRdy then env.joinInfo else .fwNonRdy

/-- A step that is skipped, or only warned of, while the firmware is not ready. -/
def MacStatus.passed (ret : MacStatus) : Bool := ret = .success || ret = .fwNonRdy

/-! ### Adding a role -/

def roleAddFail (env : RoleEnv) (ret : MacStatus) (role : MacRoleTbl) (s : Adapter) : MacStatus × Adapter :=
  (if role.info.dbccRole then env.dbccRm else ret, { s with pool := s.pool ++ [role] })

/-- The information that a new role gets. -/
def addInfo (info : RoleInfo) : RoleInfo :=
  secInfoInit { info with aInfo := { info.aInfo with valid := true } }

def addRole (hw : HwInfo) (env : RoleEnv) (info : RoleInfo) (s : Adapter) : MacStatus × Adapter :=
  match s.pool with
  | [] => (.bufAlloc, s)
  | role :: pool =>
    let s := { s with pool }
    if roleInfoValid s.roleTbl info .add ≠ .success then
      roleAddFail env (roleInfoValid s.roleTbl info .add) role s
    else if s.roleTbl.length > hw.macidNum then roleAddFail env .macidFl role s
    else
      match roleInit env role (addInfo info) with
      | (.success, role) =>
        if !info.isMulEnt && !(macFwRoleMaintain env).passed then
          roleAddFail env (macFwRoleMaintain env) role s
        else if info.selfRole = .ap && !(macH2cJoinInfo env).passed then
          -- the role is neither enqueued nor given back
          (macH2cJoinInfo env, s)
        else
          match macUpdAddrCam hw env s role.id role.info .add with
          | (.addrCamFl, info, s) => roleAddFail env .addrCamFl { role with info } s
          | (.bssidCamFl, info, s) => roleAddFail env .bssidCamFl { role with info } s
          -- no other code is looked at
          | (_, info, s) => (.success, { s with roleTbl := s.roleTbl ++ [{ role with info }] })
      | (_, role) => roleAddFail env .roleInitFl role s

/-! ### Changing a role -/

/-- The contents of the role `id`. -/
def Adapter.setRole (s : Adapter) (id : ℕ) (macid : UInt8) (info : RoleInfo) : Adapter :=
  { s with roleTbl := s.roleTbl.map fun r => if r.id = id then { r with macid, info } else r }

/-- `SEC_CAM_ENTRY_NUM`, with `PHL_FEATURE_AP`. -/
def secCamEntryNum : ℕ := 128

/-- `m_security_cam_hal`: the entry is filled, or cleared. -/
def mSecurityCamHal (t : SecCamTable) (macId keyId : UInt8) (keyType secCamIdx : ℕ) (clear : Bool) : SecCamTable :=
  if secCamIdx ≥ secCamEntryNum then t
  else if clear then { t with entry := Function.update t.entry secCamIdx ⟨false, 0, 0, 0⟩ }
  else { t with entry := Function.update t.entry secCamIdx ⟨true, macId, keyId, keyType⟩ }

/-- `disconnect_flush_key`: the entries of the valid slots are cleared, one after the other. -/
def disconnectFlushKey (t : SecCamTable) (secEnt : Fin 7 → SecEnt) : SecCamTable :=
  (List.finRange 7).foldl
    (fun t i => if (secEnt i).valid then mSecurityCamHal t 0 (secEnt i).keyid 3 (secEnt i).ent true else t) t

/-- `sec_info_deinit`, of the role and of `info`, which are the same by now. -/
def secInfoDeinit (info : RoleInfo) (t : SecCamTable) : RoleInfo × SecCamTable :=
  ({ info with aInfo := { info.aInfo with secEntMode := 0, secEnt := fun _ => .none } },
    disconnectFlushKey t info.aInfo.secEnt)

/-- What is sent before the CAMs are updated. -/
def changeH2c (env : RoleEnv) (info : RoleInfo) : MacStatus :=
  match info.updMode with
  | .typeChange | .remove | .fwRestore =>
    if !info.isMulEnt && info.updMode ≠ .typeChange && !(macFwRoleMaintain env).passed then
      macFwRoleMaintain env
    else if (info.updMode = .typeChange || info.updMode = .fwRestore) && info.selfRole = .ap &&
        !(macH2cJoinInfo env).passed then
      macH2cJoinInfo env
    else .success
  | .conDisconn => if (macH2cJoinInfo env).passed then .success else macH2cJoinInfo env
  | .infoChange | .bandSw =>
    if info.selfRole = .client || (macH2cJoinInfo env).passed then .success else macH2cJoinInfo env
  | .create => .success

/-- The information that a role gets by a change, and the keys that are flushed for it. -/
def changeInfo (role : MacRoleTbl) (info : RoleInfo) (t : SecCamTable) : RoleInfo × SecCamTable :=
  let info := roleInfoInit { info with
    aInfo := role.info.aInfo
    bInfo := role.info.bInfo
    dbccRole := role.info.dbccRole }
  if info.updMode = .conDisconn ∧ info.opmode = .disconn then secInfoDeinit info t else (info, t)

def changeRole (hw : HwInfo) (env : RoleEnv) (info : RoleInfo) (s : Adapter) : MacStatus × Adapter :=
  if roleInfoValid s.roleTbl info .chg ≠ .success then (roleInfoValid s.roleTbl info .chg, s)
  else
    match roleSrch s.roleTbl info.macid with
    | none => (.noItem, s)
    | some role =>
      if info.updMode = .bandSw && !role.info.dbccRole then (.funcInput, s)
      else if info.updMode = .bandSw && env.dbccMove ≠ .success then (env.dbccMove, s)
      else
        let (info', secCam) := changeInfo role info s.secCam
        let s := { s.setRole role.id info.macid info' with secCam }
        if changeH2c env info' ≠ .success then (changeH2c env info', s)
        else
          let (ret, info', s) := macUpdAddrCam hw env s role.id info' .chg
          (ret, s.setRole role.id info.macid info')

/-! ### Removing roles -/

def roleReturn (s : Adapter) (role : MacRoleTbl) : Adapter :=
  { s with roleTbl := s.roleTbl.filter (·.id ≠ role.id), pool := s.pool ++ [role] }

/-- The information of a role that is removed, as it is marked first. -/
def removeInfo (info : RoleInfo) : RoleInfo :=
  { info with
    updMode := .remove
    opmode := .disconn
    aInfo := { info.aInfo with valid := false } }

/-- The BSSID entry is marked too, where no valid role has it. -/
def removeBssid (roles : List MacRoleTbl) (info : RoleInfo) : RoleInfo :=
  if (macRoleSrchByBssid roles info.aInfo.bssidCamIdx).isNone then
    { info with bInfo := { info.bInfo with valid := false } }
  else info

/-- `_remove_role`: the role is marked, changed and given back. -/
def removeRole (hw : HwInfo) (env : RoleEnv) (macid : UInt8) (s : Adapter) : MacStatus × Adapter :=
  match roleSrch s.roleTbl macid with
  | none => (.noRole, s)
  | some role =>
    let s := s.setRole role.id role.macid (removeInfo role.info)
    let info := removeBssid s.roleTbl (removeInfo role.info)
    let s := s.setRole role.id role.macid info
    match changeRole hw env info s with
    | (.success, s) =>
      match s.roleTbl.find? (·.id = role.id) with
      | none => (.success, s)
      | some role =>
        if role.info.dbccRole then
          let role := { role with info := { role.info with dbccRole := false } }
          let s := s.setRole role.id role.macid role.info
          if env.dbccRm ≠ .success then (env.dbccRm, s) else (.success, roleReturn s role)
        else (.success, roleReturn s role)
    | r => r

def removeRoleSoft (macid : UInt8) (s : Adapter) : MacStatus × Adapter :=
  match roleSrch s.roleTbl macid with
  | none => (.noRole, s)
  | some role => (.success, roleReturn s role)

/-- The loop over the roles that were on the list at first; the `k`-th removal has the steps `env k`. -/
def removeRolesOf (hw : HwInfo) (band : ℕ) (sw : Bool) :
    List MacRoleTbl → (ℕ → RoleEnv) → Adapter → MacStatus × Adapter
  | [], _, s => (.success, s)
  | curr :: rest, env, s =>
    if band = curr.info.band then
      match if sw then removeRoleSoft curr.macid s else removeRole hw (env 0) curr.macid s with
      | (.success, s) | (.noRole, s) => removeRolesOf hw band sw rest (fun k => env (k + 1)) s
      | r => r
    else removeRolesOf hw band sw rest env s

def removeRoleByBand (hw : HwInfo) (band : ℕ) (sw : Bool) (env : ℕ → RoleEnv) (s : Adapter) : MacStatus × Adapter :=
  removeRolesOf hw band sw s.roleTbl env s

/-! ### The start -/

def RoleInfo.zero : RoleInfo where
  selfRole := .client
  netType := .noLink
  updMode := .create
  opmode := .connect
  band := 0
  maskSel := .no
  addrMask := 0
  macid := 0
  selfMac := fun _ => 0
  targetMac := fun _ => 0
  bssid := fun _ => 0
  isMulEnt := false
  secEntMode := 0
  dbccRole := false
  aInfo := ⟨0, false, .noLink, 0, .no, 0, 0, false, fun _ => 0, fun _ => 0, 0, 0, fun _ => .none⟩
  bInfo := ⟨0, false, 0, fun _ => 0⟩

/-- `role_tbl_init` and `sec_info_tbl_init`; the CAMs of the hardware have no valid entry. -/
def roleTblInit (hw : HwInfo) : Adapter where
  roleTbl := []
  pool := (List.range hw.macidNum).map (⟨·, 0, .zero⟩)
  secCam := ⟨fun _ => ⟨false, 0, 0, 0⟩, 0⟩
  addrCam := fun _ => RoleInfo.zero.aInfo
  bssidCam := fun _ => RoleInfo.zero.bInfo

def hw8852c : HwInfo := ⟨128, 20, by decide, by decide⟩

def goodEnv : RoleEnv := ⟨true, .success, .success, .success, .success, .success, .success, .sent .success⟩

end Rtl8852cu.Role
