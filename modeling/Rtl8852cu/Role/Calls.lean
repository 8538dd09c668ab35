import Rtl8852cu.Role.Table

/-!
# What a call on the role table can do

One inductive for each function, with a constructor for each way it ends; the later modules reason from these and
never unfold the functions.
-/

namespace Rtl8852cu.Role

variable {hw : HwInfo} {env : RoleEnv} {s : Adapter} {info : RoleInfo} {id : ℕ} {op : RoleOp}

/-! ### Updating the CAMs -/

/-- There is no H2C buffer for the update of the CAMs. -/
def NoH2c (env : RoleEnv) : Prop := env.fwRdy = true ∧ (env.addrCam = .noMem ∨ env.addrCam = .noBuf)

instance : Decidable (NoH2c env) := inferInstanceAs (Decidable (_ ∧ _))

/-- How `mac_upd_addr_cam` ends. -/
inductive Updated (hw : HwInfo) (env : RoleEnv) (s : Adapter) (id : ℕ) (info : RoleInfo) (op : RoleOp) :
    MacStatus × RoleInfo × Adapter → Prop
  /-- No entry is looked for. -/
  | noH2c {ret : MacStatus} : NoH2c env → ret = .nptr ∨ ret = .noBuf → Updated hw env s id info op (ret, info, s)
  /-- There is no entry. -/
  | full {ret : MacStatus} {info' : RoleInfo} : ¬ NoH2c env →
      camInfo hw s.roleTbl id info op = (ret, info') → ret ≠ .success →
      Updated hw env s id info op (ret, info', s)
  /-- The entries are not written. -/
  | unsent {ret : MacStatus} {info' : RoleInfo} : env.fwRdy = true → env.addrCam = .sent ret →
      camInfo hw s.roleTbl id info op = (.success, info') → ret ≠ .success →
      Updated hw env s id info op (ret, info', s)
  | sent {info' : RoleInfo} : camInfo hw s.roleTbl id info op = (.success, info') →
      (env.fwRdy = true → env.addrCam = .sent .success) →
      Updated hw env s id info op (.success, info', s.writeCam info')

theorem macUpdAddrCam_updated (hw : HwInfo) (env : RoleEnv) (s : Adapter) (id : ℕ) (info : RoleInfo)
    (op : RoleOp) : Updated hw env s id info op (macUpdAddrCam hw env s id info op) := by
  rcases hc : camInfo hw s.roleTbl id info op with ⟨err, info'⟩
  by_cases hr : env.fwRdy = true
  · rcases ha : env.addrCam with _ | _ | ret
    · simp only [macUpdAddrCam, hr, ha, if_true]; exact .noH2c ⟨hr, .inl ha⟩ (.inl rfl)
    · simp only [macUpdAddrCam, hr, ha, if_true]; exact .noH2c ⟨hr, .inr ha⟩ (.inr rfl)
    · simp only [macUpdAddrCam, hr, ha, hc, if_true]
      by_cases he : err = .success
      · subst he
        by_cases hs : ret = .success
        · subst hs; exact .sent hc fun _ => ha
        · simp only [hs, if_false]; exact .unsent hr ha hc hs
      · have hno : ¬ NoH2c env := by simp [NoH2c, ha]
        have : Updated hw env s id info op (err, info', s) := .full hno hc he
        cases err <;> first | exact absurd rfl he | exact this
  · simp only [macUpdAddrCam, hr, hc, Bool.false_eq_true, if_false]
    by_cases he : err = .success
    · subst he; exact .sent hc fun h => absurd h hr
    · have hno : ¬ NoH2c env := fun h => hr h.1
      have : Updated hw env s id info op (err, info', s) := .full hno hc he
      cases err <;> first | exact absurd rfl he | exact this

variable {r : MacStatus × RoleInfo × Adapter}

theorem Updated.same (h : Updated hw env s id info op r) (hne : r.1 ≠ .success) : r.2.2 = s := by
  cases h with
  | noH2c _ _ => rfl
  | full _ _ _ => rfl
  | unsent _ _ _ _ => rfl
  | sent _ _ => exact absurd rfl hne

theorem Updated.frame (h : Updated hw env s id info op r) :
    r.2.2.roleTbl = s.roleTbl ∧ r.2.2.pool = s.pool ∧ r.2.2.secCam = s.secCam := by
  cases h with
  | noH2c _ _ => exact ⟨rfl, rfl, rfl⟩
  | full _ _ _ => exact ⟨rfl, rfl, rfl⟩
  | unsent _ _ _ _ => exact ⟨rfl, rfl, rfl⟩
  | sent _ _ => exact ⟨rfl, rfl, rfl⟩

/-- The same role information, but for the CAM entries. -/
structure RoleInfo.Same (info info' : RoleInfo) : Prop where
  eq : ∃ addr bssid bssid' mac, info' = { info with
    aInfo := { info.aInfo with addrCamIdx := addr, bssidCamIdx := bssid }
    bInfo := { info.bInfo with bssidCamIdx := bssid', bssid := mac } }

theorem RoleInfo.Same.refl (info : RoleInfo) : info.Same info := ⟨_, _, _, _, rfl⟩

theorem findAvailBssidCamEntry_same (hw : HwInfo) (roles : List MacRoleTbl) (id : ℕ) (info : RoleInfo) :
    info.Same (findAvailBssidCamEntry hw roles id info).2 ∧
      (findAvailBssidCamEntry hw roles id info).2.aInfo.addrCamIdx = info.aInfo.addrCamIdx := by
  simp only [findAvailBssidCamEntry]
  split
  · exact ⟨⟨_, _, _, _, rfl⟩, rfl⟩
  · split
    · exact ⟨⟨_, _, _, _, rfl⟩, rfl⟩
    · exact ⟨⟨_, _, _, _, rfl⟩, rfl⟩

theorem camInfo_same (hw : HwInfo) (roles : List MacRoleTbl) (id : ℕ) (info : RoleInfo) (op : RoleOp) :
    info.Same (camInfo hw roles id info op).2 := by
  cases op with
  | chg => exact (findAvailBssidCamEntry_same hw roles id info).1
  | add =>
    rcases ha : findAvailAddrCamEntry hw roles info with ⟨ret, info'⟩
    have hs : info.Same info' := by
      unfold findAvailAddrCamEntry at ha
      split at ha
      · cases ha; exact .refl _
      · cases ha; exact ⟨_, _, _, _, rfl⟩
    obtain ⟨addr, bssid, bssid', mac, rfl⟩ := hs.eq
    simp only [camInfo, ha]
    cases ret with
    | success =>
      obtain ⟨a, b, b', m, h⟩ := (findAvailBssidCamEntry_same hw roles id { info with
        aInfo := { info.aInfo with addrCamIdx := addr, bssidCamIdx := bssid }
        bInfo := { info.bInfo with bssidCamIdx := bssid', bssid := mac } }).1.eq
      simp only [h]; exact ⟨_, _, _, _, rfl⟩
    | _ => exact ⟨_, _, _, _, rfl⟩

theorem Updated.sameInfo (h : Updated hw env s id info op r) : info.Same r.2.1 := by
  have hc := camInfo_same hw s.roleTbl id info op
  cases h with
  | noH2c _ _ => exact .refl _
  | full _ h _ => rwa [h] at hc
  | unsent _ _ h _ => rwa [h] at hc
  | sent h _ => rwa [h] at hc

/-! ### Adding a role -/

/-- A role of the pool is not initialized for `info`. -/
def NotInit (hw : HwInfo) (env : RoleEnv) (info : RoleInfo) (s : Adapter) : Prop :=
  roleInfoValid s.roleTbl info .add ≠ .success ∨ s.roleTbl.length > hw.macidNum ∨ env.macidPause ≠ .success ∨
    (info.dbccRole = true ∧ env.dbccAdd ≠ .success)

instance : Decidable (NotInit hw env info s) := inferInstanceAs (Decidable (_ ∨ _))

/-- A role of the pool gets as far as `mac_h2c_join_info`. -/
def AddReaches (hw : HwInfo) (env : RoleEnv) (info : RoleInfo) (s : Adapter) : Prop :=
  s.pool ≠ [] ∧ ¬ NotInit hw env info s ∧ (info.isMulEnt = true ∨ (macFwRoleMaintain env).passed = true)

instance : Decidable (AddReaches hw env info s) := inferInstanceAs (Decidable (_ ∧ _))

/-- How `_add_role` ends. -/
inductive Added (hw : HwInfo) (env : RoleEnv) (info : RoleInfo) (s : Adapter) : MacStatus × Adapter → Prop
  | noRole : s.pool = [] → Added hw env info s (.bufAlloc, s)
  /-- The role is given back, with its old information or the new one. -/
  | back {role : MacRoleTbl} {pool : List MacRoleTbl} {role' : MacRoleTbl} {ret : MacStatus} :
      s.pool = role :: pool → role'.id = role.id → ret ≠ .success →
      (role'.info = role.info ∧ NotInit hw env info s) ∨ role'.info.dbccRole = info.dbccRole →
      Added hw env info s (roleAddFail env ret role' { s with pool })
  /-- The role is on neither list. -/
  | lost {role : MacRoleTbl} {pool : List MacRoleTbl} : s.pool = role :: pool → AddReaches hw env info s →
      info.selfRole = .ap → (macH2cJoinInfo env).passed = false →
      Added hw env info s (macH2cJoinInfo env, { s with pool })
  | done {role : MacRoleTbl} {pool : List MacRoleTbl} {ret : MacStatus} {info' : RoleInfo} {s' : Adapter} :
      s.pool = role :: pool → roleInfoValid s.roleTbl info .add = .success → AddReaches hw env info s →
      Updated hw env { s with pool } role.id (roleInfoInit (addInfo info)) .add (ret, info', s') →
      ret ≠ .addrCamFl → ret ≠ .bssidCamFl →
      Added hw env info s
        (.success, { s' with roleTbl := s'.roleTbl ++ [⟨role.id, info.macid, info'⟩] })

variable {role : MacRoleTbl}

theorem roleInit_fail {role' : MacRoleTbl} {ret : MacStatus} (h : roleInit env role info = (ret, role'))
    (hne : ret ≠ .success) : role'.id = role.id ∧ role'.info = role.info ∧
      (env.macidPause ≠ .success ∨ (info.dbccRole = true ∧ env.dbccAdd ≠ .success)) := by
  unfold roleInit at h
  split at h
  · next hp =>
    cases h
    exact ⟨rfl, rfl, .inl hp⟩
  · simp only at h
    split at h
    · next hd =>
      rw [Bool.and_eq_true, decide_eq_true_eq] at hd
      cases h
      exact ⟨rfl, rfl, .inr hd⟩
    · cases h; exact absurd rfl hne

theorem roleInit_success {role' : MacRoleTbl} (h : roleInit env role info = (.success, role')) :
    role' = ⟨role.id, info.macid, roleInfoInit info⟩ ∧ env.macidPause = .success ∧
      ¬ (info.dbccRole = true ∧ env.dbccAdd ≠ .success) := by
  unfold roleInit at h
  split at h
  · next hp => exact absurd (congrArg Prod.fst h) hp
  · next hp =>
    simp only at h
    split at h
    · next hd =>
      rw [Bool.and_eq_true, decide_eq_true_eq] at hd; exact absurd (congrArg Prod.fst h) hd.2
    · next hd =>
      rw [Bool.and_eq_true, decide_eq_true_eq] at hd
      exact ⟨(congrArg Prod.snd h).symm, not_not.1 hp, hd⟩

theorem addRole_added (hw : HwInfo) (env : RoleEnv) (info : RoleInfo) (s : Adapter) :
    Added hw env info s (addRole hw env info s) := by
  rcases hp : s.pool with _ | ⟨role, pool⟩
  · simp only [addRole, hp]; exact .noRole hp
  · simp only [addRole, hp]
    by_cases hv : roleInfoValid s.roleTbl info .add = .success
    · rw [if_neg (not_not.2 hv)]
      by_cases hl : s.roleTbl.length > hw.macidNum
      · rw [if_pos hl]; exact .back hp rfl (by simp) (.inl ⟨rfl, .inr (.inl hl)⟩)
      · rw [if_neg hl]
        rcases hi : roleInit env role (addInfo info) with ⟨ret, role'⟩
        by_cases hr : ret = .success
        · subst hr
          obtain ⟨rfl, hpause, hdbcc⟩ := roleInit_success hi
          have hinit : ¬ NotInit hw env info s := by
            rintro (h | h | h | h)
            · exact h hv
            · exact hl h
            · exact h hpause
            · exact hdbcc h
          simp only
          split
          · next hm =>
            simp only [Bool.and_eq_true, Bool.not_eq_true'] at hm
            refine .back hp rfl (fun he => ?_) (.inr rfl)
            rw [he] at hm; exact absurd hm.2 (by simp [MacStatus.passed])
          · next hm =>
            have hreach : AddReaches hw env info s := by
              refine ⟨by rw [hp]; simp, hinit, ?_⟩
              by_contra hn
              simp only [not_or, Bool.not_eq_true] at hn; exact hm (by simp [hn])
            split
            · next hj =>
              simp only [Bool.and_eq_true, decide_eq_true_eq, Bool.not_eq_true'] at hj
              exact .lost hp hreach hj.1 hj.2
            · have hu := macUpdAddrCam_updated hw env { s with pool } role.id (roleInfoInit (addInfo info)) .add
              rcases hm : macUpdAddrCam hw env { s with pool } role.id (roleInfoInit (addInfo info)) .add
                with ⟨ret, info', s'⟩
              rw [hm] at hu
              have hdb : info'.dbccRole = info.dbccRole := by
                obtain ⟨_, _, _, _, hs⟩ := hu.sameInfo.eq
                exact congrArg (·.dbccRole) hs
              by_cases ha : ret = .addrCamFl
              · subst ha
                obtain rfl : s' = { s with pool } := hu.same (by simp)
                exact .back hp rfl (by simp) (.inr hdb)
              · by_cases hb : ret = .bssidCamFl
                · subst hb
                  obtain rfl : s' = { s with pool } := hu.same (by simp)
                  exact .back hp rfl (by simp) (.inr hdb)
                · have hd := Added.done hp hv hreach hu ha hb
                  cases ret <;> first | exact absurd rfl ha | exact absurd rfl hb | exact hd
        · obtain ⟨hid, hinfo, hwhy⟩ := roleInit_fail hi hr
          have hb : Added hw env info s (roleAddFail env .roleInitFl role' { s with pool }) :=
            .back hp hid (by simp) (.inl ⟨hinfo, .inr (.inr hwhy)⟩)
          cases ret <;> first | exact absurd rfl hr | exact hb
    · rw [if_pos hv]; exact .back hp rfl hv (.inl ⟨rfl, .inl hv⟩)

/-! ### Changing a role -/

/-- The state in which a change looks for its BSSID entry. -/
def changeStart (s : Adapter) (role : MacRoleTbl) (info : RoleInfo) : Adapter :=
  { s.setRole role.id info.macid (changeInfo role info s.secCam).1 with
    secCam := (changeInfo role info s.secCam).2 }

/-- How `_change_role` ends. -/
inductive Changed (hw : HwInfo) (env : RoleEnv) (info : RoleInfo) (s : Adapter) : MacStatus × Adapter → Prop
  | refused {ret : MacStatus} : ret ≠ .success → Changed hw env info s (ret, s)
  /-- The role has its new information, and no more. -/
  | stopped {role : MacRoleTbl} : roleInfoValid s.roleTbl info .chg = .success →
      roleSrch s.roleTbl info.macid = some role →
      (info.updMode = .bandSw → role.info.dbccRole = true ∧ env.dbccMove = .success) →
      changeH2c env (changeInfo role info s.secCam).1 ≠ .success →
      Changed hw env info s (changeH2c env (changeInfo role info s.secCam).1, changeStart s role info)
  | done {role : MacRoleTbl} {ret : MacStatus} {info' : RoleInfo} {s' : Adapter} :
      roleInfoValid s.roleTbl info .chg = .success → roleSrch s.roleTbl info.macid = some role →
      (info.updMode = .bandSw → role.info.dbccRole = true ∧ env.dbccMove = .success) →
      changeH2c env (changeInfo role info s.secCam).1 = .success →
      Updated hw env (changeStart s role info) role.id (changeInfo role info s.secCam).1 .chg (ret, info', s') →
      Changed hw env info s (ret, s'.setRole role.id info.macid info')

theorem changeRole_changed (hw : HwInfo) (env : RoleEnv) (info : RoleInfo) (s : Adapter) :
    Changed hw env info s (changeRole hw env info s) := by
  unfold changeRole
  by_cases hv : roleInfoValid s.roleTbl info .chg = .success
  · rw [if_neg (not_not.2 hv)]
    rcases hr : roleSrch s.roleTbl info.macid with _ | role
    · exact .refused (by simp)
    · simp only
      split
      · exact .refused (by simp)
      · next hrole =>
        split
        · next hd =>
          simp only [Bool.and_eq_true, decide_eq_true_eq] at hd; exact .refused hd.2
        · next hmove =>
          have hband : info.updMode = .bandSw → role.info.dbccRole = true ∧ env.dbccMove = .success := by
            intro hb
            simp only [hb, decide_true, Bool.true_and, Bool.not_eq_true', Bool.not_eq_false,
              decide_eq_true_eq, not_not] at hrole hmove
            exact ⟨hrole, hmove⟩
          split
          · next hh => exact .stopped hv hr hband hh
          · next hh => exact .done hv hr hband (not_not.1 hh) (macUpdAddrCam_updated ..)
  · rw [if_pos hv]; exact .refused hv

@[simp] theorem setRole_ids (macid : UInt8) :
    (s.setRole id macid info).roleTbl.map (·.id) = s.roleTbl.map (·.id) := by
  rw [Adapter.setRole, List.map_map]
  refine List.map_congr_left fun r _ => ?_
  simp only [Function.comp]
  split <;> rfl

@[simp] theorem setRole_pool (macid : UInt8) : (s.setRole id macid info).pool = s.pool := rfl

@[simp] theorem changeStart_ids : (changeStart s role info).roleTbl.map (·.id) = s.roleTbl.map (·.id) := setRole_ids _

theorem Changed.ids {r : MacStatus × Adapter} (h : Changed hw env info s r) :
    r.2.roleTbl.map (·.id) = s.roleTbl.map (·.id) ∧ r.2.pool = s.pool := by
  cases h with
  | refused _ => exact ⟨rfl, rfl⟩
  | stopped _ _ _ _ => exact ⟨changeStart_ids, rfl⟩
  | done _ _ _ _ hu =>
    obtain ⟨ht, hp, -⟩ := hu.frame
    refine ⟨?_, hp⟩
    rw [setRole_ids, ht, changeStart_ids]

/-! ### Removing a role -/

/-- The state in which a removal changes the role. -/
def removeStart (s : Adapter) (role : MacRoleTbl) : Adapter :=
  let s := s.setRole role.id role.macid (removeInfo role.info)
  s.setRole role.id role.macid (removeBssid s.roleTbl (removeInfo role.info))

/-- The information that a removal changes the role to. -/
def removedInfo (s : Adapter) (role : MacRoleTbl) : RoleInfo :=
  removeBssid (s.setRole role.id role.macid (removeInfo role.info)).roleTbl (removeInfo role.info)

/-- How `_remove_role` ends. -/
inductive Removed (hw : HwInfo) (env : RoleEnv) (macid : UInt8) (s : Adapter) : MacStatus × Adapter → Prop
  | noRole : roleSrch s.roleTbl macid = none → Removed hw env macid s (.noRole, s)
  | failed {role : MacRoleTbl} {r : MacStatus × Adapter} : roleSrch s.roleTbl macid = some role →
      changeRole hw env (removedInfo s role) (removeStart s role) = r → r.1 ≠ .success →
      Removed hw env macid s r
  /-- The DBCC step fails, the role is still on the list. -/
  | dbcc {role role' : MacRoleTbl} {s' : Adapter} : roleSrch s.roleTbl macid = some role →
      changeRole hw env (removedInfo s role) (removeStart s role) = (.success, s') →
      s'.roleTbl.find? (·.id = role.id) = some role' → role'.info.dbccRole = true → env.dbccRm ≠ .success →
      Removed hw env macid s
        (env.dbccRm, s'.setRole role'.id role'.macid { role'.info with dbccRole := false })
  | done {role role' : MacRoleTbl} {s' : Adapter} : roleSrch s.roleTbl macid = some role →
      changeRole hw env (removedInfo s role) (removeStart s role) = (.success, s') →
      s'.roleTbl.find? (·.id = role.id) = some role' → (role'.info.dbccRole = true → env.dbccRm = .success) →
      Removed hw env macid s (.success, roleReturn s' { role' with info := { role'.info with dbccRole := false } })

@[simp] theorem removeStart_ids : (removeStart s role).roleTbl.map (·.id) = s.roleTbl.map (·.id) := by
  rw [removeStart, setRole_ids, setRole_ids]

theorem roleSrch_some {roles : List MacRoleTbl} {macid : UInt8}
    (h : roleSrch roles macid = some role) : role ∈ roles ∧ role.macid = macid := by
  unfold roleSrch at h
  have hp := List.find?_some h
  exact ⟨List.mem_of_find?_eq_some h, of_decide_eq_true hp⟩

theorem setRole_filter {macid : UInt8} :
    (s.setRole id macid info).roleTbl.filter (·.id ≠ id) = s.roleTbl.filter (·.id ≠ id) := by
  rw [Adapter.setRole]
  induction s.roleTbl with
  | nil => rfl
  | cons r rs ih =>
    rw [List.map_cons]
    by_cases hr : r.id = id
    · simpa [hr] using ih
    · simpa [hr] using ih

theorem roleReturn_setRole (s : Adapter) (role : MacRoleTbl) (macid : UInt8) (info : RoleInfo) :
    roleReturn (s.setRole role.id macid info) role = roleReturn s role := by
  simp only [roleReturn, setRole_filter, setRole_pool]; rfl

theorem removeRole_removed (hw : HwInfo) (env : RoleEnv) (macid : UInt8) (s : Adapter) :
    Removed hw env macid s (removeRole hw env macid s) := by
  rcases hr : roleSrch s.roleTbl macid with _ | role
  · simp only [removeRole, hr]; exact .noRole hr
  · rcases hc : changeRole hw env (removedInfo s role) (removeStart s role) with ⟨ret, s'⟩
    have hc' := hc
    simp only [removeStart, removedInfo] at hc'
    simp only [removeRole, hr, hc']
    by_cases hs : ret = .success
    · subst hs
      -- the role is still there
      have hids := (changeRole_changed hw env (removedInfo s role) (removeStart s role)).ids.1
      rw [hc, removeStart_ids] at hids
      have hmem : role.id ∈ s'.roleTbl.map (·.id) := hids ▸ List.mem_map_of_mem (roleSrch_some hr).1
      rcases hf : s'.roleTbl.find? (·.id = role.id) with _ | role'
      · obtain ⟨r, hrm, hrid⟩ := List.mem_map.1 hmem
        exact absurd (decide_eq_true hrid) (List.find?_eq_none.1 hf r hrm)
      · simp only [hf]
        by_cases hd : role'.info.dbccRole = true
        · rw [if_pos hd]
          by_cases hrm : env.dbccRm = .success
          · rw [if_neg (not_not.2 hrm)]
            have hdone := Removed.done hr hc hf fun _ => hrm
            rw [← roleReturn_setRole _ _ role'.macid { role'.info with dbccRole := false }] at hdone
            exact hdone
          · rw [if_pos hrm]; exact .dbcc hr hc hf hd hrm
        · rw [if_neg hd]
          have hdone := Removed.done hr hc hf fun h => absurd h hd
          rw [Bool.not_eq_true] at hd
          rw [← hd] at hdone; exact hdone
    · have hfail := Removed.failed hr hc hs; cases ret <;> first | exact absurd rfl hs | exact hfail

end Rtl8852cu.Role
