import Rtl8852cu.Role.Cam
import Mathlib.Data.List.Nodup

/-!
# What a role table always has

* `Adapter.Wf`: the structures and the macids are distinct, and the information of a role has passed its checks;
* `Added.wf`, `Changed.wf`, `Removed.wf`: it stays so, whatever fails;
* `Removed.rest`: a role that is removed is all that goes;
* `removeRole_success`: when it is removed.
-/

namespace Rtl8852cu.Role

variable {hw : HwInfo} {env : RoleEnv} {s : Adapter} {info : RoleInfo} {id : ℕ} {op : RoleOp}

/-- The structures, those on the list first. -/
def Adapter.ids (s : Adapter) : List ℕ := s.roleTbl.map (·.id) ++ s.pool.map (·.id)

/-- The information of a role, with its macid. -/
structure MacRoleTbl.Fit (r : MacRoleTbl) : Prop where
  macid : r.info.macid = r.macid
  checked : roleInfoChecks r.info = .success
  maskSel : r.info.aInfo.maskSel = r.info.maskSel
  addrMask : r.info.aInfo.addrMask = r.info.addrMask

structure Adapter.Wf (s : Adapter) : Prop where
  ids : s.ids.Nodup
  macids : (s.roleTbl.map (·.macid)).Nodup
  fit : ∀ r ∈ s.roleTbl, r.Fit

theorem Adapter.Wf.listIds (h : s.Wf) : (s.roleTbl.map (·.id)).Nodup := (List.nodup_append.1 h.ids).1

theorem Adapter.Wf.eq_of_id (h : s.Wf) {r r' : MacRoleTbl} (hr : r ∈ s.roleTbl) (hr' : r' ∈ s.roleTbl)
    (he : r.id = r'.id) : r = r' := List.inj_on_of_nodup_map h.listIds hr hr' he

theorem Adapter.Wf.eq_of_macid (h : s.Wf) {r r' : MacRoleTbl} (hr : r ∈ s.roleTbl) (hr' : r' ∈ s.roleTbl)
    (he : r.macid = r'.macid) : r = r' := List.inj_on_of_nodup_map h.macids hr hr' he

theorem Adapter.Wf.roleSrch_eq (h : s.Wf) {r : MacRoleTbl} (hr : r ∈ s.roleTbl) :
    roleSrch s.roleTbl r.macid = some r := by
  rcases hs : roleSrch s.roleTbl r.macid with _ | r'
  · exact absurd (decide_eq_true rfl) (List.find?_eq_none.1 hs r hr)
  · obtain ⟨hm, he⟩ := roleSrch_some hs; rw [h.eq_of_macid hm hr he]

variable {roles : List MacRoleTbl} {macid : UInt8}

theorem roleSrch_none (h : roleSrch roles macid = none) : ∀ r ∈ roles, r.macid ≠ macid := by
  intro r hr he
  exact List.find?_eq_none.1 h r hr (decide_eq_true he)

/-! ### Contents that change -/

theorem mem_setRole {r : MacRoleTbl} : r ∈ (s.setRole id macid info).roleTbl ↔
      (r ∈ s.roleTbl ∧ r.id ≠ id) ∨ (id ∈ s.roleTbl.map (·.id) ∧ r = ⟨id, macid, info⟩) := by
  simp only [Adapter.setRole, List.mem_map]
  constructor
  · rintro ⟨r', hr', rfl⟩
    by_cases he : r'.id = id
    · rw [if_pos he]
      subst he; exact .inr ⟨⟨r', hr', rfl⟩, rfl⟩
    · rw [if_neg he]; exact .inl ⟨hr', he⟩
  · rintro (⟨hr, he⟩ | ⟨⟨r', hr', he⟩, rfl⟩)
    · exact ⟨r, hr, if_neg he⟩
    · refine ⟨r', hr', ?_⟩
      rw [if_pos he]
      subst he; rfl

theorem setRole_macids (h : ∀ r ∈ s.roleTbl, r.id = id → r.macid = macid) :
    (s.setRole id macid info).roleTbl.map (·.macid) = s.roleTbl.map (·.macid) := by
  rw [Adapter.setRole, List.map_map]
  refine List.map_congr_left fun r hr => ?_
  simp only [Function.comp]
  split
  · next he => exact (h r hr he).symm
  · rfl

variable {role : MacRoleTbl}

theorem Adapter.Wf.setRole (h : s.Wf) (hr : role ∈ s.roleTbl) (info : RoleInfo)
    (hf : MacRoleTbl.Fit ⟨role.id, role.macid, info⟩) : (s.setRole role.id role.macid info).Wf where
  ids := by
    rw [Adapter.ids, setRole_ids, setRole_pool]; exact h.ids
  macids := by
    rw [setRole_macids fun r hrm he => by rw [h.eq_of_id hrm hr he]]; exact h.macids
  fit := by
    intro r hm
    rcases mem_setRole.1 hm with ⟨hm, -⟩ | ⟨-, rfl⟩
    · exact h.fit r hm
    · exact hf

/-! ### The calls -/

theorem RoleInfo.Same.fit {info' : RoleInfo} (h : info.Same info')
    (hf : MacRoleTbl.Fit ⟨id, macid, info⟩) : MacRoleTbl.Fit ⟨id, macid, info'⟩ := by
  obtain ⟨_, _, _, _, rfl⟩ := h.eq
  exact ⟨hf.macid, hf.checked, hf.maskSel, hf.addrMask⟩

theorem addInfo_fit (h : roleInfoChecks info = .success) :
    MacRoleTbl.Fit ⟨id, info.macid, roleInfoInit (addInfo info)⟩ := ⟨rfl, h, rfl, rfl⟩

theorem changeInfo_fit {t : SecCamTable} (h : roleInfoChecks info = .success) :
    MacRoleTbl.Fit ⟨id, info.macid, (changeInfo role info t).1⟩ := by
  simp only [changeInfo]
  split
  · exact ⟨rfl, h, rfl, rfl⟩
  · exact ⟨rfl, h, rfl, rfl⟩

theorem roleInfoValid_checks (h : roleInfoValid roles info op = .success) : roleInfoChecks info = .success := by
  cases op with
  | add =>
    simp only [roleInfoValid] at h
    split at h
    · exact absurd h (by simp)
    · split at h
      · exact absurd h (by simp)
      · split at h
        · exact absurd h (by simp)
        · exact h
  | chg =>
    simp only [roleInfoValid] at h
    split at h
    · exact absurd h (by simp)
    · split at h
      · exact absurd h (by simp)
      · exact h

theorem roleInfoValid_add_new (h : roleInfoValid roles info .add = .success) : ∀ r ∈ roles, r.macid ≠ info.macid := by
  refine roleSrch_none ?_
  simp only [roleInfoValid] at h
  split at h
  · exact absurd h (by simp)
  · split at h
    · exact absurd h (by simp)
    · split at h
      · exact absurd h (by simp)
      · next hn => simpa using hn

theorem Adapter.Wf.congr {s' : Adapter} (h : s.Wf) (ht : s'.roleTbl = s.roleTbl) (hp : s'.pool = s.pool) : s'.Wf := by
  refine ⟨?_, ?_, ?_⟩
  · rw [Adapter.ids, ht, hp]; exact h.ids
  · rw [ht]; exact h.macids
  · rw [ht]; exact h.fit

variable {r : MacStatus × Adapter}

theorem Added.wf (h : Added hw env info s r) (hs : s.Wf) : r.2.Wf := by
  have hids := hs.ids
  rw [Adapter.ids] at hids
  cases h with
  | noRole _ => exact hs
  | @back role pool role' ret hp he _ _ =>
    refine ⟨?_, hs.macids, hs.fit⟩
    rw [hp] at hids
    simp only [Adapter.ids, roleAddFail, List.map_append, List.map_cons, List.map_nil, he] at hids ⊢
    exact (List.perm_append_left_iff _ |>.2 (List.perm_append_singleton _ _)).nodup_iff.2 hids
  | @lost role pool hp _ _ _ =>
    refine ⟨?_, hs.macids, hs.fit⟩
    rw [hp] at hids; exact hids.sublist (List.Sublist.append_left (List.sublist_cons_self _ _) _)
  | @done role pool ret info' s' hp hv _ hu _ _ =>
    obtain ⟨ht, hpool, -⟩ := hu.frame
    simp only at ht hpool
    refine ⟨?_, ?_, ?_⟩
    · rw [hp] at hids
      simp only [Adapter.ids, ht, hpool, List.map_append, List.map_cons, List.map_nil, List.append_assoc]
      exact hids
    · simp only [ht, List.map_append, List.map_cons, List.map_nil]
      refine List.nodup_append.2 ⟨hs.macids, List.nodup_singleton _, ?_⟩
      rintro m hm _ hm' rfl
      obtain ⟨r, hr, rfl⟩ := List.mem_map.1 hm
      exact roleInfoValid_add_new hv r hr (List.mem_singleton.1 hm')
    · intro r hr
      rcases List.mem_append.1 (ht ▸ hr) with hr | hr
      · exact hs.fit r hr
      · rw [List.mem_singleton.1 hr]; exact hu.sameInfo.fit (addInfo_fit (roleInfoValid_checks hv))

theorem changeStart_wf (hs : s.Wf) (hv : roleInfoValid s.roleTbl info .chg = .success)
    (hr : roleSrch s.roleTbl info.macid = some role) : (changeStart s role info).Wf := by
  obtain ⟨hm, he⟩ := roleSrch_some hr
  refine (hs.setRole hm (changeInfo role info s.secCam).1 ?_).congr ?_ rfl
  · rw [he]; exact changeInfo_fit (roleInfoValid_checks hv)
  · rw [he]; rfl

theorem Changed.wf (h : Changed hw env info s r) (hs : s.Wf) : r.2.Wf := by
  cases h with
  | refused _ => exact hs
  | stopped hv hr _ _ => exact changeStart_wf hs hv hr
  | @done role ret info' s' hv hr _ _ hu =>
    obtain ⟨hm, he⟩ := roleSrch_some hr
    obtain ⟨ht, hp, -⟩ := hu.frame
    have hs' : s'.Wf := (changeStart_wf hs hv hr).congr ht hp
    have hm' : (⟨role.id, info.macid, (changeInfo role info s.secCam).1⟩ : MacRoleTbl) ∈ s'.roleTbl := by
      rw [ht]; exact mem_setRole.2 (.inr ⟨List.mem_map_of_mem hm, rfl⟩)
    exact hs'.setRole hm' _ (hu.sameInfo.fit (changeInfo_fit (roleInfoValid_checks hv)))

theorem Changed.others (h : Changed hw env info s r) (hr : roleSrch s.roleTbl info.macid = some role) :
    r.2.roleTbl.filter (·.id ≠ role.id) = s.roleTbl.filter (·.id ≠ role.id) := by
  cases h with
  | refused _ => rfl
  | stopped _ hr' _ _ =>
    obtain rfl := Option.some.inj (hr'.symm.trans hr)
    exact setRole_filter
  | done _ hr' _ _ hu =>
    obtain rfl := Option.some.inj (hr'.symm.trans hr)
    obtain ⟨ht, -, -⟩ := hu.frame
    rw [setRole_filter, ht]; exact setRole_filter

/-! ### Removing -/

theorem removedInfo_eq (s : Adapter) (role : MacRoleTbl) : ∃ v, removedInfo s role =
    { removeInfo role.info with bInfo := { role.info.bInfo with valid := v } } := by
  unfold removedInfo removeBssid
  split
  · exact ⟨false, rfl⟩
  · exact ⟨role.info.bInfo.valid, rfl⟩

theorem removedInfo_fit (s : Adapter) (h : role.Fit) : MacRoleTbl.Fit ⟨role.id, role.macid, removedInfo s role⟩ := by
  obtain ⟨v, he⟩ := removedInfo_eq s role
  rw [he]; exact ⟨h.macid, h.checked, h.maskSel, h.addrMask⟩

theorem removeStart_wf (hs : s.Wf) (hr : role ∈ s.roleTbl) : (removeStart s role).Wf := by
  have hf := hs.fit role hr
  have hfi : MacRoleTbl.Fit ⟨role.id, role.macid, removeInfo role.info⟩ :=
    ⟨hf.macid, hf.checked, hf.maskSel, hf.addrMask⟩
  have h1 := hs.setRole hr _ hfi
  have hm : (⟨role.id, role.macid, removeInfo role.info⟩ : MacRoleTbl) ∈
      (s.setRole role.id role.macid (removeInfo role.info)).roleTbl :=
    mem_setRole.2 (.inr ⟨List.mem_map_of_mem hr, rfl⟩)
  have hfr := removedInfo_fit s hf
  exact h1.setRole hm (removedInfo s role) hfr

theorem mem_removeStart (hr : role ∈ s.roleTbl) :
    (⟨role.id, role.macid, removedInfo s role⟩ : MacRoleTbl) ∈ (removeStart s role).roleTbl := by
  refine mem_setRole.2 (.inr ⟨?_, rfl⟩)
  rw [setRole_ids]; exact List.mem_map_of_mem hr

theorem removeStart_srch (hs : s.Wf) (hr : role ∈ s.roleTbl) :
    roleSrch (removeStart s role).roleTbl (removedInfo s role).macid =
      some ⟨role.id, role.macid, removedInfo s role⟩ := by
  have h := (removeStart_wf hs hr).roleSrch_eq (mem_removeStart hr)
  have he : (removedInfo s role).macid = role.macid := (removedInfo_fit s (hs.fit role hr)).macid
  rw [he]; exact h

theorem removeStart_filter (s : Adapter) (role : MacRoleTbl) :
    (removeStart s role).roleTbl.filter (·.id ≠ role.id) = s.roleTbl.filter (·.id ≠ role.id) := by
  rw [removeStart, setRole_filter, setRole_filter]

theorem roleReturn_ids (role : MacRoleTbl) (hs : (s.roleTbl.map (·.id)).Nodup)
    (hm : role.id ∈ s.roleTbl.map (·.id)) : (roleReturn s role).ids.Perm s.ids := by
  have hf : (s.roleTbl.filter (·.id ≠ role.id)).map (·.id) = (s.roleTbl.map (·.id)).erase role.id := by
    rw [hs.erase_eq_filter, List.filter_map]
    congr 1
    refine List.filter_congr fun r _ => ?_
    simp [bne, Function.comp]
    rfl
  simp only [Adapter.ids, roleReturn, hf, List.map_append, List.map_cons, List.map_nil]
  calc (s.roleTbl.map (·.id)).erase role.id ++ (s.pool.map (·.id) ++ [role.id])
      _ = ((s.roleTbl.map (·.id)).erase role.id ++ s.pool.map (·.id)) ++ [role.id] :=
        (List.append_assoc ..).symm
      List.Perm _ (role.id :: ((s.roleTbl.map (·.id)).erase role.id ++ s.pool.map (·.id))) :=
        List.perm_append_singleton _ _
      List.Perm _ (s.roleTbl.map (·.id) ++ s.pool.map (·.id)) :=
        (List.perm_cons_erase hm).symm.append_right _

theorem Removed.wf (h : Removed hw env macid s r) (hs : s.Wf) : r.2.Wf := by
  have hchg : ∀ {role : MacRoleTbl}, roleSrch s.roleTbl macid = some role →
      (changeRole hw env (removedInfo s role) (removeStart s role)).2.Wf := fun hr =>
    (changeRole_changed ..).wf (removeStart_wf hs (roleSrch_some hr).1)
  cases h with
  | noRole _ => exact hs
  | failed hr hc _ => exact hc ▸ hchg hr
  | dbcc hr hc hf _ _ =>
    have hs' := hchg hr
    rw [hc] at hs'
    have hm := List.mem_of_find?_eq_some hf
    have hfit := hs'.fit _ hm
    exact hs'.setRole hm _ ⟨hfit.macid, hfit.checked, hfit.maskSel, hfit.addrMask⟩
  | @done role role' s' hr hc hf _ =>
    have hs' := hchg hr
    rw [hc] at hs'
    have hm := List.mem_of_find?_eq_some hf
    refine ⟨?_, ?_, ?_⟩
    · have hm' : role'.id ∈ s'.roleTbl.map (·.id) := List.mem_map_of_mem hm
      exact (roleReturn_ids ⟨role'.id, role'.macid, { role'.info with dbccRole := false }⟩ hs'.listIds
        hm').nodup_iff.2 hs'.ids
    · exact hs'.macids.sublist (List.filter_sublist.map _)
    · exact fun r hr => hs'.fit r (List.mem_filter.1 hr).1

theorem Removed.rest (h : Removed hw env macid s r) (hs : s.Wf) (hr : roleSrch s.roleTbl macid = some role)
    (hok : r.1 = .success) :
    r.2.roleTbl = s.roleTbl.filter (·.id ≠ role.id) ∧ r.2.ids.Perm s.ids := by
  have hm := (roleSrch_some hr).1
  cases h with
  | noRole _ => cases hok
  | failed _ _ hne => exact absurd hok hne
  | dbcc _ _ _ _ hne => exact absurd hok hne
  | @done role₀ role' s' hr₀ hc hf _ =>
    obtain rfl := Option.some.inj (hr₀.symm.trans hr)
    have hchg := changeRole_changed hw env (removedInfo s role₀) (removeStart s role₀)
    have hs' := hchg.wf (removeStart_wf hs hm)
    have hids := hchg.ids
    have hoth : (changeRole hw env (removedInfo s role₀) (removeStart s role₀)).2.roleTbl.filter
        (·.id ≠ role₀.id) = s.roleTbl.filter (·.id ≠ role₀.id) :=
      (hchg.others (removeStart_srch hs hm)).trans (removeStart_filter s role₀)
    rw [hc] at hs' hids hoth
    have hp := List.find?_some hf
    have hid : role'.id = role₀.id := of_decide_eq_true hp
    constructor
    · show s'.roleTbl.filter (·.id ≠ role'.id) = _
      rw [hid]; exact hoth
    · have hm' : role'.id ∈ s'.roleTbl.map (·.id) := List.mem_map_of_mem (List.mem_of_find?_eq_some hf)
      refine (roleReturn_ids ⟨role'.id, role'.macid, { role'.info with dbccRole := false }⟩ hs'.listIds hm').trans ?_
      rw [Adapter.ids, hids.1, hids.2, removeStart_ids]; exact .refl _

theorem changeRole_eq (hv : roleInfoValid s.roleTbl info .chg = .success)
    (hr : roleSrch s.roleTbl info.macid = some role) (hband : info.updMode ≠ .bandSw)
    (hh : changeH2c env (changeInfo role info s.secCam).1 = .success) {u : MacStatus × RoleInfo × Adapter}
    (hu : macUpdAddrCam hw env (changeStart s role info) role.id (changeInfo role info s.secCam).1 .chg = u) :
    changeRole hw env info s = (u.1, u.2.2.setRole role.id info.macid u.2.1) := by
  subst hu
  unfold changeRole
  rw [if_neg (not_not.2 hv)]
  simp only [hr, hband, decide_false, Bool.false_and, Bool.false_eq_true, if_false]
  rw [if_neg (not_not.2 hh)]; rfl

/-- An entry is found for the BSSID of `info`, among the roles given. -/
def BssidFound (hw : HwInfo) (roles : List MacRoleTbl) (info : RoleInfo) : Prop :=
  ∃ e ∈ bssidEntry hw roles info, e.1 ≠ hw.bssidNum

instance {roles : List MacRoleTbl} {info : RoleInfo} : Decidable (BssidFound hw roles info) := by
  unfold BssidFound; infer_instance

theorem macUpdAddrCam_sent {info' : RoleInfo} (hupd : env.fwRdy = true → env.addrCam = .sent .success)
    (hc : camInfo hw s.roleTbl id info op = (.success, info')) :
    macUpdAddrCam hw env s id info op = (.success, info', s.writeCam info') := by
  unfold macUpdAddrCam
  by_cases hf : env.fwRdy = true
  · simp only [hf, if_true, hupd hf, hc]
  · simp only [hf, hc]; rfl

theorem changeInfo_self {t : SecCamTable} (h : info.updMode ≠ .conDisconn) :
    changeInfo ⟨id, macid, info⟩ info t = (roleInfoInit info, t) := by
  simp only [changeInfo]
  rw [if_neg fun hc => h hc.1]

theorem changeInfo_removed (s : Adapter) (role : MacRoleTbl) :
    changeInfo ⟨role.id, role.macid, removedInfo s role⟩ (removedInfo s role) (removeStart s role).secCam =
      (roleInfoInit (removedInfo s role), (removeStart s role).secCam) := by
  obtain ⟨v, hinfo⟩ := removedInfo_eq s role
  refine changeInfo_self ?_
  rw [hinfo]
  simp [removeInfo]

theorem bssidEntry_removed (s : Adapter) :
    bssidEntry hw roles (roleInfoInit (removedInfo s role)) = bssidEntry hw roles (roleInfoInit role.info) := by
  obtain ⟨v, hinfo⟩ := removedInfo_eq s role
  unfold bssidEntry
  rw [hinfo]; exact bssidCamLoop_info (by rfl) (by rfl) (by rfl) (by rfl) _ _

theorem changeStart_removed_filter (s : Adapter) (role : MacRoleTbl) :
    (changeStart (removeStart s role) ⟨role.id, role.macid, removedInfo s role⟩
      (removedInfo s role)).roleTbl.filter (·.id ≠ role.id) = s.roleTbl.filter (·.id ≠ role.id) :=
  setRole_filter.trans (removeStart_filter s role)

theorem changeH2c_remove (h : info.updMode = .remove) :
    changeH2c env info = .success ↔ info.isMulEnt = true ∨ (macFwRoleMaintain env).passed = true := by
  simp only [changeH2c, h]
  by_cases hm : info.isMulEnt = true
  · simp [hm]
  · by_cases hp : (macFwRoleMaintain env).passed = true
    · simp [hm, hp]
    · have hne : macFwRoleMaintain env ≠ .success := fun he => hp (by simp [he, MacStatus.passed])
      simp [hm, hp, hne]

theorem removeRole_success (hs : s.Wf) (hr : role ∈ s.roleTbl)
    (hfw : role.info.isMulEnt = true ∨ (macFwRoleMaintain env).passed = true)
    (hupd : env.fwRdy = true → env.addrCam = .sent .success)
    (hcam : BssidFound hw (s.roleTbl.filter (·.id ≠ role.id)) (roleInfoInit role.info))
    (hdbcc : role.info.dbccRole = true → env.dbccRm = .success) :
    (removeRole hw env role.macid s).1 = .success := by
  obtain ⟨v, hinfo⟩ := removedInfo_eq s role
  have hsrch := removeStart_srch hs hr
  have hfit := hs.fit role hr
  have hvalid : roleInfoValid (removeStart s role).roleTbl (removedInfo s role) .chg = .success := by
    simp only [roleInfoValid, hsrch]
    rw [if_neg (by rw [hinfo]; simp [removeInfo]), if_neg (by simp), hinfo]
    exact hfit.checked
  have hself := changeInfo_removed s role
  have hh : changeH2c env (roleInfoInit (removedInfo s role)) = .success := by
    refine (changeH2c_remove (by rw [hinfo]; rfl)).2 ?_
    rw [hinfo]; exact hfw
  have hothers := changeStart_removed_filter s role
  obtain ⟨⟨idx, bssid⟩, hb, hne⟩ := hcam
  rw [Option.mem_def, ← bssidEntry_removed s, ← hothers] at hb
  have hcs := findAvailBssidCamEntry_some hb hne
  have hu := changeRole_eq hvalid hsrch (by rw [hinfo]; simp [removeInfo]) (by rw [hself]; exact hh)
    (macUpdAddrCam_sent hupd (by rw [hself]; exact hcs))
  have hrem := removeRole_removed hw env role.macid s
  have hself' := hs.roleSrch_eq hr
  generalize removeRole hw env role.macid s = r at hrem ⊢
  cases hrem with
  | noRole hn =>
    rw [hself'] at hn; cases hn
  | failed hr₀ hc hne =>
    obtain rfl := Option.some.inj (hr₀.symm.trans hself')
    rw [hu] at hc; exact absurd (hc ▸ rfl) hne
  | @dbcc role₀ role' s' hr₀ hc hf hd hne =>
    obtain rfl := Option.some.inj (hr₀.symm.trans hself')
    rw [hu] at hc
    obtain rfl := (Prod.mk.inj hc).2
    have hp := List.find?_some hf
    rcases mem_setRole.1 (List.mem_of_find?_eq_some hf) with ⟨-, hid⟩ | ⟨-, hid⟩
    · exact absurd (of_decide_eq_true hp) hid
    · rw [hid] at hd
      refine absurd (hdbcc ?_) hne
      rw [hinfo] at hd; exact hd
  | done _ _ _ _ => rfl

end Rtl8852cu.Role
