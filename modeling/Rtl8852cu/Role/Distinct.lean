import Rtl8852cu.Lib.Reach
import Rtl8852cu.Role.Wf

/-!
# The entries of the roles are their own

A call that fails for want of an H2C buffer leaves the entries that the caller had in `info`.  A removal that fails
leaves the role on the list, but not valid any more.
-/

namespace Rtl8852cu.Role

open Lib

/-! ### The calls -/

/-- A call, with what its steps return. -/
inductive RoleCall where
  | add (info : RoleInfo) (env : RoleEnv)
  | change (info : RoleInfo) (env : RoleEnv)
  | remove (macid : UInt8) (env : RoleEnv)
  | removeByBand (band : ℕ) (sw : Bool) (env : ℕ → RoleEnv)

/-- `mac_add_role`, `mac_change_role`, `mac_remove_role`, `mac_remove_role_by_band`. -/
def Adapter.call (hw : HwInfo) (s : Adapter) : RoleCall → MacStatus × Adapter
  | .add info env => addRole hw env info s
  | .change info env => changeRole hw env info s
  | .remove macid env => removeRole hw env macid s
  | .removeByBand band sw env => removeRoleByBand hw band sw env s

def Adapter.step (hw : HwInfo) (s : Adapter) (c : RoleCall) : Adapter := (s.call hw c).2

/-! ### What is to hold -/

/-- Two BSSIDs are the same, as far as the masks of both go, in the same band. -/
def Agree (info info' : RoleInfo) : Prop :=
  macEq (min (maddrCmpLen info.aInfo) (maddrCmpLen info'.aInfo)) info.bssid info'.bssid = true ∧
    info.band = info'.band

instance (info info' : RoleInfo) : Decidable (Agree info info') := inferInstanceAs (Decidable (_ ∧ _))

/-- **Each structure and each entry once.** -/
structure Adapter.Distinct (hw : HwInfo) (s : Adapter) : Prop where
  once : s.ids.Perm (List.range hw.macidNum)
  macids : (s.roleTbl.map (·.macid)).Nodup
  addrLt : ∀ r ∈ s.roleTbl, r.info.aInfo.valid = true → r.info.aInfo.addrCamIdx < hw.macidNum
  addr : ∀ r ∈ s.roleTbl, ∀ r' ∈ s.roleTbl, r.info.aInfo.valid = true → r'.info.aInfo.valid = true →
    r.info.aInfo.addrCamIdx = r'.info.aInfo.addrCamIdx → r = r'
  bssid : ∀ r ∈ s.roleTbl, ∀ r' ∈ s.roleTbl, r.info.aInfo.valid = true → r'.info.aInfo.valid = true →
    r.info.aInfo.bssidCamIdx = r'.info.aInfo.bssidCamIdx → Agree r.info r'.info

def MacRoleTbl.cam (r : MacRoleTbl) : ℕ × UInt8 × ℕ × ℕ :=
  (r.id, r.macid, r.info.aInfo.addrCamIdx, r.info.aInfo.bssidCamIdx)

/-- **Nothing is changed**: the same roles with the same indices, and the same structures in the pool. -/
structure Unchanged (s s' : Adapter) : Prop where
  roles : s'.roleTbl.map (·.cam) = s.roleTbl.map (·.cam)
  pool : (s'.pool.map (·.id)).Perm (s.pool.map (·.id))

/-! ### What a call needs -/

/-- The valid roles with the BSSID entry `idx` agree with `info`. -/
def SharedOk (roles : List MacRoleTbl) (info : RoleInfo) (idx : ℕ) : Prop :=
  ∀ r ∈ roles, r.info.aInfo.valid = true → r.info.aInfo.bssidCamIdx = idx → Agree r.info info

instance (roles : List MacRoleTbl) (info : RoleInfo) (idx : ℕ) : Decidable (SharedOk roles info idx) := by
  unfold SharedOk; infer_instance

/-- The entries that `info` names may be its own, next to those of the roles given. -/
structure Own (hw : HwInfo) (roles : List MacRoleTbl) (info : RoleInfo) : Prop where
  addrLt : info.aInfo.addrCamIdx < hw.macidNum
  addr : ∀ r ∈ roles, r.info.aInfo.valid = true → r.info.aInfo.addrCamIdx ≠ info.aInfo.addrCamIdx
  shared : SharedOk roles info info.aInfo.bssidCamIdx

instance (hw : HwInfo) (roles : List MacRoleTbl) (info : RoleInfo) : Decidable (Own hw roles info) :=
  decidable_of_iff (_ ∧ _ ∧ _) ⟨fun h => ⟨h.1, h.2.1, h.2.2⟩, fun h => ⟨h.1, h.2, h.3⟩⟩

/-- An addition that gets to the join command sends it, and the entries are right: those that the caller had in `info`
where there is no buffer, or else the roles with the BSSID entry that is found agree. -/
def AddOk (hw : HwInfo) (env : RoleEnv) (info : RoleInfo) (s : Adapter) : Prop :=
  AddReaches hw env info s → (info.selfRole = .ap → (macH2cJoinInfo env).passed = true) ∧
    if NoH2c env then Own hw s.roleTbl (roleInfoInit (addInfo info))
    else ∀ e ∈ bssidEntry hw s.roleTbl (roleInfoInit (addInfo info)),
      SharedOk s.roleTbl (roleInfoInit (addInfo info)) e.1

/-- A change that is not refused: the roles with the old entry agree with the new information where the entry is kept,
or else an entry is found whose roles do, and which is the old one where the update is not sent. -/
def ChangeOk (hw : HwInfo) (env : RoleEnv) (info : RoleInfo) (s : Adapter) : Prop :=
  roleInfoValid s.roleTbl info .chg = .success → ∀ role ∈ roleSrch s.roleTbl info.macid,
    (info.updMode = .bandSw → role.info.dbccRole = true ∧ env.dbccMove = .success) →
    let info' := (changeInfo role info s.secCam).1
    let others := s.roleTbl.filter (·.id ≠ role.id)
    if changeH2c env info' ≠ .success ∨ NoH2c env then
      role.info.aInfo.valid = true → SharedOk others info' role.info.aInfo.bssidCamIdx
    else ∃ e ∈ bssidEntry hw others info', e.1 ≠ hw.bssidNum ∧
      (role.info.aInfo.valid = true → SharedOk others info' e.1) ∧
      (env.fwRdy = true → env.addrCam ≠ .sent .success → e.1 = role.info.aInfo.bssidCamIdx)

/-- The steps of a removal succeed, and an entry for the BSSID is found among the other roles. -/
def RemoveDone (hw : HwInfo) (env : RoleEnv) (s : Adapter) (role : MacRoleTbl) : Prop :=
  (role.info.isMulEnt = true ∨ (macFwRoleMaintain env).passed = true) ∧
  (env.fwRdy = true → env.addrCam = .sent .success) ∧
  BssidFound hw (s.roleTbl.filter (·.id ≠ role.id)) (roleInfoInit role.info) ∧
  (role.info.dbccRole = true → env.dbccRm = .success)

/-- The role keeps its indices in a removal: none is looked for, or the same is found. -/
def RemoveStays (hw : HwInfo) (env : RoleEnv) (s : Adapter) (role : MacRoleTbl) : Prop :=
  ¬ (role.info.isMulEnt = true ∨ (macFwRoleMaintain env).passed = true) ∨ NoH2c env ∨
    ∃ e ∈ bssidEntry hw (s.roleTbl.filter (·.id ≠ role.id)) (roleInfoInit role.info),
      e.1 ≠ hw.bssidNum ∧ e.1 = role.info.aInfo.bssidCamIdx

/-- A removal that does not succeed leaves the indices. -/
def RemoveOk (hw : HwInfo) (env : RoleEnv) (macid : UInt8) (s : Adapter) : Prop :=
  ∀ role ∈ roleSrch s.roleTbl macid, RemoveDone hw env s role ∨ RemoveStays hw env s role

/-- The removals of a band succeed one after the other; the first may fail, where it leaves the indices. -/
def BandOk (hw : HwInfo) (band : ℕ) : List MacRoleTbl → Bool → (ℕ → RoleEnv) → Adapter → Prop
  | [], _, _, _ => True
  | curr :: rest, first, env, s =>
    if band = curr.info.band then
      (∀ role ∈ roleSrch s.roleTbl curr.macid, RemoveDone hw (env 0) s role) ∧
          BandOk hw band rest false (fun k => env (k + 1)) (removeRole hw (env 0) curr.macid s).2 ∨
        (first = true ∧ ∃ role ∈ roleSrch s.roleTbl curr.macid,
          ¬ RemoveDone hw (env 0) s role ∧ RemoveStays hw (env 0) s role) ∧
            ((removeRole hw (env 0) curr.macid s).1 = .noRole →
              BandOk hw band rest true (fun k => env (k + 1)) (removeRole hw (env 0) curr.macid s).2)
    else BandOk hw band rest first env s

def CallOk (hw : HwInfo) (s : Adapter) : RoleCall → Prop
  | .add info env => AddOk hw env info s
  | .change info env => ChangeOk hw env info s
  | .remove macid env => RemoveOk hw env macid s
  | .removeByBand band sw env => sw = false → BandOk hw band s.roleTbl true env s

variable {hw : HwInfo} {env : RoleEnv} {s s' : Adapter} {info info' : RoleInfo}

instance : Decidable (AddOk hw env info s) := by unfold AddOk; infer_instance

instance : Decidable (ChangeOk hw env info s) := by unfold ChangeOk; infer_instance

instance {role : MacRoleTbl} : Decidable (RemoveDone hw env s role) := by unfold RemoveDone; infer_instance

instance {role : MacRoleTbl} : Decidable (RemoveStays hw env s role) := by unfold RemoveStays; infer_instance

instance {macid : UInt8} : Decidable (RemoveOk hw env macid s) := by unfold RemoveOk; infer_instance

instance BandOk.decidable {band : ℕ} : ∀ (roles : List MacRoleTbl) (first : Bool) (env : ℕ → RoleEnv) (s : Adapter),
    Decidable (BandOk hw band roles first env s)
  | [], _, _, _ => inferInstanceAs (Decidable True)
  | curr :: rest, first, env, s =>
    have (first : Bool) (s : Adapter) : Decidable (BandOk hw band rest first (fun k => env (k + 1)) s) :=
      BandOk.decidable rest first _ s
    have : Decidable (BandOk hw band rest first env s) := BandOk.decidable rest first env s
    by unfold BandOk; infer_instance

instance CallOk.decidable : ∀ (s : Adapter) (c : RoleCall), Decidable (CallOk hw s c)
  | s, .add info env => inferInstanceAs (Decidable (AddOk hw env info s))
  | s, .change info env => inferInstanceAs (Decidable (ChangeOk hw env info s))
  | s, .remove macid env => inferInstanceAs (Decidable (RemoveOk hw env macid s))
  | s, .removeByBand band sw env => inferInstanceAs (Decidable (sw = false → BandOk hw band s.roleTbl true env s))

/-! ### One role more, or another -/

theorem macEq_comm {n : ℕ} {a b : Mac} : macEq n a b = macEq n b a := by
  unfold macEq
  simp only [eq_comm]

theorem Agree.symm {info info' : RoleInfo} (h : Agree info info') : Agree info' info := by
  refine ⟨?_, h.2.symm⟩
  rw [min_comm, macEq_comm]; exact h.1

theorem Agree.refl (info : RoleInfo) : Agree info info := ⟨by simp [macEq], rfl⟩

/-- With the entries, what is known of the roles. -/
structure Adapter.Inv (hw : HwInfo) (s : Adapter) : Prop extends s.Distinct hw where
  wf : s.Wf

theorem Adapter.Inv.extend (hs : s.Inv hw) (others : List MacRoleTbl) (new : MacRoleTbl) (hwf : s'.Wf)
    (hids : s'.ids.Perm (List.range hw.macidNum))
    (hmem : ∀ r ∈ s'.roleTbl, r ∈ others ∨ r = new) (hoth : ∀ r ∈ others, r ∈ s.roleTbl)
    (hnew : new.info.aInfo.valid = true → Own hw others new.info) : s'.Inv hw where
  once := hids
  macids := hwf.macids
  addrLt r hr hv := by
    rcases hmem r hr with h | rfl
    · exact hs.addrLt r (hoth r h) hv
    · exact (hnew hv).addrLt
  addr r hr r' hr' hvr hvr' he := by
    rcases hmem r hr with h | rfl
    · rcases hmem r' hr' with h' | rfl
      · exact hs.addr r (hoth r h) r' (hoth r' h') hvr hvr' he
      · exact absurd he ((hnew hvr').addr r h hvr)
    · rcases hmem r' hr' with h' | rfl
      · exact absurd he.symm ((hnew hvr).addr r' h' hvr')
      · rfl
  bssid r hr r' hr' hvr hvr' he := by
    rcases hmem r hr with h | rfl
    · rcases hmem r' hr' with h' | rfl
      · exact hs.bssid r (hoth r h) r' (hoth r' h') hvr hvr' he
      · exact (hnew hvr').shared r h hvr he
    · rcases hmem r' hr' with h' | rfl
      · exact ((hnew hvr).shared r' h' hvr' he.symm).symm
      · exact .refl _
  wf := hwf

theorem Adapter.Inv.sub (hs : s.Inv hw) (hwf : s'.Wf) (hids : s'.ids.Perm (List.range hw.macidNum))
    (hmem : ∀ r ∈ s'.roleTbl, r ∈ s.roleTbl) : s'.Inv hw where
  once := hids
  macids := hwf.macids
  addrLt r hr := hs.addrLt r (hmem r hr)
  addr r hr r' hr' := hs.addr r (hmem r hr) r' (hmem r' hr')
  bssid r hr r' hr' := hs.bssid r (hmem r hr) r' (hmem r' hr')
  wf := hwf

variable {id : ℕ}

theorem filter_id_of_not_mem {roles : List MacRoleTbl} (h : id ∉ roles.map (·.id)) :
    roles.filter (·.id ≠ id) = roles :=
  List.filter_eq_self.2 fun r hr => decide_eq_true fun he => h (List.mem_map.2 ⟨r, hr, he⟩)

/-! ### Adding -/

theorem not_noH2c (h : env.fwRdy = true → env.addrCam = .sent .success) : ¬ NoH2c env := by
  rintro ⟨hf, hno | hno⟩
  · rw [h hf] at hno; cases hno
  · rw [h hf] at hno; cases hno

variable {ret : MacStatus}

theorem addOk_entries (hid : id ∉ s.roleTbl.map (·.id))
    {a a' : Adapter} (hu : Updated hw env a id (roleInfoInit (addInfo info)) .add (ret, info', a'))
    (ha : a.roleTbl = s.roleTbl) (hne : ret ≠ .addrCamFl) (hne' : ret ≠ .bssidCamFl)
    (hok : if NoH2c env then Own hw s.roleTbl (roleInfoInit (addInfo info))
      else ∀ e ∈ bssidEntry hw s.roleTbl (roleInfoInit (addInfo info)),
        SharedOk s.roleTbl (roleInfoInit (addInfo info)) e.1) :
    Own hw s.roleTbl info' := by
  have hfound : ∀ {info' : RoleInfo}, ¬ NoH2c env →
      camInfo hw a.roleTbl id (roleInfoInit (addInfo info)) .add = (.success, info') →
      Own hw s.roleTbl info' := by
    intro info' hno hc
    rw [if_neg hno] at hok
    obtain ⟨i, idx, bssid, hi, hfree, hb, hidx, rfl⟩ := camInfo_add hc
    rw [ha, filter_id_of_not_mem hid] at hb
    rw [ha] at hfree
    refine ⟨hi, ?_, hok _ hb⟩
    intro r hr hv he
    exact hfree r hr ⟨he.symm, hv⟩
  cases hu with
  | noH2c hno _ =>
    rw [if_pos hno] at hok; exact hok
  | full _ hc hn =>
    rcases camInfo_err hc hn with h | h
    · exact absurd h hne
    · exact absurd h hne'
  | unsent _ hsent hc _ => exact hfound (by simp [NoH2c, hsent]) hc
  | sent hc hsent => exact hfound (not_noH2c hsent) hc

theorem addRole_spec (hs : s.Inv hw) (hok : AddOk hw env info s) : (addRole hw env info s).2.Inv hw ∧
      ((addRole hw env info s).1 ≠ .success → Unchanged s (addRole hw env info s).2) := by
  have h := addRole_added hw env info s
  have hwf := h.wf hs.wf
  generalize addRole hw env info s = r at h hwf ⊢
  cases h with
  | noRole _ => exact ⟨hs, fun _ => ⟨rfl, .refl _⟩⟩
  | @back role pool role' ret hp he _ _ =>
    have hpool : ((pool ++ [role']).map (·.id)).Perm (s.pool.map (·.id)) := by
      rw [hp, List.map_append, List.map_cons, List.map_cons, List.map_nil, he]
      exact List.perm_append_singleton _ _
    refine ⟨hs.sub hwf ?_ fun _ h => h, fun _ => ⟨rfl, hpool⟩⟩
    exact (hpool.append_left _).trans hs.once
  | lost _ hreach hap hj =>
    rw [(hok hreach).1 hap] at hj; cases hj
  | @done role pool ret info' s' hp hv hreach hu hne hne' =>
    have hid : role.id ∉ s.roleTbl.map (·.id) := by
      have hnd := hs.wf.ids
      rw [Adapter.ids, hp] at hnd
      exact fun hm => (List.nodup_append.1 hnd).2.2 _ hm _ List.mem_cons_self rfl
    have hent := addOk_entries hid hu rfl hne hne' (hok hreach).2
    obtain ⟨ht, hpl, -⟩ := hu.frame
    simp only at ht hpl
    refine ⟨hs.extend s.roleTbl ⟨role.id, info.macid, info'⟩ hwf ?_ (fun r hr => ?_) (fun _ h => h) fun _ => hent,
      fun h => absurd rfl h⟩
    · have honce := hs.once
      rw [Adapter.ids, hp] at honce
      simp only [Adapter.ids, ht, hpl, List.map_append, List.map_cons, List.map_nil, List.append_assoc]
      exact honce
    · simp only [ht] at hr
      rcases List.mem_append.1 hr with h | h
      · exact .inl h
      · exact .inr (List.mem_singleton.1 h)

/-! ### Changing -/

theorem changeInfo_cam (role : MacRoleTbl) (info : RoleInfo) (t : SecCamTable) :
    (changeInfo role info t).1.aInfo.valid = role.info.aInfo.valid ∧
    (changeInfo role info t).1.aInfo.addrCamIdx = role.info.aInfo.addrCamIdx ∧
    (changeInfo role info t).1.aInfo.bssidCamIdx = role.info.aInfo.bssidCamIdx := by
  simp only [changeInfo]
  split
  · exact ⟨rfl, rfl, rfl⟩
  · exact ⟨rfl, rfl, rfl⟩

variable {role : MacRoleTbl}

theorem setRole_cam (hs : s.Wf) (hr : role ∈ s.roleTbl) (h : MacRoleTbl.cam ⟨role.id, role.macid, info⟩ = role.cam) :
    (s.setRole role.id role.macid info).roleTbl.map (·.cam) = s.roleTbl.map (·.cam) := by
  rw [Adapter.setRole, List.map_map]
  refine List.map_congr_left fun r hrm => ?_
  simp only [Function.comp]
  split
  · next he =>
    obtain rfl := hs.eq_of_id hrm hr he
    exact h
  · rfl

variable {macid : UInt8}

theorem setRole_of_setRole {macid' : UInt8} (ht : s'.roleTbl = (s.setRole id macid info).roleTbl) :
    (s'.setRole id macid' info').roleTbl = (s.setRole id macid' info').roleTbl := by
  simp only [Adapter.setRole] at ht ⊢
  rw [ht, List.map_map]
  refine List.map_congr_left fun r _ => ?_
  simp only [Function.comp]
  by_cases hr : r.id = id
  · simp [hr]
  · simp [hr]

theorem Adapter.Inv.setRole (hs : s.Inv hw) (hwf : s'.Wf) (hr : role ∈ s.roleTbl)
    (ht : s'.roleTbl = (s.setRole role.id role.macid info).roleTbl) (hp : s'.pool = s.pool)
    (hv : info.aInfo.valid = true → role.info.aInfo.valid = true)
    (haddr : info.aInfo.addrCamIdx = role.info.aInfo.addrCamIdx)
    (hsh : info.aInfo.valid = true →
      SharedOk (s.roleTbl.filter (·.id ≠ role.id)) info info.aInfo.bssidCamIdx) : s'.Inv hw := by
  refine hs.extend (s.roleTbl.filter (·.id ≠ role.id)) ⟨role.id, role.macid, info⟩ hwf ?_ (fun r hrm => ?_)
    (fun r h => (List.mem_filter.1 h).1) fun hvi => ⟨?_, ?_, hsh hvi⟩
  · rw [Adapter.ids, ht, hp, setRole_ids]; exact hs.once
  · rw [ht] at hrm
    rcases mem_setRole.1 hrm with ⟨h, hne⟩ | ⟨-, h⟩
    · exact .inl (List.mem_filter.2 ⟨h, decide_eq_true hne⟩)
    · exact .inr h
  · rw [haddr]; exact hs.addrLt role hr (hv hvi)
  · intro r hrm hvr he
    obtain ⟨hrm, hne⟩ := List.mem_filter.1 hrm
    have := hs.addr r hrm role hr hvr (hv hvi) (he.trans haddr)
    exact of_decide_eq_true hne (congrArg _ this)

theorem unchanged_of_setRole (hs : s.Wf) (hr : role ∈ s.roleTbl)
    (ht : s'.roleTbl = (s.setRole role.id role.macid info).roleTbl) (hp : s'.pool = s.pool)
    (haddr : info.aInfo.addrCamIdx = role.info.aInfo.addrCamIdx)
    (hbssid : info.aInfo.bssidCamIdx = role.info.aInfo.bssidCamIdx) : Unchanged s s' := by
  refine ⟨?_, by rw [hp]⟩
  rw [ht]; exact setRole_cam hs hr (by simp only [MacRoleTbl.cam, haddr, hbssid])

theorem changeDone_roleTbl {op : RoleOp} (hmacid : role.macid = info.macid)
    {i : RoleInfo} (hu : Updated hw env (changeStart s role info) role.id i op (ret, info', s')) :
    (s'.setRole role.id info.macid info').roleTbl = (s.setRole role.id role.macid info').roleTbl := by
  rw [hmacid]; exact setRole_of_setRole hu.frame.1

theorem changeRole_spec (hs : s.Inv hw) (hok : ChangeOk hw env info s) : (changeRole hw env info s).2.Inv hw ∧
      ((changeRole hw env info s).1 ≠ .success → Unchanged s (changeRole hw env info s).2) := by
  have h := changeRole_changed hw env info s
  have hwf := h.wf hs.wf
  generalize changeRole hw env info s = r at h hwf ⊢
  cases h with
  | refused _ => exact ⟨hs, fun _ => ⟨rfl, .refl _⟩⟩
  | @stopped role hv hr hband hh =>
    obtain ⟨hm, hmacid⟩ := roleSrch_some hr
    obtain ⟨hvalid, haddr, hab⟩ := changeInfo_cam role info s.secCam
    have hc := hok hv role hr hband
    simp only [hh, ne_eq, not_false_eq_true, true_or, if_true] at hc
    have ht : (changeStart s role info).roleTbl =
        (s.setRole role.id role.macid (changeInfo role info s.secCam).1).roleTbl := by rw [hmacid]; rfl
    refine ⟨hs.setRole hwf hm ht rfl hvalid.symm.trans haddr fun hvi => ?_,
      fun _ => unchanged_of_setRole hs.wf hm ht rfl haddr hab⟩
    rw [hab]; exact hc (hvalid.symm.trans hvi)
  | @done role ret info' s' hv hr hband hh hu =>
    obtain ⟨hm, hmacid⟩ := roleSrch_some hr
    obtain ⟨hvalid, haddr, hab⟩ := changeInfo_cam role info s.secCam
    have hc := hok hv role hr hband
    have hp : (s'.setRole role.id info.macid info').pool = s.pool := hu.frame.2.1
    have ht := changeDone_roleTbl hmacid hu
    have hothers : (changeStart s role info).roleTbl.filter (·.id ≠ role.id) =
        s.roleTbl.filter (·.id ≠ role.id) := setRole_filter
    -- an entry that is found is the one that `ChangeOk` is about
    have hfound : ¬ NoH2c env → camInfo hw (changeStart s role info).roleTbl role.id
          (changeInfo role info s.secCam).1 .chg = (.success, info') →
        Adapter.Inv hw (s'.setRole role.id info.macid info') ∧ (env.fwRdy = true → env.addrCam ≠ .sent .success →
            Unchanged s (s'.setRole role.id info.macid info')) := by
      intro hno hcam
      simp only [hh, hno, ne_eq, not_true_eq_false, or_self, if_false] at hc
      obtain ⟨idx, bssid, hb, hidx, rfl⟩ := findAvailBssidCamEntry_success hcam
      rw [hothers] at hb
      obtain ⟨e, he, -, hsh, hkeep⟩ := hc
      obtain rfl := Option.some.inj (hb.symm.trans he)
      exact ⟨hs.setRole hwf hm ht hp hvalid.symm.trans haddr fun hvi => hsh (hvalid.symm.trans hvi),
        fun hr hn => unchanged_of_setRole hs.wf hm ht hp haddr (hkeep hr hn)⟩
    cases hu with
    | noH2c hno _ =>
      simp only [hno, or_true, if_true] at hc
      refine ⟨hs.setRole hwf hm ht hp hvalid.symm.trans haddr fun hvi => ?_,
        fun _ => unchanged_of_setRole hs.wf hm ht hp haddr hab⟩
      rw [hab]; exact hc (hvalid.symm.trans hvi)
    | full hno hcam hne =>
      simp only [hh, hno, ne_eq, not_true_eq_false, or_self, if_false] at hc
      obtain ⟨⟨idx, bssid⟩, he, hidx, -⟩ := hc
      rw [Option.mem_def, ← hothers] at he
      rw [camInfo, findAvailBssidCamEntry_some he hidx] at hcam
      exact absurd (congrArg Prod.fst hcam).symm hne
    | unsent hr' hsent hcam hne =>
      obtain ⟨hinv, hkeep⟩ := hfound (by simp [NoH2c, hsent]) hcam
      refine ⟨hinv, fun _ => hkeep hr' ?_⟩
      rw [hsent]
      simpa using hne
    | sent hcam hsent => exact ⟨(hfound (not_noH2c hsent) hcam).1, fun h => absurd rfl h⟩

/-! ### Removing -/

theorem Adapter.Inv.roleReturn (hs : s.Inv hw) (hr : role ∈ s.roleTbl) : (roleReturn s role).Inv hw := by
  have hids := roleReturn_ids role hs.wf.listIds (List.mem_map_of_mem hr)
  refine hs.sub ⟨hids.nodup_iff.2 hs.wf.ids, ?_, ?_⟩ (hids.trans hs.once) fun r h => (List.mem_filter.1 h).1
  · exact hs.wf.macids.sublist (List.filter_sublist.map _)
  · exact fun r h => hs.wf.fit r (List.mem_filter.1 h).1

theorem found_setRole {s' : Adapter} {role' : MacRoleTbl}
    (ht : s'.roleTbl = (s.setRole id macid info).roleTbl) (hf : s'.roleTbl.find? (·.id = id) = some role') :
    role' = ⟨id, macid, info⟩ := by
  have hp := List.find?_some hf
  have hm := List.mem_of_find?_eq_some hf
  rw [ht] at hm
  rcases mem_setRole.1 hm with ⟨-, hne⟩ | ⟨-, h⟩
  · exact absurd (of_decide_eq_true hp) hne
  · exact h

theorem removeStart_roleTbl (s : Adapter) (role : MacRoleTbl) :
    (removeStart s role).roleTbl = (s.setRole role.id role.macid (removedInfo s role)).roleTbl :=
  setRole_of_setRole rfl

theorem Updated.chg_addr (h : Updated hw env s id info .chg (ret, info', s')) :
    info'.aInfo.addrCamIdx = info.aInfo.addrCamIdx := by
  have hcam : ∀ {roles : List MacRoleTbl} {ret : MacStatus}, camInfo hw roles id info .chg = (ret, info') →
      info'.aInfo.addrCamIdx = info.aInfo.addrCamIdx := by
    intro roles ret hc
    have := (findAvailBssidCamEntry_same hw roles id info).2
    rw [camInfo] at hc
    rw [hc] at this; exact this
  cases h with
  | noH2c _ _ => rfl
  | full _ hc _ => exact hcam hc
  | unsent _ _ hc _ => exact hcam hc
  | sent hc _ => exact hcam hc

theorem removed_found (h : camInfo hw (changeStart (removeStart s role) ⟨role.id, role.macid, removedInfo s role⟩
      (removedInfo s role)).roleTbl role.id (roleInfoInit (removedInfo s role)) .chg = (.success, info')) :
    ∃ idx bssid, bssidEntry hw (s.roleTbl.filter (·.id ≠ role.id)) (roleInfoInit role.info) = some (idx, bssid) ∧
      idx ≠ hw.bssidNum ∧ info'.aInfo.bssidCamIdx = idx := by
  obtain ⟨idx, bssid, hb, hne, rfl⟩ := findAvailBssidCamEntry_success h
  rw [changeStart_removed_filter, bssidEntry_removed] at hb; exact ⟨idx, bssid, hb, hne, rfl⟩

theorem removeRole_change {r : MacStatus × Adapter} (hs : s.Wf) (hm : role ∈ s.roleTbl)
    (h : Changed hw env (removedInfo s role) (removeStart s role) r) :
    ∃ info', r.2.roleTbl = (s.setRole role.id role.macid info').roleTbl ∧ r.2.pool = s.pool ∧
      info'.aInfo.valid = false ∧ info'.aInfo.addrCamIdx = role.info.aInfo.addrCamIdx ∧
      info'.dbccRole = role.info.dbccRole ∧
      (RemoveStays hw env s role → info'.aInfo.bssidCamIdx = role.info.aInfo.bssidCamIdx) ∧
      (r.1 = .success → (role.info.isMulEnt = true ∨ (macFwRoleMaintain env).passed = true) ∧
        (env.fwRdy = true → env.addrCam = .sent .success) ∧
        BssidFound hw (s.roleTbl.filter (·.id ≠ role.id)) (roleInfoInit role.info)) := by
  obtain ⟨v, hinfo⟩ := removedInfo_eq s role
  have hself := changeInfo_removed s role
  have hid := removeStart_srch hs hm
  have hmac : (removedInfo s role).macid = role.macid := (removedInfo_fit s (hs.fit role hm)).macid
  have hothers := changeStart_removed_filter s role
  cases h with
  | refused hne =>
    refine ⟨removedInfo s role, removeStart_roleTbl s role, rfl, ?_, ?_, ?_, fun _ => ?_, fun h => absurd h hne⟩
    all_goals rw [hinfo]; rfl
  | @stopped role₀ _ hr₀ _ hh =>
    obtain rfl := Option.some.inj (hr₀.symm.trans hid)
    refine ⟨roleInfoInit (removedInfo s role), ?_, rfl, ?_, ?_, ?_, fun _ => ?_, fun h => absurd h hh⟩
    · rw [changeStart, hself, hmac]; exact setRole_of_setRole (removeStart_roleTbl s role)
    all_goals rw [hinfo]; rfl
  | @done role₀ ret info' s' hv hr₀ hband hh hu =>
    obtain rfl := Option.some.inj (hr₀.symm.trans hid)
    rw [hself] at hh hu
    have ht : (s'.setRole role.id (removedInfo s role).macid info').roleTbl =
        (s.setRole role.id role.macid info').roleTbl := by
      rw [hmac]
      exact (setRole_of_setRole hu.frame.1).trans (setRole_of_setRole (removeStart_roleTbl s role))
    have hfw := (changeH2c_remove (by rw [hinfo]; rfl)).1 hh
    rw [show (roleInfoInit (removedInfo s role)).isMulEnt = role.info.isMulEnt by rw [hinfo]; rfl] at hfw
    obtain ⟨haddr, hvd⟩ : info'.aInfo.addrCamIdx = role.info.aInfo.addrCamIdx ∧
        info'.aInfo.valid = false ∧ info'.dbccRole = role.info.dbccRole := by
      constructor
      · rw [hu.chg_addr, hinfo]; rfl
      · have hsame : (roleInfoInit (removedInfo s role)).Same info' := hu.sameInfo
        obtain ⟨_, _, _, _, he⟩ := hsame.eq
        rw [he, hinfo]; exact ⟨rfl, rfl⟩
    have hp : (s'.setRole role.id (removedInfo s role).macid info').pool = s.pool := hu.frame.2.1
    have hstays : ¬ NoH2c env → RemoveStays hw env s role → ∃ e ∈ bssidEntry hw (s.roleTbl.filter (·.id ≠ role.id))
        (roleInfoInit role.info), e.1 ≠ hw.bssidNum ∧ e.1 = role.info.aInfo.bssidCamIdx := by
      rintro hno (h | h | h)
      · exact absurd hfw h
      · exact absurd h hno
      · exact h
    refine ⟨info', ht, hp, hvd.1, haddr, hvd.2, fun hst => ?_, fun hsucc => ?_⟩
    · cases hu with
      | noH2c _ _ =>
        rw [hinfo]; rfl
      | full hno hcam hne =>
        obtain ⟨⟨idx, bssid⟩, he, hidx, -⟩ := hstays hno hst
        rw [Option.mem_def, ← bssidEntry_removed s, ← hothers] at he
        have hc := findAvailBssidCamEntry_some he hidx
        rw [camInfo, hc] at hcam; exact absurd (congrArg Prod.fst hcam).symm hne
      | unsent _ hsent hcam _ =>
        obtain ⟨e, he, -, hidx⟩ := hstays (by simp [NoH2c, hsent]) hst
        obtain ⟨idx, bssid, hb, -, h⟩ := removed_found hcam
        obtain rfl := Option.some.inj (hb.symm.trans he)
        exact h.trans hidx
      | sent hcam hsent =>
        obtain ⟨e, he, -, hidx⟩ := hstays (not_noH2c hsent) hst
        obtain ⟨idx, bssid, hb, -, h⟩ := removed_found hcam
        obtain rfl := Option.some.inj (hb.symm.trans he)
        exact h.trans hidx
    · cases hu with
      | noH2c _ hne => rcases hne with rfl | rfl <;> cases hsucc
      | full _ _ hne => exact absurd hsucc hne
      | unsent _ _ _ hne => exact absurd hsucc hne
      | sent hcam hsent =>
        obtain ⟨idx, bssid, hb, hne, -⟩ := removed_found hcam
        exact ⟨hfw, hsent, _, hb, hne⟩

theorem removeRole_done (hs : s.Wf) (hr : roleSrch s.roleTbl role.macid = some role)
    (hok : (removeRole hw env role.macid s).1 = .success) : RemoveDone hw env s role := by
  have hrem := removeRole_removed hw env role.macid s
  generalize removeRole hw env role.macid s = r at hrem hok
  cases hrem with
  | noRole hn => cases hok
  | failed _ _ hne => exact absurd hok hne
  | dbcc _ _ _ _ hne => exact absurd hok hne
  | @done role₀ role' s' hr₀ hc hf hdbcc =>
    obtain rfl := Option.some.inj (hr₀.symm.trans hr)
    have hchg := changeRole_changed hw env (removedInfo s role₀) (removeStart s role₀)
    rw [hc] at hchg
    obtain ⟨info', ht, -, -, -, hd, -, hsteps⟩ := removeRole_change hs (roleSrch_some hr).1 hchg
    obtain ⟨hfw, hupd, hcam⟩ := hsteps rfl
    refine ⟨hfw, hupd, hcam, fun h => hdbcc ?_⟩
    rw [found_setRole ht hf]; exact hd.trans h

theorem removeRole_stays (hs : s.Inv hw) (hr : roleSrch s.roleTbl role.macid = some role)
    (hst : RemoveStays hw env s role) (hne : (removeRole hw env role.macid s).1 ≠ .success) :
    (removeRole hw env role.macid s).2.Inv hw ∧ Unchanged s (removeRole hw env role.macid s).2 := by
  have hrem := removeRole_removed hw env role.macid s
  have hwf := hrem.wf hs.wf
  have hm := (roleSrch_some hr).1
  obtain ⟨info', ht, hp, hv, haddr, -, hb, -⟩ := removeRole_change hs.wf hm
    (changeRole_changed hw env (removedInfo s role) (removeStart s role))
  generalize removeRole hw env role.macid s = r at hrem hwf hne ⊢
  cases hrem with
  | noRole _ => exact ⟨hs, .refl _, .refl _⟩
  | failed hr₀ hc _ =>
    obtain rfl := Option.some.inj (hr₀.symm.trans hr)
    rw [hc] at ht hp
    exact ⟨hs.setRole hwf hm ht hp (by simp [hv]) haddr (by simp [hv]),
      unchanged_of_setRole hs.wf hm ht hp haddr (hb hst)⟩
  | @dbcc role₀ role' s' hr₀ hc hf _ _ =>
    obtain rfl := Option.some.inj (hr₀.symm.trans hr)
    rw [hc] at ht hp
    obtain rfl := found_setRole ht hf
    have ht' : (s'.setRole role₀.id role₀.macid { info' with dbccRole := false }).roleTbl =
        (s.setRole role₀.id role₀.macid { info' with dbccRole := false }).roleTbl := setRole_of_setRole ht
    exact ⟨hs.setRole hwf hm ht' hp (by simp [hv]) haddr (by simp [hv]),
      unchanged_of_setRole hs.wf hm ht' hp haddr (hb hst)⟩
  | done _ _ _ _ => exact absurd rfl hne

theorem removeRole_success_inv (hs : s.Inv hw) (hr : roleSrch s.roleTbl role.macid = some role)
    (hok : (removeRole hw env role.macid s).1 = .success) : (removeRole hw env role.macid s).2.Inv hw := by
  have hrem := removeRole_removed hw env role.macid s
  obtain ⟨hlist, hids⟩ := hrem.rest hs.wf hr hok
  refine hs.sub (hrem.wf hs.wf) (hids.trans hs.once) fun r h => ?_
  rw [hlist] at h; exact (List.mem_filter.1 h).1

theorem removeRole_noRole (hr : roleSrch s.roleTbl macid = none) : removeRole hw env macid s = (.noRole, s) := by
  unfold removeRole
  simp only [hr]

theorem removeRole_spec (hs : s.Inv hw) (hok : RemoveOk hw env macid s) : (removeRole hw env macid s).2.Inv hw ∧
      ((removeRole hw env macid s).1 ≠ .success → Unchanged s (removeRole hw env macid s).2) := by
  rcases hr : roleSrch s.roleTbl macid with _ | role
  · rw [removeRole_noRole hr]; exact ⟨hs, fun _ => ⟨rfl, .refl _⟩⟩
  · obtain ⟨hm, rfl⟩ := roleSrch_some hr
    by_cases hsucc : (removeRole hw env role.macid s).1 = .success
    · exact ⟨removeRole_success_inv hs hr hsucc, fun h => absurd hsucc h⟩
    · rcases hok role hr with ⟨hfw, hupd, hcam, hdbcc⟩ | hst
      · exact absurd (removeRole_success hs.wf hm hfw hupd hcam hdbcc) hsucc
      · obtain ⟨hinv, hun⟩ := removeRole_stays hs hr hst hsucc; exact ⟨hinv, fun _ => hun⟩

theorem Unchanged.trans {a b c : Adapter} (h : Unchanged a b) (h' : Unchanged b c) : Unchanged a c :=
  ⟨h'.roles.trans h.roles, h'.pool.trans h.pool⟩

theorem removeRolesOf_spec {band : ℕ} {sw : Bool} (s₀ : Adapter) (roles : List MacRoleTbl) :
    ∀ (first : Bool) {env : ℕ → RoleEnv} {s : Adapter}, s.Inv hw →
      (sw = false → BandOk hw band roles first env s) → (first = true → Unchanged s₀ s) →
      (removeRolesOf hw band sw roles env s).2.Inv hw ∧ ((removeRolesOf hw band sw roles env s).1 ≠ .success →
        first = true ∧ Unchanged s₀ (removeRolesOf hw band sw roles env s).2) := by
  induction roles with
  | nil => exact fun _ _ _ hs _ _ => ⟨hs, fun h => absurd rfl h⟩
  | cons curr rest ih =>
    intro first env s hs hok h₀
    rw [removeRolesOf]
    by_cases hb : band = curr.info.band
    · rw [if_pos hb]
      -- behind a removal that succeeds
      have hrest : ∀ {s' : Adapter}, s'.Inv hw → (sw = false → BandOk hw band rest false (fun k => env (k + 1)) s') →
          (removeRolesOf hw band sw rest (fun k => env (k + 1)) s').2.Inv hw ∧
            ((removeRolesOf hw band sw rest (fun k => env (k + 1)) s').1 ≠ .success →
              first = true ∧ Unchanged s₀ (removeRolesOf hw band sw rest (fun k => env (k + 1)) s').2) := by
        intro s' hs' hok'
        obtain ⟨hinv, hret⟩ := ih false hs' hok' fun h => (nomatch h)
        exact ⟨hinv, fun h => (nomatch (hret h).1)⟩
      cases sw with
      | true =>
        rcases hr : roleSrch s.roleTbl curr.macid with _ | role
        · simp only [if_true, removeRoleSoft, hr]; exact hrest hs fun h => (nomatch h)
        · simp only [if_true, removeRoleSoft, hr]
          exact hrest (hs.roleReturn (roleSrch_some hr).1) fun h => (nomatch h)
      | false =>
        have hok' := hok rfl
        rw [BandOk, if_pos hb] at hok'
        simp only [Bool.false_eq_true, if_false]
        rcases hok' with ⟨hdone, hrest'⟩ | ⟨⟨hfirst, role, hr, hnd, hst⟩, hrest'⟩
        · rcases hr : roleSrch s.roleTbl curr.macid with _ | role
          · rw [removeRole_noRole hr] at hrest' ⊢; exact hrest hs fun _ => hrest'
          · obtain ⟨hm, he⟩ := roleSrch_some hr
            obtain ⟨hfw, hupd, hcam, hdbcc⟩ := hdone role hr
            have hsucc := removeRole_success hs.wf hm hfw hupd hcam hdbcc
            rw [he] at hsucc
            have hinv : (removeRole hw (env 0) role.macid s).2.Inv hw :=
              removeRole_success_inv hs (he ▸ hr) (he ▸ hsucc)
            rw [he] at hinv
            generalize removeRole hw (env 0) curr.macid s = r at hsucc hinv hrest' ⊢
            obtain ⟨ret, s'⟩ := r
            obtain rfl := hsucc
            exact hrest hinv fun _ => hrest'
        · obtain ⟨hm, he⟩ := roleSrch_some hr
          rw [← he] at hr hrest' ⊢
          have hne : (removeRole hw (env 0) role.macid s).1 ≠ .success := fun h => hnd (removeRole_done hs.wf hr h)
          obtain ⟨hinv, hun⟩ := removeRole_stays hs hr hst hne
          have hun' := (h₀ hfirst).trans hun
          generalize removeRole hw (env 0) role.macid s = r at hinv hun' hne hrest' ⊢
          obtain ⟨ret, s'⟩ := r
          by_cases hno : ret = .noRole
          · subst hno
            obtain ⟨hinv', hret⟩ := ih true hinv (fun _ => hrest' rfl) fun _ => hun'
            exact ⟨hinv', fun h => ⟨hfirst, (hret h).2⟩⟩
          · have : ret ≠ .success := hne
            cases ret <;> first | exact absurd rfl this | exact absurd rfl hno | exact ⟨hinv, fun _ => ⟨hfirst, hun'⟩⟩
    · rw [if_neg hb]
      refine ih first hs (fun h => ?_) h₀
      have hok' := hok h
      rwa [BandOk, if_neg hb] at hok'

/-! ### A run -/

theorem call_spec {c : RoleCall} (hs : s.Inv hw) (hok : CallOk hw s c) :
    (s.call hw c).2.Inv hw ∧ ((s.call hw c).1 ≠ .success → Unchanged s (s.call hw c).2) := by
  cases c with
  | add info env => exact addRole_spec hs hok
  | change info env => exact changeRole_spec hs hok
  | remove macid env => exact removeRole_spec hs hok
  | removeByBand band sw env =>
    obtain ⟨hinv, hret⟩ := removeRolesOf_spec s s.roleTbl true hs hok fun _ => ⟨rfl, .refl _⟩
    exact ⟨hinv, fun hne => (hret hne).2⟩

theorem roleTblInit_inv (hw : HwInfo) : (roleTblInit hw).Inv hw := by
  have hids : (roleTblInit hw).ids = List.range hw.macidNum := by
    show List.map (·.id) ((List.range hw.macidNum).map fun i => (⟨i, 0, .zero⟩ : MacRoleTbl)) = _
    rw [List.map_map]; exact List.map_id _
  refine ⟨⟨?_, List.nodup_nil, ?_, ?_, ?_⟩, ⟨?_, List.nodup_nil, ?_⟩⟩
  · rw [hids]
  · exact fun _ h => (nomatch h)
  · exact fun _ h => (nomatch h)
  · exact fun _ h => (nomatch h)
  · rw [hids]; exact List.nodup_range
  · exact fun _ h => (nomatch h)

/-- A new role, with the BSSID `bssid` and both its addresses. -/
def newRole (selfRole : SelfRole) (netType : NetType) (macid : UInt8) (bssid : Mac) : RoleInfo :=
  { RoleInfo.zero with
    selfRole, netType, macid, bssid
    opmode := .disconn
    selfMac := bssid
    targetMac := bssid }

/-- The BSSID with the last byte `b`. -/
def bss (b : UInt8) : Mac := fun i => if i.val = 5 then b else 0

/-- Two stations of a BSS, one that goes over to another; both are removed, the first one not at once. -/
def twoStations : List RoleCall :=
  [.add (newRole .client .infra 1 (bss 1)) goodEnv, .add (newRole .client .infra 2 (bss 1)) goodEnv,
    .change { newRole .client .infra 2 (bss 2) with updMode := .infoChange } goodEnv,
    .remove 1 { goodEnv with addrCam := .noMem }, .remove 1 goodEnv, .removeByBand 0 false fun _ => goodEnv]

end Rtl8852cu.Role
