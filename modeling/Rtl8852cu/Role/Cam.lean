import Rtl8852cu.Role.Calls

/-!
# The search for CAM entries

A search looks at the valid roles other than its own.

* `findAvailAddrCamEntry_spec`: the entry found is one that no valid role has;
* `findAvailBssidCamEntry_eq`: what becomes of the role's information.
-/

namespace Rtl8852cu.Role

variable {hw : HwInfo} {roles roles' : List MacRoleTbl} {info info' : RoleInfo} {id : ℕ}

/-! ### The address CAM -/

def MacRoleTbl.HasAddr (r : MacRoleTbl) (i : ℕ) : Prop := i = r.info.aInfo.addrCamIdx ∧ r.info.aInfo.valid = true

theorem macRoleSrchByAddrCam_none {i : ℕ} : macRoleSrchByAddrCam roles i = none ↔ ∀ r ∈ roles, ¬ r.HasAddr i := by
  simp only [macRoleSrchByAddrCam, List.find?_eq_none, Bool.and_eq_true, decide_eq_true_eq, MacRoleTbl.HasAddr]

theorem findAvailAddrCamEntry_spec (h : findAvailAddrCamEntry hw roles info = (.success, info')) :
    ∃ i < hw.macidNum, (∀ r ∈ roles, ¬ r.HasAddr i) ∧
      info' = { info with aInfo := { info.aInfo with addrCamIdx := i } } := by
  unfold findAvailAddrCamEntry at h
  split at h
  · cases h
  · next i hi =>
    cases h
    have hn := List.find?_some hi
    rw [Option.isNone_iff_eq_none, macRoleSrchByAddrCam_none] at hn
    exact ⟨i, List.mem_range.1 (List.mem_of_find?_eq_some hi), hn, rfl⟩

/-! ### The BSSID CAM -/

/-- The entry for `info`, among the roles given. -/
def bssidEntry (hw : HwInfo) (roles : List MacRoleTbl) (info : RoleInfo) : Option (ℕ × Mac) :=
  bssidCamLoop roles info (List.range hw.bssidNum) none

theorem bssidCamLoop_congr (is : List ℕ) (h : ∀ i ∈ is, macRoleSrchByBssid roles i = macRoleSrchByBssid roles' i) :
    ∀ free, bssidCamLoop roles info is free = bssidCamLoop roles' info is free := by
  induction is with
  | nil => exact fun _ => rfl
  | cons i is ih =>
    intro free
    have ih' := ih fun j hj => h j (List.mem_cons_of_mem _ hj)
    rw [bssidCamLoop, bssidCamLoop, h i List.mem_cons_self]
    rcases macRoleSrchByBssid roles' i with _ | r
    · exact ih' _
    · simp only [ih']

theorem macRoleSrchByBssid_other {i : ℕ} (hi : i ≠ info.bInfo.bssidCamIdx) :
    macRoleSrchByBssid (roles.map fun r => if r.id = id then { r with info } else r) i =
      macRoleSrchByBssid (roles.filter (·.id ≠ id)) i := by
  unfold macRoleSrchByBssid
  induction roles with
  | nil => rfl
  | cons r rs ih =>
    rw [List.map_cons]
    by_cases hr : r.id = id
    · rw [if_pos hr, List.find?_cons_of_neg (by simp [hi]), ih, List.filter_cons_of_neg (by simp [hr])]
    · rw [if_neg hr, List.filter_cons_of_pos (by simp [hr]), List.find?_cons, List.find?_cons, ih]

theorem bssidCamLoop_info (hb : info'.bssid = info.bssid) (hbb : info'.bInfo.bssid = info.bInfo.bssid)
    (hband : info'.band = info.band) (hlen : maddrCmpLen info'.aInfo = maddrCmpLen info.aInfo) (is : List ℕ) :
    ∀ free, bssidCamLoop roles info' is free = bssidCamLoop roles info is free := by
  induction is with
  | nil =>
    intro free
    rw [bssidCamLoop, bssidCamLoop, hbb]
  | cons i is ih =>
    intro free
    simp only [bssidCamLoop, hb, hbb, hband, hlen, ih]

/-- The information of a role with a BSSID entry. -/
def RoleInfo.withBssid (info : RoleInfo) (idx : ℕ) (bssid : Mac) : RoleInfo :=
  { info with
    aInfo := { info.aInfo with bssidCamIdx := idx }
    bInfo := { info.bInfo with bssidCamIdx := idx, bssid } }

theorem findAvailBssidCamEntry_entry (hw : HwInfo) (roles : List MacRoleTbl) (id : ℕ) (info : RoleInfo) :
    bssidCamLoop (roles.map fun r => if r.id = id then { r with info := info.setBssidCamIdx hw.bssidNum } else r)
      (info.setBssidCamIdx hw.bssidNum) (List.range hw.bssidNum) none =
    bssidEntry hw (roles.filter (·.id ≠ id)) info := by
  have hinfo : bssidEntry hw (roles.filter (·.id ≠ id)) (info.setBssidCamIdx hw.bssidNum) =
      bssidEntry hw (roles.filter (·.id ≠ id)) info := by
    unfold bssidEntry; exact bssidCamLoop_info (by rfl) (by rfl) (by rfl) (by rfl) _ _
  rw [← hinfo]
  refine bssidCamLoop_congr _ (fun i hi => ?_) none
  refine macRoleSrchByBssid_other ?_
  show i ≠ hw.bssidNum
  have := List.mem_range.1 hi
  omega

theorem findAvailBssidCamEntry_some {idx : ℕ} {bssid : Mac}
    (h : bssidEntry hw (roles.filter (·.id ≠ id)) info = some (idx, bssid)) (hne : idx ≠ hw.bssidNum) :
    findAvailBssidCamEntry hw roles id info = (.success, info.withBssid idx bssid) := by
  have he := findAvailBssidCamEntry_entry hw roles id info
  rw [h] at he
  simp only [findAvailBssidCamEntry, he, if_neg hne]; rfl

theorem findAvailBssidCamEntry_none
    (h : ∀ idx bssid, bssidEntry hw (roles.filter (·.id ≠ id)) info = some (idx, bssid) → idx = hw.bssidNum) :
    (findAvailBssidCamEntry hw roles id info).1 = .bssidCamFl ∧
      (findAvailBssidCamEntry hw roles id info).2.aInfo.bssidCamIdx = hw.bssidNum := by
  have he := findAvailBssidCamEntry_entry hw roles id info
  rcases hb : bssidEntry hw (roles.filter (·.id ≠ id)) info with _ | ⟨idx, bssid⟩
  · rw [hb] at he
    simp only [findAvailBssidCamEntry, he]; exact ⟨trivial, rfl⟩
  · rw [hb] at he
    simp only [findAvailBssidCamEntry, he, if_pos (h idx bssid hb)]; exact ⟨trivial, h idx bssid hb⟩

theorem findAvailBssidCamEntry_success (h : findAvailBssidCamEntry hw roles id info = (.success, info')) :
    ∃ idx bssid, bssidEntry hw (roles.filter (·.id ≠ id)) info = some (idx, bssid) ∧ idx ≠ hw.bssidNum ∧
      info' = info.withBssid idx bssid := by
  by_cases hn : ∃ idx bssid, bssidEntry hw (roles.filter (·.id ≠ id)) info = some (idx, bssid) ∧ idx ≠ hw.bssidNum
  · obtain ⟨idx, bssid, hb, hne⟩ := hn
    rw [findAvailBssidCamEntry_some hb hne] at h
    exact ⟨idx, bssid, hb, hne, (congrArg Prod.snd h).symm⟩
  · have hfl := (findAvailBssidCamEntry_none
      fun idx bssid hb => by_contra fun hne => hn ⟨idx, bssid, hb, hne⟩).1
    rw [h] at hfl; cases hfl

/-! ### Both -/

theorem camInfo_err {op : RoleOp} {ret : MacStatus} (h : camInfo hw roles id info op = (ret, info'))
    (hne : ret ≠ .success) : ret = .addrCamFl ∨ ret = .bssidCamFl := by
  have hb : ∀ {info'' : RoleInfo}, findAvailBssidCamEntry hw roles id info'' = (ret, info') → ret = .bssidCamFl := by
    intro info'' h
    by_cases hn : ∃ idx bssid, bssidEntry hw (roles.filter (·.id ≠ id)) info'' = some (idx, bssid) ∧ idx ≠ hw.bssidNum
    · obtain ⟨idx, bssid, hb, hne'⟩ := hn
      rw [findAvailBssidCamEntry_some hb hne'] at h; exact absurd (congrArg Prod.fst h).symm hne
    · have hfl := (findAvailBssidCamEntry_none
        fun idx bssid hb => by_contra fun hne' => hn ⟨idx, bssid, hb, hne'⟩).1
      rw [h] at hfl; exact hfl
  cases op with
  | chg => exact .inr (hb h)
  | add =>
    rcases ha : findAvailAddrCamEntry hw roles info with ⟨ret', info''⟩
    have hret : ret' = .success ∨ ret' = .addrCamFl := by
      unfold findAvailAddrCamEntry at ha
      split at ha
      · exact .inr (congrArg Prod.fst ha).symm
      · exact .inl (congrArg Prod.fst ha).symm
    rcases hret with rfl | rfl
    · simp only [camInfo, ha] at h; exact .inr (hb h)
    · simp only [camInfo, ha] at h; exact .inl (congrArg Prod.fst h).symm

theorem camInfo_add (h : camInfo hw roles id info .add = (.success, info')) :
    ∃ i idx bssid, i < hw.macidNum ∧ (∀ r ∈ roles, ¬ r.HasAddr i) ∧
      bssidEntry hw (roles.filter (·.id ≠ id)) info = some (idx, bssid) ∧ idx ≠ hw.bssidNum ∧
      info' = RoleInfo.withBssid { info with aInfo := { info.aInfo with addrCamIdx := i } } idx bssid := by
  rcases ha : findAvailAddrCamEntry hw roles info with ⟨ret, info''⟩
  by_cases hr : ret = .success
  · subst hr
    obtain ⟨i, hi, hfree, rfl⟩ := findAvailAddrCamEntry_spec ha
    simp only [camInfo, ha] at h
    obtain ⟨idx, bssid, hb, hne, rfl⟩ := findAvailBssidCamEntry_success h
    refine ⟨i, idx, bssid, hi, hfree, ?_, hne, rfl⟩
    rw [← hb]
    unfold bssidEntry; exact bssidCamLoop_info (by rfl) (by rfl) (by rfl) (by rfl) _ _
  · have hc : camInfo hw roles id info .add = (ret, info'') := by
      simp only [camInfo, ha]; cases ret <;> first | exact absurd rfl hr | rfl
    rw [hc] at h; exact absurd (congrArg Prod.fst h) hr

end Rtl8852cu.Role
