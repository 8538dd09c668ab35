import Rtl8852cu.Role.Distinct

/-!
# The keys of the roles

`phl/hal_g6/mac/mac_ax/security_cam.c`: a key has an entry of the security CAM, in the table `sec_cam_table`, and a slot
of the address CAM entry of its role.  It is added and deleted by two commands to the firmware, one for each CAM.
-/

namespace Rtl8852cu.Role

/-- The codes of the calls for a key; `upd` is what a command returns. -/
inductive KeyStatus where
  | success | wngKeyType | noRole | secCamFl | addrCamKeyFl | keyNotExt | bssidCamFl
  | upd (ret : MacStatus)
  deriving DecidableEq

/-! ### Slots and entries -/

/-- `check_key_index`: the slot is one for a key of the type. -/
def checkKeyIndex (mode keyType keyIndex : ℕ) : Bool :=
  match mode with
  | 0 | 1 => keyType = 0 && keyIndex ≤ 6
  | 2 =>
    match keyType with
    | 0 => keyIndex ≤ 1
    | 1 => 2 ≤ keyIndex && keyIndex ≤ 4
    | 2 => 5 ≤ keyIndex && keyIndex ≤ 6
    | _ => false
  | 3 =>
    match keyType with
    | 0 => keyIndex ≤ 1
    | 1 => 2 ≤ keyIndex && keyIndex ≤ 5
    | 2 => keyIndex = 6
    | _ => false
  | _ => false

/-- `decide_key_index`: the first slot for a key of the type, or none (`MACWNGKEYTYPE`). -/
def decideKeyIndex (mode keyType : ℕ) : Option ℕ :=
  match mode with
  | 0 | 1 => if keyType = 1 ∨ keyType = 2 then none else some 0
  | 2 => some (if keyType = 1 then 2 else if keyType = 2 then 5 else 0)
  | 3 => some (if keyType = 1 then 2 else if keyType = 2 then 6 else 0)
  | _ => some 0

/-- The search for an entry that is not valid, in `n` steps from `idx` on. -/
def freeSecCam (t : SecCamTable) : ℕ → ℕ → Option ℕ
  | 0, _ => none
  | n + 1, idx => if (t.entry idx).valid = false then some idx else freeSecCam t n ((idx + 1) % secCamEntryNum)

/-- `decide_sec_cam_index`, for a table that is there. -/
def decideSecCamIndex (t : SecCamTable) : Option (ℕ × SecCamTable) :=
  (freeSecCam t secCamEntryNum t.nextCamStorageIdx).map fun idx =>
    (idx, { t with nextCamStorageIdx := (idx + 1) % secCamEntryNum })

/-! ### The two commands -/

def macUpdSecInfotbl (env : RoleEnv) : H2c → MacStatus
  | .noMem => .nptr
  | .noBuf => .noBuf
  | .sent ret => if env.fwRdy then ret else .success

def RoleInfo.setSecEnt (info : RoleInfo) (k : Fin 7) (e : SecEnt) : RoleInfo :=
  { info with aInfo := { info.aInfo with secEnt := Function.update info.aInfo.secEnt k e } }

/-- A slot is written, and the entry of the address CAM; only a full BSSID CAM counts. -/
def updSecEnt (hw : HwInfo) (env : RoleEnv) (role : MacRoleTbl) (k : Fin 7) (e : SecEnt) (s : Adapter) :
    KeyStatus × Adapter :=
  let info := role.info.setSecEnt k e
  let (ret, info, s) := macUpdAddrCam hw env (s.setRole role.id role.macid info) role.id info .chg
  (if ret = .bssidCamFl then .bssidCamFl else .success, s.setRole role.id role.macid info)

def insertKeyToAddrCam (hw : HwInfo) (env : RoleEnv) (role : MacRoleTbl) (keyType : ℕ) (keyId : UInt8)
    (secCamIdx : ℕ) (s : Adapter) : KeyStatus × Adapter :=
  match decideKeyIndex role.info.aInfo.secEntMode keyType with
  | none => (.wngKeyType, s)
  | some first =>
    match (List.finRange 7).find? fun k => first ≤ k.val && !(role.info.aInfo.secEnt k).valid with
    | none => (.addrCamKeyFl, s)
    | some k =>
      if checkKeyIndex role.info.aInfo.secEntMode keyType k then
        updSecEnt hw env role k ⟨true, keyId, secCamIdx⟩ s
      else (.addrCamKeyFl, s)

/-- `delete_key_from_addr_cam`, which returns the entry of the security CAM too. -/
def deleteKeyFromAddrCam (hw : HwInfo) (env : RoleEnv) (role : MacRoleTbl) (keyType : ℕ) (keyId : UInt8)
    (s : Adapter) : KeyStatus × ℕ × Adapter :=
  match decideKeyIndex role.info.aInfo.secEntMode keyType with
  | none => (.wngKeyType, 0, s)
  | some first =>
    match (List.finRange 7).find? fun k =>
        first ≤ k.val && (role.info.aInfo.secEnt k).keyid = keyId && (role.info.aInfo.secEnt k).valid with
    | none => (.keyNotExt, 0, s)
    | some k =>
      if checkKeyIndex role.info.aInfo.secEntMode keyType k then
        let (ret, s) := updSecEnt hw env role k .none s
        (ret, (role.info.aInfo.secEnt k).ent, s)
      else (.addrCamKeyFl, 0, s)

/-! ### The calls -/

def hwSupportEncTypeNum : ℕ := 0x0A

/-- `mac_sta_add_key`, for a key of the cipher `type`; `sec` is what becomes of the second command. -/
def macStaAddKey (hw : HwInfo) (env : RoleEnv) (sec : H2c) (type : ℕ) (macId keyId : UInt8) (keyType : ℕ)
    (s : Adapter) : KeyStatus × Adapter :=
  if type > hwSupportEncTypeNum then (.wngKeyType, s)
  else
    match roleSrch s.roleTbl macId with
    | none => (.noRole, s)
    | some role =>
      match decideSecCamIndex s.secCam with
      | none => (.secCamFl, s)
      | some (idx, secCam) =>
        match insertKeyToAddrCam hw env role keyType keyId idx { s with secCam } with
        | (.success, s) =>
          if macUpdSecInfotbl env sec ≠ .success then (.upd (macUpdSecInfotbl env sec), s)
          else (.success, { s with secCam := mSecurityCamHal s.secCam macId keyId keyType idx false })
        | r => r

def macStaDelKey (hw : HwInfo) (env : RoleEnv) (sec : H2c) (macId keyId : UInt8) (keyType : ℕ) (s : Adapter) :
    KeyStatus × Adapter :=
  match roleSrch s.roleTbl macId with
  | none => (.noRole, s)
  | some role =>
    match deleteKeyFromAddrCam hw env role keyType keyId s with
    | (.success, idx, s) =>
      if macUpdSecInfotbl env sec ≠ .success then (.upd (macUpdSecInfotbl env sec), s)
      else (.success, { s with secCam := mSecurityCamHal s.secCam macId keyId keyType idx true })
    | (ret, _, s) => (ret, s)

/-! ### The slot of a key -/

variable {hw : HwInfo} {env : RoleEnv} {s : Adapter} {role : MacRoleTbl} {sec : H2c}

/-- The slot that a key is inserted into. -/
def insertSlot (info : RoleInfo) (keyType : ℕ) : Option (Fin 7) :=
  (decideKeyIndex info.aInfo.secEntMode keyType).bind fun first =>
    ((List.finRange 7).find? fun k => first ≤ k.val && !(info.aInfo.secEnt k).valid).filter
      (checkKeyIndex info.aInfo.secEntMode keyType ·)

/-- The slot that a key is deleted from. -/
def deleteSlot (info : RoleInfo) (keyType : ℕ) (keyId : UInt8) : Option (Fin 7) :=
  (decideKeyIndex info.aInfo.secEntMode keyType).bind fun first =>
    ((List.finRange 7).find? fun k =>
        first ≤ k.val && (info.aInfo.secEnt k).keyid = keyId && (info.aInfo.secEnt k).valid).filter
      (checkKeyIndex info.aInfo.secEntMode keyType ·)

variable {keyType : ℕ} {keyId : UInt8}

theorem insertKeyToAddrCam_none {idx : ℕ} (h : insertSlot role.info keyType = none) :
    ∃ ret, ret ≠ .success ∧ insertKeyToAddrCam hw env role keyType keyId idx s = (ret, s) := by
  unfold insertKeyToAddrCam
  unfold insertSlot at h
  rcases hd : decideKeyIndex role.info.aInfo.secEntMode keyType with _ | first
  · exact ⟨.wngKeyType, by simp, rfl⟩
  · rw [hd, Option.bind_some] at h
    rcases hf : (List.finRange 7).find? fun k => first ≤ k.val && !(role.info.aInfo.secEnt k).valid with _ | k
    · exact ⟨.addrCamKeyFl, by simp, by simp only [hf]⟩
    · rw [hf, Option.filter_some] at h
      split at h
      · cases h
      · next hc => exact ⟨.addrCamKeyFl, by simp, by simp only [hf, if_neg hc]⟩

variable {k : Fin 7}

theorem insertSlot_some {info : RoleInfo} (h : insertSlot info keyType = some k) :
    (info.aInfo.secEnt k).valid = false ∧ checkKeyIndex info.aInfo.secEntMode keyType k = true := by
  obtain ⟨first, -, h⟩ := Option.bind_eq_some_iff.1 h
  obtain ⟨hf, hc⟩ := Option.filter_eq_some_iff.1 h
  have hp := List.find?_some hf
  simp only [Bool.and_eq_true, Bool.not_eq_true'] at hp; exact ⟨hp.2, hc⟩

theorem insertKeyToAddrCam_some {idx : ℕ} (h : insertSlot role.info keyType = some k) :
    insertKeyToAddrCam hw env role keyType keyId idx s = updSecEnt hw env role k ⟨true, keyId, idx⟩ s := by
  obtain ⟨first, hd, h⟩ := Option.bind_eq_some_iff.1 h
  obtain ⟨hf, hc⟩ := Option.filter_eq_some_iff.1 h
  simp only [insertKeyToAddrCam, hd, hf]
  rw [if_pos hc]

theorem deleteSlot_some {info : RoleInfo} (h : deleteSlot info keyType keyId = some k) :
    (info.aInfo.secEnt k).valid = true ∧ (info.aInfo.secEnt k).keyid = keyId := by
  obtain ⟨first, -, h⟩ := Option.bind_eq_some_iff.1 h
  obtain ⟨hf, -⟩ := Option.filter_eq_some_iff.1 h
  have hp := List.find?_some hf
  simp only [Bool.and_eq_true, decide_eq_true_eq] at hp; exact ⟨hp.2, hp.1.2⟩

theorem deleteKeyFromAddrCam_none (h : deleteSlot role.info keyType keyId = none) :
    ∃ ret idx, ret ≠ .success ∧ deleteKeyFromAddrCam hw env role keyType keyId s = (ret, idx, s) := by
  unfold deleteKeyFromAddrCam
  unfold deleteSlot at h
  rcases hd : decideKeyIndex role.info.aInfo.secEntMode keyType with _ | first
  · exact ⟨.wngKeyType, 0, by simp, rfl⟩
  · rw [hd, Option.bind_some] at h
    rcases hf : (List.finRange 7).find? fun k => first ≤ k.val && (role.info.aInfo.secEnt k).keyid = keyId &&
        (role.info.aInfo.secEnt k).valid with _ | k
    · exact ⟨.keyNotExt, 0, by simp, by simp only [hf]⟩
    · rw [hf, Option.filter_some] at h
      split at h
      · cases h
      · next hc => exact ⟨.addrCamKeyFl, 0, by simp, by simp only [hf, if_neg hc]⟩

theorem deleteKeyFromAddrCam_some (h : deleteSlot role.info keyType keyId = some k) :
    deleteKeyFromAddrCam hw env role keyType keyId s = ((updSecEnt hw env role k .none s).1,
      (role.info.aInfo.secEnt k).ent, (updSecEnt hw env role k .none s).2) := by
  obtain ⟨first, hd, h⟩ := Option.bind_eq_some_iff.1 h
  obtain ⟨hf, hc⟩ := Option.filter_eq_some_iff.1 h
  simp only [deleteKeyFromAddrCam, hd, hf]
  rw [if_pos hc]

/-! ### A slot is written -/

/-- The update of the address CAM does not find the BSSID CAM full: there is no buffer, or an entry, and the code is
not returned for another reason. -/
def BssidKept (hw : HwInfo) (env : RoleEnv) (s : Adapter) (role : MacRoleTbl) : Prop :=
  ¬ NoH2c env → BssidFound hw (s.roleTbl.filter (·.id ≠ role.id)) role.info ∧
    (env.fwRdy = true → env.addrCam ≠ .sent .bssidCamFl)

instance : Decidable (BssidKept hw env s role) := by unfold BssidKept; infer_instance

theorem updSecEnt_spec (hw : HwInfo) (env : RoleEnv) (role : MacRoleTbl) (k : Fin 7) (e : SecEnt) (s : Adapter) :
    ∃ info', (updSecEnt hw env role k e s).2.roleTbl = (s.setRole role.id role.macid info').roleTbl ∧
      (updSecEnt hw env role k e s).2.pool = s.pool ∧ (updSecEnt hw env role k e s).2.secCam = s.secCam ∧
      (role.info.setSecEnt k e).Same info' ∧
      (BssidKept hw env s role → (updSecEnt hw env role k e s).1 = .success) := by
  have hu := macUpdAddrCam_updated hw env (s.setRole role.id role.macid (role.info.setSecEnt k e)) role.id
    (role.info.setSecEnt k e) .chg
  rcases hm : macUpdAddrCam hw env (s.setRole role.id role.macid (role.info.setSecEnt k e)) role.id
    (role.info.setSecEnt k e) .chg with ⟨ret, info', s'⟩
  have hupd : updSecEnt hw env role k e s = (if ret = .bssidCamFl then .bssidCamFl else .success,
      s'.setRole role.id role.macid info') := by simp only [updSecEnt, hm]
  rw [hm] at hu
  rw [hupd]
  obtain ⟨ht, hp, hc⟩ := hu.frame
  refine ⟨info', setRole_of_setRole ht, hp, hc, hu.sameInfo, fun hk => if_neg ?_⟩
  cases hu with
  | noH2c _ hr => rcases hr with rfl | rfl <;> simp
  | full hno hcam _ =>
    obtain ⟨⟨idx, bssid⟩, hb, hne⟩ := (hk hno).1
    have hinfo : bssidEntry hw (s.roleTbl.filter (·.id ≠ role.id)) (role.info.setSecEnt k e) = some (idx, bssid) := by
      rw [← hb]
      unfold bssidEntry; exact bssidCamLoop_info (by rfl) (by rfl) (by rfl) (by rfl) _ _
    have hoth : (s.setRole role.id role.macid (role.info.setSecEnt k e)).roleTbl.filter (·.id ≠ role.id) =
        s.roleTbl.filter (·.id ≠ role.id) := setRole_filter
    rw [← hoth] at hinfo
    rw [camInfo, findAvailBssidCamEntry_some hinfo hne] at hcam
    obtain rfl : MacStatus.success = ret := congrArg Prod.fst hcam
    simp
  | unsent hr hsent _ _ =>
    intro he
    subst he; exact (hk (by simp [NoH2c, hsent])).2 hr hsent
  | sent _ _ => simp

/-! ### How the calls end -/

/-- How `mac_sta_add_key` ends. -/
inductive KeyAdded (hw : HwInfo) (env : RoleEnv) (sec : H2c) (type : ℕ) (macId keyId : UInt8) (keyType : ℕ)
    (s : Adapter) : KeyStatus × Adapter → Prop
  | refused {ret : KeyStatus} : ret ≠ .success →
      (type > hwSupportEncTypeNum ∨ roleSrch s.roleTbl macId = none ∨ decideSecCamIndex s.secCam = none) →
      KeyAdded hw env sec type macId keyId keyType s (ret, s)
  /-- There is no slot, but the next search starts elsewhere. -/
  | noSlot {role : MacRoleTbl} {idx : ℕ} {secCam : SecCamTable} {ret : KeyStatus} : ret ≠ .success →
      type ≤ hwSupportEncTypeNum → roleSrch s.roleTbl macId = some role →
      decideSecCamIndex s.secCam = some (idx, secCam) → insertSlot role.info keyType = none →
      KeyAdded hw env sec type macId keyId keyType s (ret, { s with secCam })
  /-- The slot is written, and the entry is not. -/
  | torn {role : MacRoleTbl} {idx : ℕ} {secCam : SecCamTable} {k : Fin 7} {ret : KeyStatus} {s' : Adapter} :
      ret ≠ .success → type ≤ hwSupportEncTypeNum → roleSrch s.roleTbl macId = some role →
      decideSecCamIndex s.secCam = some (idx, secCam) → insertSlot role.info keyType = some k →
      ((updSecEnt hw env role k ⟨true, keyId, idx⟩ { s with secCam }).1 = .success →
        macUpdSecInfotbl env sec ≠ .success) →
      KeyAdded hw env sec type macId keyId keyType s (ret, s')
  | done {role : MacRoleTbl} {idx : ℕ} {secCam : SecCamTable} {k : Fin 7} {s' : Adapter} :
      type ≤ hwSupportEncTypeNum → roleSrch s.roleTbl macId = some role →
      decideSecCamIndex s.secCam = some (idx, secCam) → insertSlot role.info keyType = some k →
      (updSecEnt hw env role k ⟨true, keyId, idx⟩ { s with secCam }).2 = s' →
      KeyAdded hw env sec type macId keyId keyType s
        (.success, { s' with secCam := mSecurityCamHal s'.secCam macId keyId keyType idx false })

theorem macStaAddKey_added (hw : HwInfo) (env : RoleEnv) (sec : H2c) (type : ℕ) (macId keyId : UInt8)
    (keyType : ℕ) (s : Adapter) :
    KeyAdded hw env sec type macId keyId keyType s (macStaAddKey hw env sec type macId keyId keyType s) := by
  unfold macStaAddKey
  split
  · next ht => exact .refused (by simp) (.inl ht)
  · next ht =>
    have ht' : type ≤ hwSupportEncTypeNum := Nat.le_of_not_gt ht
    split
    · next hr => exact .refused (by simp) (.inr (.inl hr))
    · next role hr =>
      split
      · next hd => exact .refused (by simp) (.inr (.inr hd))
      · next idx secCam hd =>
        rcases hi : insertSlot role.info keyType with _ | k
        · obtain ⟨ret, hne, he⟩ := insertKeyToAddrCam_none hi
          rw [he]
          have hno : KeyAdded hw env sec type macId keyId keyType s (ret, { s with secCam }) :=
            .noSlot hne ht' hr hd hi
          cases ret <;> first | exact absurd rfl hne | exact hno
        · rw [insertKeyToAddrCam_some hi]
          rcases hu : updSecEnt hw env role k ⟨true, keyId, idx⟩ { s with secCam } with ⟨ret, s'⟩
          by_cases hret : ret = .success
          · subst hret
            simp only
            split
            · next hsec => exact .torn (by simp) ht' hr hd hi fun _ => hsec
            · exact .done ht' hr hd hi (congrArg Prod.snd hu)
          · have htorn : KeyAdded hw env sec type macId keyId keyType s (ret, s') :=
              .torn hret ht' hr hd hi fun h => absurd ((congrArg Prod.fst hu).symm.trans h) hret
            cases ret <;> first | exact absurd rfl hret | exact htorn

/-- How `mac_sta_del_key` ends. -/
inductive KeyDeleted (hw : HwInfo) (env : RoleEnv) (sec : H2c) (macId keyId : UInt8) (keyType : ℕ)
    (s : Adapter) : KeyStatus × Adapter → Prop
  | refused {ret : KeyStatus} : ret ≠ .success →
      (∀ role, roleSrch s.roleTbl macId = some role → deleteSlot role.info keyType keyId = none) →
      KeyDeleted hw env sec macId keyId keyType s (ret, s)
  /-- The slot is cleared, and the entry is not. -/
  | torn {role : MacRoleTbl} {k : Fin 7} {ret : KeyStatus} {s' : Adapter} : ret ≠ .success →
      roleSrch s.roleTbl macId = some role → deleteSlot role.info keyType keyId = some k →
      ((updSecEnt hw env role k .none s).1 = .success → macUpdSecInfotbl env sec ≠ .success) →
      KeyDeleted hw env sec macId keyId keyType s (ret, s')
  | done {role : MacRoleTbl} {k : Fin 7} {s' : Adapter} : roleSrch s.roleTbl macId = some role →
      deleteSlot role.info keyType keyId = some k → (updSecEnt hw env role k .none s).2 = s' →
      KeyDeleted hw env sec macId keyId keyType s (.success, { s' with
          secCam := mSecurityCamHal s'.secCam macId keyId keyType (role.info.aInfo.secEnt k).ent true })

theorem macStaDelKey_deleted (hw : HwInfo) (env : RoleEnv) (sec : H2c) (macId keyId : UInt8) (keyType : ℕ)
    (s : Adapter) :
    KeyDeleted hw env sec macId keyId keyType s (macStaDelKey hw env sec macId keyId keyType s) := by
  unfold macStaDelKey
  split
  · next hr =>
    refine .refused (by simp) fun role h => ?_
    rw [hr] at h; cases h
  · next role hr =>
    rcases hi : deleteSlot role.info keyType keyId with _ | k
    · obtain ⟨ret, idx, hne, he⟩ := deleteKeyFromAddrCam_none hi
      rw [he]
      have hno : KeyDeleted hw env sec macId keyId keyType s (ret, s) := by
        refine .refused hne fun role' h => ?_
        obtain rfl := Option.some.inj (hr.symm.trans h)
        exact hi
      cases ret <;> first | exact absurd rfl hne | exact hno
    · rw [deleteKeyFromAddrCam_some hi]
      rcases hu : updSecEnt hw env role k .none s with ⟨ret, s'⟩
      by_cases hret : ret = .success
      · subst hret
        simp only
        split
        · next hsec => exact .torn (by simp) hr hi fun _ => hsec
        · exact .done hr hi (congrArg Prod.snd hu)
      · have htorn : KeyDeleted hw env sec macId keyId keyType s (ret, s') :=
          .torn hret hr hi fun h => absurd ((congrArg Prod.fst hu).symm.trans h) hret
        cases ret <;> first | exact absurd rfl hret | exact htorn

/-! ### All slots -/

theorem flush_spec {secEnt : Fin 7 → SecEnt} (ks : List (Fin 7)) : ∀ (t : SecCamTable) (i : ℕ),
    ((i < secCamEntryNum ∧ ∃ k ∈ ks, (secEnt k).valid = true ∧ (secEnt k).ent = i) →
      (ks.foldl (fun t k => if (secEnt k).valid then mSecurityCamHal t 0 (secEnt k).keyid 3 (secEnt k).ent true else t)
        t).entry i = ⟨false, 0, 0, 0⟩) ∧
    (¬ (i < secCamEntryNum ∧ ∃ k ∈ ks, (secEnt k).valid = true ∧ (secEnt k).ent = i) →
      (ks.foldl (fun t k => if (secEnt k).valid then mSecurityCamHal t 0 (secEnt k).keyid 3 (secEnt k).ent true else t)
        t).entry i = t.entry i) := by
  induction ks with
  | nil => exact fun t i => ⟨fun ⟨_, _, hk, _⟩ => absurd hk List.not_mem_nil, fun _ => rfl⟩
  | cons k ks ih =>
    intro t i
    rw [List.foldl_cons]
    by_cases hlater : i < secCamEntryNum ∧ ∃ k ∈ ks, (secEnt k).valid = true ∧ (secEnt k).ent = i
    · refine ⟨fun _ => (ih _ i).1 hlater, fun hno => ?_⟩
      obtain ⟨hi, k', hk', h⟩ := hlater
      exact absurd ⟨hi, k', List.mem_cons_of_mem _ hk', h⟩ hno
    · rw [(ih _ i).2 hlater]
      by_cases hthis : i < secCamEntryNum ∧ (secEnt k).valid = true ∧ (secEnt k).ent = i
      · obtain ⟨hi, hv, he⟩ := hthis
        have hlt : ¬ (secEnt k).ent ≥ secCamEntryNum := by omega
        refine ⟨fun _ => ?_, fun hno => absurd ⟨hi, k, List.mem_cons_self, hv, he⟩ hno⟩
        rw [if_pos hv, mSecurityCamHal, if_neg hlt, if_pos rfl]
        show Function.update t.entry (secEnt k).ent _ i = _
        rw [he, Function.update_self]
      · constructor
        · rintro ⟨hi, k', hk', h⟩
          rcases List.mem_cons.1 hk' with rfl | hk'
          · exact absurd ⟨hi, h⟩ hthis
          · exact absurd ⟨hi, k', hk', h⟩ hlater
        · intro _
          split
          · next hv =>
            unfold mSecurityCamHal
            split
            · rfl
            · next hlt =>
              rw [if_pos rfl]
              refine Function.update_of_ne (fun he => hthis ⟨?_, hv, he.symm⟩) _ _
              omega
          · rfl

theorem disconnectFlushKey_spec (t : SecCamTable) (secEnt : Fin 7 → SecEnt) (i : ℕ) :
    (disconnectFlushKey t secEnt).entry i =
      if i < secCamEntryNum ∧ ∃ k, (secEnt k).valid = true ∧ (secEnt k).ent = i then ⟨false, 0, 0, 0⟩
      else t.entry i := by
  have hflush := @flush_spec secEnt (List.finRange 7) t i
  simp only [List.mem_finRange, true_and] at hflush
  split
  · next hit => exact hflush.1 hit
  · next hno => exact hflush.2 hno

theorem disconnectFlushKey_next (t : SecCamTable) (secEnt : Fin 7 → SecEnt) :
    (disconnectFlushKey t secEnt).nextCamStorageIdx = t.nextCamStorageIdx := by
  unfold disconnectFlushKey
  generalize List.finRange 7 = ks
  induction ks generalizing t with
  | nil => rfl
  | cons k ks ih =>
    rw [List.foldl_cons, ih]
    split
    · unfold mSecurityCamHal
      split
      · rfl
      · split <;> rfl
    · rfl

end Rtl8852cu.Role
