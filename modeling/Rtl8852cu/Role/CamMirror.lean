import Rtl8852cu.Role.Distinct

/-!
# The CAMs of the hardware and the role table

An update writes the BSSID entry as valid, also for a role that is removed, and nothing writes the entry that a role
leaves.
-/

namespace Rtl8852cu.Role

open Lib
open Function (update update_self update_of_ne)

variable {hw : HwInfo} {env : RoleEnv} {s s' : Adapter} {info info' : RoleInfo}

/-! ### The mirror -/

/-- A BSSID is that of the role, as far as its mask goes. -/
def RoleInfo.HoldsIn (info : RoleInfo) (bssid : Mac) : Prop := macEq (maddrCmpLen info.aInfo) bssid info.bssid = true

instance {bssid : Mac} : Decidable (info.HoldsIn bssid) := inferInstanceAs (Decidable (_ = true))

/-- A valid role has the BSSID entry `idx`. -/
def InUse (roles : List MacRoleTbl) (idx : ℕ) : Prop :=
  ∃ r ∈ roles, r.info.aInfo.valid = true ∧ r.info.aInfo.bssidCamIdx = idx

instance {roles : List MacRoleTbl} {idx : ℕ} : Decidable (InUse roles idx) := by unfold InUse; infer_instance

/-- **The CAMs are those of the roles.** -/
structure Mirrors (roles : List MacRoleTbl) (addrCam : ℕ → AddrCamInfo) (bssidCam : ℕ → BssidCamInfo) : Prop where
  addr : ∀ i, (addrCam i).valid = true ↔ ∃ r ∈ roles, r.info.aInfo.valid = true ∧ r.info.aInfo.addrCamIdx = i
  bssid : ∀ j, (bssidCam j).valid = true ↔ InUse roles j
  holds : ∀ r ∈ roles, r.info.aInfo.valid = true → r.info.HoldsIn (bssidCam r.info.aInfo.bssidCamIdx).bssid

/-- The valid roles with the BSSID entry `idx` have the BSSID that it is to hold. -/
def Fits (roles : List MacRoleTbl) (idx : ℕ) (bssid : Mac) : Prop :=
  ∀ r ∈ roles, r.info.aInfo.valid = true → r.info.aInfo.bssidCamIdx = idx → r.info.HoldsIn bssid

instance {roles : List MacRoleTbl} {idx : ℕ} {bssid : Mac} : Decidable (Fits roles idx bssid) := by
  unfold Fits; infer_instance

theorem Mirrors.write {roles roles' : List MacRoleTbl} {addrCam : ℕ → AddrCamInfo}
    {bssidCam : ℕ → BssidCamInfo} {a : AddrCamInfo} {b : BssidCamInfo} {i j : ℕ}
    (h : Mirrors roles addrCam bssidCam) (others : List MacRoleTbl) (new : Option MacRoleTbl) (hsub : ∀ r ∈ others, r ∈ roles)
    (hgone : ∀ r ∈ roles, r ∉ others → r.info.aInfo.addrCamIdx = i ∧
      (r.info.aInfo.bssidCamIdx = j ∨ InUse others r.info.aInfo.bssidCamIdx))
    (haddr : ∀ r ∈ others, r.info.aInfo.valid = true → r.info.aInfo.addrCamIdx ≠ i)
    (hmem : ∀ r, r ∈ roles' ↔ r ∈ others ∨ r ∈ new) (hnew : ∀ r ∈ new, r.info.aInfo = a ∧ r.info.HoldsIn b.bssid)
    (ha : a.valid = new.isSome) (hi : a.addrCamIdx = i) (hj : new.isSome → a.bssidCamIdx = j) (hb : b.valid = true)
    (huse : new = none → InUse others j) (hfits : Fits others j b.bssid) :
    Mirrors roles' (update addrCam i a) (update bssidCam j b) where
  addr k := by
    by_cases hk : k = i
    · subst hk
      rw [update_self, ha]
      constructor
      · intro hs
        obtain ⟨r, rfl⟩ := Option.isSome_iff_exists.1 hs
        obtain ⟨he, -⟩ := hnew r rfl
        exact ⟨r, (hmem r).2 (.inr rfl), by rw [he, ha]; rfl, by rw [he, hi]⟩
      · rintro ⟨r, hr, hv, hri⟩
        rcases (hmem r).1 hr with hr | hr
        · exact absurd hri (haddr r hr hv)
        · exact Option.isSome_of_mem hr
    · rw [update_of_ne hk, h.addr]
      constructor
      · rintro ⟨r, hr, hv, rfl⟩
        by_cases ho : r ∈ others
        · exact ⟨r, (hmem r).2 (.inl ho), hv, rfl⟩
        · exact absurd (hgone r hr ho).1 hk
      · rintro ⟨r, hr, hv, rfl⟩
        rcases (hmem r).1 hr with hr | hr
        · exact ⟨r, hsub r hr, hv, rfl⟩
        · exact absurd (by rw [(hnew r hr).1, hi]) hk
  bssid k := by
    by_cases hk : k = j
    · subst hk
      rw [update_self]
      refine iff_of_true hb ?_
      rcases hn : new with _ | r
      · obtain ⟨r, hr, hv, hrk⟩ := huse hn; exact ⟨r, (hmem r).2 (.inl hr), hv, hrk⟩
      · obtain ⟨he, -⟩ := hnew r hn
        refine ⟨r, (hmem r).2 (.inr hn), ?_, ?_⟩
        · rw [he, ha, hn]; rfl
        · rw [he, hj (by rw [hn]; rfl)]
    · rw [update_of_ne hk, h.bssid]
      constructor
      · rintro ⟨r, hr, hv, rfl⟩
        by_cases ho : r ∈ others
        · exact ⟨r, (hmem r).2 (.inl ho), hv, rfl⟩
        · obtain ⟨r', hr', hv', he⟩ := (hgone r hr ho).2.resolve_left hk
          exact ⟨r', (hmem r').2 (.inl hr'), hv', he⟩
      · rintro ⟨r, hr, hv, rfl⟩
        rcases (hmem r).1 hr with hr | hr
        · exact ⟨r, hsub r hr, hv, rfl⟩
        · exact absurd (by rw [(hnew r hr).1, hj (Option.isSome_of_mem hr)]) hk
  holds r hr hv := by
    rcases (hmem r).1 hr with hr | hr
    · by_cases hk : r.info.aInfo.bssidCamIdx = j
      · rw [hk, update_self]; exact hfits r hr hv hk
      · rw [update_of_ne hk]; exact h.holds r (hsub r hr) hv
    · obtain ⟨he, hh⟩ := hnew r hr
      rw [he, hj (Option.isSome_of_mem hr), update_self]; exact hh

/-! ### What a call needs -/

def RoleCall.Single : RoleCall → Prop
  | .removeByBand _ _ _ => False
  | _ => True

/-- **What a call needs**: its update is sent, the roles with the BSSID entry have the BSSID that is written, and a
role leaves no entry that is not in use by another.  The removal of a band is no call here. -/
def MirrorOk (hw : HwInfo) (s : Adapter) : RoleCall → Prop
  | .add info env =>
    (env.fwRdy = true → env.addrCam = .sent .success) ∧
    ∀ e ∈ bssidEntry hw s.roleTbl (roleInfoInit (addInfo info)),
      Fits s.roleTbl e.1 e.2 ∧ (roleInfoInit (addInfo info)).HoldsIn e.2
  | .change info _ => ∀ role ∈ roleSrch s.roleTbl info.macid,
    let info' := (changeInfo role info s.secCam).1
    let others := s.roleTbl.filter (·.id ≠ role.id)
    ∀ e ∈ bssidEntry hw others info', Fits others e.1 e.2 ∧ info'.HoldsIn e.2 ∧
      (role.info.aInfo.bssidCamIdx = e.1 ∨ InUse others role.info.aInfo.bssidCamIdx)
  | .remove macid _ => ∀ role ∈ roleSrch s.roleTbl macid,
    let others := s.roleTbl.filter (·.id ≠ role.id)
    ∀ e ∈ bssidEntry hw others (roleInfoInit role.info),
      Fits others e.1 e.2 ∧ InUse others e.1 ∧ InUse others role.info.aInfo.bssidCamIdx
  | .removeByBand _ _ _ => False

/-- A call that succeeds, and has what it needs. -/
def Succeeds (hw : HwInfo) (s : Adapter) (c : RoleCall) : Prop := (s.call hw c).1 = .success ∧ MirrorOk hw s c

instance MirrorOk.decidable : ∀ (s : Adapter) (c : RoleCall), Decidable (MirrorOk hw s c)
  | s, .add info env => by unfold MirrorOk; infer_instance
  | s, .change info env => by unfold MirrorOk; infer_instance
  | s, .remove macid env => by unfold MirrorOk; infer_instance
  | s, .removeByBand band sw env => inferInstanceAs (Decidable False)

instance {c : RoleCall} : Decidable (Succeeds hw s c) := inferInstanceAs (Decidable (_ ∧ _))

/-! ### The calls -/

/-- With the CAMs, what is known of the roles. -/
structure Adapter.CamInv (s : Adapter) : Prop where
  wf : s.Wf
  valid : ∀ r ∈ s.roleTbl, r.info.aInfo.valid = true
  addr : ∀ r ∈ s.roleTbl, ∀ r' ∈ s.roleTbl, r.info.aInfo.addrCamIdx = r'.info.aInfo.addrCamIdx → r = r'
  mirrors : Mirrors s.roleTbl s.addrCam s.bssidCam

theorem Adapter.CamInv.put (hs : s.CamInv) (hwf : s'.Wf) (others : List MacRoleTbl) (new : MacRoleTbl)
    {b : BssidCamInfo} (hsub : ∀ r ∈ others, r ∈ s.roleTbl)
    (hgone : ∀ r ∈ s.roleTbl, r ∉ others → r.info.aInfo.addrCamIdx = new.info.aInfo.addrCamIdx ∧
      (r.info.aInfo.bssidCamIdx = new.info.aInfo.bssidCamIdx ∨ InUse others r.info.aInfo.bssidCamIdx))
    (haddr : ∀ r ∈ others, r.info.aInfo.addrCamIdx ≠ new.info.aInfo.addrCamIdx)
    (hmem : ∀ r, r ∈ s'.roleTbl ↔ r ∈ others ∨ r = new) (hv : new.info.aInfo.valid = true)
    (ha : s'.addrCam = update s.addrCam new.info.aInfo.addrCamIdx new.info.aInfo)
    (hb : s'.bssidCam = update s.bssidCam new.info.aInfo.bssidCamIdx b) (hbv : b.valid = true)
    (hholds : new.info.HoldsIn b.bssid) (hfits : Fits others new.info.aInfo.bssidCamIdx b.bssid) : s'.CamInv where
  wf := hwf
  valid r hr := by
    rcases (hmem r).1 hr with hr | rfl
    · exact hs.valid r (hsub r hr)
    · exact hv
  addr r hr r' hr' he := by
    rcases (hmem r).1 hr with hr | rfl
    · rcases (hmem r').1 hr' with hr' | rfl
      · exact hs.addr r (hsub r hr) r' (hsub r' hr') he
      · exact absurd he (haddr r hr)
    · rcases (hmem r').1 hr' with hr' | rfl
      · exact absurd he.symm (haddr r' hr')
      · rfl
  mirrors := by
    rw [ha, hb]
    refine hs.mirrors.write others (some new) hsub hgone (fun r hr _ => haddr r hr) (fun r => ?_) ?_ hv rfl
      (fun _ => rfl) hbv (fun h => (nomatch h)) hfits
    · rw [hmem, Option.mem_def, Option.some.injEq]; exact or_congr_right eq_comm
    · intro r hr
      obtain rfl := Option.some.inj hr
      exact ⟨rfl, hholds⟩

theorem addRole_mirrors (hs : s.CamInv) (hok : MirrorOk hw s (.add info env)) : (addRole hw env info s).2.CamInv := by
  have h := addRole_added hw env info s
  have hwf := h.wf hs.wf
  generalize addRole hw env info s = r at h hwf ⊢
  cases h with
  | noRole _ => exact hs
  | back _ _ _ _ => exact ⟨hwf, hs.valid, hs.addr, hs.mirrors⟩
  | lost _ _ _ _ => exact ⟨hwf, hs.valid, hs.addr, hs.mirrors⟩
  | @done role pool ret info' s' hp hv hreach hu hne hne' =>
    obtain ⟨hsent, hfit⟩ := hok
    have hid : role.id ∉ s.roleTbl.map (·.id) := by
      have hnd := hs.wf.ids
      rw [Adapter.ids, hp] at hnd
      exact fun hm => (List.nodup_append.1 hnd).2.2 _ hm _ List.mem_cons_self rfl
    cases hu with
    | noH2c hno _ => exact absurd hno (not_noH2c hsent)
    | full _ hc hn => exact absurd (camInfo_err hc hn) (by simp [hne, hne'])
    | unsent hf he _ hn =>
      rw [hsent hf] at he; exact absurd (H2c.sent.inj he).symm hn
    | sent hc _ =>
      obtain ⟨i, idx, bssid, hi, hfree, hb, -, hinfo⟩ := camInfo_add hc
      rw [filter_id_of_not_mem hid] at hb
      obtain ⟨hfits, hholds⟩ := hfit _ hb
      have hidx : info'.aInfo.bssidCamIdx = idx ∧ info'.bInfo.bssidCamIdx = idx ∧ info'.bInfo.bssid = bssid := by
        rw [hinfo]; exact ⟨rfl, rfl, rfl⟩
      refine hs.put hwf s.roleTbl ⟨role.id, info.macid, info'⟩ (fun _ h => h) (fun r hr hno => absurd hr hno)
        (fun r hr he => ?_) (fun r => ?_) ?_ rfl ?_ ?_ ?_ ?_ (b := info'.bInfo)
      · rw [hinfo] at he; exact hfree r hr ⟨he.symm, hs.valid r hr⟩
      · exact List.mem_append.trans (or_congr_right List.mem_singleton)
      · rw [hinfo]; rfl
      · show update s.bssidCam info'.bInfo.bssidCamIdx info'.bInfo = _; rw [hidx.1, hidx.2.1]
      · rw [hinfo]; rfl
      · rw [hidx.2.2, hinfo]; exact hholds
      · rw [hidx.1, hidx.2.2]; exact hfits

theorem Changed.success {r : MacStatus × Adapter} (h : Changed hw env info s r) (hok : r.1 = .success) :
    ∃ role info' idx bssid, roleSrch s.roleTbl info.macid = some role ∧
      bssidEntry hw (s.roleTbl.filter (·.id ≠ role.id)) (changeInfo role info s.secCam).1 = some (idx, bssid) ∧
      info' = (changeInfo role info s.secCam).1.withBssid idx bssid ∧
      r.2.roleTbl = (s.setRole role.id role.macid info').roleTbl ∧
      r.2.addrCam = update s.addrCam info'.aInfo.addrCamIdx info'.aInfo ∧
      r.2.bssidCam = update s.bssidCam idx info'.bInfo := by
  cases h with
  | refused hne => exact absurd hok hne
  | stopped _ _ _ hne => exact absurd hok hne
  | @done role ret info' s' hv hr hband hh hu =>
    obtain ⟨hm, hmacid⟩ := roleSrch_some hr
    have ht := changeDone_roleTbl hmacid hu
    cases hu with
    | noH2c _ hne => rcases hne with rfl | rfl <;> cases hok
    | full _ _ hne => exact absurd hok hne
    | unsent _ _ _ hne => exact absurd hok hne
    | sent hcam _ =>
      obtain ⟨idx, bssid, hb, -, rfl⟩ := findAvailBssidCamEntry_success hcam
      have hothers : (changeStart s role info).roleTbl.filter (·.id ≠ role.id) =
          s.roleTbl.filter (·.id ≠ role.id) := setRole_filter
      rw [hothers] at hb; exact ⟨role, _, idx, bssid, hr, hb, rfl, ht, rfl, rfl⟩


theorem Adapter.CamInv.others {role : MacRoleTbl} (hs : s.CamInv) (hm : role ∈ s.roleTbl) :
    ∀ r ∈ s.roleTbl.filter (·.id ≠ role.id), r.info.aInfo.addrCamIdx ≠ role.info.aInfo.addrCamIdx := by
  intro r hr he
  obtain ⟨hr, hne⟩ := List.mem_filter.1 hr
  exact of_decide_eq_true hne (congrArg _ (hs.addr r hr role hm he))

theorem eq_of_not_others {role r : MacRoleTbl} (hs : s.Wf) (hm : role ∈ s.roleTbl) (hr : r ∈ s.roleTbl)
    (hno : r ∉ s.roleTbl.filter (·.id ≠ role.id)) : r = role := by
  refine hs.eq_of_id hr hm ?_
  by_contra hne
  exact hno (List.mem_filter.2 ⟨hr, decide_eq_true hne⟩)

theorem changeInfo_bssid_valid (role : MacRoleTbl) (info : RoleInfo) (t : SecCamTable) :
    (changeInfo role info t).1.bInfo.valid = true := by
  simp only [changeInfo]
  split
  · rfl
  · rfl

theorem changeRole_mirrors (hs : s.CamInv) (hok : Succeeds hw s (.change info env)) :
    (changeRole hw env info s).2.CamInv := by
  have h := changeRole_changed hw env info s
  obtain ⟨role, info', idx, bssid, hr, hb, hinfo, ht, ha, hbc⟩ := h.success hok.1
  obtain ⟨hm, hmacid⟩ := roleSrch_some hr
  obtain ⟨hvalid, haddr, -⟩ := changeInfo_cam role info s.secCam
  obtain ⟨hfits, hholds, hold⟩ := hok.2 role hr _ hb
  have hidx : info'.aInfo.bssidCamIdx = idx ∧ info'.bInfo.bssid = bssid := by
    rw [hinfo]; exact ⟨rfl, rfl⟩
  have haddr' : info'.aInfo.addrCamIdx = role.info.aInfo.addrCamIdx := by
    rw [hinfo]; exact haddr
  refine hs.put (h.wf hs.wf) (s.roleTbl.filter (·.id ≠ role.id)) ⟨role.id, role.macid, info'⟩
    (fun r hrm => (List.mem_filter.1 hrm).1) (fun r hrm hno => ?_)
    (fun r hrm he => hs.others hm r hrm (he.trans haddr')) (fun r => ?_) ?_ ha ?_ ?_ ?_ ?_ (b := info'.bInfo)
  · rw [eq_of_not_others hs.wf hm hrm hno, haddr', hidx.1]; exact ⟨rfl, hold⟩
  · rw [ht, mem_setRole, List.mem_filter, decide_eq_true_eq]
    exact or_congr_right ⟨fun h => h.2, fun h => ⟨List.mem_map_of_mem hm, h⟩⟩
  · rw [hinfo]; exact hvalid.trans (hs.valid role hm)
  · rw [hidx.1]; exact hbc
  · rw [hinfo]; exact changeInfo_bssid_valid role info s.secCam
  · rw [hidx.2, hinfo]; exact hholds
  · rw [hidx.1, hidx.2]; exact hfits

theorem Removed.success {macid : UInt8} {r : MacStatus × Adapter} (h : Removed hw env macid s r) (hs : s.Wf)
    (hok : r.1 = .success) :
    ∃ (role : MacRoleTbl) (info' : RoleInfo) (idx : ℕ) (bssid : Mac), roleSrch s.roleTbl macid = some role ∧
      bssidEntry hw (s.roleTbl.filter (·.id ≠ role.id)) (roleInfoInit role.info) = some (idx, bssid) ∧
      info'.aInfo.valid = false ∧ info'.aInfo.addrCamIdx = role.info.aInfo.addrCamIdx ∧
      info'.bInfo.valid = true ∧ info'.bInfo.bssid = bssid ∧
      r.2.roleTbl = s.roleTbl.filter (·.id ≠ role.id) ∧
      r.2.addrCam = update s.addrCam role.info.aInfo.addrCamIdx info'.aInfo ∧
      r.2.bssidCam = update s.bssidCam idx info'.bInfo := by
  have hrest := h
  cases h with
  | noRole _ => cases hok
  | failed _ _ hne => exact absurd hok hne
  | dbcc _ _ _ _ hne => exact absurd hok hne
  | @done role role' s' hr hc hf _ =>
    obtain ⟨hlist, -⟩ := hrest.rest hs hr hok
    have hchg := changeRole_changed hw env (removedInfo s role) (removeStart s role)
    rw [hc] at hchg
    obtain ⟨role₀, info', idx, bssid, hr₀, hb, hinfo, -, ha, hbc⟩ := hchg.success rfl
    obtain rfl := Option.some.inj (hr₀.symm.trans (removeStart_srch hs (roleSrch_some hr).1))
    rw [changeInfo_removed] at hb hinfo
    have hb' : bssidEntry hw ((removeStart s role).roleTbl.filter (·.id ≠ role.id))
        (roleInfoInit (removedInfo s role)) = some (idx, bssid) := hb
    rw [removeStart_filter, bssidEntry_removed] at hb'
    obtain ⟨v, he⟩ := removedInfo_eq s role
    rw [he] at hinfo
    have haddr : info'.aInfo.addrCamIdx = role.info.aInfo.addrCamIdx := by
      rw [hinfo]; rfl
    rw [haddr] at ha
    refine ⟨role, info', idx, bssid, hr, hb', ?_, haddr, ?_, ?_, hlist, ha, hbc⟩
    all_goals rw [hinfo]; rfl

theorem removeRole_mirrors {macid : UInt8} (hs : s.CamInv) (hok : Succeeds hw s (.remove macid env)) :
    (removeRole hw env macid s).2.CamInv := by
  have h := removeRole_removed hw env macid s
  obtain ⟨role, info', idx, bssid, hr, hb, hv, haddr, hbv, hbs, hlist, ha, hbc⟩ := h.success hs.wf hok.1
  obtain ⟨hm, -⟩ := roleSrch_some hr
  obtain ⟨hfits, huse, hold⟩ := hok.2 role hr _ hb
  refine ⟨h.wf hs.wf, fun r hrm => ?_, fun r hrm r' hrm' he => ?_, ?_⟩
  · rw [hlist] at hrm; exact hs.valid r (List.mem_filter.1 hrm).1
  · rw [hlist] at hrm hrm'
    exact hs.addr r (List.mem_filter.1 hrm).1 r' (List.mem_filter.1 hrm').1 he
  · rw [hlist, ha, hbc]
    refine hs.mirrors.write _ none (fun r hrm => (List.mem_filter.1 hrm).1) (fun r hrm hno => ?_)
      (fun r hrm _ => hs.others hm r hrm) (fun r => ?_) (fun r hrm => (nomatch hrm)) hv haddr (fun h => (nomatch h))
      hbv (fun _ => huse) (hbs ▸ hfits)
    · rw [eq_of_not_others hs.wf hm hrm hno]; exact ⟨rfl, .inr hold⟩
    · exact ⟨.inl, fun h => h.elim id fun h => (nomatch h)⟩

/-! ### A run -/

theorem call_mirrors {c : RoleCall} (hs : s.CamInv) (hok : Succeeds hw s c) : (s.call hw c).2.CamInv := by
  cases c with
  | add info env => exact addRole_mirrors hs hok.2
  | change info env => exact changeRole_mirrors hs hok
  | remove macid env => exact removeRole_mirrors hs hok
  | removeByBand band sw env => exact absurd hok.2 id

theorem roleTblInit_camInv (hw : HwInfo) : (roleTblInit hw).CamInv := by
  refine ⟨(roleTblInit_inv hw).wf, ?_, ?_, ⟨fun i => ?_, fun j => ?_, ?_⟩⟩
  · exact fun _ h => (nomatch h)
  · exact fun _ h => (nomatch h)
  · exact ⟨fun h => (nomatch h), fun ⟨_, h, _⟩ => (nomatch h)⟩
  · exact ⟨fun h => (nomatch h), fun ⟨_, h, _⟩ => (nomatch h)⟩
  · exact fun _ h => (nomatch h)

/-- **The CAMs mirror the role table**: in a run whose calls succeed, and have what they need, they do in every
state. -/
theorem mirror_run {hw : HwInfo} (calls : List RoleCall)
    (h : Legal (Adapter.step hw) (Succeeds hw) (roleTblInit hw) calls) {pre : List RoleCall} (hpre : pre <+: calls) :
    let s := pre.foldl (Adapter.step hw) (roleTblInit hw)
    Mirrors s.roleTbl s.addrCam s.bssidCam :=
  (h.keeps (B := fun _ _ => False) (roleTblInit_camInv hw) (fun _ _ hs hok _ => call_mirrors hs hok)
    (fun _ _ _ => id) hpre).mirrors

/-- Two roles of a BSS, one of which goes over to another, where a third comes and goes. -/
def sharedBssids : List RoleCall :=
  [.add (newRole .client .infra 1 (bss 1)) goodEnv, .add (newRole .client .infra 2 (bss 1)) goodEnv,
    .change { newRole .client .infra 2 (bss 2) with updMode := .infoChange } goodEnv,
    .add (newRole .client .infra 3 (bss 2)) goodEnv, .remove 3 goodEnv]


theorem mirror_run_some :
    let s := sharedBssids.foldl (Adapter.step hw8852c) (roleTblInit hw8852c)
    Mirrors s.roleTbl s.addrCam s.bssidCam :=
  mirror_run sharedBssids (by decide) List.prefix_rfl

/-- **The last role of a BSSID is removed**, and its entry stays valid. -/
theorem bssid_stays : ¬ ∀ (hw : HwInfo) (calls : List RoleCall), (∀ c ∈ calls, c.Single) →
      Legal (Adapter.step hw) (fun s c => (s.call hw c).1 = .success) (roleTblInit hw) calls →
      let s := calls.foldl (Adapter.step hw) (roleTblInit hw)
      Mirrors s.roleTbl s.addrCam s.bssidCam := by
  intro h
  have hm := h hw8852c [.add (newRole .client .infra 1 (bss 1)) goodEnv, .remove 1 goodEnv]
    (by simp [RoleCall.Single]) (by decide)
  have hvalid : ((([.add (newRole .client .infra 1 (bss 1)) goodEnv, .remove 1 goodEnv] : List RoleCall).foldl
      (Adapter.step hw8852c) (roleTblInit hw8852c)).bssidCam 0).valid = true := by decide
  exact absurd ((hm.bssid 0).1 hvalid) (by decide)

end Rtl8852cu.Role
