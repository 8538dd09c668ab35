import Rtl8852cu.Lib.Reach
import Rtl8852cu.Role.Wf
import Mathlib.Data.Fintype.Pi

/-!
# Multicast entries

`phl/hal_g6/mac/mac_ax/addr_cam.c`: a multicast address is a role of its own.  `mc_role` is a table of 32 of them,
whose macids are counted down from the last one.
-/

namespace Rtl8852cu.Role

open Lib

/-- `struct mac_ax_multicast_info`. -/
structure MulticastInfo where
  mcAddr : Mac
  bssid : Mac
  mcMsk : ℕ
  deriving DecidableEq

/-- `struct mac_ax_mc_table`; of its role, only the macid is read again. -/
structure McTable where
  valid : Bool
  mc : MulticastInfo
  macid : UInt8
  deriving DecidableEq

/-- The adapter, with `mc_role`. -/
structure McState where
  adapter : Adapter
  mcRole : List McTable

def macAxMaxMcEntry : ℕ := 32

/-! ### The functions -/

def macPreProcMcInfo (info : MulticastInfo) : MulticastInfo :=
  { info with mcAddr := fun i => if info.mcMsk &&& (1 <<< i.val) = 0 then 0 else info.mcAddr i }

/-- `get_avalible_mc_entry`: the first free entry, unless the information is met before it. -/
def getAvalibleMcEntry (info : MulticastInfo) : List McTable → Option ℕ
  | [] => none
  | e :: es =>
    if e.mc = info ∧ e.valid = true then none
    else if e.valid = false then some 0
    else (getAvalibleMcEntry info es).map (· + 1)

def getRecordMcEntry (info : MulticastInfo) (mc : List McTable) : Option ℕ :=
  mc.findIdx? fun e => e.mc = info ∧ e.valid = true

/-- `get_avalible_mc_entry_macid`: one less than the macids of the valid entries. -/
def getAvalibleMcEntryMacid (hw : HwInfo) (mc : List McTable) : UInt8 :=
  mc.foldl (fun macid e => if e.valid = true ∧ e.macid ≤ macid then e.macid - 1 else macid)
    (UInt8.ofNat (hw.macidNum - 1))

def macAxMskNone : ℕ := 0x3f

def mcRoleInfo (info : MulticastInfo) (macid : UInt8) : RoleInfo :=
  { RoleInfo.zero with
    updMode := .create
    opmode := .disconn
    macid
    maskSel := .sma
    addrMask := macAxMskNone
    selfMac := info.mcAddr
    targetMac := info.bssid
    bssid := info.bssid
    isMulEnt := true }

def macAddMulticast (hw : HwInfo) (env : RoleEnv) (info : MulticastInfo) (s : McState) : MacStatus × McState :=
  match getAvalibleMcEntry info s.mcRole with
  | none => (.nptr, s)
  | some i =>
    let macid := getAvalibleMcEntryMacid hw s.mcRole
    let r := addRole hw env (mcRoleInfo info macid) s.adapter
    (r.1, ⟨r.2, s.mcRole.set i ⟨r.1 = .success, info, macid⟩⟩)

def macDelMulticast (hw : HwInfo) (env : RoleEnv) (info : MulticastInfo) (s : McState) : MacStatus × McState :=
  match getRecordMcEntry info s.mcRole with
  | none => (.nptr, s)
  | some i =>
    match s.mcRole[i]? with
    | none => (.nptr, s)
    | some e =>
      match removeRole hw env e.macid s.adapter with
      | (.success, adapter) => (.success, ⟨adapter, s.mcRole.set i { e with valid := false }⟩)
      | (ret, adapter) => (ret, { s with adapter })

def macCfgMulticast (hw : HwInfo) (env : RoleEnv) (add : Bool) (info : MulticastInfo) (s : McState) :
    MacStatus × McState :=
  let info := macPreProcMcInfo info
  if add then macAddMulticast hw env info s else macDelMulticast hw env info s

/-- A call, with what its steps return. -/
inductive McCall where
  | cfg (add : Bool) (info : MulticastInfo)
  | addRole (info : RoleInfo)

def McState.call (hw : HwInfo) (s : McState) : McCall × RoleEnv → MacStatus × McState
  | (.cfg add info, env) => macCfgMulticast hw env add info s
  | (.addRole info, env) =>
    let r := Role.addRole hw env info s.adapter
    (r.1, { s with adapter := r.2 })

def McState.step (hw : HwInfo) (s : McState) (c : McCall × RoleEnv) : McState := (s.call hw c).2

def mcInit (hw : HwInfo) : McState :=
  ⟨roleTblInit hw, List.replicate macAxMaxMcEntry ⟨false, ⟨fun _ => 0, fun _ => 0, 0⟩, 0⟩⟩

/-! ### The table -/

/-- The entry `i` holds `e`, which is valid. -/
def McState.Holds (s : McState) (i : ℕ) (e : McTable) : Prop := s.mcRole[i]? = some e ∧ e.valid = true

def McState.Recorded (s : McState) (info : MulticastInfo) : Prop := ∃ i e, s.Holds i e ∧ e.mc = info

structure McState.Right (hw : HwInfo) (s : McState) : Prop where
  distinct : ∀ i j e e', s.Holds i e → s.Holds j e' → i ≠ j → e.mc ≠ e'.mc ∧ e.macid ≠ e'.macid
  range : ∀ i e, s.Holds i e → hw.macidNum - 32 ≤ e.macid.toNat ∧ e.macid.toNat < hw.macidNum
  role : ∀ i e, s.Holds i e → ∃ r ∈ s.adapter.roleTbl, r.macid = e.macid

/-- With it, what is known of the roles. -/
structure McState.Inv (hw : HwInfo) (s : McState) : Prop extends s.Right hw where
  wf : s.adapter.Wf
  mul : ∀ i e, s.Holds i e → ∃ r ∈ s.adapter.roleTbl, r.macid = e.macid ∧ r.info.isMulEnt = true ∧
    r.info.dbccRole = false

theorem getAvalibleMcEntry_some {info : MulticastInfo} {mc : List McTable} :
    ∀ {i : ℕ}, getAvalibleMcEntry info mc = some i → ∃ e, mc[i]? = some e ∧ e.valid = false := by
  induction mc with
  | nil => exact fun h => (nomatch h)
  | cons e es ih =>
    intro i h
    rw [getAvalibleMcEntry] at h
    split at h
    · cases h
    · split at h
      · next hv =>
        cases h
        exact ⟨e, rfl, hv⟩
      · obtain ⟨j, hj, rfl⟩ := Option.map_eq_some_iff.1 h
        obtain ⟨e', he', hv⟩ := ih hj
        exact ⟨e', by simpa using he', hv⟩

theorem foldl_macid {lo : ℕ} (mc : List McTable) : ∀ {macid : UInt8}, lo ≤ macid.toNat →
    (∀ e ∈ mc, e.valid = true → lo < e.macid.toNat) →
    lo ≤ (mc.foldl (fun macid e => if e.valid = true ∧ e.macid ≤ macid then e.macid - 1 else macid) macid).toNat ∧
    (mc.foldl (fun macid e => if e.valid = true ∧ e.macid ≤ macid then e.macid - 1 else macid) macid).toNat ≤
      macid.toNat ∧
    ∀ e ∈ mc, e.valid = true →
      (mc.foldl (fun macid e => if e.valid = true ∧ e.macid ≤ macid then e.macid - 1 else macid) macid).toNat <
        e.macid.toNat := by
  induction mc with
  | nil => exact fun h _ => ⟨h, le_rfl, fun _ h => (nomatch h)⟩
  | cons e es ih =>
    intro macid hlo hall
    rw [List.foldl_cons]
    have htail := fun e' h => hall e' (List.mem_cons_of_mem _ h)
    by_cases hc : e.valid = true ∧ e.macid ≤ macid
    · rw [if_pos hc]
      have hgt := hall e List.mem_cons_self hc.1
      have hle := UInt8.le_iff_toNat_le.1 hc.2
      have hsub : (e.macid - 1).toNat = e.macid.toNat - 1 := by
        rw [UInt8.toNat_sub_of_le]
        · rfl
        · rw [UInt8.le_iff_toNat_le]
          show 1 ≤ e.macid.toNat
          omega
      obtain ⟨h1, h2, h3⟩ := @ih (e.macid - 1) (by omega) htail
      refine ⟨h1, by omega, ?_⟩
      intro e' he' hv
      rcases List.mem_cons.1 he' with rfl | he'
      · omega
      · exact h3 e' he' hv
    · rw [if_neg hc]
      obtain ⟨h1, h2, h3⟩ := ih hlo htail
      refine ⟨h1, h2, ?_⟩
      intro e' he' hv
      rcases List.mem_cons.1 he' with rfl | he'
      · have : ¬ e'.macid ≤ macid := fun h => hc ⟨hv, h⟩
        rw [UInt8.le_iff_toNat_le] at this; omega
      · exact h3 e' he' hv

theorem getAvalibleMcEntryMacid_spec {hw : HwInfo} {mc : List McTable} (h32 : 32 ≤ hw.macidNum)
    (h : ∀ e ∈ mc, e.valid = true → hw.macidNum - 32 < e.macid.toNat) :
    hw.macidNum - 32 ≤ (getAvalibleMcEntryMacid hw mc).toNat ∧ (getAvalibleMcEntryMacid hw mc).toNat < hw.macidNum ∧
      ∀ e ∈ mc, e.valid = true → getAvalibleMcEntryMacid hw mc ≠ e.macid := by
  have htop : (UInt8.ofNat (hw.macidNum - 1)).toNat = hw.macidNum - 1 := by
    have := hw.macidNum_le
    rw [UInt8.toNat_ofNat']; omega
  obtain ⟨h1, h2, h3⟩ := @foldl_macid _ mc (UInt8.ofNat (hw.macidNum - 1)) (by omega) h
  refine ⟨h1, ?_, ?_⟩
  · unfold getAvalibleMcEntryMacid; omega
  · intro e he hv heq
    have := h3 e he hv
    rw [getAvalibleMcEntryMacid] at heq
    rw [heq] at this; omega

/-! ### What keeps it right -/

/-- `mac_add_role` returns success for a role that is given back: `role_add_fail` returns what the DBCC step for
the former owner of the structure returns. -/
def Swallows (hw : HwInfo) (env : RoleEnv) (info : RoleInfo) (s : Adapter) : Prop :=
  NotInit hw env info s ∧ env.dbccRm = .success ∧ ∃ role ∈ s.pool.head?, role.info.dbccRole = true

/-- What an addition of `info` needs, where the role can be added: the information is not met behind the first free
entry, and a macid is left. -/
structure AddGrounds (hw : HwInfo) (env : RoleEnv) (info : MulticastInfo) (s : McState) : Prop where
  fresh : getAvalibleMcEntry info s.mcRole ≠ none → ∀ e ∈ s.mcRole, e.valid = true → e.mc ≠ info
  room : ∀ e ∈ s.mcRole, e.valid = true → hw.macidNum - 32 < e.macid.toNat
  taken : ¬ Swallows hw env (mcRoleInfo info (getAvalibleMcEntryMacid hw s.mcRole)) s.adapter

/-- What a deletion of `info` needs: the update for its role is sent, and finds an entry for the BSSID. -/
def DelGrounds (hw : HwInfo) (env : RoleEnv) (info : MulticastInfo) (s : McState) : Prop :=
  ∀ e ∈ s.mcRole, e.valid = true → e.mc = info → ∀ role ∈ s.adapter.roleTbl, role.macid = e.macid →
    (env.fwRdy = true → env.addrCam = .sent .success) ∧
    BssidFound hw (s.adapter.roleTbl.filter (·.id ≠ role.id)) (roleInfoInit role.info)

def Grounds (hw : HwInfo) (s : McState) : McCall × RoleEnv → Prop
  | (.cfg true info, env) =>
    (addRole hw env (mcRoleInfo (macPreProcMcInfo info) (getAvalibleMcEntryMacid hw s.mcRole)) s.adapter).1 =
      .success → AddGrounds hw env (macPreProcMcInfo info) s
  | (.cfg false info, env) => DelGrounds hw env (macPreProcMcInfo info) s
  | (.addRole _, _) => True

variable {hw : HwInfo} {env : RoleEnv} {s : McState} {info : MulticastInfo}

instance {info : RoleInfo} {s : Adapter} : Decidable (Swallows hw env info s) := by
  unfold Swallows; infer_instance

instance : Decidable (AddGrounds hw env info s) :=
  decidable_of_iff (_ ∧ _ ∧ _) ⟨fun h => ⟨h.1, h.2.1, h.2.2⟩, fun h => ⟨h.fresh, h.room, h.taken⟩⟩

instance : Decidable (DelGrounds hw env info s) := by unfold DelGrounds; infer_instance

instance {c : McCall × RoleEnv} : Decidable (Grounds hw s c) := by
  unfold Grounds; split <;> infer_instance

theorem holds_set {adapter : Adapter} {i j : ℕ} {e₀ e e' : McTable} (hi : s.mcRole[i]? = some e₀) :
    McState.Holds ⟨adapter, s.mcRole.set i e'⟩ j e ↔ (j = i ∧ e = e' ∧ e'.valid = true) ∨ (j ≠ i ∧ s.Holds j e) := by
  have hlt : i < s.mcRole.length := (List.getElem?_eq_some_iff.1 hi).1
  unfold McState.Holds
  by_cases hj : j = i
  · subst hj
    rw [List.getElem?_set_self hlt]
    constructor
    · rintro ⟨he, hv⟩
      cases he
      exact .inl ⟨rfl, rfl, hv⟩
    · rintro (⟨-, rfl, hv⟩ | ⟨hn, -⟩)
      · exact ⟨rfl, hv⟩
      · exact absurd rfl hn
  · rw [List.getElem?_set_ne (Ne.symm hj)]
    constructor
    · exact fun h => .inr ⟨hj, h⟩
    · rintro (⟨he, -⟩ | ⟨-, h⟩)
      · exact absurd he hj
      · exact h

theorem addRole_roles {info : RoleInfo} {s : Adapter} (hsw : ¬ Swallows hw env info s)
    (hcl : info.selfRole ≠ .ap) (hdb : info.dbccRole = false) :
    ((addRole hw env info s).1 ≠ .success ∧ (addRole hw env info s).2.roleTbl = s.roleTbl) ∨
    ((addRole hw env info s).1 = .success ∧ ∃ r, r.macid = info.macid ∧ r.info.isMulEnt = info.isMulEnt ∧
      r.info.dbccRole = false ∧ (addRole hw env info s).2.roleTbl = s.roleTbl ++ [r]) := by
  have h := addRole_added hw env info s
  generalize addRole hw env info s = r at h ⊢
  cases h with
  | noRole _ => exact .inl ⟨by simp, rfl⟩
  | @back role pool role' ret hp _ hne hinfo =>
    refine .inl ⟨?_, rfl⟩
    unfold roleAddFail
    by_cases hd : role'.info.dbccRole = true
    · rw [if_pos hd]
      rcases hinfo with ⟨he, hn⟩ | he
      · intro hrm; exact hsw ⟨hn, hrm, role, by rw [hp]; rfl, he ▸ hd⟩
      · rw [he, hdb] at hd; cases hd
    · rw [if_neg hd]; exact hne
  | lost _ _ hap _ => exact absurd hap hcl
  | @done role pool ret info' s' hp hv _ hu _ _ =>
    obtain ⟨_, _, _, _, hs⟩ := hu.sameInfo.eq
    have hs' : info' = _ := hs
    refine .inr ⟨rfl, ⟨role.id, info.macid, info'⟩, rfl, ?_, ?_, ?_⟩
    · rw [hs']; rfl
    · rw [hs']; exact hdb
    · rw [hu.frame.1]

theorem Added.roles {info : RoleInfo} {s : Adapter} {r : MacStatus × Adapter} (h : Added hw env info s r) :
    r.2.roleTbl = s.roleTbl ∨ ∃ role, role.macid = info.macid ∧ r.2.roleTbl = s.roleTbl ++ [role] := by
  cases h with
  | noRole _ => exact .inl rfl
  | back _ _ _ _ => exact .inl rfl
  | lost _ _ _ _ => exact .inl rfl
  | done _ _ _ hu _ _ => exact .inr ⟨_, rfl, by rw [hu.frame.1]⟩

theorem McState.Inv.keep {s' : McState} (hs : s.Inv hw) (hwf : s'.adapter.Wf)
    (hold : ∀ i e, s'.Holds i e → s.Holds i e)
    (hrole : ∀ i e, s'.Holds i e → ∀ r ∈ s.adapter.roleTbl, r.macid = e.macid → r ∈ s'.adapter.roleTbl) :
    s'.Inv hw where
  distinct i j e e' h h' := hs.distinct i j e e' (hold i e h) (hold j e' h')
  range i e h := hs.range i e (hold i e h)
  role i e h := by
    obtain ⟨r, hr, he⟩ := hs.role i e (hold i e h)
    exact ⟨r, hrole i e h r hr he, he⟩
  wf := hwf
  mul i e h := by
    obtain ⟨r, hr, he, hm⟩ := hs.mul i e (hold i e h)
    exact ⟨r, hrole i e h r hr he, he, hm⟩

theorem inv_add (h32 : 32 ≤ hw.macidNum) (hs : s.Inv hw)
    (hg : (addRole hw env (mcRoleInfo info (getAvalibleMcEntryMacid hw s.mcRole)) s.adapter).1 = .success →
      AddGrounds hw env info s) : (macAddMulticast hw env info s).2.Inv hw := by
  rcases hi : getAvalibleMcEntry info s.mcRole with _ | i
  · simpa only [macAddMulticast, hi] using hs
  · obtain ⟨e₀, he₀, hv₀⟩ := getAvalibleMcEntry_some hi
    have hadd := addRole_added hw env (mcRoleInfo info (getAvalibleMcEntryMacid hw s.mcRole)) s.adapter
    have hwf := hadd.wf hs.wf
    simp only [macAddMulticast, hi]
    by_cases hok : (addRole hw env (mcRoleInfo info (getAvalibleMcEntryMacid hw s.mcRole)) s.adapter).1 = .success
    · obtain ⟨hfresh, hroom, htaken⟩ := hg hok
      have hnew := hfresh (by rw [hi]; simp)
      obtain ⟨hlo, hhi, hmac⟩ := getAvalibleMcEntryMacid_spec h32 hroom
      obtain ⟨hne, -⟩ | ⟨-, r, hrm, hmul, hdb, hlist⟩ := addRole_roles htaken (by simp [mcRoleInfo, RoleInfo.zero]) rfl
      · exact absurd hok hne
      have hroles : ∀ r ∈ s.adapter.roleTbl, r ∈ (addRole hw env
          (mcRoleInfo info (getAvalibleMcEntryMacid hw s.mcRole)) s.adapter).2.roleTbl := by
        intro r hr
        rw [hlist]; exact List.mem_append_left _ hr
      have hown : r ∈ (addRole hw env
          (mcRoleInfo info (getAvalibleMcEntryMacid hw s.mcRole)) s.adapter).2.roleTbl := by
        rw [hlist]; exact List.mem_append_right _ List.mem_cons_self
      refine ⟨⟨?_, ?_, ?_⟩, hwf, ?_⟩
      · intro j k e e' h h' hjk
        rcases (holds_set he₀).1 h with ⟨rfl, rfl, -⟩ | ⟨-, hj⟩
        · rcases (holds_set he₀).1 h' with ⟨rfl, -, -⟩ | ⟨-, hk⟩
          · exact absurd rfl hjk
          · have hm := List.mem_of_getElem? hk.1; exact ⟨Ne.symm (hnew e' hm hk.2), hmac e' hm hk.2⟩
        · rcases (holds_set he₀).1 h' with ⟨rfl, rfl, -⟩ | ⟨-, hk⟩
          · have hm := List.mem_of_getElem? hj.1; exact ⟨hnew e hm hj.2, Ne.symm (hmac e hm hj.2)⟩
          · exact hs.distinct j k e e' hj hk hjk
      · intro j e h
        rcases (holds_set he₀).1 h with ⟨rfl, rfl, -⟩ | ⟨-, h⟩
        · exact ⟨hlo, hhi⟩
        · exact hs.range j e h
      · intro j e h
        rcases (holds_set he₀).1 h with ⟨rfl, rfl, -⟩ | ⟨-, h⟩
        · exact ⟨r, hown, hrm⟩
        · obtain ⟨r', hr', he⟩ := hs.role j e h; exact ⟨r', hroles r' hr', he⟩
      · intro j e h
        rcases (holds_set he₀).1 h with ⟨rfl, rfl, -⟩ | ⟨-, h⟩
        · exact ⟨r, hown, hrm, hmul, hdb⟩
        · obtain ⟨r', hr', he⟩ := hs.mul j e h; exact ⟨r', hroles r' hr', he⟩
    · -- the entry stays free
      have hold : ∀ j e, McState.Holds ⟨(addRole hw env
          (mcRoleInfo info (getAvalibleMcEntryMacid hw s.mcRole)) s.adapter).2, s.mcRole.set i
            ⟨(addRole hw env (mcRoleInfo info (getAvalibleMcEntryMacid hw s.mcRole)) s.adapter).1 = .success, info,
              getAvalibleMcEntryMacid hw s.mcRole⟩⟩ j e → s.Holds j e := by
        intro j e h
        rcases (holds_set he₀).1 h with ⟨-, -, hv⟩ | ⟨-, h⟩
        · exact absurd (of_decide_eq_true hv) hok
        · exact h
      refine hs.keep hwf hold fun j e _ r hr _ => ?_
      rcases hadd.roles with hr' | ⟨_, -, hr'⟩
      · exact hr' ▸ hr
      · rw [hr']; exact List.mem_append_left _ hr

theorem getRecordMcEntry_some {mc : List McTable} {i : ℕ} (h : getRecordMcEntry info mc = some i) :
    ∃ e, mc[i]? = some e ∧ e.valid = true ∧ e.mc = info := by
  unfold getRecordMcEntry at h
  obtain ⟨hlt, hp, -⟩ := List.findIdx?_eq_some_iff_getElem.1 h
  have hp' := of_decide_eq_true hp
  exact ⟨mc[i], List.getElem?_eq_getElem hlt, hp'.2, hp'.1⟩

theorem macDelMulticast_spec (hs : s.Inv hw) (hg : DelGrounds hw env info s) :
    (macDelMulticast hw env info s).2.Inv hw ∧ (s.Recorded info → (macDelMulticast hw env info s).1 = .success) ∧
      ¬ (macDelMulticast hw env info s).2.Recorded info := by
  rcases hi : getRecordMcEntry info s.mcRole with _ | i
  · have hnot : ¬ s.Recorded info := by
      rintro ⟨j, e, ⟨hj, hv⟩, he⟩
      unfold getRecordMcEntry at hi
      have := List.findIdx?_eq_none_iff.1 hi e (List.mem_of_getElem? hj)
      simp [he, hv] at this
    simp only [macDelMulticast, hi]; exact ⟨hs, fun h => absurd h hnot, hnot⟩
  · obtain ⟨e, he, hv, hmc⟩ := getRecordMcEntry_some hi
    have hholds : s.Holds i e := ⟨he, hv⟩
    obtain ⟨role, hr, hmacid, hmul, hdb⟩ := hs.mul i e hholds
    obtain ⟨hupd, hcam⟩ := hg e (List.mem_of_getElem? he) hv hmc role hr hmacid
    have hok : (removeRole hw env e.macid s.adapter).1 = .success := by
      rw [← hmacid]
      refine removeRole_success hs.wf hr (.inl hmul) hupd hcam fun h => ?_
      rw [hdb] at h; cases h
    have hrem := removeRole_removed hw env e.macid s.adapter
    have hwf := hrem.wf hs.wf
    obtain ⟨hlist, -⟩ := hrem.rest hs.wf (hmacid ▸ hs.wf.roleSrch_eq hr) hok
    simp only [macDelMulticast, hi, he]
    rcases hres : removeRole hw env e.macid s.adapter with ⟨ret, a⟩
    rw [hres] at hok hwf hlist
    subst hok
    have hold : ∀ j e', McState.Holds ⟨a, s.mcRole.set i { e with valid := false }⟩ j e' → j ≠ i ∧ s.Holds j e' := by
      intro j e' h
      rcases (holds_set he).1 h with ⟨-, -, hv⟩ | h
      · cases hv
      · exact h
    refine ⟨hs.keep hwf (fun j e' h => (hold j e' h).2) fun j e' h r hrm hre => ?_, fun _ => rfl, ?_⟩
    · obtain ⟨hj, h⟩ := hold j e' h
      have hne := (hs.distinct j i e' e h hholds hj).2
      show r ∈ a.roleTbl
      rw [hlist]
      refine List.mem_filter.2 ⟨hrm, decide_eq_true fun hid => hne ?_⟩
      rw [← hre, hs.wf.eq_of_id hrm hr hid, hmacid]
    · rintro ⟨j, e', h, he'⟩
      obtain ⟨hj, h⟩ := hold j e' h
      exact (hs.distinct j i e' e h hholds hj).1 (he'.trans hmc.symm)

theorem inv_addRole {info : RoleInfo} (hs : s.Inv hw) :
    McState.Inv hw { s with adapter := (addRole hw env info s.adapter).2 } := by
  have hadd := addRole_added hw env info s.adapter
  refine hs.keep (hadd.wf hs.wf) (fun _ _ h => h) fun _ _ _ r hr _ => ?_
  rcases hadd.roles with he | ⟨_, -, he⟩
  · exact he ▸ hr
  · show r ∈ (addRole hw env info s.adapter).2.roleTbl
    rw [he]; exact List.mem_append_left _ hr

theorem step_inv (h32 : 32 ≤ hw.macidNum) (hs : s.Inv hw) {c : McCall × RoleEnv} (hg : Grounds hw s c) :
    (s.step hw c).Inv hw := by
  obtain ⟨call, env⟩ := c
  cases call with
  | cfg add info =>
    cases add with
    | true => exact inv_add h32 hs hg
    | false => exact (macDelMulticast_spec hs hg).1
  | addRole info => exact inv_addRole hs

theorem mcInit_inv : (mcInit hw).Inv hw := by
  have hno : ∀ i e, ¬ (mcInit hw).Holds i e := by
    rintro i e ⟨he, hv⟩
    obtain rfl := (List.mem_replicate.1 (List.mem_of_getElem? he)).2
    cases hv
  refine ⟨⟨fun i j e e' h => absurd h (hno i e), fun i e h => absurd h (hno i e), fun i e h => absurd h (hno i e)⟩,
    ⟨?_, List.nodup_nil, fun _ h => (nomatch h)⟩, fun i e h => absurd h (hno i e)⟩
  show (List.map (·.id) ((List.range hw.macidNum).map fun i => (⟨i, 0, .zero⟩ : MacRoleTbl))).Nodup
  rw [List.map_map]; exact (List.nodup_range).map fun _ _ h => h

/-- **The multicast table**: in a run whose calls are on their grounds, it is right in every state, and each deletion
of information that was added removes it. -/
theorem multicast_run {hw : HwInfo} {calls : List (McCall × RoleEnv)} (h32 : 32 ≤ hw.macidNum)
    (h : Legal (McState.step hw) (Grounds hw) (mcInit hw) calls) :
    (∀ pre, pre <+: calls → (pre.foldl (McState.step hw) (mcInit hw)).Right hw) ∧
    ∀ pre info env, pre ++ [(.cfg false info, env)] <+: calls →
      let s := pre.foldl (McState.step hw) (mcInit hw)
      s.Recorded (macPreProcMcInfo info) → (s.call hw (.cfg false info, env)).1 = .success ∧
          ¬ (s.call hw (.cfg false info, env)).2.Recorded (macPreProcMcInfo info) := by
  have hinv : ∀ pre, pre <+: calls → (pre.foldl (McState.step hw) (mcInit hw)).Inv hw := fun pre hpre =>
    h.keeps (B := fun _ _ => False) mcInit_inv (fun s c hs hok _ => step_inv h32 hs hok) (fun _ _ _ => id) hpre
  refine ⟨fun pre hpre => (hinv pre hpre).toRight, fun pre info env hpre => ?_⟩
  intro s hrec
  have hs := hinv pre ((List.prefix_append _ _).trans hpre)
  obtain ⟨-, hok, hgone⟩ := macDelMulticast_spec hs (h.last hpre)
  exact ⟨hok hrec, hgone⟩

/-- The group address with the last byte `b`. -/
def groupAddr (b : UInt8) : MulticastInfo := ⟨fun i => if i.val = 0 then 1 else if i.val = 5 then b else 0, fun _ => 0, 0x3f⟩

theorem multicast_run_some : (∀ pre, pre <+: [(.cfg true (groupAddr 1), goodEnv), (.cfg true (groupAddr 2), goodEnv),
        (.addRole (mcRoleInfo (groupAddr 3) 5), goodEnv), (.cfg false (groupAddr 1), goodEnv),
        (.cfg true (groupAddr 1), goodEnv)] →
      (pre.foldl (McState.step hw8852c) (mcInit hw8852c)).Right hw8852c) ∧
    ∀ pre info env, pre ++ [(.cfg false info, env)] <+: [(.cfg true (groupAddr 1), goodEnv),
        (.cfg true (groupAddr 2), goodEnv), (.addRole (mcRoleInfo (groupAddr 3) 5), goodEnv),
        (.cfg false (groupAddr 1), goodEnv), (.cfg true (groupAddr 1), goodEnv)] →
      let s := pre.foldl (McState.step hw8852c) (mcInit hw8852c)
      s.Recorded (macPreProcMcInfo info) → (s.call hw8852c (.cfg false info, env)).1 = .success ∧
          ¬ (s.call hw8852c (.cfg false info, env)).2.Recorded (macPreProcMcInfo info) :=
  multicast_run (by decide) (by decide)

/-- **A hole in front of an entry**: its information is added once more. -/
theorem added_twice : ¬ ∀ (hw : HwInfo) (calls : List (McCall × RoleEnv)), 32 ≤ hw.macidNum →
      (calls.foldl (McState.step hw) (mcInit hw)).Right hw := by
  intro h
  have hr := (h hw8852c [(.cfg true (groupAddr 1), goodEnv), (.cfg true (groupAddr 2), goodEnv),
    (.cfg false (groupAddr 1), goodEnv), (.cfg true (groupAddr 2), goodEnv)] (by decide)).distinct 0 1
    ⟨true, macPreProcMcInfo (groupAddr 2), 125⟩ ⟨true, macPreProcMcInfo (groupAddr 2), 126⟩ ⟨by decide, rfl⟩ ⟨by decide, rfl⟩ (by decide)
  exact hr.1 rfl

end Rtl8852cu.Role
