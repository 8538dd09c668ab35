import Rtl8852cu.Lib.Mirror
import Rtl8852cu.Role.Keys

/-!
# The slots of the roles and the security CAM

* `KeysMatch`: each valid entry of the security CAM is the key of one slot, and agrees with it;
* `KeyOk`: what a call needs to keep that;
* `keyCall_spec`, `roleCall_keys`: one call; `key_run`: a run of them.

A call for a key that fails behind the first command has written the slot, and not the entry.
-/

namespace Rtl8852cu.Role

open Lib
open Function (update update_self update_of_ne)

variable {hw : HwInfo} {env : RoleEnv} {s s' : Adapter} {info info' : RoleInfo} {role : MacRoleTbl} {sec : H2c}
  {roles : List MacRoleTbl} {t t' : SecCamTable}

/-! ### The correspondence -/

/-- The slot `p.2` of the structure `p.1` has the entry `i`. -/
def Owns (roles : List MacRoleTbl) (p : ℕ × Fin 7) (i : ℕ) : Prop :=
  ∃ r ∈ roles, r.id = p.1 ∧ (r.info.aInfo.secEnt p.2).valid = true ∧ (r.info.aInfo.secEnt p.2).ent = i

/-- The entry agrees with the slot `k` of the role: the type of its key is one for the slot. -/
structure SlotKey (e : SecCamEntry) (r : MacRoleTbl) (k : Fin 7) : Prop where
  macId : e.macId = r.macid
  keyId : e.keyId = (r.info.aInfo.secEnt k).keyid
  keyType : checkKeyIndex r.info.aInfo.secEntMode e.keyType k = true

/-- **The valid entries are those of the valid slots**, one for each, and agree with them. -/
structure KeysMatch (roles : List MacRoleTbl) (t : SecCamTable) : Prop where
  mirrored : Mirrored (fun i => (t.entry i).valid = true) (Owns roles)
  agree : ∀ r ∈ roles, ∀ k, (r.info.aInfo.secEnt k).valid = true → SlotKey (t.entry (r.info.aInfo.secEnt k).ent) r k

/-! ### A role with new slots -/

theorem owns_setRole (hr : role ∈ s.roleTbl) {p : ℕ × Fin 7} {i : ℕ} :
    Owns (s.setRole role.id role.macid info).roleTbl p i ↔ (p.1 ≠ role.id ∧ Owns s.roleTbl p i) ∨
      (p.1 = role.id ∧ (info.aInfo.secEnt p.2).valid = true ∧ (info.aInfo.secEnt p.2).ent = i) := by
  constructor
  · rintro ⟨r, hrm, hid, hv, he⟩
    rcases mem_setRole.1 hrm with ⟨hrm, hne⟩ | ⟨-, rfl⟩
    · exact .inl ⟨hid ▸ hne, r, hrm, hid, hv, he⟩
    · exact .inr ⟨hid.symm, hv, he⟩
  · rintro (⟨hne, r, hrm, hid, hv, he⟩ | ⟨hid, hv, he⟩)
    · exact ⟨r, mem_setRole.2 (.inl ⟨hrm, hid ▸ hne⟩), hid, hv, he⟩
    · exact ⟨_, mem_setRole.2 (.inr ⟨List.mem_map_of_mem hr, rfl⟩), hid.symm, hv, he⟩

theorem owns_self (hs : s.Wf) (hr : role ∈ s.roleTbl) {p : ℕ × Fin 7} {i : ℕ} (hp : p.1 = role.id) :
    Owns s.roleTbl p i ↔ (role.info.aInfo.secEnt p.2).valid = true ∧ (role.info.aInfo.secEnt p.2).ent = i := by
  constructor
  · rintro ⟨r, hrm, hid, hv, he⟩
    obtain rfl := hs.eq_of_id hrm hr (hid.trans hp)
    exact ⟨hv, he⟩
  · rintro ⟨hv, he⟩; exact ⟨role, hr, hp.symm, hv, he⟩

theorem KeysMatch.setRole (h : KeysMatch s.roleTbl t)
    (hm : Mirrored (fun i => (t'.entry i).valid = true) (Owns (s.setRole role.id role.macid info).roleTbl))
    (hoth : ∀ r ∈ s.roleTbl, r.id ≠ role.id → ∀ k, (r.info.aInfo.secEnt k).valid = true →
      t'.entry (r.info.aInfo.secEnt k).ent = t.entry (r.info.aInfo.secEnt k).ent)
    (hnew : ∀ k, (info.aInfo.secEnt k).valid = true →
      SlotKey (t'.entry (info.aInfo.secEnt k).ent) ⟨role.id, role.macid, info⟩ k) :
    KeysMatch (s.setRole role.id role.macid info).roleTbl t' where
  mirrored := hm
  agree r hr k hv := by
    rcases mem_setRole.1 hr with ⟨hr, hne⟩ | ⟨-, rfl⟩
    · rw [hoth r hr hne k hv]; exact h.agree r hr k hv
    · exact hnew k hv

/-- The keys of a role are for their slots in the mode `mode`. -/
def KeysFit (t : SecCamTable) (role : MacRoleTbl) (mode : ℕ) : Prop :=
  ∀ k, (role.info.aInfo.secEnt k).valid = true →
    checkKeyIndex mode (t.entry (role.info.aInfo.secEnt k).ent).keyType k = true

instance {mode : ℕ} : Decidable (KeysFit t role mode) := by unfold KeysFit; infer_instance

section

variable (h : KeysMatch s.roleTbl t) (hs : s.Wf) (hr : role ∈ s.roleTbl)

include h hs hr

theorem KeysMatch.same (hsec : info.aInfo.secEnt = role.info.aInfo.secEnt) (hfit : KeysFit t role info.aInfo.secEntMode)
    (ht : t'.entry = t.entry) : KeysMatch (s.setRole role.id role.macid info).roleTbl t' := by
  refine h.setRole (h.mirrored.congr (fun i => by rw [ht]) fun p i => ?_) (fun r _ _ k _ => by rw [ht]) fun k hv => ?_
  · rw [owns_setRole hr, hsec]
    by_cases hp : p.1 = role.id
    · rw [owns_self hs hr hp]; simp [hp]
    · simp [hp]
  · rw [hsec] at hv
    have := h.agree role hr k hv
    rw [ht, hsec]
    refine ⟨this.macId, ?_, hfit k hv⟩
    show _ = (info.aInfo.secEnt k).keyid
    rw [hsec]; exact this.keyId

theorem KeysMatch.insert {k : Fin 7} {idx : ℕ} {keyId : UInt8} {keyType : ℕ} (hfree : (t.entry idx).valid = false)
    (hk : (role.info.aInfo.secEnt k).valid = false)
    (hsec : info.aInfo.secEnt = update role.info.aInfo.secEnt k ⟨true, keyId, idx⟩)
    (hmode : info.aInfo.secEntMode = role.info.aInfo.secEntMode)
    (hfit : checkKeyIndex role.info.aInfo.secEntMode keyType k = true)
    (ht : t'.entry = update t.entry idx ⟨true, role.macid, keyId, keyType⟩) :
    KeysMatch (s.setRole role.id role.macid info).roleTbl t' := by
  -- no slot has the entry
  have hne : ∀ r ∈ s.roleTbl, ∀ k, (r.info.aInfo.secEnt k).valid = true → (r.info.aInfo.secEnt k).ent ≠ idx := by
    intro r hrm k hv he
    have := (h.mirrored.holds idx).2 ⟨(r.id, k), r, hrm, rfl, hv, he⟩
    rw [hfree] at this; cases this
  refine h.setRole (h.mirrored.add (i := idx) (k := (role.id, k)) (by simp [hfree]) (fun j => ?_) fun p j => ?_)
    (fun r hrm _ k hv => ?_) fun k' hv => ?_
  · rw [ht]
    by_cases hj : j = idx
    · subst hj; simp
    · simp [hj]
  · rw [owns_setRole hr, hsec]
    obtain ⟨id, k'⟩ := p
    by_cases hid : id = role.id
    · subst hid
      rw [owns_self hs hr rfl]
      by_cases hkk : k' = k
      · subst hkk; simp [hk, eq_comm]
      · simp [hkk]
    · simp [hid]
  · rw [ht, update_of_ne (hne r hrm k hv)]
  · rw [hsec] at hv
    by_cases hkk : k' = k
    · subst hkk
      rw [ht, hsec, update_self, update_self]
      refine ⟨rfl, ?_, ?_⟩
      · show _ = (info.aInfo.secEnt k').keyid; rw [hsec, update_self]
      · show checkKeyIndex info.aInfo.secEntMode _ _ = true
        rw [hmode]; exact hfit
    · rw [update_of_ne hkk] at hv
      have := h.agree role hr k' hv
      rw [ht, hsec, update_of_ne hkk, update_of_ne (hne role hr k' hv)]
      refine ⟨this.macId, ?_, ?_⟩
      · show _ = (info.aInfo.secEnt k').keyid
        rw [hsec, update_of_ne hkk]; exact this.keyId
      · show checkKeyIndex info.aInfo.secEntMode _ _ = true
        rw [hmode]; exact this.keyType

theorem KeysMatch.clear {D : Fin 7 → Prop} (hnone : ∀ k, D k → (info.aInfo.secEnt k).valid = false)
    (hsame : ∀ k, ¬ D k → info.aInfo.secEnt k = role.info.aInfo.secEnt k ∧
      info.aInfo.secEntMode = role.info.aInfo.secEntMode)
    (hcl : ∀ k, D k → (role.info.aInfo.secEnt k).valid = true →
      (t'.entry (role.info.aInfo.secEnt k).ent).valid = false)
    (hkeep : ∀ i, (∀ k, D k → (role.info.aInfo.secEnt k).valid = true → (role.info.aInfo.secEnt k).ent ≠ i) →
      t'.entry i = t.entry i) :
    KeysMatch (s.setRole role.id role.macid info).roleTbl t' := by
  -- a slot that stays does not have an entry that is cleared
  have hstay : ∀ p i, Owns s.roleTbl p i → (p.1 = role.id → ¬ D p.2) → t'.entry i = t.entry i := by
    intro p i hp hd
    refine hkeep i fun k hk hv he => ?_
    have hk' : Owns s.roleTbl (role.id, k) i := ⟨role, hr, rfl, hv, he⟩
    obtain rfl := h.mirrored.inj p (role.id, k) i hp hk'
    exact hd rfl hk
  refine h.setRole (h.mirrored.drop (D := fun p => p.1 = role.id ∧ D p.2) (fun j => ?_) fun p j => ?_)
    (fun r hrm hne k hv => ?_) fun k hv => ?_
  · constructor
    · intro hv
      have hno : ∀ k, D k → (role.info.aInfo.secEnt k).valid = true → (role.info.aInfo.secEnt k).ent ≠ j := by
        intro k hk hkv he
        have := hcl k hk hkv
        rw [he, hv] at this; cases this
      refine ⟨hkeep j hno ▸ hv, ?_⟩
      rintro ⟨p, ⟨hp, hd⟩, ho⟩
      obtain ⟨hv', he⟩ := (owns_self hs hr hp).1 ho
      exact hno p.2 hd hv' he
    · rintro ⟨hv, hno⟩
      rw [hkeep j fun k hk hkv he => hno ⟨(role.id, k), ⟨rfl, hk⟩, role, hr, rfl, hkv, he⟩]
      exact hv
  · rw [owns_setRole hr]
    by_cases hp : p.1 = role.id
    · by_cases hd : D p.2
      · simp [hp, hd, hnone p.2 hd]
      · rw [owns_self hs hr hp, (hsame p.2 hd).1]; simp [hp, hd]
    · simp [hp]
  · exact hstay (r.id, k) _ ⟨r, hrm, rfl, hv, rfl⟩ fun he => absurd he hne
  · have hd : ¬ D k := by
      intro hd
      rw [hnone k hd] at hv; cases hv
    obtain ⟨he, hmode⟩ := hsame k hd
    rw [he] at hv ⊢
    have := h.agree role hr k hv
    rw [hstay (role.id, k) _ ⟨role, hr, rfl, hv, rfl⟩ fun _ => hd]
    refine ⟨this.macId, ?_, ?_⟩
    · show _ = (info.aInfo.secEnt k).keyid
      rw [he]; exact this.keyId
    · show checkKeyIndex info.aInfo.secEntMode _ _ = true
      rw [hmode]; exact this.keyType

end

def NoKeys (info : RoleInfo) : Prop := ∀ k, (info.aInfo.secEnt k).valid = false

instance : Decidable (NoKeys info) := by unfold NoKeys; infer_instance

theorem KeysMatch.congr {roles' : List MacRoleTbl} (h : KeysMatch roles t) (ht : t'.entry = t.entry)
    (hsub : ∀ r ∈ roles', r ∈ roles ∨ NoKeys r.info) (hsup : ∀ r ∈ roles, r ∈ roles' ∨ NoKeys r.info) :
    KeysMatch roles' t' where
  mirrored := by
    refine h.mirrored.congr (fun i => by rw [ht]) fun p i => ⟨?_, ?_⟩
    · rintro ⟨r, hr, hid, hv, he⟩
      rcases hsub r hr with hr | hno
      · exact ⟨r, hr, hid, hv, he⟩
      · rw [hno] at hv; cases hv
    · rintro ⟨r, hr, hid, hv, he⟩
      rcases hsup r hr with hr | hno
      · exact ⟨r, hr, hid, hv, he⟩
      · rw [hno] at hv; cases hv
  agree r hr k hv := by
    rw [ht]
    rcases hsub r hr with hr | hno
    · exact h.agree r hr k hv
    · rw [hno] at hv; cases hv

/-! ### The calls for a key -/

/-- A call for a key, with what becomes of its commands. -/
inductive KeyCall where
  | add (env : RoleEnv) (sec : H2c) (type : ℕ) (macId keyId : UInt8) (keyType : ℕ)
  | del (env : RoleEnv) (sec : H2c) (macId keyId : UInt8) (keyType : ℕ)

/-- `mac_sta_add_key`, `mac_sta_del_key`. -/
def Adapter.keyCall (hw : HwInfo) (s : Adapter) : KeyCall → KeyStatus × Adapter
  | .add env sec type macId keyId keyType => macStaAddKey hw env sec type macId keyId keyType s
  | .del env sec macId keyId keyType => macStaDelKey hw env sec macId keyId keyType s

/-- Both commands of a call that gets to them are carried out. -/
def KeyOk (hw : HwInfo) (s : Adapter) : KeyCall → Prop
  | .add env sec type macId _ keyType => type ≤ hwSupportEncTypeNum → ∀ role ∈ roleSrch s.roleTbl macId,
    (decideSecCamIndex s.secCam).isSome → (insertSlot role.info keyType).isSome →
      BssidKept hw env s role ∧ macUpdSecInfotbl env sec = .success
  | .del env sec macId keyId keyType => ∀ role ∈ roleSrch s.roleTbl macId,
    (deleteSlot role.info keyType keyId).isSome → BssidKept hw env s role ∧ macUpdSecInfotbl env sec = .success

instance KeyOk.decidable : ∀ (s : Adapter) (c : KeyCall), Decidable (KeyOk hw s c)
  | _, .add _ _ _ _ _ _ => by unfold KeyOk; infer_instance
  | _, .del _ _ _ _ _ => by unfold KeyOk; infer_instance

/-- The call gets an entry, and the next search starts behind it. -/
def MovesCursor (s : Adapter) : KeyCall → Prop
  | .add _ _ type macId _ _ => type ≤ hwSupportEncTypeNum ∧ (roleSrch s.roleTbl macId).isSome ∧
    ∃ e ∈ decideSecCamIndex s.secCam, e.2.nextCamStorageIdx ≠ s.secCam.nextCamStorageIdx
  | .del _ _ _ _ _ => False

/-- **The tables are unchanged**, but for where a search starts. -/
structure SameKeys (s s' : Adapter) : Prop where
  roleTbl : s'.roleTbl = s.roleTbl
  entry : s'.secCam.entry = s.secCam.entry

/-- With the keys, what is known of the table. -/
structure Adapter.KeyInv (s : Adapter) : Prop extends KeysMatch s.roleTbl s.secCam where
  wf : s.Wf
  lt : ∀ i, (s.secCam.entry i).valid = true → i < secCamEntryNum
  next : s.secCam.nextCamStorageIdx < secCamEntryNum

theorem freeSecCam_some {n : ℕ} : ∀ {start idx : ℕ}, start < secCamEntryNum → freeSecCam t n start = some idx →
    idx < secCamEntryNum ∧ (t.entry idx).valid = false := by
  induction n with
  | zero => exact fun _ h => (nomatch h)
  | succ n ih =>
    intro start idx hs h
    rw [freeSecCam] at h
    split at h
    · next hv =>
      obtain rfl := Option.some.inj h
      exact ⟨hs, hv⟩
    · exact ih (Nat.mod_lt _ (by decide)) h

theorem decideSecCamIndex_some {idx : ℕ} (hn : t.nextCamStorageIdx < secCamEntryNum)
    (h : decideSecCamIndex t = some (idx, t')) :
    idx < secCamEntryNum ∧ (t.entry idx).valid = false ∧
      t' = { t with nextCamStorageIdx := (idx + 1) % secCamEntryNum } := by
  obtain ⟨i, hi, he⟩ := Option.map_eq_some_iff.1 h
  obtain ⟨rfl, rfl⟩ := Prod.mk.inj he
  obtain ⟨hlt, hv⟩ := freeSecCam_some hn hi
  exact ⟨hlt, hv, rfl⟩

theorem updSecEnt_wf {k : Fin 7} {e : SecEnt} (hs : s.Wf) (hr : role ∈ s.roleTbl)
    (hsame : (role.info.setSecEnt k e).Same info') : (s.setRole role.id role.macid info').Wf := by
  have hf := hs.fit role hr
  exact hs.setRole hr _ (hsame.fit ⟨hf.macid, hf.checked, hf.maskSel, hf.addrMask⟩)

theorem setSecEnt_same {k : Fin 7} {e : SecEnt} (h : (info.setSecEnt k e).Same info') :
    info'.aInfo.secEnt = update info.aInfo.secEnt k e ∧ info'.aInfo.secEntMode = info.aInfo.secEntMode := by
  obtain ⟨_, _, _, _, rfl⟩ := h.eq
  exact ⟨rfl, rfl⟩

theorem macStaAddKey_spec {type keyType : ℕ} {macId keyId : UInt8} (hs : s.KeyInv)
    (hok : KeyOk hw s (.add env sec type macId keyId keyType)) {r : KeyStatus × Adapter}
    (h : KeyAdded hw env sec type macId keyId keyType s r) :
    r.2.KeyInv ∧ (r.1 ≠ .success → SameKeys s r.2 ∧
      (r.2.secCam = s.secCam ↔ ¬ MovesCursor s (.add env sec type macId keyId keyType))) := by
  cases h with
  | refused _ hwhy =>
    refine ⟨hs, fun _ => ⟨⟨rfl, rfl⟩, iff_of_true rfl ?_⟩⟩
    rintro ⟨ht, hr, e, he, -⟩
    rcases hwhy with h | h | h
    · omega
    · rw [h] at hr; cases hr
    · rw [h] at he; cases he
  | @noSlot role idx secCam ret hne ht hr hd _ =>
    obtain ⟨-, -, hcam⟩ := decideSecCamIndex_some hs.next hd
    have hentry : secCam.entry = s.secCam.entry := by rw [hcam]
    refine ⟨⟨hs.toKeysMatch.congr hentry (fun _ h => .inl h) fun _ h => .inl h, hs.wf.congr rfl rfl, ?_, ?_⟩,
      fun _ => ⟨⟨rfl, hentry⟩, ?_⟩⟩
    · simp only [hentry]; exact hs.lt
    · simp only [hcam]; exact Nat.mod_lt _ (by decide)
    · constructor
      · rintro he ⟨-, -, e, hed, hne⟩
        obtain rfl := Option.some.inj (hd.symm.trans hed)
        exact hne (congrArg _ he)
      · intro hno
        by_contra hne
        refine hno ⟨ht, by rw [hr]; rfl, (idx, secCam), hd, fun he => hne ?_⟩
        show secCam = s.secCam
        rw [hcam] at he ⊢
        simp only at he
        rw [he]
  | torn _ ht hr hd hi hfail =>
    obtain ⟨hkept, hsec⟩ := hok ht _ hr (by rw [hd]; rfl) (by rw [hi]; rfl)
    obtain ⟨_, _, _, _, _, hsucc⟩ := updSecEnt_spec ..
    exact absurd hsec (hfail (hsucc hkept))
  | @done role idx secCam k s' ht hr hd hi hu =>
    obtain ⟨hm, hmac⟩ := roleSrch_some hr
    obtain ⟨hlt, hfree, hcam⟩ := decideSecCamIndex_some hs.next hd
    obtain ⟨hk, hfit⟩ := insertSlot_some hi
    obtain ⟨info', htbl, hp, hsc, hsame, -⟩ := updSecEnt_spec hw env role k ⟨true, keyId, idx⟩ { s with secCam }
    rw [hu] at htbl hp hsc
    obtain ⟨hsecEnt, hmode⟩ := setSecEnt_same hsame
    have hentry : (mSecurityCamHal s'.secCam macId keyId keyType idx false).entry =
        update s.secCam.entry idx ⟨true, role.macid, keyId, keyType⟩ := by
      rw [hsc, mSecurityCamHal, if_neg (by omega), if_neg (by simp), hmac]
      simp only [hcam]
    refine ⟨⟨?_, (updSecEnt_wf hs.wf hm hsame).congr htbl hp, fun i hv => ?_, ?_⟩, fun h => absurd rfl h⟩
    · simp only [htbl]; exact hs.toKeysMatch.insert hs.wf hm hfree hk hsecEnt hmode hfit hentry
    · simp only [hentry] at hv
      by_cases hidx : i = idx
      · exact hidx ▸ hlt
      · rw [update_of_ne hidx] at hv; exact hs.lt i hv
    · simp only [mSecurityCamHal, hsc, hcam]
      split
      · exact Nat.mod_lt _ (by decide)
      · exact Nat.mod_lt _ (by decide)

theorem macStaDelKey_spec {keyType : ℕ} {macId keyId : UInt8} (hs : s.KeyInv)
    (hok : KeyOk hw s (.del env sec macId keyId keyType)) {r : KeyStatus × Adapter}
    (h : KeyDeleted hw env sec macId keyId keyType s r) : r.2.KeyInv ∧ (r.1 ≠ .success → r.2 = s) := by
  cases h with
  | refused _ _ => exact ⟨hs, fun _ => rfl⟩
  | torn _ hr hi hfail =>
    obtain ⟨hkept, hsec⟩ := hok _ hr (by rw [hi]; rfl)
    obtain ⟨_, _, _, _, _, hsucc⟩ := updSecEnt_spec ..
    exact absurd hsec (hfail (hsucc hkept))
  | @done role k s' hr hi hu =>
    obtain ⟨hm, -⟩ := roleSrch_some hr
    obtain ⟨hv, -⟩ := deleteSlot_some hi
    obtain ⟨info', htbl, hp, hsc, hsame, -⟩ := updSecEnt_spec hw env role k .none s
    rw [hu] at htbl hp hsc
    obtain ⟨hsecEnt, hmode⟩ := setSecEnt_same hsame
    have hent : (role.info.aInfo.secEnt k).ent < secCamEntryNum :=
      hs.lt _ ((hs.mirrored.holds _).2 ⟨(role.id, k), role, hm, rfl, hv, rfl⟩)
    have hentry : (mSecurityCamHal s'.secCam macId keyId keyType (role.info.aInfo.secEnt k).ent true).entry =
        update s.secCam.entry (role.info.aInfo.secEnt k).ent ⟨false, 0, 0, 0⟩ := by
      rw [hsc, mSecurityCamHal, if_neg (by omega), if_pos rfl]
    refine ⟨⟨?_, (updSecEnt_wf hs.wf hm hsame).congr htbl hp, fun i hv => ?_, ?_⟩, fun h => absurd rfl h⟩
    · simp only [htbl]
      refine hs.toKeysMatch.clear hs.wf hm (D := (· = k)) ?_ ?_ ?_ ?_
      · rintro _ rfl
        rw [hsecEnt, update_self]; rfl
      · intro k' hk'
        rw [hsecEnt, update_of_ne hk']; exact ⟨rfl, hmode⟩
      · rintro _ rfl -; rw [hentry, update_self]
      · intro i hi; rw [hentry, update_of_ne (hi k rfl hv).symm]
    · simp only [hentry] at hv
      by_cases hidx : i = (role.info.aInfo.secEnt k).ent
      · exact hidx ▸ hent
      · rw [update_of_ne hidx] at hv; exact hs.lt i hv
    · simp only [mSecurityCamHal, hsc]
      split
      · exact hs.next
      · exact hs.next

/-! ### The calls for a role -/

/-- A change that disconnects the role, and flushes its keys. -/
def Flushes (info : RoleInfo) : Prop := info.updMode = .conDisconn ∧ info.opmode = .disconn

instance : Decidable (Flushes info) := inferInstanceAs (Decidable (_ ∧ _))

/-- A removal that succeeds is of a role without keys; else the keys are for their slots in the mode of the role. -/
def RemoveKeysOk (hw : HwInfo) (env : RoleEnv) (macid : UInt8) (s : Adapter) : Prop :=
  ∀ role ∈ roleSrch s.roleTbl macid,
    if RemoveDone hw env s role then NoKeys role.info else KeysFit s.secCam role role.info.secEntMode

def removeOne (hw : HwInfo) (sw : Bool) (env : RoleEnv) (macid : UInt8) (s : Adapter) : MacStatus × Adapter :=
  if sw then removeRoleSoft macid s else removeRole hw env macid s

/-- The removals of a band, one after the other. -/
def BandKeysOk (hw : HwInfo) (band : ℕ) (sw : Bool) : List MacRoleTbl → (ℕ → RoleEnv) → Adapter → Prop
  | [], _, _ => True
  | curr :: rest, env, s =>
    if band = curr.info.band then
      (if sw = true then ∀ role ∈ roleSrch s.roleTbl curr.macid, NoKeys role.info
        else RemoveKeysOk hw (env 0) curr.macid s) ∧
      ((removeOne hw sw (env 0) curr.macid s).1 = .success ∨ (removeOne hw sw (env 0) curr.macid s).1 = .noRole →
        BandKeysOk hw band sw rest (fun k => env (k + 1)) (removeOne hw sw (env 0) curr.macid s).2)
    else BandKeysOk hw band sw rest env s

/-- What a call for a role needs: a change that flushes no keys leaves them for their slots. -/
def RoleKeysOk (hw : HwInfo) (s : Adapter) : RoleCall → Prop
  | .add _ _ => True
  | .change info env => roleInfoValid s.roleTbl info .chg = .success → ∀ role ∈ roleSrch s.roleTbl info.macid,
    (info.updMode = .bandSw → role.info.dbccRole = true ∧ env.dbccMove = .success) → ¬ Flushes info →
      KeysFit s.secCam role info.secEntMode
  | .remove macid env => RemoveKeysOk hw env macid s
  | .removeByBand band sw env => BandKeysOk hw band sw s.roleTbl env s

instance {macid : UInt8} : Decidable (RemoveKeysOk hw env macid s) := by unfold RemoveKeysOk; infer_instance

instance BandKeysOk.decidable {band : ℕ} {sw : Bool} : ∀ (roles : List MacRoleTbl) (env : ℕ → RoleEnv)
    (s : Adapter), Decidable (BandKeysOk hw band sw roles env s)
  | [], _, _ => inferInstanceAs (Decidable True)
  | curr :: rest, env, s =>
    have (s : Adapter) : Decidable (BandKeysOk hw band sw rest (fun k => env (k + 1)) s) :=
      BandKeysOk.decidable rest _ s
    have : Decidable (BandKeysOk hw band sw rest env s) := BandKeysOk.decidable rest env s
    by unfold BandKeysOk; infer_instance

instance RoleKeysOk.decidable : ∀ (s : Adapter) (c : RoleCall), Decidable (RoleKeysOk hw s c)
  | _, .add _ _ => inferInstanceAs (Decidable True)
  | s, .change info env => by unfold RoleKeysOk; infer_instance
  | s, .remove macid env => inferInstanceAs (Decidable (RemoveKeysOk hw env macid s))
  | s, .removeByBand band sw env => inferInstanceAs (Decidable (BandKeysOk hw band sw s.roleTbl env s))

theorem changeInfo_flush (role : MacRoleTbl) (t : SecCamTable) (h : Flushes info) :
    (changeInfo role info t).1.aInfo.secEnt = (fun _ => .none) ∧
      (changeInfo role info t).2 = disconnectFlushKey t role.info.aInfo.secEnt := by
  have he : changeInfo role info t = secInfoDeinit (roleInfoInit { info with
      aInfo := role.info.aInfo, bInfo := role.info.bInfo, dbccRole := role.info.dbccRole }) t := if_pos h
  rw [he]; exact ⟨rfl, rfl⟩

theorem changeInfo_keys (role : MacRoleTbl) (t : SecCamTable) (h : ¬ Flushes info) :
    (changeInfo role info t).1.aInfo.secEnt = role.info.aInfo.secEnt ∧
      (changeInfo role info t).1.aInfo.secEntMode = info.secEntMode ∧ (changeInfo role info t).2 = t := by
  have he : changeInfo role info t = (roleInfoInit { info with
      aInfo := role.info.aInfo, bInfo := role.info.bInfo, dbccRole := role.info.dbccRole }, t) := if_neg h
  rw [he]; exact ⟨rfl, rfl, rfl⟩

theorem Changed.keys {r : MacStatus × Adapter} (h : Changed hw env info s r) :
    r.2 = s ∨ ∃ role info', roleInfoValid s.roleTbl info .chg = .success ∧ roleSrch s.roleTbl info.macid = some role ∧
      (info.updMode = .bandSw → role.info.dbccRole = true ∧ env.dbccMove = .success) ∧
      r.2.roleTbl = (s.setRole role.id role.macid info').roleTbl ∧
      r.2.secCam = (changeInfo role info s.secCam).2 ∧ (changeInfo role info s.secCam).1.Same info' := by
  cases h with
  | refused _ => exact .inl rfl
  | @stopped role hv hr hband _ =>
    obtain ⟨-, hmac⟩ := roleSrch_some hr
    exact .inr ⟨role, _, hv, hr, hband, by rw [hmac]; rfl, rfl, .refl _⟩
  | @done role ret info' s' hv hr hband _ hu =>
    obtain ⟨-, hmac⟩ := roleSrch_some hr
    obtain ⟨-, -, hc⟩ := hu.frame
    exact .inr ⟨role, info', hv, hr, hband, changeDone_roleTbl hmac hu, hc, hu.sameInfo⟩

theorem RoleInfo.Same.keys (h : info.Same info') :
    info'.aInfo.secEnt = info.aInfo.secEnt ∧ info'.aInfo.secEntMode = info.aInfo.secEntMode := by
  obtain ⟨_, _, _, _, rfl⟩ := h.eq
  exact ⟨rfl, rfl⟩

theorem addRole_keys (hs : s.KeyInv) : (addRole hw env info s).2.KeyInv := by
  have h := addRole_added hw env info s
  have hwf := h.wf hs.wf
  generalize addRole hw env info s = r at h hwf ⊢
  cases h with
  | noRole _ => exact hs
  | back _ _ _ _ => exact ⟨hs.toKeysMatch, hwf, hs.lt, hs.next⟩
  | lost _ _ _ _ => exact ⟨hs.toKeysMatch, hwf, hs.lt, hs.next⟩
  | @done role pool ret info' s' _ _ _ hu _ _ =>
    obtain ⟨ht, -, hc⟩ := hu.frame
    obtain ⟨hsec, -⟩ := hu.sameInfo.keys
    simp only at ht hc hsec
    have hno : NoKeys info' := by
      intro k
      rw [hsec]; rfl
    refine ⟨hs.toKeysMatch.congr (by rw [hc]) (fun r hr => ?_) fun r hr => ?_, hwf, by rw [hc]; exact hs.lt,
      by rw [hc]; exact hs.next⟩
    · rw [ht] at hr
      rcases List.mem_append.1 hr with hr | hr
      · exact .inl hr
      · rw [List.mem_singleton.1 hr]; exact .inr hno
    · rw [ht]; exact .inl (List.mem_append_left _ hr)

theorem changeRole_keys (hs : s.KeyInv) (hok : RoleKeysOk hw s (.change info env)) :
    (changeRole hw env info s).2.KeyInv := by
  have h := changeRole_changed hw env info s
  have hwf := h.wf hs.wf
  rcases h.keys with he | ⟨role, info', hv, hr, hband, ht, hc, hsame⟩
  · rw [he]; exact hs
  · obtain ⟨hm, -⟩ := roleSrch_some hr
    obtain ⟨hsec, hmode⟩ := hsame.keys
    by_cases hf : Flushes info
    · have hinfo := changeInfo_flush role s.secCam hf
      rw [hinfo.2] at hc
      have hentry := fun i => congrArg (·.entry i) hc
      simp only [disconnectFlushKey_spec] at hentry
      refine ⟨?_, hwf, fun i hvi => ?_, ?_⟩
      · rw [ht]
        refine hs.toKeysMatch.clear hs.wf hm (D := fun _ => True) ?_ ?_ ?_ ?_
        · intro k _
          rw [hsec, hinfo.1]; rfl
        · exact fun k hk => absurd trivial hk
        · intro k _ hk
          have hlt := hs.lt _ ((hs.mirrored.holds _).2 ⟨(role.id, k), role, hm, rfl, hk, rfl⟩)
          rw [hentry, if_pos ⟨hlt, k, hk, rfl⟩]
        · intro i hi
          rw [hentry, if_neg]
          rintro ⟨-, k, hk, he⟩
          exact hi k trivial hk he
      · rw [hentry] at hvi
        split at hvi
        · cases hvi
        · exact hs.lt i hvi
      · rw [hc]; exact (disconnectFlushKey_next ..).symm ▸ hs.next
    · have hinfo := changeInfo_keys role s.secCam hf
      rw [hinfo.2.2] at hc
      refine ⟨?_, hwf, by rw [hc]; exact hs.lt, by rw [hc]; exact hs.next⟩
      rw [ht]
      refine hs.toKeysMatch.same hs.wf hm (hsec.trans hinfo.1) ?_ (by rw [hc])
      rw [hmode, hinfo.2.1]; exact hok hv role hr hband hf

theorem removeChange_keys {r : MacStatus × Adapter} (hs : s.Wf) (hm : role ∈ s.roleTbl)
    (h : Changed hw env (removedInfo s role) (removeStart s role) r) :
    ∃ info', r.2.roleTbl = (s.setRole role.id role.macid info').roleTbl ∧ r.2.secCam = s.secCam ∧
      info'.aInfo.secEnt = role.info.aInfo.secEnt ∧
      (info'.aInfo.secEntMode = role.info.secEntMode ∨ info'.aInfo.secEntMode = role.info.aInfo.secEntMode) := by
  obtain ⟨v, hinfo⟩ := removedInfo_eq s role
  rcases h.keys with he | ⟨role', info', -, hr, -, ht, hc, hsame⟩
  · rw [he]
    refine ⟨removedInfo s role, removeStart_roleTbl s role, rfl, ?_, .inr ?_⟩
    · rw [hinfo]; rfl
    · rw [hinfo]; rfl
  · obtain rfl := Option.some.inj (hr.symm.trans (removeStart_srch hs hm))
    rw [changeInfo_removed] at hc hsame
    obtain ⟨hsec, hmode⟩ := hsame.keys
    refine ⟨info', ht.trans (setRole_of_setRole (removeStart_roleTbl s role)), hc, ?_, .inl ?_⟩
    · rw [hsec, hinfo]; rfl
    · rw [hmode, hinfo]; rfl

theorem Adapter.KeyInv.marked (hs : s.KeyInv) (hm : role ∈ s.roleTbl) (hwf : s'.Wf)
    (ht : s'.roleTbl = (s.setRole role.id role.macid info').roleTbl) (hc : s'.secCam = s.secCam)
    (hsec : info'.aInfo.secEnt = role.info.aInfo.secEnt)
    (hmode : info'.aInfo.secEntMode = role.info.secEntMode ∨ info'.aInfo.secEntMode = role.info.aInfo.secEntMode)
    (hfit : KeysFit s.secCam role role.info.secEntMode) : s'.KeyInv := by
  refine ⟨?_, hwf, by rw [hc]; exact hs.lt, by rw [hc]; exact hs.next⟩
  rw [ht]
  refine hs.toKeysMatch.same hs.wf hm hsec ?_ (by rw [hc])
  rcases hmode with h | h
  · rw [h]; exact hfit
  · rw [h]; exact fun k hv => (hs.agree role hm k hv).keyType

theorem Adapter.KeyInv.gone (hs : s.KeyInv) (hm : role ∈ s.roleTbl) (hwf : s'.Wf)
    (ht : s'.roleTbl = s.roleTbl.filter (·.id ≠ role.id)) (hc : s'.secCam = s.secCam) (hno : NoKeys role.info) :
    s'.KeyInv := by
  refine ⟨?_, hwf, by rw [hc]; exact hs.lt, by rw [hc]; exact hs.next⟩
  rw [ht]
  refine hs.toKeysMatch.congr (by rw [hc]) (fun r hr => .inl (List.mem_filter.1 hr).1) fun r hr => ?_
  by_cases hid : r.id = role.id
  · rw [hs.wf.eq_of_id hr hm hid]; exact .inr hno
  · exact .inl (List.mem_filter.2 ⟨hr, decide_eq_true hid⟩)

theorem removeRole_keys {macid : UInt8} (hs : s.KeyInv) (hok : RemoveKeysOk hw env macid s) :
    (removeRole hw env macid s).2.KeyInv := by
  have h := removeRole_removed hw env macid s
  have hwf := h.wf hs.wf
  rcases hr : roleSrch s.roleTbl macid with _ | role
  · rw [removeRole_noRole hr]; exact hs
  · obtain ⟨hm, rfl⟩ := roleSrch_some hr
    have hok := hok role hr
    obtain ⟨info', ht, hc, hsec, hmode⟩ :=
      removeChange_keys hs.wf hm (changeRole_changed hw env (removedInfo s role) (removeStart s role))
    have hdone := fun hd : RemoveDone hw env s role =>
      removeRole_success hs.wf hm hd.1 hd.2.1 hd.2.2.1 hd.2.2.2
    have hdone' : (removeRole hw env role.macid s).1 = .success → RemoveDone hw env s role :=
      removeRole_done hs.wf hr
    have hrest := fun hsucc => h.rest hs.wf hr hsucc
    generalize removeRole hw env role.macid s = r at h hwf hdone hdone' hrest ⊢
    cases h with
    | noRole _ => exact hs
    | failed hr₀ hch hne =>
      obtain rfl := Option.some.inj (hr₀.symm.trans hr)
      rw [if_neg fun hd => hne (hdone hd)] at hok
      rw [hch] at ht hc; exact hs.marked hm hwf ht hc hsec hmode hok
    | @dbcc role₀ role' s' hr₀ hch hf _ hne =>
      obtain rfl := Option.some.inj (hr₀.symm.trans hr)
      rw [if_neg fun hd => hne (hdone hd)] at hok
      rw [hch] at ht hc
      obtain rfl := found_setRole ht hf
      exact hs.marked hm hwf (setRole_of_setRole ht) hc hsec hmode hok
    | @done role₀ role' s' hr₀ hch hf hdb =>
      obtain rfl := Option.some.inj (hr₀.symm.trans hr)
      rw [if_pos (hdone' rfl)] at hok
      rw [hch] at hc; exact hs.gone hm hwf (hrest rfl).1 hc hok

theorem removeRoleSoft_keys {macid : UInt8} (hs : s.KeyInv)
    (hok : ∀ role ∈ roleSrch s.roleTbl macid, NoKeys role.info) : (removeRoleSoft macid s).2.KeyInv := by
  unfold removeRoleSoft
  rcases hr : roleSrch s.roleTbl macid with _ | role
  · exact hs
  · obtain ⟨hm, -⟩ := roleSrch_some hr
    refine hs.gone hm ⟨?_, ?_, ?_⟩ rfl rfl (hok role hr)
    · exact (roleReturn_ids role hs.wf.listIds (List.mem_map_of_mem hm)).nodup_iff.2 hs.wf.ids
    · exact hs.wf.macids.sublist (List.filter_sublist.map _)
    · exact fun r h => hs.wf.fit r (List.mem_filter.1 h).1

theorem removeRolesOf_keys {band : ℕ} {sw : Bool} (roles : List MacRoleTbl) :
    ∀ {env : ℕ → RoleEnv} {s : Adapter}, s.KeyInv → BandKeysOk hw band sw roles env s →
      (removeRolesOf hw band sw roles env s).2.KeyInv := by
  induction roles with
  | nil => exact fun hs _ => hs
  | cons curr rest ih =>
    intro env s hs hok
    rw [removeRolesOf]
    rw [BandKeysOk] at hok
    by_cases hb : band = curr.info.band
    · rw [if_pos hb] at hok ⊢
      have hone : (removeOne hw sw (env 0) curr.macid s).2.KeyInv := by
        cases sw with
        | true => exact removeRoleSoft_keys hs hok.1
        | false => exact removeRole_keys hs hok.1
      have hrest := hok.2
      unfold removeOne at hone hrest
      generalize (if sw = true then removeRoleSoft curr.macid s else removeRole hw (env 0) curr.macid s) = r
        at hone hrest ⊢
      obtain ⟨ret, s'⟩ := r
      by_cases hret : ret = .success ∨ ret = .noRole
      · have hgo := ih hone (hrest hret)
        rcases hret with rfl | rfl
        · exact hgo
        · exact hgo
      · simp only [not_or] at hret
        cases ret <;> first | exact absurd rfl hret.1 | exact absurd rfl hret.2 | exact hone
    · rw [if_neg hb] at hok ⊢; exact ih hs hok

/-! ### A run -/

inductive SecCall where
  | key (c : KeyCall)
  | role (c : RoleCall)

def Adapter.secStep (hw : HwInfo) (s : Adapter) : SecCall → Adapter
  | .key c => (s.keyCall hw c).2
  | .role c => (s.call hw c).2

def SecOk (hw : HwInfo) (s : Adapter) : SecCall → Prop
  | .key c => KeyOk hw s c
  | .role c => RoleKeysOk hw s c

instance SecOk.decidable : ∀ (s : Adapter) (c : SecCall), Decidable (SecOk hw s c)
  | s, .key c => inferInstanceAs (Decidable (KeyOk hw s c))
  | s, .role c => inferInstanceAs (Decidable (RoleKeysOk hw s c))

theorem keyCall_spec {c : KeyCall} (hs : s.KeyInv) (hok : KeyOk hw s c) :
    (s.keyCall hw c).2.KeyInv ∧ ((s.keyCall hw c).1 ≠ .success → SameKeys s (s.keyCall hw c).2 ∧
      ((s.keyCall hw c).2.secCam = s.secCam ↔ ¬ MovesCursor s c)) := by
  cases c with
  | add env sec type macId keyId keyType => exact macStaAddKey_spec hs hok (macStaAddKey_added ..)
  | del env sec macId keyId keyType =>
    obtain ⟨hinv, hsame⟩ := macStaDelKey_spec hs hok (macStaDelKey_deleted ..)
    refine ⟨hinv, fun hne => ?_⟩
    show SameKeys s (macStaDelKey hw env sec macId keyId keyType s).2 ∧
      ((macStaDelKey hw env sec macId keyId keyType s).2.secCam = s.secCam ↔ _)
    rw [hsame hne]; exact ⟨⟨rfl, rfl⟩, iff_of_true rfl id⟩

theorem roleCall_keys {c : RoleCall} (hs : s.KeyInv) (hok : RoleKeysOk hw s c) : (s.call hw c).2.KeyInv := by
  cases c with
  | add info env => exact addRole_keys hs
  | change info env => exact changeRole_keys hs hok
  | remove macid env => exact removeRole_keys hs hok
  | removeByBand band sw env => exact removeRolesOf_keys s.roleTbl hs hok

theorem secStep_inv {c : SecCall} (hs : s.KeyInv) (hok : SecOk hw s c) : (s.secStep hw c).KeyInv := by
  cases c with
  | key c => exact (keyCall_spec hs hok).1
  | role c => exact roleCall_keys hs hok

theorem roleTblInit_keys (hw : HwInfo) : (roleTblInit hw).KeyInv := by
  refine ⟨⟨⟨fun i => ?_, ?_⟩, ?_⟩, (roleTblInit_inv hw).wf, ?_, ?_⟩
  · exact ⟨fun h => (nomatch h), fun ⟨_, _, h, _⟩ => (nomatch h)⟩
  · exact fun _ _ _ ⟨_, h, _⟩ => (nomatch h)
  · exact fun _ h => (nomatch h)
  · exact fun _ h => (nomatch h)
  · show 0 < secCamEntryNum; decide

/-- **The keys**: in a run whose calls have what they need, in every state the valid entries of the security CAM are
those of the valid slots, and a call for a key that fails has changed neither table, but for where a search starts. -/
theorem key_run {hw : HwInfo} (calls : List SecCall)
    (h : Legal (Adapter.secStep hw) (SecOk hw) (roleTblInit hw) calls) :
    (∀ pre, pre <+: calls →
      let s := pre.foldl (Adapter.secStep hw) (roleTblInit hw)
      KeysMatch s.roleTbl s.secCam) ∧
    ∀ pre c, pre ++ [.key c] <+: calls →
      let s := pre.foldl (Adapter.secStep hw) (roleTblInit hw)
      (s.keyCall hw c).1 ≠ .success → SameKeys s (s.keyCall hw c).2 ∧
        ((s.keyCall hw c).2.secCam = s.secCam ↔ ¬ MovesCursor s c) := by
  have hinv : ∀ pre, pre <+: calls → (pre.foldl (Adapter.secStep hw) (roleTblInit hw)).KeyInv := fun pre hpre =>
    h.keeps (B := fun _ _ => False) (roleTblInit_keys hw) (fun _ _ hs hok _ => secStep_inv hs hok)
      (fun _ _ _ => id) hpre
  refine ⟨fun pre hpre => (hinv pre hpre).toKeysMatch, fun pre c hpre => ?_⟩
  exact (keyCall_spec (hinv pre ((List.prefix_append _ _).trans hpre)) (h.last hpre)).2

/-- A station gets keys, loses them by a disconnection, and is removed. -/
def stationKeys : List SecCall :=
  [.role (.add { newRole .client .infra 1 (bss 1) with secEntMode := 2 } goodEnv),
    .key (.add goodEnv (.sent .success) 6 1 0 0), .key (.add goodEnv (.sent .success) 6 1 1 1),
    .key (.del goodEnv (.sent .success) 1 1 1), .key (.del goodEnv .noMem 1 1 1),
    .role (.change { newRole .client .infra 1 (bss 1) with updMode := .conDisconn, secEntMode := 2 } goodEnv),
    .role (.remove 1 goodEnv)]

theorem key_run_some : (∀ pre, pre <+: stationKeys →
      let s := pre.foldl (Adapter.secStep hw8852c) (roleTblInit hw8852c)
      KeysMatch s.roleTbl s.secCam) ∧
    ∀ pre c, pre ++ [.key c] <+: stationKeys →
      let s := pre.foldl (Adapter.secStep hw8852c) (roleTblInit hw8852c)
      (s.keyCall hw8852c c).1 ≠ .success → SameKeys s (s.keyCall hw8852c c).2 ∧
        ((s.keyCall hw8852c c).2.secCam = s.secCam ↔ ¬ MovesCursor s c) :=
  key_run stationKeys (by decide)

/-- **The second command of a new key is not sent**: its slot has an entry that is not valid. -/
theorem slot_without_entry : ¬ ∀ (hw : HwInfo) (calls : List SecCall),
      let s := calls.foldl (Adapter.secStep hw) (roleTblInit hw)
      KeysMatch s.roleTbl s.secCam := by
  intro h
  have hm := h hw8852c [.role (.add (newRole .client .infra 1 (bss 1)) goodEnv), .key (.add goodEnv .noMem 6 1 0 0)]
  have hslot : ∃ r ∈ (([.role (.add (newRole .client .infra 1 (bss 1)) goodEnv),
      .key (.add goodEnv .noMem 6 1 0 0)] : List SecCall).foldl (Adapter.secStep hw8852c)
        (roleTblInit hw8852c)).roleTbl,
      r.id = 0 ∧ (r.info.aInfo.secEnt 0).valid = true ∧ (r.info.aInfo.secEnt 0).ent = 0 := by decide
  exact absurd ((hm.mirrored.holds 0).2 ⟨(0, 0), hslot⟩) (by decide)

end Rtl8852cu.Role
