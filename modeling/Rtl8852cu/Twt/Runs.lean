import Rtl8852cu.Lib.Reach
import Rtl8852cu.Twt.Config

/-!
# The TWT entries over runs

No lookup finds an entry, since all go by the role: a flow id in use is given out again, a teardown and a release find
nothing to do.
-/

namespace Rtl8852cu.Twt

open Lib

variable {s : TwtInfoState} {env : TwtEnv} {sta role id i : ℕ} {setup : TwtSetup} {negoType : NegoType}

/-! ### What is to hold -/

/-- An entry is free exactly when it has no station, and a flow of a station is in one entry at most. -/
structure TwtInfoState.Consistent (s : TwtInfoState) : Prop where
  free : ∀ i < maxNumHwTwtConfig, (s.cfg i).state = .free ↔ (s.cfg i).twtStaQueue = []
  once : ∀ i < maxNumHwTwtConfig, ∀ j < maxNumHwTwtConfig, ∀ a ∈ (s.cfg i).twtStaQueue, a ∈ (s.cfg j).twtStaQueue →
    i = j

/-- The entry is in use, and `P` holds of a station of it. -/
def TwtInfoState.Live (s : TwtInfoState) (i : ℕ) (P : TwtStaInfo → Prop) : Prop :=
  i < maxNumHwTwtConfig ∧ (s.cfg i).state ≠ .free ∧ ∃ a ∈ (s.cfg i).twtStaQueue, P a

/-- The negotiation type of the entries that a teardown is for. -/
def teardownType (negoType : NegoType) : NegoType := if negoType = .manageBcastTwt then .bcastTwt else negoType

/-- **What an operation is to do**: a new flow id is not in use; an accept that fails leaves the free entries free; no
entry is left for a flow that is torn down, or for a role that is freed. -/
def TwtOp.Done (s : TwtInfoState) : TwtOp → Prop
  | .getNewFlowId sta env => ∀ id, (twtGetNewFlowId env s sta).2.1 = some id →
    ∀ i, ¬ (twtGetNewFlowId env s sta).2.2.Live i fun a => a = ⟨sta, id⟩
  | .accept setup sta env => (twtAcceptForStaMode env s setup sta).1 ≠ .success →
    ∀ i < maxNumHwTwtConfig, (s.cfg i).state = .free → ((twtAcceptForStaMode env s setup sta).2.cfg i).state = .free
  | .teardown sta negoType id env => (twtTeardownForStaMode env s sta negoType id).1 = .success →
    ∀ i, ((twtTeardownForStaMode env s sta negoType id).2.cfg i).twtInfo.negoType = teardownType negoType →
      ¬ (twtTeardownForStaMode env s sta negoType id).2.Live i fun a => a.isFor sta id = true
  | .freeAll role env => ∀ i, ¬ (twtFreeAllTwtByRole env s role).2.Live i fun a => env.wrole a.phlSta = role

/-- The operation does what it is to do and leaves the entries as they are to be. -/
def TwtOp.Holds (s : TwtInfoState) (op : TwtOp) : Prop := (s.step op).Consistent ∧ op.Done s

/-- The device has TWT, and it has been started. -/
def TwtInfoState.Usable (s : TwtInfoState) : Prop := s.twtSup = true ∧ s.twtInit = true

/-- **When it does**: a new flow id is asked for by a station whose flow `0` is not in use; what is accepted is taken by
the firmware, and is no flow in use; what is torn down or freed has no entry. -/
def TwtOp.Ok (s : TwtInfoState) : TwtOp → Prop
  | .getNewFlowId sta _ => s.Usable → (∃ i < maxNumHwTwtConfig, (s.cfg i).state = .free) →
    ∀ i, ¬ s.Live i fun a => a = ⟨sta, 0⟩
  | .accept setup sta env => s.Usable → setup.negoType = .indivTwt →
    (∃ i < maxNumHwTwtConfig, (s.cfg i).state = .free) → env.infoEnable = true ∧
      (env.memAlloc = true → env.staAdd = true → ∀ i, ¬ s.Live i fun a => a = ⟨sta, setup.twtFlowId⟩)
  | .teardown sta negoType id _ => negoType = .indivTwt → ∀ i, ¬ s.Live i fun a => a.isFor sta id = true
  | .freeAll role env => ∀ i, ¬ s.Live i fun a => env.wrole a.phlSta = role

/-! ### The invariant -/

/-- **No entry has a role.** Those in use are of an individual TWT, and there are none before the start. -/
structure TwtInfoState.Inv (s : TwtInfoState) : Prop where
  consistent : s.Consistent
  role : ∀ i, (s.cfg i).role = none
  indiv : ∀ i < maxNumHwTwtConfig, (s.cfg i).state ≠ .free → (s.cfg i).twtInfo.negoType = .indivTwt
  idle : ¬ s.Usable → ∀ i < maxNumHwTwtConfig, (s.cfg i).state = .free

theorem twtStart_inv (twtSup twtInit : Bool) : (twtStart twtSup twtInit).Inv where
  consistent := ⟨fun _ _ => iff_of_true rfl rfl, fun _ _ _ _ _ ha => absurd ha List.not_mem_nil⟩
  role _ := rfl
  indiv _ _ h := absurd rfl h
  idle _ _ _ := rfl

theorem not_usable : ¬ s.Usable ↔ s.twtSup = false ∨ s.twtInit = false := by
  unfold TwtInfoState.Usable
  rw [not_and_or, Bool.not_eq_true, Bool.not_eq_true]

theorem mem_ring : i ∈ ring ↔ i < maxNumHwTwtConfig := List.mem_range

@[simp] theorem cfg_setCfg (s : TwtInfoState) (i : ℕ) (c : TwtConfig) : (s.setCfg i c).cfg i = c := by
  unfold TwtInfoState.setCfg
  simp only [Function.update_self]

theorem cfg_setCfg_ne {j : ℕ} (h : j ≠ i) (c : TwtConfig) : (s.setCfg i c).cfg j = s.cfg j := by
  unfold TwtInfoState.setCfg
  simp only [Function.update_of_ne h]

@[simp] theorem setCfg_setCfg (c d : TwtConfig) : (s.setCfg i c).setCfg i d = s.setCfg i d := by
  unfold TwtInfoState.setCfg
  rw [Function.update_idem]

/-! ### Lookups -/

theorem getNewConfig_cases (s : TwtInfoState) :
    (getNewConfig s = none ∧ ∀ i < maxNumHwTwtConfig, (s.cfg i).state ≠ .free) ∨
    ∃ i < maxNumHwTwtConfig, (s.cfg i).state = .free ∧ getNewConfig s = some (i, s.setCfg i { s.cfg i with
        role := none, state := .idle, twtInfo := { TwtInfo.zero with twtId := i } }) := by
  unfold getNewConfig
  cases hfind : ring.find? fun i => decide ((s.cfg i).state = .free) with
  | none =>
    refine .inl ⟨rfl, fun i hi hfree => ?_⟩
    exact List.find?_eq_none.mp hfind i (mem_ring.mpr hi) (decide_eq_true hfree)
  | some i =>
    have hp := List.find?_some hfind
    exact .inr ⟨i, mem_ring.mp (List.mem_of_find?_eq_some hfind), of_decide_eq_true hp, rfl⟩

namespace TwtInfoState.Inv

theorem role_ne (h : s.Inv) (i : ℕ) : (s.cfg i).role ≠ some role := by
  rw [h.role]; exact nofun

theorem getConfigByRole (h : s.Inv) (role : ℕ) : getConfigByRole s role = none := by
  refine List.find?_eq_none.mpr fun i _ => ?_
  rw [decide_eq_false (h.role_ne i), Bool.and_false]; exact Bool.false_ne_true

theorem twtFlowIdExist (h : s.Inv) : twtFlowIdExist env s sta id = false := by
  refine List.any_eq_false.mpr fun i _ => ?_
  rw [decide_eq_false (h.role_ne i), Bool.and_false, Bool.false_and, Bool.false_and]
  exact Bool.false_ne_true

theorem twtDeleteStaInfo (h : s.Inv) : twtDeleteStaInfo env s sta false negoType id = (.success, s, 0) := by
  have hloop : ∀ is bitmap error, twtDeleteStaInfoLoop env sta false
      (if negoType = .manageBcastTwt then .bcastTwt else negoType) id is s bitmap error = (s, bitmap, error) := by
    intro is bitmap error
    induction is with
    | nil => rfl
    | cons i is ih =>
      unfold twtDeleteStaInfoLoop
      simp only
      rw [if_pos (.inr (.inl (h.role_ne i)))]; exact ih
  unfold Twt.twtDeleteStaInfo
  simp only
  rw [if_neg Bool.false_ne_true, hloop]; rfl

theorem useMap (h : s.Inv) : useMap env s sta = 0 := by
  unfold Twt.useMap
  generalize ring = is
  induction is with
  | nil => rfl
  | cons i is ih =>
    rw [List.foldl_cons, if_pos (.inr (.inl (h.role_ne i)))]; exact ih

theorem setCfg (h : s.Inv) {c : TwtConfig} (hrole : c.role = none) (hfree : c.state = .free ↔ c.twtStaQueue = [])
    (hindiv : c.state ≠ .free → c.twtInfo.negoType = .indivTwt) (hidle : ¬ s.Usable → c.state = .free)
    (hnew : ∀ a ∈ c.twtStaQueue, ∀ j < maxNumHwTwtConfig, a ∉ (s.cfg j).twtStaQueue) : (s.setCfg i c).Inv where
  consistent := by
    refine ⟨fun j hj => ?_, fun j hj k hk a haj hak => ?_⟩
    · by_cases hji : j = i
      · rw [hji, cfg_setCfg]; exact hfree
      · rw [cfg_setCfg_ne hji]; exact h.consistent.free j hj
    · by_cases hji : j = i
      · by_cases hki : k = i
        · rw [hji, hki]
        · rw [hji, cfg_setCfg] at haj
          rw [cfg_setCfg_ne hki] at hak; exact absurd hak (hnew a haj k hk)
      · rw [cfg_setCfg_ne hji] at haj
        by_cases hki : k = i
        · rw [hki, cfg_setCfg] at hak; exact absurd haj (hnew a hak j hj)
        · rw [cfg_setCfg_ne hki] at hak; exact h.consistent.once j hj k hk a haj hak
  role j := by
    by_cases hji : j = i
    · rw [hji, cfg_setCfg]; exact hrole
    · rw [cfg_setCfg_ne hji]; exact h.role j
  indiv j hj := by
    by_cases hji : j = i
    · rw [hji, cfg_setCfg]; exact hindiv
    · rw [cfg_setCfg_ne hji]; exact h.indiv j hj
  idle hno j hj := by
    by_cases hji : j = i
    · rw [hji, cfg_setCfg]; exact hidle hno
    · rw [cfg_setCfg_ne hji]; exact h.idle hno j hj

theorem live_of_mem (h : s.Inv) (hi : i < maxNumHwTwtConfig) {a : TwtStaInfo} (ha : a ∈ (s.cfg i).twtStaQueue)
    {P : TwtStaInfo → Prop} (hP : P a) : s.Live i P :=
  ⟨hi, fun hfree => by rw [(h.consistent.free i hi).mp hfree] at ha; exact absurd ha List.not_mem_nil, a, ha, hP⟩

end TwtInfoState.Inv

/-! ### The operations -/

theorem twtGetNewFlowId_idle (hno : ¬ s.Usable ∨ ∀ i < maxNumHwTwtConfig, (s.cfg i).state ≠ .free) :
    twtGetNewFlowId env s sta = (.resource, none, s) := by
  unfold twtGetNewFlowId
  by_cases hu : s.twtSup = false ∨ s.twtInit = false
  · rw [if_pos hu]
  · rw [if_neg hu]
    have hnone : getNewConfig s = none := by
      rcases getNewConfig_cases s with h | ⟨i, hi, hfree, -⟩
      · exact h.1
      · rcases hno with hno | hno
        · exact absurd (not_usable.mp hno) hu
        · exact absurd hfree (hno i hi)
    unfold twtNewConfigIsAvailable
    rw [hnone]

theorem live_setCfg (h : s.Inv) (hfi : (s.cfg i).state = .free) (hi : i < maxNumHwTwtConfig) {c : TwtConfig}
    (hc : c.twtStaQueue = []) {j : ℕ} {P : TwtStaInfo → Prop} : (s.setCfg i c).Live j P ↔ s.Live j P := by
  unfold TwtInfoState.Live
  by_cases hji : j = i
  · rw [hji, cfg_setCfg, hc, (h.consistent.free i hi).mp hfi]
    exact ⟨fun ⟨_, _, _, ha, _⟩ => absurd ha List.not_mem_nil, fun ⟨_, _, _, ha, _⟩ => absurd ha List.not_mem_nil⟩
  · rw [cfg_setCfg_ne hji]

theorem twtGetNewFlowId_zero (env : TwtEnv) (sta : ℕ) (h : s.Inv) (hu : s.Usable)
    (hfree : ∃ i < maxNumHwTwtConfig, (s.cfg i).state = .free) :
    ∃ s', twtGetNewFlowId env s sta = (.success, some 0, s') ∧ s'.Inv ∧ ∀ j P, s'.Live j P ↔ s.Live j P := by
  rcases getNewConfig_cases s with ⟨-, hnone⟩ | ⟨i, hi, hfi, hnew⟩
  · obtain ⟨i, hi, hf⟩ := hfree; exact absurd hf (hnone i hi)
  · have hqueue := (h.consistent.free i hi).mp hfi
    have hinv : (s.setCfg i { s.cfg i with
        role := none, state := .free, twtInfo := { TwtInfo.zero with twtId := i } }).Inv :=
      h.setCfg rfl (iff_of_true rfl hqueue) (fun hne => absurd rfl hne) (fun _ => rfl)
        fun a ha => by rw [hqueue] at ha; exact absurd ha List.not_mem_nil
    have havail : twtNewConfigIsAvailable s = (true, s.setCfg i { s.cfg i with
        role := none, state := .free, twtInfo := { TwtInfo.zero with twtId := i } }) := by
      unfold twtNewConfigIsAvailable
      rw [hnew]
      simp only [cfg_setCfg, freeConfig]
      rw [if_neg (Nat.not_le.mpr hi), if_neg nofun, setCfg_setCfg]
    refine ⟨_, ?_, hinv, fun j P => live_setCfg h hfi hi (by exact hqueue)⟩
    unfold twtGetNewFlowId
    rw [if_neg fun hno => not_usable.mpr hno hu, havail]
    simp only
    rw [hinv.useMap]; rfl

theorem releaseConfig_eq (hi : i < maxNumHwTwtConfig) :
    releaseConfig env s i = s.setCfg i { s.cfg i with state := .free, twtStaQueue := [] } := by
  unfold releaseConfig freeConfig twtInfoUpdate
  simp only [cfg_setCfg]
  rw [if_neg (Nat.not_le.mpr hi)]
  cases env.infoDisable i with
  | true => rw [if_pos rfl, if_neg nofun, setCfg_setCfg]
  | false => rw [if_neg Bool.false_ne_true, if_neg nofun, setCfg_setCfg]

theorem getConfigById_eq (hi : i < maxNumHwTwtConfig) (huse : (s.cfg i).state ≠ .free) : getConfigById s i = true := by
  unfold getConfigById
  rw [decide_eq_true hi, decide_eq_true huse]; rfl

theorem twtFreeTwtConfig_eq (hu : s.Usable) (hi : i < maxNumHwTwtConfig) (huse : (s.cfg i).state ≠ .free) :
    twtFreeTwtConfig env s i = (.success, s.setCfg i { s.cfg i with state := .free, twtStaQueue := [] }) := by
  unfold twtFreeTwtConfig
  rw [if_neg fun hno => not_usable.mpr hno hu, getConfigById_eq hi huse, if_pos rfl, releaseConfig_eq hi]

theorem twtFillConfigInfo_negoType (info : TwtInfo) : (twtFillConfigInfo info setup).negoType = setup.negoType := by
  unfold twtFillConfigInfo
  simp only
  split <;> rfl

theorem twtDeleteSta_one : twtDeleteSta [⟨sta, id⟩] sta id = ([], true) := by
  have hfor : TwtStaInfo.isFor ⟨sta, id⟩ sta id = true := by
    unfold TwtStaInfo.isFor
    rw [decide_eq_true rfl, decide_eq_true (p := id = id) rfl, Bool.or_true, Bool.and_true]
  unfold twtDeleteSta twtDeleteStaLoop
  rw [if_pos hfor]; rfl

def TwtConfig.setUp (c : TwtConfig) (i rlink : ℕ) (setup : TwtSetup) (state : ConfigState) (q : List TwtStaInfo) :
    TwtConfig :=
  { c with
    state := state, role := none, rlink := some rlink, twtStaQueue := q
    twtInfo := twtFillConfigInfo { TwtInfo.zero with twtId := i } setup }

theorem setCfg_self : s.setCfg i (s.cfg i) = s := by
  unfold TwtInfoState.setCfg
  rw [Function.update_eq_self]

theorem twtAllocTwtConfig_new {rlink : ℕ} (hu : s.Usable) (hnew : getNewConfig s = some (i, s.setCfg i { s.cfg i with
      role := none, state := .idle, twtInfo := { TwtInfo.zero with twtId := i } })) :
    twtAllocTwtConfig env s rlink setup true = (if env.infoEnable then .success else .failure, i, s.setCfg i
        ((s.cfg i).setUp i rlink setup (if env.infoEnable then .enable else .error) (s.cfg i).twtStaQueue)) := by
  unfold twtAllocTwtConfig
  rw [if_neg fun hno => not_usable.mpr hno hu, hnew]
  simp only [cfg_setCfg, if_true, setCfg_setCfg, twtInfoUpdate]; cases env.infoEnable <;> rfl

theorem twtAddStaInfo_empty (env : TwtEnv) (sta id : ℕ) (hu : s.Usable) (hi : i < maxNumHwTwtConfig) (huse : (s.cfg i).state ≠ .free)
    (hqueue : (s.cfg i).twtStaQueue = []) :
    twtAddStaInfo env s sta i id = if env.memAlloc = true ∧ env.staAdd = true then
        (.success, s.setCfg i { s.cfg i with twtStaQueue := [⟨sta, id⟩] })
      else (.failure, s) := by
  have hback : s.setCfg i { s.cfg i with twtStaQueue := [] } = s := by
    rw [← hqueue]; exact setCfg_self
  unfold twtAddStaInfo
  rw [if_neg fun hno => not_usable.mpr hno hu, getConfigById_eq hi huse, if_neg nofun, hqueue]
  simp only [List.nil_append, twtDeleteSta_one]
  cases env.memAlloc <;> cases env.staAdd
  · rfl
  · rfl
  · rw [hback]; rfl
  · rfl

theorem twtAccept_free (env : TwtEnv) (sta : ℕ) (h : s.Inv) (hu : s.Usable) (hindiv : setup.negoType = .indivTwt)
    (hfree : ∃ i < maxNumHwTwtConfig, (s.cfg i).state = .free) :
    ∃ i < maxNumHwTwtConfig, (s.cfg i).state = .free ∧ twtAcceptForStaMode env s setup sta =
      if env.infoEnable = false then
        (.failure, s.setCfg i ((s.cfg i).setUp i (env.rlink sta) setup .error []))
      else if env.memAlloc = true ∧ env.staAdd = true then
        (.success, s.setCfg i ((s.cfg i).setUp i (env.rlink sta) setup .enable [⟨sta, setup.twtFlowId⟩]))
      else (.failure, s.setCfg i ((s.cfg i).setUp i (env.rlink sta) setup .free [])) := by
  rcases getNewConfig_cases s with ⟨-, hnone⟩ | ⟨i, hi, hfi, hnew⟩
  · obtain ⟨i, hi, hf⟩ := hfree; exact absurd hf (hnone i hi)
  · refine ⟨i, hi, hfi, ?_⟩
    have hqueue := (h.consistent.free i hi).mp hfi
    unfold twtAcceptForStaMode twtAcceptIndivBySta
    rw [if_neg fun hno => not_usable.mpr hno hu, if_pos hindiv, h.twtFlowIdExist]
    simp only [Bool.false_eq_true, if_false]
    rw [twtAllocTwtConfig_new hu hnew, hqueue]
    cases env.infoEnable with
    | false => rfl
    | true =>
      have hadd := twtAddStaInfo_empty env sta setup.twtFlowId
        (s := s.setCfg i ((s.cfg i).setUp i (env.rlink sta) setup .enable [])) hu hi
        (by rw [cfg_setCfg]; exact nofun) (by rw [cfg_setCfg]; rfl)
      simp only [if_true, Bool.true_eq_false, if_false]
      rw [hadd]
      by_cases hok : env.memAlloc = true ∧ env.staAdd = true
      · rw [if_pos hok, if_pos hok]
        simp only [cfg_setCfg, setCfg_setCfg]; rfl
      · rw [if_neg hok, if_neg hok]
        simp only
        rw [twtFreeTwtConfig_eq (s := s.setCfg i ((s.cfg i).setUp i (env.rlink sta) setup .enable [])) hu hi
          (by rw [cfg_setCfg]; exact nofun)]
        simp only [cfg_setCfg, setCfg_setCfg]; rfl

theorem twtAccept_none (env : TwtEnv) (sta : ℕ) (h : s.Inv) (hno : s.Usable → setup.negoType = .indivTwt →
    ∀ i < maxNumHwTwtConfig, (s.cfg i).state ≠ .free) :
    (twtAcceptForStaMode env s setup sta).1 ≠ .success ∧ (twtAcceptForStaMode env s setup sta).2 = s := by
  unfold twtAcceptForStaMode
  by_cases hu : s.twtSup = false ∨ s.twtInit = false
  · rw [if_pos hu]; exact ⟨nofun, rfl⟩
  · rw [if_neg hu]
    by_cases hindiv : setup.negoType = .indivTwt
    · rw [if_pos hindiv]
      unfold twtAcceptIndivBySta
      rw [h.twtFlowIdExist]
      simp only [Bool.false_eq_true, if_false]
      unfold twtAllocTwtConfig
      rcases getNewConfig_cases s with ⟨hnew, -⟩ | ⟨i, hi, hfi, -⟩
      · rw [if_neg hu, hnew]; exact ⟨nofun, rfl⟩
      · exact absurd hfi (hno (Classical.not_not.mp fun hn => hu (not_usable.mp hn)) hindiv i hi)
    · rw [if_neg hindiv]; exact ⟨nofun, rfl⟩

theorem twtTeardown_eq (h : s.Inv) : twtTeardownForStaMode env s sta negoType id =
      (if s.twtSup = false ∨ s.twtInit = false ∨ negoType = .bcastTwt then .failure else .success, s) := by
  unfold twtTeardownForStaMode twtTeardownSta
  by_cases hu : s.twtSup = false ∨ s.twtInit = false
  · rw [if_pos hu, if_pos (hu.elim .inl fun h => .inr (.inl h))]
  · rw [if_neg hu]
    by_cases hb : negoType = .bcastTwt
    · rw [if_pos hb, if_pos (.inr (.inr hb))]
    · rw [if_neg hb, h.twtDeleteStaInfo, if_neg fun hno => hno.elim (fun h => hu (.inl h))
        fun hno => hno.elim (fun h => hu (.inr h)) hb]
      rfl

theorem twtFreeAll_eq (h : s.Inv) : twtFreeAllTwtByRole env s role = (.failure, s) := by
  unfold twtFreeAllTwtByRole
  split
  · rfl
  · unfold freeAllLoop
    rw [h.getConfigByRole]; rfl

/-! ### Runs -/

theorem getNewFlowId_idle (hgo : ¬ (s.Usable ∧ ∃ i < maxNumHwTwtConfig, (s.cfg i).state = .free)) :
    twtGetNewFlowId env s sta = (.resource, none, s) := by
  refine twtGetNewFlowId_idle ?_
  by_cases hu : s.Usable
  · exact .inr fun i hi hfree => hgo ⟨hu, i, hi, hfree⟩
  · exact .inl hu

theorem getNewFlowId_iff (h : s.Inv) : (TwtOp.getNewFlowId sta env).Holds s ↔ (TwtOp.getNewFlowId sta env).Ok s := by
  unfold TwtOp.Holds TwtOp.Done TwtOp.Ok TwtInfoState.step
  simp only
  by_cases hgo : s.Usable ∧ ∃ i < maxNumHwTwtConfig, (s.cfg i).state = .free
  · obtain ⟨s', heq, hinv, hlive⟩ := twtGetNewFlowId_zero env sta h hgo.1 hgo.2
    rw [heq]
    refine ⟨fun hh _ _ j hl => hh.2 0 rfl j ((hlive _ _).mpr hl), fun hok => ⟨hinv.consistent, ?_⟩⟩
    intro id hid j hl
    cases hid
    exact hok hgo.1 hgo.2 j ((hlive _ _).mp hl)
  · rw [getNewFlowId_idle hgo]
    exact ⟨fun _ hu hfree => absurd ⟨hu, hfree⟩ hgo, fun _ => ⟨h.consistent, nofun⟩⟩

theorem setUp_inv (h : s.Inv) (hu : s.Usable) (hindiv : setup.negoType = .indivTwt) {rlink : ℕ}
    (hnew : ∀ j, ¬ s.Live j fun a => a = ⟨sta, id⟩) :
    (s.setCfg i ((s.cfg i).setUp i rlink setup .enable [⟨sta, id⟩])).Inv := by
  refine h.setCfg rfl (iff_of_false nofun nofun) (fun _ => (twtFillConfigInfo_negoType _).trans hindiv)
    (fun hno => absurd hu hno) fun a ha j hj hmem => ?_
  rw [List.mem_singleton.mp ha] at hmem; exact hnew j (h.live_of_mem hj hmem rfl)

theorem setUp_free_inv (h : s.Inv) {rlink : ℕ} : (s.setCfg i ((s.cfg i).setUp i rlink setup .free [])).Inv :=
  h.setCfg rfl (iff_of_true rfl rfl) (fun hne => absurd rfl hne) (fun _ => rfl) fun _ ha => absurd ha List.not_mem_nil

theorem accept_iff (h : s.Inv) : (TwtOp.accept setup sta env).Holds s ↔ (TwtOp.accept setup sta env).Ok s := by
  by_cases hgo : s.Usable ∧ setup.negoType = .indivTwt ∧ ∃ i < maxNumHwTwtConfig, (s.cfg i).state = .free
  · obtain ⟨hu, hindiv, hfree⟩ := hgo
    obtain ⟨i, hi, hfi, heq⟩ := twtAccept_free env sta h hu hindiv hfree
    have hqueue := (h.consistent.free i hi).mp hfi
    unfold TwtOp.Holds TwtOp.Done TwtOp.Ok TwtInfoState.step
    simp only
    rw [heq]
    cases hen : env.infoEnable with
    | false =>
      rw [if_pos rfl]
      refine ⟨fun hh => ?_, fun hok => absurd (hok hu hindiv hfree).1 Bool.false_ne_true⟩
      have hbad := (hh.1.free i hi).mpr (by rw [cfg_setCfg]; rfl)
      rw [cfg_setCfg] at hbad; cases hbad
    | true =>
      rw [if_neg nofun]
      by_cases hadd : env.memAlloc = true ∧ env.staAdd = true
      · rw [if_pos hadd]
        constructor
        · refine fun hh _ _ _ => ⟨rfl, fun _ _ j hlive => ?_⟩
          obtain ⟨hj, -, a, ha, rfl⟩ := hlive
          have hji : j ≠ i := fun hji => by rw [hji, hqueue] at ha; exact absurd ha List.not_mem_nil
          exact hji (hh.1.once j hj i hi _ (by rw [cfg_setCfg_ne hji]; exact ha)
            (by rw [cfg_setCfg]; exact List.mem_singleton.mpr rfl))
        · exact fun hok => ⟨(setUp_inv h hu hindiv ((hok hu hindiv hfree).2 hadd.1 hadd.2)).consistent,
            fun hne => absurd rfl hne⟩
      · rw [if_neg hadd]
        refine iff_of_true ⟨(setUp_free_inv h).consistent, fun _ j hj hfj => ?_⟩
          fun _ _ _ => ⟨rfl, fun hm hs => absurd ⟨hm, hs⟩ hadd⟩
        by_cases hji : j = i
        · rw [hji, cfg_setCfg]; rfl
        · rw [cfg_setCfg_ne hji]; exact hfj
  · obtain ⟨-, hsame⟩ := twtAccept_none env sta h
      fun hu hindiv i hi hfree => hgo ⟨hu, hindiv, i, hi, hfree⟩
    unfold TwtOp.Holds TwtOp.Done TwtOp.Ok TwtInfoState.step
    simp only
    rw [hsame]
    exact iff_of_true ⟨h.consistent, fun _ _ _ hfree => hfree⟩ fun hu hindiv hfree => absurd ⟨hu, hindiv, hfree⟩ hgo

theorem teardown_iff (h : s.Inv) :
    (TwtOp.teardown sta negoType id env).Holds s ↔ (TwtOp.teardown sta negoType id env).Ok s := by
  unfold TwtOp.Holds TwtOp.Done TwtOp.Ok TwtInfoState.step
  simp only
  rw [twtTeardown_eq h]
  have hlive : ∀ i P, s.Live i P → s.Usable ∧ (s.cfg i).twtInfo.negoType = .indivTwt := fun i P hl =>
    ⟨Classical.not_not.mp fun hno => hl.2.1 (h.idle hno i hl.1), h.indiv i hl.1 hl.2.1⟩
  constructor
  · rintro ⟨-, hdone⟩ rfl i hl
    obtain ⟨hu, hnego⟩ := hlive i _ hl
    refine hdone ?_ i (by rw [hnego]; rfl) hl
    rw [if_neg fun hno => hno.elim (fun h => not_usable.mpr (.inl h) hu)
      fun hno => hno.elim (fun h => not_usable.mpr (.inr h) hu) nofun]
  · refine fun hok => ⟨h.consistent, fun _ i hnego hl => hok ?_ i hl⟩
    rw [(hlive i _ hl).2] at hnego
    unfold teardownType at hnego
    split at hnego
    · cases hnego
    · exact hnego.symm

theorem holds_iff (h : s.Inv) (op : TwtOp) : op.Holds s ↔ op.Ok s := by
  cases op with
  | getNewFlowId sta env => exact getNewFlowId_iff h
  | accept setup sta env => exact accept_iff h
  | teardown sta negoType id env => exact teardown_iff h
  | freeAll role env =>
    unfold TwtOp.Holds TwtOp.Done TwtOp.Ok TwtInfoState.step
    simp only
    rw [twtFreeAll_eq h]; exact and_iff_right h.consistent

theorem step_inv (h : s.Inv) {op : TwtOp} (hh : op.Holds s) : (s.step op).Inv := by
  have hok := (holds_iff h op).mp hh
  cases op with
  | getNewFlowId sta env =>
    show (twtGetNewFlowId env s sta).2.2.Inv
    by_cases hgo : s.Usable ∧ ∃ i < maxNumHwTwtConfig, (s.cfg i).state = .free
    · obtain ⟨s', heq, hinv, -⟩ := twtGetNewFlowId_zero env sta h hgo.1 hgo.2
      rw [heq]; exact hinv
    · rw [getNewFlowId_idle hgo]; exact h
  | accept setup sta env =>
    show (twtAcceptForStaMode env s setup sta).2.Inv
    by_cases hgo : s.Usable ∧ setup.negoType = .indivTwt ∧ ∃ i < maxNumHwTwtConfig, (s.cfg i).state = .free
    · obtain ⟨hu, hindiv, hfree⟩ := hgo
      obtain ⟨i, hi, hfi, heq⟩ := twtAccept_free env sta h hu hindiv hfree
      obtain ⟨hen, hnew⟩ := hok hu hindiv hfree
      rw [heq, hen, if_neg nofun]
      by_cases hadd : env.memAlloc = true ∧ env.staAdd = true
      · rw [if_pos hadd]; exact setUp_inv h hu hindiv (hnew hadd.1 hadd.2)
      · rw [if_neg hadd]; exact setUp_free_inv h
    · rw [(twtAccept_none env sta h fun hu hindiv i hi hfree => hgo ⟨hu, hindiv, i, hi, hfree⟩).2]
      exact h
  | teardown sta negoType id env =>
    show (twtTeardownForStaMode env s sta negoType id).2.Inv
    rw [twtTeardown_eq h]; exact h
  | freeAll role env =>
    show (twtFreeAllTwtByRole env s role).2.Inv
    rw [twtFreeAll_eq h]; exact h

/-- **The runs in which every operation does what it is to do** and leaves the entries as they are to be: those whose
operations are each `TwtOp.Ok`. -/
theorem twt_run_iff (twtSup twtInit : Bool) (ops : List TwtOp) :
    Legal TwtInfoState.step (fun s op => op.Holds s) (twtStart twtSup twtInit) ops ↔
      Legal TwtInfoState.step (fun s op => op.Ok s) (twtStart twtSup twtInit) ops :=
  legal_congr (twtStart_inv twtSup twtInit) (fun _ op h => holds_iff h op) fun _ _ h hh => step_inv h hh

def allOk : TwtEnv := ⟨true, fun _ => true, true, fun _ => true, true, fun _ => 0, fun _ => 0⟩

def flow (id : ℕ) : TwtSetup := ⟨0, .indivTwt, 0, 0, 0, 1, 0, id, 10, 512, 255, 0, 0⟩

/-- **A flow is accepted and torn down**, and its entry stays. -/
theorem teardown_keeps : ¬ ∀ (twtSup twtInit : Bool) (ops : List TwtOp),
    Legal TwtInfoState.step (fun s op => op.Holds s) (twtStart twtSup twtInit) ops := by
  intro h
  have hrun := h true true [.accept (flow 0) 0 allOk, .teardown 0 .indivTwt 0 allOk]
  exact hrun.2.1.2 (by decide) 0 (by decide) ⟨by decide, by decide, ⟨0, 0⟩, by decide, by decide⟩

end Rtl8852cu.Twt
