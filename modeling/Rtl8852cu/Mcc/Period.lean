import Rtl8852cu.Lib.Reach
import Rtl8852cu.Mcc.Settle
import Rtl8852cu.Mcc.Update

/-!
# One period in every run

* `Prepared`: what the operations that begin a new pattern make of a copy of the info;
* `Fits`: on which copies the new pattern describes one period;
* `onePeriod_run`: it does after every run of operations that begin one, on copies that fit;
* `durationChange_not_onePeriod`: the operation that does not begin one appends its slots to those of the
  old pattern.
-/

namespace Rtl8852cu.Mcc

open Lib

namespace MccInfo

variable (m : MccInfo)

/-! ### The copy -/

/-- A copy of an info with a pattern to begin and the original durations. -/
structure Prepared (m p : MccInfo) : Prop where
  same : Same m p
  slots : p.mPattern.slotOrder = []
  addBt : p.btInfo.addBtRole = false
  seg : p.btInfo.btSegNum = 1
  bt : p.btInfo.btDur < 65536
  durs : m.mccMode ≠ .ap → ∀ i, (p.mccRole i).durInfo.Original

theorem fillDurLimInfo_maxDur (bcnIntvl : ℕ) (lim : DurLimInfo) (req : DurReq)
    (h : (fillDurLimInfo bcnIntvl lim req).enable) :
    (fillDurLimInfo bcnIntvl lim req).maxDur < 65536 := by
  unfold fillDurLimInfo at h ⊢
  simp only at h ⊢
  split
  · rename_i hoff
    rw [if_pos hoff] at h; cases h
  rename_i hoff
  rw [if_neg hoff] at h
  split
  · rename_i hzero
    rw [if_pos hzero] at h; cases h
  · exact Nat.mod_lt _ (by decide)

theorem fillPolicyInfo_original (r : MccRole) (setting : Bool) (req : DurReq) :
    (r.fillPolicyInfo setting req).durInfo.Original := by
  have hdur : 40 ≤ (r.fillPolicyInfo setting req).durInfo.dur ∧ (r.fillPolicyInfo setting req).durInfo.dur ≤ 60 := by
    show 40 ≤ (if setting then 50 else if r.cat = .client then 40 else 60) ∧
      (if setting then 50 else if r.cat = .client then 40 else 60) ≤ 60
    split
    · decide
    split
    · decide
    · decide
  exact ⟨hdur.1, hdur.2, fillDurLimInfo_maxDur _ _ _⟩

theorem prepared_fillOriginal {which : Fin 2 → Bool} (asked : Asked)
    (hall : m.mccMode ≠ .ap → ∀ i, which i) : Prepared m (m.fillOriginal which asked) := by
  refine ⟨⟨rfl, rfl, rfl, rfl, fun i => ?_⟩, rfl, rfl, rfl, Nat.mod_lt _ (by decide), fun hmode i => ?_⟩
  · unfold fillOriginal
    simp only
    split <;> rfl
  · unfold fillOriginal
    simp only
    rw [if_pos (hall hmode i)]; exact fillPolicyInfo_original _ _ _

def limitRole (i : Fin 2) (limReq : DurReq) : MccInfo :=
  m.modifyRole i fun r => { r with durInfo :=
    { r.durInfo with durLimit := fillDurLimInfo r.bcnIntvl r.durInfo.durLimit limReq } }

theorem Prepared.limitRole {m p : MccInfo} (h : Prepared m p) (i : Fin 2) (limReq : DurReq) :
    Prepared m (p.limitRole i limReq) := by
  have hrole : ∀ j, (p.limitRole i limReq).mccRole j =
      if j = i then { p.mccRole i with durInfo := { (p.mccRole i).durInfo with
        durLimit := fillDurLimInfo (p.mccRole i).bcnIntvl (p.mccRole i).durInfo.durLimit limReq } }
      else p.mccRole j := fun j => Function.update_apply _ _ _ _
  refine ⟨h.same.trans ⟨rfl, rfl, rfl, rfl, fun j => ?_⟩, h.slots, h.addBt, h.seg, h.bt, fun hmode j => ?_⟩
  · rw [hrole]
    split
    · rename_i hj
      rw [hj]
    · rfl
  · rw [hrole]
    split
    · have horig := h.durs hmode i; exact ⟨horig.ge, horig.le, fillDurLimInfo_maxDur _ _ _⟩
    · exact h.durs hmode j

/-! ### Which copies fit -/

/-- Two clients: with BT in the band of both, their durations can be adjusted to its slot and a pattern is
found; else the worst case sets them, or they fit in the period. -/
def FitsClients (offset : ℕ) : Prop :=
  let intvl := m.roleRef.bcnIntvl
  let q := (m.startPattern offset).setDurs2Clients
  (q.Bt2g → q.BtAdjustable ∧ q.discisionDurFor2gMcc2roleBt.BtPatternFound) ∧
  (¬ q.Bt2g → ¬ q.WorstCase (decide (offset < 15 ∨ (offset : ℤ) > intvl - 15)) →
    q.BandFits ∧ DursFit m.roleRef.durInfo m.roleAno.durInfo intvl)

/-- An AP and a client: likewise, and the period has the time that a client is left. -/
def FitsApClient (iAp iClient : Fin 2) : Prop :=
  let q := (m.startPattern m.mPattern.bcnsOffset).setDursApClient iAp iClient
  (q.Bt2g → q.BtAdjustable ∧ BtPatternFound { q.discisionDurFor2gMcc2roleBt with
    mPattern := { q.discisionDurFor2gMcc2roleBt.mPattern with bcnsOffset := 40 } }) ∧
  (¬ q.Bt2g → q.BandFits ∧ 15 ≤ (m.mccRole iAp).bcnIntvl)

/-- The new pattern of a copy describes one period. -/
def Fits (hal : Hal) : Prop :=
  match m.mccMode with
  | .twoClients => ∀ offset, m.get2ClientsBcnOffset hal = some offset → m.FitsClients offset
  | .apClient => ∀ iAp iClient, m.getMroleByCategory .ap = some iAp →
      m.getMroleByCategory .client = some iClient → m.FitsApClient iAp iClient
  -- the duration of the AP is a byte
  | .ap => m.btInfo.btDur ≤ m.roleRef.bcnIntvl ∧ m.roleRef.bcnIntvl < m.btInfo.btDur + 256
  | _ => True

section Modes

variable {m} {p m' : MccInfo} {hal : Hal}

theorem Prepared.begun (h : Prepared m p) (hmode : p.mccMode ≠ .ap) (offset a b intvl : ℕ) (i j : Fin 2) :
    Begun { ((p.startPattern offset).setDur i a).setDur j b with mccIntvl := intvl } :=
  ⟨h.slots, rfl, rfl, h.addBt, h.seg, h.bt, hmode⟩

theorem Prepared.twoClients (h : Prepared m p) (hmode : p.mccMode = .twoClients)
    (hI : ∀ i, (p.mccRole i).bcnIntvl < 65536) (hfits : p.Fits hal)
    (hm' : p.fillInfoFor2ClientsMode hal = some m') : m'.OnePeriod := by
  unfold Fits at hfits
  rw [hmode] at hfits
  have hne : p.mccMode ≠ .ap := by
    rw [hmode]; decide
  unfold fillInfoFor2ClientsMode at hm'
  split at hm'
  · cases hm'
  rename_i offset hoffset
  obtain ⟨hbt, hno⟩ := hfits offset hoffset
  simp only at hm'
  split at hm'
  · cases hm'
    refine pattern2Clients_onePeriod (h.begun hne _ _ _ _ _ _) (hI _) hbt fun hb hw => ?_
    obtain ⟨hband, hdurs⟩ := hno hb hw
    refine ⟨hband, ?_⟩
    have horig := h.durs (fun hap => hne (h.same.mode.trans hap)) p.refRoleIdx
    exact (wifiDur_setDur₂ _ p.anoIdx_ne.symm _ _).trans
      (setDurFor2ClientsMode_sum (hI p.refRoleIdx) horig hdurs)
  · cases hm'

theorem getMroleByCategory_cat {cat : RoleCat} {i : Fin 2} (h : m.getMroleByCategory cat = some i) :
    (m.mccRole i).cat = cat := by
  have hi := List.find?_some h
  rw [Bool.and_eq_true] at hi; exact of_decide_eq_true hi.2

theorem Prepared.apClient (h : Prepared m p) (hmode : p.mccMode = .apClient)
    (hI : ∀ i, (p.mccRole i).bcnIntvl < 65536) (hfits : p.Fits hal)
    (hm' : p.fillInfoForApClientMode hal = some m') : m'.OnePeriod := by
  unfold Fits at hfits
  rw [hmode] at hfits
  have hne : p.mccMode ≠ .ap := by
    rw [hmode]; decide
  unfold fillInfoForApClientMode at hm'
  split at hm'
  · rename_i iAp iClient hAp hClient
    obtain ⟨hbt, hno⟩ := hfits iAp iClient hAp hClient
    have hroles : iAp ≠ iClient := by
      intro heq
      have hcat := getMroleByCategory_cat hAp
      rw [heq, getMroleByCategory_cat hClient] at hcat; cases hcat
    have hone : ((p.startPattern p.mPattern.bcnsOffset).setDursApClient iAp
        iClient).patternApClient.OnePeriod := by
      refine patternApClient_onePeriod (h.begun hne _ _ _ _ _ _) (hI _) hbt fun hb => ?_
      obtain ⟨hband, h15⟩ := hno hb
      have horig := h.durs (fun hap => hne (h.same.mode.trans hap)) iAp
      have hge := horig.ge
      have hle := horig.le
      refine ⟨hband, (wifiDur_setDur₂ _ hroles _ _).trans ?_⟩
      exact setDurForApClientMode_sum (hI iAp) (by show 20 ≤ (p.mccRole iAp).durInfo.dur; omega)
        (by show (p.mccRole iAp).durInfo.dur < 255; omega) h15
    simp only at hm'
    split at hm'
    · cases hm'
    split at hm'
    · cases hm'; exact ⟨hone.slots, hone.sum⟩
    · cases hm'
  · cases hm'

theorem Prepared.apBt (h : Prepared m p) (hmode : p.mccMode = .ap) (hfits : p.Fits hal)
    (hm' : p.fillInfoForApBtMode hal = some m') : m'.OnePeriod := by
  unfold Fits at hfits
  rw [hmode] at hfits; exact fillInfoForApBtMode_onePeriod hm' h.slots hmode hfits.1 hfits.2

end Modes

/-! ### The operations -/

/-- The answers that a change needs: all of them succeed. -/
def HalOk (hal : Hal) : Prop :=
  hal.startTsf ∧ hal.changePattern ∧ match m.mccMode with
    | .twoClients => hal.ofsts.isSome
    | .apClient => ∃ offset, hal.tbttSync = some offset ∧ (offset = m.syncOffset ∨ hal.syncEnable)
    | .ap => True
    | _ => False

/-- The computation of a new info in the mode of the old one. -/
def fillInfo (p : MccInfo) (hal : Hal) : Option MccInfo :=
  match m.mccMode with
  | .apClient => p.fillInfoForApClientMode hal
  | .twoClients => p.fillInfoFor2ClientsMode hal
  | .ap => p.fillInfoForApBtMode hal
  | _ => none

variable {m} {p m' : MccInfo} {hal : Hal}

theorem update2ClientsPattern_eq_some (h : update2ClientsPattern p hal = some m') :
    p.fillInfoFor2ClientsMode hal = some m' ∧ hal.startTsf ∧ hal.changePattern ∧ hal.ofsts.isSome := by
  unfold update2ClientsPattern at h
  split at h
  · cases h
  rename_i new hnew
  split at h
  · rename_i hchange
    cases h
    refine ⟨hnew, ?_, hchange, ?_⟩
    · unfold fillInfoFor2ClientsMode at hnew
      split at hnew
      · cases hnew
      simp only at hnew
      split at hnew
      · assumption
      · cases hnew
    · unfold fillInfoFor2ClientsMode at hnew
      split at hnew
      · cases hnew
      · rename_i offset hoffset
        obtain ⟨ofsts, hofsts, -⟩ := Option.map_eq_some_iff.mp hoffset
        rw [hofsts]; rfl
  · cases h

theorem updateApBtPattern_eq_some (h : updateApBtPattern p hal = some m') :
    p.fillInfoForApBtMode hal = some m' ∧ hal.startTsf ∧ hal.changePattern := by
  unfold updateApBtPattern at h
  split at h
  · cases h
  rename_i new hnew
  split at h
  · rename_i hchange
    cases h
    refine ⟨hnew, ?_, hchange⟩
    unfold fillInfoForApBtMode at hnew
    simp only at hnew
    split at hnew
    · assumption
    · cases hnew
  · cases h

theorem fillInfoForApClientMode_eq_some (h : p.fillInfoForApClientMode hal = some m') :
    hal.startTsf ∧ hal.tbttSync = some m'.syncOffset ∧ m'.syncEn := by
  unfold fillInfoForApClientMode at h
  split at h
  · simp only at h
    split at h
    · cases h
    rename_i offset hsync
    split at h
    · rename_i htsf
      cases h
      exact ⟨htsf, hsync, rfl⟩
    · cases h
  · cases h

theorem updateApClientPattern_eq_some (h : m.updateApClientPattern p hal = some m') :
    p.fillInfoForApClientMode hal = some m' ∧ hal.startTsf ∧ hal.changePattern ∧
      ∃ offset, hal.tbttSync = some offset ∧ (offset = m.syncOffset ∨ hal.syncEnable) := by
  unfold updateApClientPattern at h
  split at h
  · cases h
  rename_i new hnew
  obtain ⟨htsf, hsync, hen⟩ := fillInfoForApClientMode_eq_some hnew
  split at h
  · cases h
  rename_i hchange
  have hchange' : hal.changePattern := by simpa using hchange
  split at h
  · split at h
    · rename_i henable
      cases h
      exact ⟨hnew, htsf, hchange', _, hsync, .inr henable⟩
    · cases h
  · rename_i hsame
    cases h
    refine ⟨hnew, htsf, hchange', _, hsync, .inl ?_⟩
    by_contra hne
    exact hsame ⟨hen, hne⟩

theorem mccDurationChange_cases (m p : MccInfo) (hal : Hal) : m.mccDurationChange p hal = (.failure, m) ∨
    ∃ m', m.mccDurationChange p hal = (.success, m') ∧ m.HalOk hal ∧ m.fillInfo p hal = some m' := by
  unfold mccDurationChange HalOk fillInfo
  cases m.mccMode with
  | none => exact .inl rfl
  | unknown => exact .inl rfl
  | apClient =>
    cases hup : m.updateApClientPattern p hal with
    | none =>
      exact .inl rfl
    | some m' =>
      obtain ⟨hfill, htsf, hchange, hsync⟩ := updateApClientPattern_eq_some hup
      exact .inr ⟨m', rfl, ⟨htsf, hchange, hsync⟩, hfill⟩
  | twoClients =>
    cases hup : update2ClientsPattern p hal with
    | none =>
      exact .inl rfl
    | some m' =>
      obtain ⟨hfill, htsf, hchange, hofsts⟩ := update2ClientsPattern_eq_some hup
      exact .inr ⟨m', rfl, ⟨htsf, hchange, hofsts⟩, hfill⟩
  | ap =>
    cases hup : updateApBtPattern p hal with
    | none =>
      exact .inl rfl
    | some m' =>
      obtain ⟨hfill, htsf, hchange⟩ := updateApBtPattern_eq_some hup
      exact .inr ⟨m', rfl, ⟨htsf, hchange, trivial⟩, hfill⟩

theorem same_fillInfo (h : m.fillInfo p hal = some m') : Same p m' := by
  unfold fillInfo at h
  split at h
  · exact p.same_fillInfoForApClientMode h
  · exact p.same_fillInfoFor2ClientsMode h
  · exact p.same_fillInfoForApBtMode h
  · cases h

/-! ### Runs -/

variable (m) in
/-- An info with one period, and the roles of its mode. -/
structure Started : Prop where
  onePeriod : m.OnePeriod
  roles : m.mccMode ≠ .ap → ∀ i, m.inLoop i
  bcnIntvl : ∀ i, (m.mccRole i).bcnIntvl < 65536

theorem Started.fillInfo (h : m.Started) (hp : Prepared m p) (hfits : p.Fits hal)
    (hm' : m.fillInfo p hal = some m') : m'.Started := by
  have hsame := hp.same.trans (same_fillInfo hm')
  have hI : ∀ i, (p.mccRole i).bcnIntvl < 65536 := fun i => by
    rw [hp.same.bcnIntvl]; exact h.bcnIntvl i
  refine ⟨?_, fun hmode i => ?_, fun i => ?_⟩
  · unfold MccInfo.fillInfo at hm'
    split at hm'
    · rename_i hmode
      exact hp.apClient (hp.same.mode.trans hmode) hI hfits hm'
    · rename_i hmode
      exact hp.twoClients (hp.same.mode.trans hmode) hI hfits hm'
    · rename_i hmode
      exact hp.apBt (hp.same.mode.trans hmode) hfits hm'
    · cases hm'
  · have hi := h.roles (fun hap => hmode (hsame.mode.trans hap)) i
    unfold inLoop at hi ⊢
    rw [hsame.num, hsame.roleMap]; exact hi
  · rw [hsame.bcnIntvl]; exact h.bcnIntvl i

theorem Started.change (h : m.Started) (hp : Prepared m p) (hfits : m.HalOk hal → p.Fits hal) :
    (m.mccDurationChange p hal).2.Started := by
  rcases mccDurationChange_cases m p hal with heq | ⟨m', heq, hok, hm'⟩
  · rw [heq]; exact h
  · rw [heq]; exact h.fillInfo hp (hfits hok) hm'

variable (m) in
/-- The offset of the beacons has moved by more than is tolerated. -/
def Tracks (hal₀ : Hal) : Prop :=
  ∃ offset, m.get2ClientsBcnOffset hal₀ = some offset ∧ m.trackingTol (decide (offset ≤ m.mPattern.bcnsOffset)) ≤
      if offset > m.mPattern.bcnsOffset then offset - m.mPattern.bcnsOffset
      else m.mPattern.bcnsOffset - offset

/-- **What keeps one period.** A change of a role's duration does not succeed, as it does not begin a
pattern; the copy of an operation that begins one fits. -/
def Good (m : MccInfo) : MccOp → Prop
  | .durationChange wrole _ hal =>
    m.state = .running → (m.setUnspecificDur.getMroleByWrole wrole).isSome → ¬ m.HalOk hal
  | .btDurationChange dur asked hal =>
    m.state = .running → dur ≠ m.btInfo.btDur → (∃ i, m.inLoop i ∧ (m.mccRole i).on24g) →
      m.HalOk hal → (m.fillOriginal m.inLoop asked).Fits hal
  | .durLimChange wrole mld limReq asked hal =>
    mld = false → m.state = .running → ∀ i, m.getMroleByWrole wrole = some i →
      m.HalOk hal → ((m.fillOriginal m.inLoop asked).limitRole i limReq).Fits hal
  | .watchdog hal₀ asked hal =>
    m.state = .running → m.mccMode = .twoClients → m.Tracks hal₀ →
      m.HalOk hal → (m.fillOriginal (fun _ => true) asked).Fits hal

theorem started_durationChange {wrole dur : ℕ} (h : m.Started)
    (hno : (m.setUnspecificDur.getMroleByWrole wrole).isSome → ¬ m.HalOk hal) :
    (m.durationChange wrole dur hal).2.Started := by
  unfold durationChange
  simp only
  split
  · exact h
  · rename_i i hi
    rw [hi] at hno
    rcases mccDurationChange_cases m (m.setUnspecificDur.setDur i dur) hal with heq | ⟨m', -, hok, -⟩
    · rw [heq]; exact h
    · exact absurd hok (hno rfl)

theorem started_btDurationChange {dur : ℕ} {asked : Asked} (h : m.Started)
    (hfits : dur ≠ m.btInfo.btDur → (∃ i, m.inLoop i ∧ (m.mccRole i).on24g) → m.HalOk hal →
      (m.fillOriginal m.inLoop asked).Fits hal) : (m.btDurationChange dur asked hal).2.Started := by
  unfold btDurationChange
  split
  · exact h
  rename_i hdur
  simp only
  split
  · exact h
  rename_i hnone
  have hexists : ∃ i, m.inLoop i ∧ (m.mccRole i).on24g := by
    by_contra hno
    refine hnone (List.all_eq_true.mpr fun i _ => ?_)
    rw [Bool.not_eq_true', Bool.and_eq_false_iff]
    by_contra hboth
    rw [not_or, Bool.not_eq_false, Bool.not_eq_false] at hboth; exact hno ⟨i, hboth⟩
  exact h.change (m.prepared_fillOriginal asked h.roles) (hfits hdur hexists)

theorem started_durLimChange {wrole : ℕ} {mld : Bool} {limReq : DurReq} {asked : Asked}
    (h : m.Started) (hfits : mld = false → m.state = .running → ∀ i, m.getMroleByWrole wrole = some i →
      m.HalOk hal → ((m.fillOriginal m.inLoop asked).limitRole i limReq).Fits hal) :
    (m.durLimChange wrole mld limReq asked hal).2.Started := by
  unfold durLimChange
  split
  · exact h
  rename_i hmld
  split
  · exact h
  rename_i hrun
  split
  · exact h
  · rename_i i hi
    have hp := (m.prepared_fillOriginal asked h.roles).limitRole i limReq
    exact h.change hp (hfits (Bool.not_eq_true _ ▸ hmld) (not_not.mp hrun) i hi)

theorem started_tracking {hal₀ : Hal} {asked : Asked} (h : m.Started) (hmode : m.mccMode = .twoClients)
    (hfits : m.Tracks hal₀ → m.HalOk hal → (m.fillOriginal (fun _ => true) asked).Fits hal) :
    (m.tracking hal₀ asked hal).Started := by
  unfold tracking
  split
  · exact h
  rename_i offset hoffset
  simp only
  by_cases htol : (if offset > m.mPattern.bcnsOffset then offset - m.mPattern.bcnsOffset
      else m.mPattern.bcnsOffset - offset) < m.trackingTol (decide (offset ≤ m.mPattern.bcnsOffset))
  · rw [if_pos htol]; exact h
  rw [if_neg htol]
  have hp := m.prepared_fillOriginal asked (fun _ _ => rfl : m.mccMode ≠ .ap → ∀ _, true = true)
  split
  · exact h
  · rename_i m' hm'
    obtain ⟨hfill, htsf, hchange, hofsts⟩ := update2ClientsPattern_eq_some hm'
    have hok : m.HalOk hal := by
      unfold HalOk
      rw [hmode]; exact ⟨htsf, hchange, hofsts⟩
    refine h.fillInfo hp (hfits ⟨offset, hoffset, Nat.not_lt.mp htol⟩ hok) ?_
    unfold MccInfo.fillInfo
    rw [hmode]; exact hfill

theorem Started.step {op : MccOp} (h : m.Started) (hgood : m.Good op) : (m.step op).Started := by
  unfold MccInfo.step call
  cases op with
  | durationChange wrole dur hal =>
    simp only
    split
    · exact h
    · rename_i hrun
      exact started_durationChange h (hgood (not_not.mp hrun))
  | btDurationChange dur asked hal =>
    simp only
    split
    · exact h
    · rename_i hrun
      exact started_btDurationChange h (hgood (not_not.mp hrun))
  | durLimChange wrole mld limReq asked hal => exact started_durLimChange h hgood
  | watchdog hal₀ asked hal =>
    simp only
    split
    · rename_i hrun
      exact started_tracking h hrun.2 (hgood hrun.1 hrun.2)
    · exact h

theorem mccDurationChange_failure (h : (m.mccDurationChange p hal).1 = .failure) :
    (m.mccDurationChange p hal).2 = m := by
  rcases mccDurationChange_cases m p hal with heq | ⟨m', heq, -, -⟩
  · rw [heq]
  · rw [heq] at h; cases h

theorem call_failure {op : MccOp} (h : (m.call op).1 = .failure) : (m.call op).2 = m := by
  cases op with
  | durationChange wrole dur hal =>
    unfold call durationChange at h ⊢
    simp only at h ⊢
    split
    · rfl
    rename_i hrun
    rw [if_neg hrun] at h
    split
    · rfl
    · rename_i i hi
      rw [hi] at h; exact mccDurationChange_failure h
  | btDurationChange dur asked hal =>
    unfold call btDurationChange at h ⊢
    simp only at h ⊢
    split
    · rfl
    rename_i hrun
    rw [if_neg hrun] at h
    split
    · rfl
    rename_i hdur
    rw [if_neg hdur] at h
    split
    · rfl
    · rename_i hnone
      rw [if_neg hnone] at h; exact mccDurationChange_failure h
  | durLimChange wrole mld limReq asked hal =>
    unfold call durLimChange at h ⊢
    simp only at h ⊢
    split
    · rfl
    rename_i hmld
    rw [if_neg hmld] at h
    split
    · rfl
    rename_i hrun
    rw [if_neg hrun] at h
    split
    · rfl
    · rename_i i hi
      rw [hi] at h; exact mccDurationChange_failure h
  | watchdog hal₀ asked hal =>
    unfold call at h
    simp only at h
    split at h <;> cases h

/-- **One period in every run**, and a failure changes nothing. -/
theorem onePeriod_run {m₀ m : MccInfo} (h₀ : m₀.Started) (h : Reach step Good m₀ m) :
    m.OnePeriod ∧ ∀ op, (m.call op).1 = .failure → (m.call op).2 = m := by
  have hinv : m.Started := h.invariant h₀ fun _ _ hm hgood => hm.step hgood
  exact ⟨hinv.onePeriod, fun _ => call_failure⟩

/-- A client in the band of BT, with half of 100 TU. -/
def someClient (wrole : ℕ) : MccRole := ⟨wrole, .client, true, 100, ⟨50, ⟨false, 0, 0, 0⟩⟩⟩

def someInfo : MccInfo where
  mccRole i := someClient i
  refRoleIdx := 0
  mroleMap _ := true
  mroleNum := 2
  mPattern := { Pattern.zero with
    roleRef := some 0
    roleAno := some 1
    bcnsOffset := 50
    slotOrder := [⟨50, false, some 0⟩, ⟨50, false, some 1⟩] }
  mccIntvl := 100
  syncEn := false
  syncOffset := 0
  mccMode := .twoClients
  state := .running
  coexMode := .none
  btInfo := ⟨0, 1, false⟩

def someHal : Hal := ⟨some (50, 0), true, true, none, true⟩

/-- BT asks for 30 TU, and no role has a limit. -/
def someAsked : Asked := ⟨30, fun _ => ⟨false, 0, 0, 0, 0⟩, fun _ => true⟩

def someMccOps : List MccOp :=
  [.btDurationChange 30 someAsked someHal, .durLimChange 1 false ⟨false, 0, 0, 0, 0⟩ someAsked someHal]

instance (m : MccInfo) : Decidable m.CurrentSlots := by
  unfold CurrentSlots
  infer_instance

instance (m : MccInfo) : Decidable m.BtPatternFound := by
  unfold BtPatternFound
  infer_instance

theorem someInfo_started : someInfo.Started := ⟨⟨by decide, by decide⟩, fun _ => by decide, by decide⟩

theorem fits_someHal (hmode : m.mccMode = .twoClients) (hoffset : m.get2ClientsBcnOffset someHal = some 50)
    (hbt : (m.startPattern 50).setDurs2Clients.Bt2g)
    (hadj : (m.startPattern 50).setDurs2Clients.BtAdjustable)
    (hfound : (m.startPattern 50).setDurs2Clients.discisionDurFor2gMcc2roleBt.BtPatternFound) :
    m.Fits someHal := by
  unfold Fits
  rw [hmode]
  intro offset hoff
  rw [hoffset] at hoff
  cases hoff
  exact ⟨fun _ => ⟨hadj, hfound⟩, fun hno => absurd hbt hno⟩

theorem onePeriod_run_some : (someMccOps.foldl step someInfo).OnePeriod ∧
    (someMccOps.foldl step someInfo).mPattern.slotOrder.length = 3 := by
  have hreach : Reach step Good someInfo (someMccOps.foldl step someInfo) := by
    refine Legal.reach ⟨fun _ _ _ _ => ?_, fun _ _ i hi _ => ?_, trivial⟩
    · exact fits_someHal rfl (by decide) ⟨by decide, rfl, rfl⟩
        ⟨by decide, by decide, by decide, by decide, by decide, by decide⟩ (by decide +kernel)
    · have hone : (someInfo.step (.btDurationChange 30 someAsked someHal)).getMroleByWrole 1 = some 1 := by
        decide
      rw [hone] at hi
      cases hi
      exact fits_someHal (by decide) (by decide)
        ⟨by decide, by decide, by decide⟩
        ⟨by decide, by decide, by decide, by decide, by decide, by decide⟩ (by decide +kernel)
  exact ⟨(onePeriod_run someInfo_started hreach).1, by decide +kernel⟩

/-- A change of a role's duration stores four slots, two of them of the old pattern. -/
theorem durationChange_not_onePeriod : ¬ ∀ m₀ m : MccInfo, m₀.Started → m₀.state = .running →
    Reach step (fun _ _ => True) m₀ m → m.OnePeriod := by
  intro h
  have hone := h someInfo _ someInfo_started rfl (.step (.durationChange 0 40 someHal) .init trivial)
  have hsum := hone.sum
  exact absurd hsum (by decide)

end MccInfo

end Rtl8852cu.Mcc
