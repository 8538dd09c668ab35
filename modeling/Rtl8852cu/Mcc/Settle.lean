import Rtl8852cu.Mcc.Slots

/-!
# When the stored pattern describes one period

* `MccInfo.OnePeriod`: the slots are those of the two roles, or of the role, and of BT, with their current
  durations, and fill the interval;
* `Begun`: how an info is when the computation of its pattern begins;
* `pattern2Clients_onePeriod`, `patternApClient_onePeriod`, `fillInfoForApBtMode_onePeriod`: on which
  infos the computations of the three modes end with one period.
-/

namespace Rtl8852cu.Mcc

namespace MccInfo

variable (m : MccInfo)

/-! ### One period -/

def wifiSlot (i : Fin 2) : SlotInfo := ⟨(m.mccRole i).durInfo.dur, false, some i⟩

def btSlot : SlotInfo := ⟨m.btInfo.btDur, true, none⟩

def CurrentSlots : Prop :=
  if m.mccMode = .ap then m.mPattern.slotOrder = [m.wifiSlot m.refRoleIdx, m.btSlot]
  else if m.btInfo.addBtRole then
    m.mPattern.slotOrder = [m.wifiSlot m.refRoleIdx, m.wifiSlot m.anoIdx, m.btSlot] ∨
    m.mPattern.slotOrder = [m.wifiSlot m.refRoleIdx, m.btSlot, m.wifiSlot m.anoIdx]
  else m.mPattern.slotOrder = [m.wifiSlot m.refRoleIdx, m.wifiSlot m.anoIdx]

theorem currentSlots_ap {m : MccInfo} (hmode : m.mccMode = .ap)
    (h : m.mPattern.slotOrder = [m.wifiSlot m.refRoleIdx, m.btSlot]) : m.CurrentSlots := by
  unfold CurrentSlots
  rw [if_pos hmode]; exact h

/-- The stored pattern describes one period. -/
structure OnePeriod : Prop where
  slots : m.CurrentSlots
  sum : (m.mPattern.slotOrder.map SlotInfo.slot).sum = m.mccIntvl

/-- The durations of the two roles together. -/
def wifiDur : ℕ := (m.mccRole 0).durInfo.dur + (m.mccRole 1).durInfo.dur

theorem ref_add_ano : m.roleRef.durInfo.dur + m.roleAno.durInfo.dur = m.wifiDur := by
  unfold roleRef roleAno anoIdx wifiDur
  rcases m.refRoleIdx with ⟨i, hi⟩
  match i, hi with
  | 0, _ => rfl
  | 1, _ => exact Nat.add_comm _ _

theorem anoIdx_ne : m.anoIdx ≠ m.refRoleIdx := by
  unfold anoIdx
  split
  · rename_i h
    rw [h]; decide
  · exact fun h0 => absurd h0.symm (by assumption)

/-! ### The durations of an info -/

section SetDur

variable (i j : Fin 2) (d : ℕ)

@[simp] theorem setDur_mPattern : (m.setDur i d).mPattern = m.mPattern := rfl
@[simp] theorem setDur_btInfo : (m.setDur i d).btInfo = m.btInfo := rfl
@[simp] theorem setDur_mccIntvl : (m.setDur i d).mccIntvl = m.mccIntvl := rfl
@[simp] theorem setDur_mccMode : (m.setDur i d).mccMode = m.mccMode := rfl
@[simp] theorem setDur_coexMode : (m.setDur i d).coexMode = m.coexMode := rfl
@[simp] theorem setDur_refRoleIdx : (m.setDur i d).refRoleIdx = m.refRoleIdx := rfl
@[simp] theorem setDur_anoIdx : (m.setDur i d).anoIdx = m.anoIdx := rfl

theorem mccRole_setDur : (m.setDur i d).mccRole j =
    if j = i then { m.mccRole i with durInfo := { (m.mccRole i).durInfo with dur := d } }
    else m.mccRole j := by
  unfold setDur modifyRole; exact Function.update_apply _ _ _ _

@[simp] theorem dur_setDur : ((m.setDur i d).mccRole j).durInfo.dur =
    if j = i then d else (m.mccRole j).durInfo.dur := by
  rw [mccRole_setDur]
  split <;> rfl

@[simp] theorem durLimit_setDur : ((m.setDur i d).mccRole j).durInfo.durLimit = (m.mccRole j).durInfo.durLimit := by
  rw [mccRole_setDur]
  split
  · rename_i h
    rw [h]
  · rfl

@[simp] theorem on24g_setDur : ((m.setDur i d).mccRole j).on24g = (m.mccRole j).on24g := by
  rw [mccRole_setDur]
  split
  · rename_i h
    rw [h]
  · rfl

@[simp] theorem bcnIntvl_setDur : ((m.setDur i d).mccRole j).bcnIntvl = (m.mccRole j).bcnIntvl := by
  rw [mccRole_setDur]
  split
  · rename_i h
    rw [h]
  · rfl

theorem wifiDur_setDur₂ {i j : Fin 2} (hne : i ≠ j) (a b : ℕ) : ((m.setDur i a).setDur j b).wifiDur = a + b := by
  unfold wifiDur
  rcases i with ⟨i, hi⟩
  rcases j with ⟨j, hj⟩
  match i, j, hi, hj with
  | 0, 0, _, _ => exact absurd rfl hne
  | 0, 1, _, _ => simp
  | 1, 0, _, _ => simp [Nat.add_comm]
  | 1, 1, _, _ => exact absurd rfl hne

end SetDur

/-! ### What no computation changes -/

/-- The roles, the mode and the beacon intervals are the same. -/
structure Same (m m' : MccInfo) : Prop where
  mode : m'.mccMode = m.mccMode
  refIdx : m'.refRoleIdx = m.refRoleIdx
  roleMap : m'.mroleMap = m.mroleMap
  num : m'.mroleNum = m.mroleNum
  bcnIntvl : ∀ i, (m'.mccRole i).bcnIntvl = (m.mccRole i).bcnIntvl

theorem Same.rfl {m : MccInfo} : Same m m := ⟨.refl _, .refl _, .refl _, .refl _, fun _ => .refl _⟩

theorem Same.trans {m₁ m₂ m₃ : MccInfo} (h₁ : Same m₁ m₂) (h₂ : Same m₂ m₃) : Same m₁ m₃ :=
  ⟨h₂.mode.trans h₁.mode, h₂.refIdx.trans h₁.refIdx, h₂.roleMap.trans h₁.roleMap,
    h₂.num.trans h₁.num, fun i => (h₂.bcnIntvl i).trans (h₁.bcnIntvl i)⟩

theorem same_setDur (i : Fin 2) (d : ℕ) : Same m (m.setDur i d) :=
  ⟨.refl _, .refl _, .refl _, .refl _, fun j => m.bcnIntvl_setDur i j d⟩

theorem same_write (p : Pattern) (bt : BtInfo) (intvl : ℕ) (en : Bool) (offset : ℕ) :
    Same m { m with
      mPattern := p
      btInfo := bt
      mccIntvl := intvl
      syncEn := en
      syncOffset := offset } :=
  ⟨.refl _, .refl _, .refl _, .refl _, fun _ => .refl _⟩

theorem same_durs (i j : Fin 2) (a b intvl : ℕ) : Same m { (m.setDur i a).setDur j b with mccIntvl := intvl } :=
  ((m.same_setDur i a).trans (same_setDur _ j b)).trans (same_write _ _ _ _ _ _)

theorem same_adjustDurFor2g : Same m m.adjustDurFor2gMcc2roleBt.2 := by
  unfold adjustDurFor2gMcc2roleBt
  split
  · exact .rfl
  · exact ((m.same_setDur _ _).trans (same_setDur _ _ _)).trans (same_write _ _ _ _ _ _)

theorem same_discision2g : Same m m.discisionDurFor2gMcc2roleBt := by
  unfold discisionDurFor2gMcc2roleBt
  simp only
  split
  · exact (m.same_write _ _ _ _ _).trans (same_adjustDurFor2g _)
  · exact m.same_adjustDurFor2g

theorem same_adjustDurFor2Band (i j : Fin 2) : Same m (m.adjustDurFor2BandMcc2roleBt i j) := by
  unfold adjustDurFor2BandMcc2roleBt
  simp only
  split
  · exact .rfl
  split
  · exact .rfl
  split
  · exact (m.same_setDur _ _).trans (same_setDur _ _ _)
  · exact .rfl

theorem same_discision : Same m m.discisionDurationFor2roleBt.2 := by
  unfold discisionDurationFor2roleBt
  split
  · exact .rfl
  split
  · exact m.same_discision2g
  · exact .rfl
  · exact m.same_adjustDurFor2Band 0 1
  · exact m.same_adjustDurFor2Band 1 0

theorem same_fill2WroleBtPattern : Same m m.fill2WroleBtPattern := by
  unfold fill2WroleBtPattern
  split
  · exact m.same_write _ _ _ _ _
  · exact .rfl

theorem same_fill2wrole : Same m m.fill2wrolePatternWithLimitation.2 := by
  have hdis := m.same_discision
  unfold fill2wrolePatternWithLimitation
  simp only
  split
  · exact .rfl
  split
  · exact .rfl
  split
  · rename_i m' heq
    rw [heq] at hdis; exact hdis.trans m'.same_fill2WroleBtPattern
  · rename_i m' heq
    rw [heq] at hdis
    split
    · exact hdis.trans (m'.same_write _ _ _ _ _)
    · exact hdis

theorem same_fill2ClientsPattern (worsecase : Bool) : Same m (m.fill2ClientsPattern worsecase) := by
  unfold fill2ClientsPattern
  simp only
  split
  · exact m.same_write _ _ _ _ _
  split
  · exact m.same_write _ _ _ _ _
  · exact m.same_write _ _ _ _ _

theorem same_pattern2Clients (worsecase : Bool) : Same m (m.pattern2Clients worsecase) := by
  have hfill := m.same_fill2wrole
  unfold pattern2Clients
  split
  · rename_i m₁ heq
    rw [heq] at hfill; exact hfill
  rename_i m₁ heq
  rw [heq] at hfill
  have hdis := m₁.same_discision
  split
  · rename_i m₂ heq₂
    rw [heq₂] at hdis; exact (hfill.trans hdis).trans m₂.same_fill2WroleBtPattern
  rename_i m₂ heq₂
  rw [heq₂] at hdis
  have hset := hfill.trans hdis
  split
  · exact (hset.trans (m₂.same_durs _ _ _ _ _)).trans (same_fill2ClientsPattern _ _)
  · exact hset.trans (m₂.same_fill2ClientsPattern _)

theorem same_patternApClient : Same m m.patternApClient := by
  have hdis := m.same_discision
  unfold patternApClient
  split
  · rename_i m' heq
    rw [heq] at hdis
    exact (hdis.trans (m'.same_write _ _ _ _ _)).trans (same_fill2WroleBtPattern _)
  · rename_i m' heq
    rw [heq] at hdis; exact hdis.trans (m'.same_write _ _ _ _ _)

variable {hal : Hal} {m' : MccInfo}

theorem same_fillInfoFor2ClientsMode (h : m.fillInfoFor2ClientsMode hal = some m') : Same m m' := by
  unfold fillInfoFor2ClientsMode at h
  split at h
  · cases h
  simp only at h
  split at h
  · cases h
    exact ((m.same_write _ _ _ _ _).trans (same_durs _ _ _ _ _ _)).trans (same_pattern2Clients _ _)
  · cases h

theorem same_fillInfoForApClientMode (h : m.fillInfoForApClientMode hal = some m') : Same m m' := by
  unfold fillInfoForApClientMode at h
  split at h
  · simp only at h
    split at h
    · cases h
    split at h
    · cases h
      exact (((m.same_write _ _ _ _ _).trans (same_durs _ _ _ _ _ _)).trans
        (same_patternApClient _)).trans (same_write _ _ _ _ _ _)
    · cases h
  · cases h

theorem same_fillInfoForApBtMode (h : m.fillInfoForApBtMode hal = some m') : Same m m' := by
  unfold fillInfoForApBtMode at h
  simp only at h
  split at h
  · cases h; exact (m.same_setDur _ _).trans (same_write _ _ _ _ _ _)
  · cases h

/-! ### A pattern is begun -/

/-- Where the computation of a pattern begins: there are no slots, and the pattern knows its roles. -/
structure Begun : Prop where
  slots : m.mPattern.slotOrder = []
  roleRef : m.mPattern.roleRef = some m.refRoleIdx
  roleAno : m.mPattern.roleAno = some m.anoIdx
  addBt : m.btInfo.addBtRole = false
  seg : m.btInfo.btSegNum = 1
  bt : m.btInfo.btDur < 65536
  mode : m.mccMode ≠ .ap

def Bt2g : Prop := m.btInfo.btDur ≠ 0 ∧ (m.mccRole 0).on24g ∧ (m.mccRole 1).on24g

/-- Where the role outside the band of BT is given the duration of BT, the other one has what is left. -/
def BandFits : Prop :=
  ∀ i j : Fin 2, (m.mccRole i).on24g → ¬ (m.mccRole j).on24g → m.coexMode = .btMaster →
    ¬ ((m.mccRole j).durInfo.durLimit.enable ∧ (m.mccRole j).durInfo.durLimit.maxDur < m.btInfo.btDur) →
    m.btInfo.btDur ≤ m.mccIntvl ∨ (m.mccRole i).durInfo.durLimit.enable ∧
      (m.mccRole i).durInfo.durLimit.maxDur ≤ m.mccIntvl

variable {m}

theorem Begun.setDur (h : m.Begun) (i : Fin 2) (d : ℕ) : (m.setDur i d).Begun :=
  ⟨h.slots, h.roleRef, h.roleAno, h.addBt, h.seg, h.bt, h.mode⟩

theorem bt2g_setDur {i : Fin 2} {d : ℕ} : (m.setDur i d).Bt2g ↔ m.Bt2g := by
  unfold Bt2g
  rw [on24g_setDur, on24g_setDur, setDur_btInfo]

theorem bandFits_setDur {i : Fin 2} {d : ℕ} : (m.setDur i d).BandFits ↔ m.BandFits := by
  unfold BandFits
  simp only [on24g_setDur, durLimit_setDur, setDur_btInfo, setDur_coexMode, setDur_mccIntvl]

theorem Begun.twoSlots (h : m.Begun) (hsum : m.wifiDur = m.mccIntvl) {p : Pattern}
    (hp : p.slotOrder = TwoSlots m.mPattern m.roleRef.durInfo.dur m.roleAno.durInfo.dur) :
    OnePeriod { m with mPattern := p } := by
  unfold TwoSlots at hp
  rw [h.roleRef, h.roleAno] at hp
  constructor
  · unfold CurrentSlots
    rw [if_neg h.mode, if_neg (by rw [h.addBt]; decide)]
    exact hp
  · show (p.slotOrder.map SlotInfo.slot).sum = m.mccIntvl
    rw [hp, ← hsum, ← ref_add_ano]; simp

theorem Begun.btSlots (h : m.Begun) (hsum : m.wifiDur + m.btInfo.btDur = m.mccIntvl) {p : Pattern}
    (hp : BtSlots m.mPattern m.roleRef.durInfo.dur m.roleAno.durInfo.dur m.btInfo.btDur p.slotOrder) :
    OnePeriod { m with btInfo := { m.btInfo with addBtRole := true }, mPattern := p } := by
  unfold BtSlots at hp
  rw [h.roleRef, h.roleAno] at hp
  constructor
  · unfold CurrentSlots
    rw [if_neg h.mode, if_pos rfl]; exact hp
  · show (p.slotOrder.map SlotInfo.slot).sum = m.mccIntvl
    rw [← hsum, ← ref_add_ano]
    rcases hp with hp | hp
    · rw [hp]; simp [Nat.add_assoc]
    · rw [hp]
      simp only [List.map_cons, List.map_nil, List.sum_cons, List.sum_nil]; omega

/-! ### Durations and BT -/

theorem adjustDurFor2Band_cases {i j : Fin 2} (hbt : m.btInfo.btDur < 65536) (hi : (m.mccRole i).on24g)
    (hj : ¬ (m.mccRole j).on24g) : m.adjustDurFor2BandMcc2roleBt i j = m ∨
    ∃ a b, m.adjustDurFor2BandMcc2roleBt i j = (m.setDur j a).setDur i b ∧
      (m.BandFits → m.mccIntvl < 65536 → a + b = m.mccIntvl) := by
  unfold adjustDurFor2BandMcc2roleBt
  simp only
  split
  · exact .inl rfl
  split
  · exact .inl rfl
  rename_i hlim
  split
  · rename_i hmaster
    refine .inr ⟨_, _, rfl, fun hfits hI => ?_⟩
    have hfit := hfits i j hi hj hmaster hlim
    split
    · rename_i hlim₂
      have hle : (m.mccRole i).durInfo.durLimit.maxDur ≤ m.mccIntvl := by
        rcases hfit with hle | ⟨-, hle⟩
        · rw [u16_sub hle hI] at hlim₂; omega
        · exact hle
      simp only
      rw [u16_sub hle hI]; omega
    · rename_i hlim₂
      have hle : m.btInfo.btDur ≤ m.mccIntvl := by
        rcases hfit with hle | ⟨hen, hle⟩
        · exact hle
        · by_contra hgt
          rw [u16_sub_of_lt (by omega) hbt] at hlim₂; exact hlim₂ ⟨hen, by omega⟩
      simp only
      rw [u16_sub hle hI]; omega
  · exact .inl rfl

theorem Begun.discision (h : m.Begun) (hno : ¬ m.Bt2g) :
    m.discisionDurationFor2roleBt.1 = false ∧ (m.discisionDurationFor2roleBt.2 = m ∨
      ∃ i j a b, i ≠ j ∧ m.discisionDurationFor2roleBt.2 = (m.setDur j a).setDur i b ∧
        (m.BandFits → m.mccIntvl < 65536 → a + b = m.mccIntvl)) := by
  have hband : ∀ i j : Fin 2, (m.mccRole i).on24g → ¬ (m.mccRole j).on24g →
      m.adjustDurFor2BandMcc2roleBt i j = m ∨ ∃ i' j' a b, i' ≠ j' ∧
        m.adjustDurFor2BandMcc2roleBt i j = (m.setDur j' a).setDur i' b ∧
        (m.BandFits → m.mccIntvl < 65536 → a + b = m.mccIntvl) := by
    intro i j hi hj
    rcases adjustDurFor2Band_cases h.bt hi hj with heq | ⟨a, b, heq, hsum⟩
    · exact .inl heq
    · exact .inr ⟨i, j, a, b, fun hij => hj (hij ▸ hi), heq, hsum⟩
  unfold discisionDurationFor2roleBt
  split
  · exact ⟨rfl, .inl rfl⟩
  rename_i hbt
  split
  · rename_i h₀ h₁
    exact absurd ⟨hbt, h₀, h₁⟩ hno
  · exact ⟨rfl, .inl rfl⟩
  · rename_i h₀ h₁
    exact ⟨rfl, hband 0 1 h₀ (by rw [h₁]; decide)⟩
  · rename_i h₀ h₁
    exact ⟨rfl, hband 1 0 h₁ (by rw [h₀]; decide)⟩

/-- What the durations settled so far keep: there is no BT slot to come, and they fill the interval, where
they are used at all (`used`). -/
structure Settled (used : Prop) (m : MccInfo) : Prop extends Begun m where
  noBt : ¬ m.Bt2g
  band : used → m.BandFits
  sum : used → m.wifiDur = m.mccIntvl
  intvl : m.mccIntvl < 65536

theorem Settled.discision {used : Prop} (h : m.Settled used) :
    m.discisionDurationFor2roleBt.1 = false ∧ m.discisionDurationFor2roleBt.2.Settled used := by
  obtain ⟨hfalse, heq | ⟨i, j, a, b, hne, heq, hsum⟩⟩ := h.toBegun.discision h.noBt
  · rw [heq]; exact ⟨hfalse, h⟩
  · refine ⟨hfalse, ?_⟩
    rw [heq]
    refine ⟨(h.toBegun.setDur j a).setDur i b, ?_, fun hu => ?_, fun hu => ?_, h.intvl⟩
    · rw [bt2g_setDur, bt2g_setDur]; exact h.noBt
    · rw [bandFits_setDur, bandFits_setDur]; exact h.band hu
    · rw [wifiDur_setDur₂ m hne.symm]; exact hsum (h.band hu) h.intvl

theorem Begun.adjust (h : m.Begun) (hI : m.mccIntvl < 65536)
    (hadj : Adjustable m.mccIntvl m.btInfo.btDur (m.mccRole 0).minDur (m.maxDur 0)
      (m.mccRole 1).minDur (m.maxDur 1)) :
    m.adjustDurFor2gMcc2roleBt.2.Begun ∧
      m.adjustDurFor2gMcc2roleBt.2.wifiDur + m.adjustDurFor2gMcc2roleBt.2.btInfo.btDur =
        m.adjustDurFor2gMcc2roleBt.2.mccIntvl := by
  obtain ⟨d₁, d₂, bt, heq, hsum, hle⟩ := hadj.adjustLoop hI h.bt (m.mccRole 0).durInfo.dur
    (m.mccRole 1).durInfo.dur
  have hadjust : m.adjustDurFor2gMcc2roleBt = (true, { (m.setDur 0 d₁).setDur 1 d₂ with
      btInfo := { m.btInfo with btDur := bt }
      mPattern := { m.mPattern with spacingMax := bt } }) := by
    unfold adjustDurFor2gMcc2roleBt
    rw [heq]; rfl
  rw [hadjust]
  have hbt := h.bt
  refine ⟨⟨h.slots, h.roleRef, h.roleAno, h.addBt, h.seg, by show bt < 65536; omega, h.mode⟩, ?_⟩
  show ((m.setDur 0 d₁).setDur 1 d₂).wifiDur + bt = m.mccIntvl
  rw [wifiDur_setDur₂ m (by decide), hsum]

variable (m) in
/-- The durations of the roles can be adjusted to the BT slot, which is cut to 33 TU. -/
def BtAdjustable : Prop :=
  Adjustable m.mccIntvl (min m.btInfo.btDur 33) (m.mccRole 0).minDur (m.maxDur 0) (m.mccRole 1).minDur
    (m.maxDur 1)

theorem Begun.discision2g (h : m.Begun) (hI : m.mccIntvl < 65536) (hadj : m.BtAdjustable) :
    m.discisionDurFor2gMcc2roleBt.Begun ∧
      m.discisionDurFor2gMcc2roleBt.wifiDur + m.discisionDurFor2gMcc2roleBt.btInfo.btDur =
        m.discisionDurFor2gMcc2roleBt.mccIntvl := by
  unfold BtAdjustable at hadj
  unfold discisionDurFor2gMcc2roleBt
  simp only
  split
  · rename_i hgt
    rw [Nat.min_eq_right (by omega)] at hadj
    let cut : MccInfo := { m with btInfo := { m.btInfo with btDur := 33 } }
    have hcut : cut.Begun :=
      ⟨h.slots, h.roleRef, h.roleAno, h.addBt, h.seg, (by decide : 33 < 65536), h.mode⟩
    exact hcut.adjust hI hadj
  · rw [Nat.min_eq_left (by omega)] at hadj; exact h.adjust hI hadj

/-! ### The patterns -/

variable (m) in
/-- With the durations that are settled, a pattern with a BT slot is found, or negotiated. -/
def BtPatternFound : Prop :=
  (calculate2Wslot1BtslotPattern m.roleRef.durInfo m.roleAno.durInfo (s16 m.btInfo.btDur)
    m.mPattern).isSome

theorem Begun.fill2WroleBtPattern (h : m.Begun)
    (hsum : m.wifiDur + m.btInfo.btDur = m.mccIntvl) (hfound : m.BtPatternFound) :
    m.fill2WroleBtPattern.OnePeriod := by
  obtain ⟨p, hp⟩ := Option.isSome_iff_exists.mp hfound
  have hslots := slots_calculate2Wslot1BtslotPattern h.slots hp
  rw [u16_s16 h.bt] at hslots
  unfold MccInfo.fill2WroleBtPattern
  rw [if_pos h.seg]
  simp only [hp]; exact h.btSlots hsum hslots

theorem Begun.fill2ClientsPattern (h : m.Begun) (hsum : m.wifiDur = m.mccIntvl) (worsecase : Bool) :
    (m.fill2ClientsPattern worsecase).OnePeriod := by
  unfold MccInfo.fill2ClientsPattern
  simp only
  split
  · exact h.twoSlots hsum (slots_calculate2ClientsPattern h.slots _ _ _)
  split
  · rename_i p hp
    have hslots := slots_worsecase h.slots hp
    rw [if_pos rfl] at hslots; exact h.twoSlots hsum hslots
  · rename_i p hp
    have hnone := slots_worsecase h.slots hp
    rw [if_neg (by decide)] at hnone
    refine h.twoSlots hsum ((slots_set2ClientsWorsecaseDefaultPattern hnone.1 _ _ _).trans ?_)
    unfold TwoSlots
    rw [hnone.2.1, hnone.2.2]

theorem Begun.setWorsecaseDur (h : m.Begun) : m.setWorsecaseDurFor2ClientsMode.Begun ∧
    m.setWorsecaseDurFor2ClientsMode.wifiDur = m.setWorsecaseDurFor2ClientsMode.mccIntvl := by
  have hset : ∀ a b, a + b = 150 → Begun { (m.setDur m.refRoleIdx a).setDur m.anoIdx b with mccIntvl := 150 } ∧
      wifiDur { (m.setDur m.refRoleIdx a).setDur m.anoIdx b with mccIntvl := 150 } = 150 := by
    intro a b hab
    refine ⟨⟨h.slots, h.roleRef, h.roleAno, h.addBt, h.seg, h.bt, h.mode⟩, ?_⟩
    show ((m.setDur m.refRoleIdx a).setDur m.anoIdx b).wifiDur = 150
    rw [wifiDur_setDur₂ m m.anoIdx_ne.symm, hab]
  unfold setWorsecaseDurFor2ClientsMode
  split
  · rename_i refDur anoDur heq
    split at heq
    · cases heq; exact hset 90 60 rfl
    · cases heq; exact hset 60 90 rfl

theorem Begun.setApClientDefaultPattern (h : m.Begun) (hsum : m.wifiDur = m.mccIntvl) :
    m.setApClientDefaultPattern.OnePeriod := by
  apply h.twoSlots hsum
  refine (fill_two ?_ _ _ _ _).trans ?_
  · exact h.slots
  · unfold TwoSlots; rw [h.roleRef, h.roleAno]

/-! ### The modes -/

theorem Bt2g.discision (h : m.Bt2g) : m.discisionDurationFor2roleBt = (true, m.discisionDurFor2gMcc2roleBt) := by
  unfold discisionDurationFor2roleBt
  rw [if_neg h.1, h.2.1, h.2.2]

theorem Bt2g.pattern2Clients (h : m.Bt2g) (worsecase : Bool) :
    m.pattern2Clients worsecase = m.discisionDurFor2gMcc2roleBt.fill2WroleBtPattern := by
  have hfill : m.fill2wrolePatternWithLimitation = (false, m) ∨ m.fill2wrolePatternWithLimitation =
        (true, m.discisionDurFor2gMcc2roleBt.fill2WroleBtPattern) := by
    unfold fill2wrolePatternWithLimitation
    simp only
    split
    · exact .inl rfl
    split
    · exact .inl rfl
    · rw [h.discision]; exact .inr rfl
  unfold MccInfo.pattern2Clients
  rcases hfill with heq | heq
  · rw [heq]
    simp only
    rw [h.discision]
  · rw [heq]

theorem Settled.fill2wrole {used : Prop} (h : m.Settled used) : (m.fill2wrolePatternWithLimitation.1 = true ∧
      ∃ (m' : MccInfo) (p : Pattern), m.fill2wrolePatternWithLimitation.2 =
        { m' with mPattern := p } ∧ m'.Settled used ∧
        p.slotOrder = TwoSlots m'.mPattern m'.roleRef.durInfo.dur m'.roleAno.durInfo.dur) ∨
    m.fill2wrolePatternWithLimitation.1 = false ∧ m.fill2wrolePatternWithLimitation.2.Settled used := by
  obtain ⟨hfalse, hsettled⟩ := h.discision
  unfold fill2wrolePatternWithLimitation
  simp only
  split
  · exact .inr ⟨rfl, h⟩
  split
  · exact .inr ⟨rfl, h⟩
  split
  · rename_i m' heq
    rw [heq] at hfalse; cases hfalse
  · rename_i m' heq
    rw [heq] at hsettled
    split
    · rename_i p hp
      exact .inl ⟨rfl, m', p, rfl, hsettled, slots_calculate2WrolePattern hsettled.slots hp⟩
    · exact .inr ⟨rfl, hsettled⟩

/-- The durations are not used: the beacons are close to each other, and no pattern is found with the limit. -/
def WorstCase (m : MccInfo) (worsecase : Bool) : Prop :=
  worsecase = true ∧ m.fill2wrolePatternWithLimitation.1 = false

theorem Settled.pattern2Clients {worsecase : Bool} (h : m.Settled (¬ m.WorstCase worsecase)) :
    (m.pattern2Clients worsecase).OnePeriod := by
  unfold MccInfo.pattern2Clients
  rcases h.fill2wrole with ⟨htrue, m', p, heq, hm', hp⟩ | ⟨hfalse, hm'⟩
  · have hused : ¬ m.WorstCase worsecase := fun hw => by
      rw [hw.2] at htrue; cases htrue
    split
    · rename_i m₁ hfill
      rw [hfill] at heq
      simp only at heq
      rw [heq]; exact hm'.toBegun.twoSlots (hm'.sum hused) hp
    · rename_i m₁ hfill
      rw [hfill] at htrue; cases htrue
  · split
    · rename_i m₁ hfill
      rw [hfill] at hfalse; cases hfalse
    rename_i m₁ hfill
    rw [hfill] at hm'
    obtain ⟨hdis, hset⟩ := hm'.discision
    split
    · rename_i m₂ heq
      rw [heq] at hdis; cases hdis
    rename_i m₂ heq
    rw [heq] at hset
    split
    · have hworst := hset.toBegun.setWorsecaseDur; exact hworst.1.fill2ClientsPattern hworst.2 _
    · rename_i hworst
      exact hset.toBegun.fill2ClientsPattern (hset.sum fun hw => hworst hw.1) _

theorem pattern2Clients_onePeriod {worsecase : Bool} (h : m.Begun) (hI : m.mccIntvl < 65536)
    (hbt : m.Bt2g → m.BtAdjustable ∧ m.discisionDurFor2gMcc2roleBt.BtPatternFound)
    (hno : ¬ m.Bt2g → ¬ m.WorstCase worsecase → m.BandFits ∧ m.wifiDur = m.mccIntvl) :
    (m.pattern2Clients worsecase).OnePeriod := by
  by_cases hb : m.Bt2g
  · obtain ⟨hbegun, hsum⟩ := h.discision2g hI (hbt hb).1
    rw [hb.pattern2Clients]; exact hbegun.fill2WroleBtPattern hsum (hbt hb).2
  · exact Settled.pattern2Clients
      ⟨h, hb, fun hu => (hno hb hu).1, fun hu => (hno hb hu).2, hI⟩

theorem patternApClient_onePeriod (h : m.Begun) (hI : m.mccIntvl < 65536)
    (hbt : m.Bt2g → m.BtAdjustable ∧ BtPatternFound { m.discisionDurFor2gMcc2roleBt with
      mPattern := { m.discisionDurFor2gMcc2roleBt.mPattern with bcnsOffset := 40 } })
    (hno : ¬ m.Bt2g → m.BandFits ∧ m.wifiDur = m.mccIntvl) : m.patternApClient.OnePeriod := by
  unfold patternApClient
  by_cases hb : m.Bt2g
  · obtain ⟨hbegun, hsum⟩ := h.discision2g hI (hbt hb).1
    rw [hb.discision]
    simp only
    refine Begun.fill2WroleBtPattern ?_ hsum (hbt hb).2
    exact ⟨hbegun.slots, hbegun.roleRef, hbegun.roleAno, hbegun.addBt, hbegun.seg, hbegun.bt, hbegun.mode⟩
  · have hset : m.Settled True := ⟨h, hb, fun _ => (hno hb).1, fun _ => (hno hb).2, hI⟩
    obtain ⟨hfalse, hset'⟩ := hset.discision
    split
    · rename_i m' heq
      rw [heq] at hfalse; cases hfalse
    · rename_i m' heq
      rw [heq] at hset'; exact hset'.toBegun.setApClientDefaultPattern (hset'.sum trivial)

theorem onePeriod_apBt {p : Pattern} (hp : p.slotOrder = []) (hmode : m.mccMode = .ap) {intvl : ℕ}
    (hsum : m.roleRef.durInfo.dur + m.btInfo.btDur = intvl) :
    OnePeriod { m with
      btInfo := { m.btInfo with addBtRole := true }
      mccIntvl := intvl
      mPattern := (p.fillSlotInfo false m.roleRef.durInfo.dur (some m.refRoleIdx)).fillSlotInfo true
        m.btInfo.btDur none } := by
  have hfill : ((p.fillSlotInfo false m.roleRef.durInfo.dur (some m.refRoleIdx)).fillSlotInfo true
      m.btInfo.btDur none).slotOrder = [m.wifiSlot m.refRoleIdx, m.btSlot] := by
    simp [Pattern.fillSlotInfo, hp, maxSlots, wifiSlot, btSlot, roleRef]
  constructor
  · exact currentSlots_ap hmode hfill
  · show (List.map SlotInfo.slot _).sum = intvl
    rw [hfill, ← hsum]; rfl

theorem fillInfoForApBtMode_onePeriod (h : m.fillInfoForApBtMode hal = some m') (hslots : m.mPattern.slotOrder = [])
    (hmode : m.mccMode = .ap) (hle : m.btInfo.btDur ≤ m.roleRef.bcnIntvl)
    (hlt : m.roleRef.bcnIntvl < m.btInfo.btDur + 256) : m'.OnePeriod := by
  have hdur : ((m.roleRef.bcnIntvl - m.btInfo.btDur : ℤ) % 256).toNat =
      m.roleRef.bcnIntvl - m.btInfo.btDur := by omega
  have hrole : (m.setDur m.refRoleIdx (m.roleRef.bcnIntvl - m.btInfo.btDur)).roleRef.durInfo.dur =
      m.roleRef.bcnIntvl - m.btInfo.btDur :=
    (m.dur_setDur _ _ _).trans (if_pos rfl)
  unfold fillInfoForApBtMode at h
  simp only at h
  rw [hdur] at h
  split at h
  · cases h
    have hone : ∀ p : Pattern, p.slotOrder = [] → OnePeriod
        { m.setDur m.refRoleIdx (m.roleRef.bcnIntvl - m.btInfo.btDur) with
          btInfo := { m.btInfo with addBtRole := true }
          mccIntvl := m.roleRef.bcnIntvl
          mPattern := (p.fillSlotInfo false (m.roleRef.bcnIntvl - m.btInfo.btDur)
            (some m.refRoleIdx)).fillSlotInfo true m.btInfo.btDur none } := by
      intro p hp
      have hsum : (m.setDur m.refRoleIdx (m.roleRef.bcnIntvl - m.btInfo.btDur)).roleRef.durInfo.dur +
          (m.setDur m.refRoleIdx (m.roleRef.bcnIntvl - m.btInfo.btDur)).btInfo.btDur = m.roleRef.bcnIntvl := by
        rw [hrole]; exact Nat.sub_add_cancel hle
      have hperiod := onePeriod_apBt
        (m := m.setDur m.refRoleIdx (m.roleRef.bcnIntvl - m.btInfo.btDur)) hp hmode hsum
      rw [hrole] at hperiod; exact hperiod
    exact hone _ hslots
  · cases h

end MccInfo

end Rtl8852cu.Mcc
