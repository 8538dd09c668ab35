import Rtl8852cu.Mcc.Fill
import Rtl8852cu.Mcc.Search

/-!
# The slots and their durations

* `TwoSlots`, `BtSlots`: the slots that a computation of a pattern appends, when there were none;
* `setDurFor2ClientsMode_sum`, `setDurForApClientMode_sum`: when the durations of two roles fill the
  period; a subtraction that wraps is repaired by a limit that fits;
* `Adjustable`, `adjustLoop_sum`: when the adjusting of durations to a BT slot ends well, and that all
  three then fill the period.
-/

namespace Rtl8852cu.Mcc

theorem u16_sub {a b : ℕ} (hle : b ≤ a) (ha : a < 65536) : u16 (a - b) = a - b := by
  unfold u16; omega

theorem u16_sub_of_lt {a b : ℕ} (hlt : a < b) (hb : b < 65536) : u16 (a - b) = a + 65536 - b := by
  unfold u16; omega

theorem u16_s16 {n : ℕ} (h : n < 65536) : u16 (s16 n) = n := by
  have hmod : s16 n % 65536 = (n : ℤ) % 65536 := by
    unfold s16; exact Int.bmod_emod
  unfold u16
  rw [hmod]; omega

/-! ### Slots -/

def TwoSlots (m : Pattern) (refDur anoDur : ℕ) : List SlotInfo :=
  [⟨refDur, false, m.roleRef⟩, ⟨anoDur, false, m.roleAno⟩]

/-- The slots of the two roles and of BT, in one order or the other. -/
def BtSlots (m : Pattern) (refDur anoDur btDur : ℕ) (slots : List SlotInfo) : Prop :=
  slots = [⟨refDur, false, m.roleRef⟩, ⟨anoDur, false, m.roleAno⟩, ⟨btDur, true, none⟩] ∨
  slots = [⟨refDur, false, m.roleRef⟩, ⟨btDur, true, none⟩, ⟨anoDur, false, m.roleAno⟩]

section Slots

variable {m q p : Pattern} {ref ano : DurInfo}

theorem fill_two (h : q.slotOrder = []) (d₁ d₂ : ℕ) (r₁ r₂ : Option (Fin 2)) :
    ((q.fillSlotInfo false d₁ r₁).fillSlotInfo false d₂ r₂).slotOrder = [⟨d₁, false, r₁⟩, ⟨d₂, false, r₂⟩] := by
  simp [Pattern.fillSlotInfo, h, maxSlots]

theorem fill_bt_last (h : q.slotOrder = []) (d₁ d₂ bt : ℕ) (r₁ r₂ : Option (Fin 2)) :
    (((q.fillSlotInfo false d₁ r₁).fillSlotInfo false d₂ r₂).fillSlotInfo true bt none).slotOrder =
      [⟨d₁, false, r₁⟩, ⟨d₂, false, r₂⟩, ⟨bt, true, none⟩] := by
  simp [Pattern.fillSlotInfo, h, maxSlots]

theorem fill_bt_between (h : q.slotOrder = []) (d₁ d₂ bt : ℕ) (r₁ r₂ : Option (Fin 2)) :
    (((q.fillSlotInfo false d₁ r₁).fillSlotInfo true bt none).fillSlotInfo false d₂ r₂).slotOrder =
      [⟨d₁, false, r₁⟩, ⟨bt, true, none⟩, ⟨d₂, false, r₂⟩] := by
  simp [Pattern.fillSlotInfo, h, maxSlots]

theorem slotOrder_courtesy (m : Pattern) (tob toa : ℤ) (src tgt : Option (Fin 2)) :
    (m.courtesy tob toa src tgt).slotOrder = m.slotOrder := by
  unfold Pattern.courtesy
  split <;> rfl

variable {offset : ℤ}

theorem slotOrder_negoTimes {gap : ℤ} (h : negoTimes ref ano offset gap m = some q) : q.slotOrder = m.slotOrder := by
  unfold negoTimes at h
  simp only at h
  split at h
  · cases h
  split at h
  · obtain ⟨t, -, rfl⟩ := Option.map_eq_some_iff.mp h; exact slotOrder_courtesy _ _ _ _ _
  split at h
  · obtain ⟨t, -, rfl⟩ := Option.map_eq_some_iff.mp h; exact slotOrder_courtesy _ _ _ _ _
  · cases h; exact slotOrder_courtesy _ _ _ _ _

theorem negoTimes_eq_none {gap offset' gap' : ℤ} (h : negoTimes ref ano offset gap m = none) :
    negoTimes ref ano offset' gap' m = none := by
  unfold negoTimes at h ⊢
  simp only at h ⊢
  split
  · rfl
  rename_i hboth
  rw [if_neg hboth] at h
  split
  · rename_i href
    rw [if_pos href] at h
    rw [Option.map_eq_none_iff] at h ⊢; exact h
  rename_i href
  rw [if_neg href] at h
  split
  · rename_i hano
    rw [if_pos hano] at h
    rw [Option.map_eq_none_iff] at h ⊢; exact h
  · rename_i hano
    rw [if_neg hano] at h; cases h

theorem slots_calculate2WrolePattern {offset : ℕ} (h : m.slotOrder = [])
    (hp : calculate2WrolePattern ref ano offset m = some p) :
    p.slotOrder = TwoSlots m ref.dur ano.dur := by
  unfold calculate2WrolePattern at hp
  split at hp
  · rename_i m' hm'
    cases hp
    unfold search2Wrole at hm'
    simp only at hm'
    split at hm'
    · cases hm'
    · cases hm'; exact fill_two (show (Search.store _ m _).slotOrder = [] from h) _ _ _ _
  · unfold calc2WroleNegoPattern at hp
    split at hp
    · cases hp
    · obtain ⟨m', hm', rfl⟩ := Option.map_eq_some_iff.mp hp
      exact fill_two ((slotOrder_negoTimes hm').trans h) _ _ _ _

variable {btDur : ℤ}

theorem slots_pattern1 {offset : ℕ} (h : m.slotOrder = [])
    (hp : calculate2Wslot1BtslotPattern1 ref ano offset btDur m = some p) :
    BtSlots m ref.dur ano.dur (u16 btDur) p.slotOrder := by
  unfold calculate2Wslot1BtslotPattern1 at hp
  simp only at hp
  split at hp
  · cases hp
  · cases hp; exact .inl (fill_bt_last (show (Search.store _ m _).slotOrder = [] from h) _ _ _ _ _)

theorem slots_pattern2 {offset : ℕ} (h : m.slotOrder = [])
    (hp : calculate2Wslot1BtslotPattern2 ref ano offset btDur m = some p) :
    BtSlots m ref.dur ano.dur (u16 btDur) p.slotOrder := by
  unfold calculate2Wslot1BtslotPattern2 at hp
  simp only at hp
  split at hp
  · cases hp
  · cases hp
    exact .inr (fill_bt_between (show (Search.store _ m _).slotOrder = [] from h) _ _ _ _ _)

theorem negoP2_eq_none (h : calc2Wslot1BtslotNegoP1 ref ano offset btDur m = none) :
    calc2Wslot1BtslotNegoP2 ref ano offset btDur m = none := by
  unfold calc2Wslot1BtslotNegoP1 at h
  unfold calc2Wslot1BtslotNegoP2
  exact Option.map_eq_none_iff.mpr (negoTimes_eq_none (Option.map_eq_none_iff.mp h))

theorem slots_negoP1 (h : m.slotOrder = []) (hp : calc2Wslot1BtslotNegoP1 ref ano offset btDur m = some p) :
    BtSlots m ref.dur ano.dur (u16 btDur) p.slotOrder := by
  unfold calc2Wslot1BtslotNegoP1 at hp
  obtain ⟨m', hm', rfl⟩ := Option.map_eq_some_iff.mp hp
  exact .inl (fill_bt_last ((slotOrder_negoTimes hm').trans h) _ _ _ _ _)

/-- The two negotiations, one behind the other. -/
def btNego (ref ano : DurInfo) (btDur : ℤ) (m : Pattern) : Option Pattern :=
  match calc2Wslot1BtslotNegoP1 ref ano (s16 m.bcnsOffset) btDur m with
  | some m' => some m'
  | none => calc2Wslot1BtslotNegoP2 ref ano (s16 m.bcnsOffset) btDur m

theorem slots_btNego (h : m.slotOrder = []) (hp : btNego ref ano btDur m = some p) :
    BtSlots m ref.dur ano.dur (u16 btDur) p.slotOrder := by
  unfold btNego at hp
  split at hp
  · rename_i hm'
    cases hp
    exact slots_negoP1 h hm'
  · rename_i hnone
    rw [negoP2_eq_none hnone] at hp; cases hp

theorem slots_calculate2Wslot1BtslotPattern (h : m.slotOrder = [])
    (hp : calculate2Wslot1BtslotPattern ref ano btDur m = some p) :
    BtSlots m ref.dur ano.dur (u16 btDur) p.slotOrder := by
  unfold calculate2Wslot1BtslotPattern at hp
  simp only at hp
  split at hp
  · split at hp
    · rename_i hm'
      cases hp
      exact slots_pattern1 h hm'
    · exact slots_btNego h hp
  split at hp
  · split at hp
    · rename_i hm'
      cases hp
      exact slots_pattern2 h hm'
    · exact slots_btNego h hp
  · exact slots_btNego h hp

theorem slots_calculate2ClientsPattern (h : m.slotOrder = []) (refDur anoDur offset : ℕ) :
    (calculate2ClientsPattern refDur anoDur offset m).slotOrder = TwoSlots m refDur anoDur :=
  fill_two (show (clientsTimes _ _ _ m).slotOrder = [] from h) _ _ _ _

theorem slots_set2ClientsWorsecaseDefaultPattern (h : m.slotOrder = []) (durRef refDur anoDur : ℕ) :
    (set2ClientsWorsecaseDefaultPattern durRef refDur anoDur m).slotOrder = TwoSlots m refDur anoDur :=
  fill_two (q := { m with toaR := 30, tobR := s16 (durRef - 30) }) h _ _ _ _

theorem slots_worsecase (h : m.slotOrder = []) {refDur anoDur offset bcnIntvl : ℕ} {found : Bool}
    (hp : calc2ClientsWorsecasePattern refDur anoDur offset bcnIntvl m = (found, p)) :
    if found then p.slotOrder = TwoSlots m refDur anoDur
    else p.slotOrder = [] ∧ p.roleRef = m.roleRef ∧ p.roleAno = m.roleAno := by
  have htimes : ∀ o, (((clientsTimes refDur anoDur o m).fillSlotInfo false refDur m.roleRef).fillSlotInfo
      false anoDur m.roleAno).slotOrder = TwoSlots m refDur anoDur := fun o =>
    fill_two (show (clientsTimes _ _ o m).slotOrder = [] from h) _ _ _ _
  unfold calc2ClientsWorsecasePattern at hp
  simp only at hp
  split at hp
  · cases hp; exact ⟨h, rfl, rfl⟩
  split at hp
  · cases hp; exact htimes _
  split at hp
  · cases hp; exact htimes _
  · cases hp; exact ⟨h, rfl, rfl⟩

end Slots

/-! ### Durations -/

/-- A duration as the policy of a role has it. -/
structure DurInfo.Original (i : DurInfo) : Prop where
  ge : 40 ≤ i.dur
  le : i.dur ≤ 60
  maxDur : i.durLimit.enable → i.durLimit.maxDur < 65536

/-- A limit holds a role inside the period. -/
def DurLimInfo.Within (lim : DurLimInfo) (intvl : ℕ) : Prop :=
  lim.enable ∧ 0 < lim.maxDur ∧ lim.maxDur ≤ intvl

/-- The durations of two clients fit in the period: that of the reference does, or a limit sees to it. -/
def DursFit (ref ano : DurInfo) (intvl : ℕ) : Prop :=
  ref.dur ≤ intvl ∨ ref.durLimit.Within intvl ∨ ano.durLimit.Within intvl

/-- Both durations are over the period, one of them by a wrap. -/
structure Wraps (intvl d₁ d₂ : ℕ) : Prop where
  first : intvl < d₁
  second : intvl < d₂
  first_lt : d₁ < 65536
  second_lt : d₂ < 65536

section Durs

variable {intvl d₁ d₂ : ℕ} {lim : DurLimInfo}

/-- The limit of a role is applied to its duration, and the other role has what is left. -/
def limited (lim : DurLimInfo) (intvl d₁ d₂ : ℕ) : ℕ × ℕ :=
  if lim.enable ∧ lim.maxDur ≠ 0 ∧ d₁ > lim.maxDur then (lim.maxDur, u16 (intvl - lim.maxDur))
  else (d₁, d₂)

theorem swap_limited : (limited lim intvl d₁ d₂).swap =
    if lim.enable ∧ lim.maxDur ≠ 0 ∧ d₁ > lim.maxDur then (u16 (intvl - lim.maxDur), lim.maxDur)
    else (d₂, d₁) := by
  unfold limited
  split <;> rfl

theorem limited_sum (hI : intvl < 65536) (h : d₁ + d₂ = intvl) :
    (limited lim intvl d₁ d₂).1 + (limited lim intvl d₁ d₂).2 = intvl := by
  unfold limited
  split
  · rename_i hlim
    have hle : lim.maxDur ≤ intvl := by omega
    rw [u16_sub hle hI]; omega
  · exact h

theorem limited_repairs (hI : intvl < 65536) (h : Wraps intvl d₁ d₂) (hw : lim.Within intvl) :
    (limited lim intvl d₁ d₂).1 + (limited lim intvl d₁ d₂).2 = intvl := by
  have hfirst := h.first
  obtain ⟨hen, hpos, hle⟩ := hw
  unfold limited
  rw [if_pos ⟨hen, by omega, by omega⟩, u16_sub hle hI]
  show lim.maxDur + (intvl - lim.maxDur) = intvl
  omega

theorem limited_wraps (hmax : lim.enable → lim.maxDur < 65536) (h : Wraps intvl d₁ d₂) (hw : ¬ lim.Within intvl) :
    Wraps intvl (limited lim intvl d₁ d₂).1 (limited lim intvl d₁ d₂).2 := by
  unfold limited
  split
  · rename_i hlim
    have hgt : intvl < lim.maxDur := by
      by_contra hle
      exact hw ⟨hlim.1, by omega, by omega⟩
    have hlt := hmax hlim.1
    rw [u16_sub_of_lt hgt hlt]; exact ⟨hgt, by omega, hlt, by omega⟩
  · exact h

theorem Wraps.swap (h : Wraps intvl d₁ d₂) : Wraps intvl d₂ d₁ := ⟨h.second, h.first, h.second_lt, h.first_lt⟩

end Durs

/-- The durations of two clients before their limits. -/
def clientDurs (d₁ d₂ intvl : ℕ) : ℕ × ℕ :=
  let (d₁, d₂) := if d₁ = 0xff then (u16 (intvl - d₂), d₂) else (d₁, u16 (intvl - d₁))
  if d₁ < 15 then (15, u16 (intvl - 15))
  else if d₂ < 15 then (u16 (intvl - 15), 15)
  else (d₁, d₂)

theorem clientDurs_sum {d₁ intvl : ℕ} (d₂ : ℕ) (hI : intvl < 65536) (h40 : 40 ≤ d₁) (h60 : d₁ ≤ 60) :
    if d₁ ≤ intvl then (clientDurs d₁ d₂ intvl).1 + (clientDurs d₁ d₂ intvl).2 = intvl
    else Wraps intvl (clientDurs d₁ d₂ intvl).1 (clientDurs d₁ d₂ intvl).2 := by
  unfold clientDurs
  rw [if_neg (by omega : d₁ ≠ 0xff)]
  simp only
  rw [if_neg (by omega : ¬ d₁ < 15)]
  split
  · rename_i hle
    rw [u16_sub hle hI]
    split
    · have h15 : u16 ((intvl : ℤ) - 15) = intvl - 15 := u16_sub (b := 15) (by omega) hI
      rw [h15]
      show intvl - 15 + 15 = intvl
      omega
    · show d₁ + (intvl - d₁) = intvl; omega
  · rename_i hgt
    rw [u16_sub_of_lt (by omega) (by omega)]
    split
    · omega
    · exact ⟨by omega, by omega, by omega, by omega⟩

theorem setDurFor2ClientsMode_eq (i₁ i₂ : DurInfo) (intvl : ℕ) : setDurFor2ClientsMode i₁ i₂ intvl =
      let d := clientDurs i₁.dur i₂.dur intvl
      let d' := limited i₁.durLimit intvl d.1 d.2
      (limited i₂.durLimit intvl d'.2 d'.1).swap := by
  simp only
  rw [swap_limited]; rfl

theorem setDurFor2ClientsMode_sum {i₁ i₂ : DurInfo} {intvl : ℕ} (hI : intvl < 65536)
    (h₁ : i₁.Original) (hfit : DursFit i₁ i₂ intvl) :
    (setDurFor2ClientsMode i₁ i₂ intvl).1 + (setDurFor2ClientsMode i₁ i₂ intvl).2 = intvl := by
  have hswap : ∀ d₁ d₂, (limited i₂.durLimit intvl d₁ d₂).1 + (limited i₂.durLimit intvl d₁ d₂).2 = intvl →
      (limited i₂.durLimit intvl d₁ d₂).swap.1 + (limited i₂.durLimit intvl d₁ d₂).swap.2 = intvl := by
    intro d₁ d₂ h
    rw [Prod.fst_swap, Prod.snd_swap, Nat.add_comm]; exact h
  have hdurs := clientDurs_sum i₂.dur hI h₁.ge h₁.le
  rw [setDurFor2ClientsMode_eq]
  simp only
  apply hswap
  by_cases hle : i₁.dur ≤ intvl
  · rw [if_pos hle] at hdurs
    apply limited_sum hI
    rw [Nat.add_comm]; exact limited_sum hI hdurs
  rw [if_neg hle] at hdurs
  by_cases hw : i₁.durLimit.Within intvl
  · apply limited_sum hI
    rw [Nat.add_comm]; exact limited_repairs hI hdurs hw
  · have hw' : i₂.durLimit.Within intvl := (hfit.resolve_left hle).resolve_left hw
    exact limited_repairs hI (limited_wraps h₁.maxDur hdurs hw).swap hw'

theorem setDurForApClientMode_sum {apDur clientDur intvl : ℕ} (hI : intvl < 65536)
    (h20 : 20 ≤ apDur) (hap : apDur < 255) (h15 : 15 ≤ intvl) :
    (setDurForApClientMode apDur clientDur intvl).1 + (setDurForApClientMode apDur clientDur intvl).2 = intvl := by
  unfold setDurForApClientMode
  rw [if_neg (by omega : apDur ≠ 0xff)]
  simp only
  rw [if_neg (by omega : ¬ apDur < 20)]
  split
  · have hap' : u16 ((intvl : ℤ) - 15) = intvl - 15 := u16_sub (b := 15) h15 hI
    rw [hap', u16_sub (Nat.sub_le _ _) hI]; omega
  · rw [u16_sub (by omega) hI]; omega

/-! ### Room for a BT slot -/

/-- **The durations of two roles can be adjusted to a BT slot**: their ranges are not empty, the shortest
durations fit in the period and the longest leave nothing of it; the loop ends before the BT slot is
short enough only when the period is; and no wrapped sum is taken for a right one. -/
structure Adjustable (intvl btDur min₁ max₁ min₂ max₂ : ℕ) : Prop where
  range₁ : min₁ ≤ max₁
  range₂ : min₂ ≤ max₂
  mins : min₁ + min₂ ≤ intvl
  maxs : intvl ≤ btDur + max₁ + max₂
  rounds : btDur + min₁ + min₂ < 2 * intvl
  wrap : btDur + min₁ + min₂ ≤ intvl ∨ btDur + max₁ + max₂ < intvl + 65536

section Adjust

variable {intvl btDur min₁ max₁ min₂ max₂ wifiDur d₁ d₂ : ℕ}

def InRange (min₁ max₁ min₂ max₂ : ℕ) (d : ℕ × ℕ) : Prop :=
  min₁ ≤ d.1 ∧ d.1 ≤ max₁ ∧ min₂ ≤ d.2 ∧ d.2 ≤ max₂

def roundFirst (min₁ max₁ wifiDur d₁ d₂ : ℕ) : ℕ :=
  let d₁ := d₁ * 100 / (d₁ + d₂) * wifiDur / 100 % 65536
  if d₁ < min₁ then min₁ else if d₁ > max₁ then max₁ else d₁

theorem adjustRound_eq : adjustRound min₁ max₁ min₂ max₂ wifiDur d₁ d₂ =
    let first := roundFirst min₁ max₁ wifiDur d₁ d₂
    if u16 (wifiDur - first) < min₂ then (u16 (wifiDur - min₂), min₂)
    else if u16 (wifiDur - first) > max₂ then (u16 (wifiDur - max₂), max₂)
    else (first, u16 (wifiDur - first)) :=
  rfl

theorem share_le (d₁ d₂ wifiDur : ℕ) : d₁ * 100 / (d₁ + d₂) * wifiDur / 100 % 65536 ≤ wifiDur := by
  have hpercent : d₁ * 100 / (d₁ + d₂) ≤ 100 :=
    Nat.div_le_of_le_mul (Nat.mul_le_mul_right 100 (Nat.le_add_right d₁ d₂))
  calc d₁ * 100 / (d₁ + d₂) * wifiDur / 100 % 65536
      ≤ d₁ * 100 / (d₁ + d₂) * wifiDur / 100 := Nat.mod_le _ _
    _ ≤ 100 * wifiDur / 100 := Nat.div_le_div_right (Nat.mul_le_mul_right wifiDur hpercent)
    _ = wifiDur := Nat.mul_div_cancel_left wifiDur (by omega)

theorem roundFirst_spec (d₁ d₂ : ℕ) (hrange : min₁ ≤ max₁) (hmin : min₁ ≤ wifiDur) :
    min₁ ≤ roundFirst min₁ max₁ wifiDur d₁ d₂ ∧ roundFirst min₁ max₁ wifiDur d₁ d₂ ≤ max₁ ∧
      roundFirst min₁ max₁ wifiDur d₁ d₂ ≤ wifiDur := by
  have hshare := share_le d₁ d₂ wifiDur
  unfold roundFirst
  simp only
  split
  · exact ⟨by omega, by omega, by omega⟩
  split
  · exact ⟨by omega, by omega, by omega⟩
  · exact ⟨by omega, by omega, by omega⟩

theorem adjustRound_inRange (d₁ d₂ : ℕ) (hwifi : wifiDur < 65536) (h₁ : min₁ ≤ max₁) (h₂ : min₂ ≤ max₂)
    (hmins : min₁ + min₂ ≤ wifiDur) (hmaxs : wifiDur ≤ max₁ + max₂) :
    InRange min₁ max₁ min₂ max₂ (adjustRound min₁ max₁ min₂ max₂ wifiDur d₁ d₂) ∧
      (adjustRound min₁ max₁ min₂ max₂ wifiDur d₁ d₂).1 +
        (adjustRound min₁ max₁ min₂ max₂ wifiDur d₁ d₂).2 = wifiDur := by
  obtain ⟨hlo, hhi, hle⟩ := roundFirst_spec d₁ d₂ h₁ (by omega : min₁ ≤ wifiDur)
  rw [adjustRound_eq]
  simp only
  rw [u16_sub hle hwifi]
  split
  · rw [u16_sub (by omega) hwifi]
    exact ⟨⟨by simp only; omega, by simp only; omega, Nat.le_refl _, h₂⟩, by simp only; omega⟩
  split
  · rw [u16_sub (by omega) hwifi]
    exact ⟨⟨by simp only; omega, by simp only; omega, h₂, Nat.le_refl _⟩, by simp only; omega⟩
  · exact ⟨⟨hlo, hhi, by simp only; omega, by simp only; omega⟩, by simp only; omega⟩

theorem adjustRound_mod (min₁ max₁ min₂ max₂ wifiDur d₁ d₂ : ℕ) : ((adjustRound min₁ max₁ min₂ max₂ wifiDur d₁ d₂).1 +
      (adjustRound min₁ max₁ min₂ max₂ wifiDur d₁ d₂).2) % 65536 = wifiDur % 65536 := by
  have hsub : ∀ d, (u16 (wifiDur - (d : ℕ)) + d) % 65536 = wifiDur % 65536 := by
    intro d
    unfold u16; omega
  rw [adjustRound_eq]
  simp only
  split
  · exact hsub _
  split
  · exact hsub _
  · rw [Nat.add_comm]; exact hsub _

theorem adjustRound_short (hI : intvl < 65536) (hbt : btDur < 65536)
    (hshort : intvl < btDur + min₁ + min₂) (hwrap : btDur + max₁ + max₂ < intvl + 65536) :
    ¬ InRange min₁ max₁ min₂ max₂
      (adjustRound min₁ max₁ min₂ max₂ (u16 (intvl - btDur)) d₁ d₂) := by
  rintro ⟨hlo₁, hhi₁, hlo₂, hhi₂⟩
  have hmod := adjustRound_mod min₁ max₁ min₂ max₂ (u16 (intvl - btDur)) d₁ d₂
  generalize adjustRound min₁ max₁ min₂ max₂ (u16 (intvl - btDur)) d₁ d₂ = d at *
  unfold u16 at hmod; omega

theorem adjustLoop_sum (hI : intvl < 65536) (h₁ : min₁ ≤ max₁) (h₂ : min₂ ≤ max₂)
    (hmins : min₁ + min₂ ≤ intvl) (n : ℕ) (hn : 0 < n) (hbt : btDur < 65536)
    (hmaxs : intvl ≤ btDur + max₁ + max₂) (hrounds : btDur + min₁ + min₂ < intvl + n)
    (hwrap : btDur + min₁ + min₂ ≤ intvl ∨ btDur + max₁ + max₂ < intvl + 65536) :
    ∃ d₁' d₂' btDur', adjustLoop intvl min₁ max₁ min₂ max₂ n btDur d₁ d₂ = some (d₁', d₂', btDur') ∧
      d₁' + d₂' + btDur' = intvl ∧ btDur' ≤ btDur := by
  induction n generalizing btDur d₁ d₂ with
  | zero => omega
  | succ n ih =>
    unfold adjustLoop
    simp only
    by_cases hroom : btDur + min₁ + min₂ ≤ intvl
    · have hle : btDur ≤ intvl := by omega
      obtain ⟨hin, hsum⟩ := adjustRound_inRange d₁ d₂ (by omega : intvl - btDur < 65536) h₁ h₂
        (by omega) (by omega)
      unfold InRange at hin
      rw [u16_sub hle hI, if_pos hin]; exact ⟨_, _, _, rfl, by omega, Nat.le_refl _⟩
    · have hwrap' := hwrap.resolve_left hroom
      have hbt' : u16 (btDur - 1) = btDur - 1 := u16_sub (b := 1) (by omega) hbt
      have hnot : ¬ InRange min₁ max₁ min₂ max₂
          (adjustRound min₁ max₁ min₂ max₂ (u16 (intvl - btDur)) d₁ d₂) :=
        adjustRound_short hI hbt (by omega) hwrap'
      unfold InRange at hnot
      rw [if_neg hnot, hbt']
      obtain ⟨d₁', d₂', bt', heq, hsum, hle⟩ := ih (by omega)
        (by omega : btDur - 1 < 65536) (by omega) (by omega) (.inr (by omega))
      exact ⟨d₁', d₂', bt', heq, hsum, by omega⟩

theorem Adjustable.adjustLoop (h : Adjustable intvl btDur min₁ max₁ min₂ max₂) (hI : intvl < 65536)
    (hbt : btDur < 65536) (d₁ d₂ : ℕ) :
    ∃ d₁' d₂' btDur', adjustLoop intvl min₁ max₁ min₂ max₂ intvl btDur d₁ d₂ = some (d₁', d₂', btDur') ∧
      d₁' + d₂' + btDur' = intvl ∧ btDur' ≤ btDur := by
  have hrounds := h.rounds
  exact adjustLoop_sum hI h.range₁ h.range₂ h.mins intvl (by omega) hbt h.maxs (by omega) h.wrap

end Adjust

end Rtl8852cu.Mcc
