import Rtl8852cu.Mcc.Settle
import Rtl8852cu.Lib.Checked

/-!
# The durations of two roles

`_mcc_set_dur_for_2_clients_mode`, `_mcc_set_dur_for_ap_client_mode` and `_mcc_adjust_dur_for_2g_mcc_2role_bt`, with their
subtractions and divisions checked.
-/

namespace Rtl8852cu.Mcc

open Lib

theorem sub_agrees {a b : ℕ} (ha : a < 65536) : Agrees (checkedSub a b) (u16 ((a : ℤ) - b)) := by
  intro r hr
  by_cases h : b ≤ a
  · rw [checkedSub_pos h] at hr
    rw [u16_sub h ha]; exact Option.some.inj hr
  · rw [checkedSub_neg (by omega)] at hr; cases hr

/-- The longest duration of a role in an interval. -/
def DurInfo.limit (i : DurInfo) (intvl : ℕ) : ℕ := if i.durLimit.enable then i.durLimit.maxDur else intvl

/-- Both roles have their durations, within their bounds, and with the BT slot they fill the interval. -/
structure Shares (intvl min1 max1 min2 max2 d1 d2 btDur : ℕ) : Prop where
  min1 : min1 ≤ d1
  max1 : d1 ≤ max1
  min2 : min2 ≤ d2
  max2 : d2 ≤ max2
  sum : d1 + d2 + btDur = intvl

/-! ### Two clients -/

/-- The duration that is asked for, and the rest of the interval. -/
def askedDurs (i1 i2 : DurInfo) (intvl : ℕ) : Option (ℕ × ℕ) :=
  if i1.dur = 0xff then (checkedSub intvl i2.dur).map fun d1 => (d1, i2.dur)
  else (checkedSub intvl i1.dur).map fun d2 => (i1.dur, d2)

/-- Neither is shorter than `MIN_CLIENT_DUR`. -/
def raisedDurs (intvl d1 d2 : ℕ) : Option (ℕ × ℕ) :=
  if d1 < 15 then (checkedSub intvl 15).map fun d2 => (15, d2)
  else if d2 < 15 then (checkedSub intvl 15).map fun d1 => (d1, 15)
  else some (d1, d2)

/-- The first is not longer than its limit. -/
def limitedDurs1 (lim : DurLimInfo) (intvl d1 d2 : ℕ) : Option (ℕ × ℕ) :=
  if lim.enable ∧ lim.maxDur ≠ 0 ∧ d1 > lim.maxDur then (checkedSub intvl lim.maxDur).map fun d2 => (lim.maxDur, d2)
  else some (d1, d2)

/-- The second is not longer than its limit. -/
def limitedDurs2 (lim : DurLimInfo) (intvl d1 d2 : ℕ) : Option (ℕ × ℕ) :=
  if lim.enable ∧ lim.maxDur ≠ 0 ∧ d2 > lim.maxDur then (checkedSub intvl lim.maxDur).map fun d1 => (d1, lim.maxDur)
  else some (d1, d2)

/-- `_mcc_set_dur_for_2_clients_mode`, checked. -/
def setDur2ClientsChecked (i1 i2 : DurInfo) (intvl : ℕ) : Option (ℕ × ℕ) :=
  (askedDurs i1 i2 intvl).bind fun d => (raisedDurs intvl d.1 d.2).bind fun d =>
    (limitedDurs1 i1.durLimit intvl d.1 d.2).bind fun d => limitedDurs2 i2.durLimit intvl d.1 d.2

variable {i1 i2 : DurInfo} {intvl d1 d2 : ℕ}

theorem askedDurs_agrees (hintvl : intvl < 65536) : Agrees (askedDurs i1 i2 intvl)
    (if i1.dur = 0xff then (u16 (intvl - i2.dur), i2.dur) else (i1.dur, u16 (intvl - i1.dur))) :=
  Agrees.ite (fun _ => (sub_agrees hintvl).map fun d1 => (d1, i2.dur)) fun _ => (sub_agrees hintvl).map fun d2 => (i1.dur, d2)

theorem raisedDurs_agrees (hintvl : intvl < 65536) : Agrees (raisedDurs intvl d1 d2)
    (if d1 < 15 then (15, u16 (intvl - 15)) else if d2 < 15 then (u16 (intvl - 15), 15) else (d1, d2)) :=
  Agrees.ite (fun _ => (sub_agrees hintvl).map fun d2 => (15, d2)) fun _ =>
    Agrees.ite (fun _ => (sub_agrees hintvl).map fun d1 => (d1, 15)) fun _ => Agrees.pure (d1, d2)

theorem setDur2Clients_agrees (hintvl : intvl < 65536) :
    Agrees (setDur2ClientsChecked i1 i2 intvl) (setDurFor2ClientsMode i1 i2 intvl) := by
  intro r hr
  obtain ⟨d, hd, hr⟩ := Option.bind_eq_some_iff.mp hr
  obtain ⟨e, he, hr⟩ := Option.bind_eq_some_iff.mp hr
  obtain ⟨f, hf, hr⟩ := Option.bind_eq_some_iff.mp hr
  unfold setDurFor2ClientsMode
  rw [askedDurs_agrees hintvl d hd]
  dsimp only
  rw [raisedDurs_agrees hintvl e he]
  have hlim1 : (if i1.durLimit.enable ∧ i1.durLimit.maxDur ≠ 0 ∧ e.1 > i1.durLimit.maxDur then
      (i1.durLimit.maxDur, u16 (intvl - i1.durLimit.maxDur)) else e) = f :=
    Agrees.ite (fun _ => (sub_agrees hintvl).map fun d2 => (i1.durLimit.maxDur, d2)) (fun _ => Agrees.pure e) f hf
  rw [hlim1]
  exact Agrees.ite (fun _ => (sub_agrees hintvl).map fun d1 => (d1, i2.durLimit.maxDur)) (fun _ => Agrees.pure f) r hr

/-- The limits of two roles: at most one is set, and it is between the shortest duration and the interval. -/
structure OneLimit (i1 i2 : DurInfo) (intvl min1 min2 : ℕ) : Prop where
  one : i1.durLimit.enable = true → i2.durLimit.enable = false
  first : i1.durLimit.enable = true → min1 ≤ i1.durLimit.maxDur ∧ i1.durLimit.maxDur ≤ intvl
  second : i2.durLimit.enable = true → min2 ≤ i2.durLimit.maxDur ∧ i2.durLimit.maxDur ≤ intvl

def askedDur (d1 d2 : ℕ) : ℕ := if d1 = 0xff then d2 else d1

theorem askedDurs_some (h : askedDur i1.dur i2.dur ≤ intvl) :
    ∃ d, askedDurs i1 i2 intvl = some d ∧ d.1 + d.2 = intvl := by
  unfold askedDur at h
  unfold askedDurs
  split at h
  · rename_i hany
    rw [if_pos hany, checkedSub_pos h]; exact ⟨_, rfl, Nat.sub_add_cancel h⟩
  · rename_i hany
    rw [if_neg hany, checkedSub_pos h]; exact ⟨_, rfl, Nat.add_sub_of_le h⟩

theorem askedDurs_none (h : intvl < askedDur i1.dur i2.dur) : askedDurs i1 i2 intvl = none := by
  unfold askedDur at h
  unfold askedDurs
  split at h
  · rename_i hany
    rw [if_pos hany, checkedSub_neg h]; rfl
  · rename_i hany
    rw [if_neg hany, checkedSub_neg h]; rfl

theorem raisedDurs_some (hintvl : 30 ≤ intvl) (h : d1 + d2 = intvl) :
    ∃ d, raisedDurs intvl d1 d2 = some d ∧ d.1 + d.2 = intvl ∧ 15 ≤ d.1 ∧ 15 ≤ d.2 := by
  unfold raisedDurs
  rw [checkedSub_pos (by omega)]
  split
  · exact ⟨_, rfl, by dsimp only; omega⟩
  split
  · exact ⟨_, rfl, by dsimp only; omega⟩
  · exact ⟨_, rfl, by dsimp only; omega⟩

section

variable {lim : DurLimInfo} (h : d1 + d2 = intvl) (h1 : 15 ≤ d1) (h2 : 15 ≤ d2)
  (hlim : lim.enable = true → 15 ≤ lim.maxDur)

include h h1 h2 hlim

theorem limitedDurs1_some :
    ∃ d, limitedDurs1 lim intvl d1 d2 = some d ∧ d.1 + d.2 = intvl ∧ 15 ≤ d.1 ∧ 15 ≤ d.2 ∧ d.1 ≤ d1 ∧
      (lim.enable = true → d.1 ≤ lim.maxDur) := by
  unfold limitedDurs1
  split
  · rename_i hlong
    have hmin := hlim hlong.1
    rw [checkedSub_pos (by omega)]
    exact ⟨_, rfl, by dsimp only; omega, hmin, by dsimp only; omega, by dsimp only; omega, fun _ => le_rfl⟩
  · rename_i hlong
    refine ⟨_, rfl, h, h1, h2, le_rfl, fun hen => ?_⟩
    have hmin := hlim hen
    by_contra hgt
    exact hlong ⟨hen, by omega, by omega⟩

theorem limitedDurs2_some : ∃ d, limitedDurs2 lim intvl d1 d2 = some d ∧ d.1 + d.2 = intvl ∧ 15 ≤ d.1 ∧ 15 ≤ d.2 ∧
      (lim.enable = false → d.1 = d1) ∧ (lim.enable = true → d.2 ≤ lim.maxDur) := by
  unfold limitedDurs2
  split
  · rename_i hlong
    have hmin := hlim hlong.1
    rw [checkedSub_pos (by omega)]
    refine ⟨_, rfl, by dsimp only; omega, by dsimp only; omega, hmin, fun hen => ?_, fun _ => le_rfl⟩
    rw [hlong.1] at hen; cases hen
  · rename_i hlong
    refine ⟨_, rfl, h, h1, h2, fun _ => rfl, fun hen => ?_⟩
    have hmin := hlim hen
    by_contra hgt
    exact hlong ⟨hen, by omega, by omega⟩

end

theorem setDur2Clients_iff (hlo : 50 ≤ intvl) (hhi : intvl < 65536) (hlim : OneLimit i1 i2 intvl 15 15) :
    (∃ d, setDur2ClientsChecked i1 i2 intvl = some d ∧ setDurFor2ClientsMode i1 i2 intvl = d ∧
        Shares intvl 15 (i1.limit intvl) 15 (i2.limit intvl) d.1 d.2 0) ↔
      askedDur i1.dur i2.dur ≤ intvl := by
  constructor
  · rintro ⟨d, hd, -⟩
    by_contra hroom
    unfold setDur2ClientsChecked at hd
    rw [askedDurs_none (Nat.not_le.mp hroom)] at hd; cases hd
  · intro hroom
    obtain ⟨a, ha, hasum⟩ := askedDurs_some hroom
    obtain ⟨b, hb, hbsum, hb1, hb2⟩ := raisedDurs_some (by omega) hasum
    obtain ⟨c, hc, hcsum, hc1, hc2, hcle, hcmax⟩ := limitedDurs1_some hbsum hb1 hb2 fun hen => (hlim.first hen).1
    obtain ⟨d, hd, hdsum, hd1, hd2, hdkeep, hdmax⟩ := limitedDurs2_some hcsum hc1 hc2 fun hen => (hlim.second hen).1
    have hrun : setDur2ClientsChecked i1 i2 intvl = some d := by
      unfold setDur2ClientsChecked
      rw [ha, Option.bind_some, hb, Option.bind_some, hc, Option.bind_some]; exact hd
    refine ⟨d, hrun, setDur2Clients_agrees hhi d hrun, hd1, ?_, hd2, ?_, by omega⟩
    · unfold DurInfo.limit
      split
      · rename_i hen
        rw [hdkeep (hlim.one hen)]; exact hcmax hen
      · omega
    · unfold DurInfo.limit
      split
      · rename_i hen
        exact hdmax hen
      · omega

/-! ### An AP and a client -/

/-- `_mcc_set_dur_for_ap_client_mode`, checked. -/
def setDurApClientChecked (apDur clientDur intvl : ℕ) : Option (ℕ × ℕ) :=
  (if apDur = 0xff then checkedSub intvl clientDur else some apDur).bind fun apDur =>
    (if apDur < 20 then some 20
      else if (apDur : ℤ) > intvl - 15 then checkedSub intvl 15
      else some apDur).bind fun apDur => (checkedSub intvl apDur).map fun clientDur => (apDur, clientDur)

variable {apDur clientDur : ℕ}

theorem setDurApClient_agrees (hintvl : intvl < 65536) :
    Agrees (setDurApClientChecked apDur clientDur intvl) (setDurForApClientMode apDur clientDur intvl) := by
  intro r hr
  obtain ⟨a, ha, hr⟩ := Option.bind_eq_some_iff.mp hr
  obtain ⟨b, hb, hr⟩ := Option.bind_eq_some_iff.mp hr
  have hasked : (if apDur = 0xff then u16 (intvl - clientDur) else apDur) = a :=
    Agrees.ite (fun _ => sub_agrees hintvl) (fun _ => Agrees.pure apDur) a ha
  have hclamped : (if a < 20 then 20 else if (a : ℤ) > intvl - 15 then u16 (intvl - 15) else a) = b :=
    Agrees.ite (fun _ => Agrees.pure 20) (fun _ => Agrees.ite (fun _ => sub_agrees hintvl) fun _ => Agrees.pure a) b hb
  unfold setDurForApClientMode
  dsimp only
  rw [hasked, hclamped]; exact (sub_agrees hintvl).map (fun clientDur => (b, clientDur)) r hr

def askedApDur (apDur clientDur intvl : ℕ) : ℕ := if apDur = 0xff then intvl - clientDur else apDur

theorem setDurApClient_iff (hlo : 50 ≤ intvl) (hhi : intvl < 65536) {apMax clientMax : ℕ} (hap : 20 ≤ apMax)
    (hclient : 15 ≤ clientMax) :
    (∃ d, setDurApClientChecked apDur clientDur intvl = some d ∧ setDurForApClientMode apDur clientDur intvl = d ∧
        Shares intvl 20 apMax 15 clientMax d.1 d.2 0) ↔
      (apDur = 0xff → clientDur ≤ intvl) ∧ (askedApDur apDur clientDur intvl ≤ apMax ∨ intvl ≤ apMax + 15) ∧
        (intvl ≤ askedApDur apDur clientDur intvl + clientMax ∨ intvl ≤ 20 + clientMax) := by
  by_cases hroom : apDur = 0xff → clientDur ≤ intvl
  · have hasked : (if apDur = 0xff then checkedSub intvl clientDur else some apDur) =
        some (askedApDur apDur clientDur intvl) := by
      unfold askedApDur
      split
      · rename_i hany
        exact checkedSub_pos (hroom hany)
      · rfl
    generalize askedApDur apDur clientDur intvl = a at hasked ⊢
    have hrun : ∃ b, setDurApClientChecked apDur clientDur intvl = some (b, intvl - b) ∧ 20 ≤ b ∧ b + 15 ≤ intvl ∧
        b = max 20 (min a (intvl - 15)) := by
      unfold setDurApClientChecked
      rw [hasked, Option.bind_some]
      split
      · rw [Option.bind_some, checkedSub_pos (by omega)]; exact ⟨20, rfl, by omega⟩
      split
      · rw [checkedSub_pos (by omega), Option.bind_some, checkedSub_pos (by omega)]
        exact ⟨intvl - 15, rfl, by omega⟩
      · rw [Option.bind_some, checkedSub_pos (by omega)]; exact ⟨a, rfl, by omega⟩
    obtain ⟨b, hb, hb20, hb15, hclamp⟩ := hrun
    have hagrees := setDurApClient_agrees hhi _ hb
    constructor
    · rintro ⟨d, hd, -, hshares⟩
      rw [hb] at hd
      cases hd
      have h1 := hshares.max1
      have h2 := hshares.max2
      dsimp only at h1 h2; exact ⟨hroom, by omega, by omega⟩
    · rintro ⟨-, h1, h2⟩
      refine ⟨_, hb, hagrees, hb20, ?_, ?_, ?_, ?_⟩
      · dsimp only; omega
      · dsimp only; omega
      · dsimp only; omega
      · dsimp only; omega
  · refine iff_of_false ?_ fun h => hroom h.1
    rintro ⟨d, hd, -⟩
    obtain ⟨hany, hlong⟩ := Classical.not_imp.mp hroom
    unfold setDurApClientChecked at hd
    rw [if_pos hany, checkedSub_neg (by omega)] at hd; cases hd

/-! ### Two roles and BT -/

/-- The share of the first role, between its bounds. -/
def sharedDur (min1 max1 wifiDur percent : ℕ) : ℕ :=
  let d1 := percent * wifiDur / 100 % 65536
  if d1 < min1 then min1 else if d1 > max1 then max1 else d1

/-- The rest of the second role, between its bounds. -/
def restDurs (min2 max2 wifiDur d1 : ℕ) : Option (ℕ × ℕ) :=
  (checkedSub wifiDur d1).bind fun d2 =>
    if d2 < min2 then (checkedSub wifiDur min2).map fun d1 => (d1, min2)
    else if d2 > max2 then (checkedSub wifiDur max2).map fun d1 => (d1, max2)
    else some (d1, d2)

def adjustRoundChecked (min1 max1 min2 max2 wifiDur d1 d2 : ℕ) : Option (ℕ × ℕ) :=
  (checkedDiv (d1 * 100) (d1 + d2)).bind fun percent => restDurs min2 max2 wifiDur (sharedDur min1 max1 wifiDur percent)

/-- The loop of `_mcc_adjust_dur_for_2g_mcc_2role_bt`, checked. -/
def adjustLoopChecked (intvl min1 max1 min2 max2 : ℕ) : ℕ → ℕ → ℕ → ℕ → Option (Option (ℕ × ℕ × ℕ))
  | 0, _, _, _ => some none
  | n + 1, btDur, d1, d2 =>
    (checkedSub intvl btDur).bind fun wifiDur => (adjustRoundChecked min1 max1 min2 max2 wifiDur d1 d2).bind fun d =>
      if min1 ≤ d.1 ∧ d.1 ≤ max1 ∧ min2 ≤ d.2 ∧ d.2 ≤ max2 then some (some (d.1, d.2, btDur))
      else (checkedSub btDur 1).bind fun btDur => adjustLoopChecked intvl min1 max1 min2 max2 n btDur d.1 d.2

variable {min1 max1 min2 max2 wifiDur btDur n : ℕ}

theorem adjustRound_agrees (hwifi : wifiDur < 65536) : Agrees (adjustRoundChecked min1 max1 min2 max2 wifiDur d1 d2)
    (adjustRound min1 max1 min2 max2 wifiDur d1 d2) := by
  intro r hr
  obtain ⟨percent, hpercent, hr⟩ := Option.bind_eq_some_iff.mp hr
  obtain ⟨b, hb, hr⟩ := Option.bind_eq_some_iff.mp hr
  have hdiv : percent = d1 * 100 / (d1 + d2) := by
    unfold checkedDiv at hpercent
    split at hpercent
    · cases hpercent
    · exact (Option.some.inj hpercent).symm
  have hrest := sub_agrees hwifi b hb
  rw [hdiv] at hrest hr
  unfold sharedDur at hrest hr
  unfold adjustRound
  dsimp only at hrest hr ⊢
  rw [hrest]
  exact Agrees.ite (fun _ => (sub_agrees hwifi).map fun d1 => (d1, min2))
    (fun _ => Agrees.ite (fun _ => (sub_agrees hwifi).map fun d1 => (d1, max2)) fun _ => Agrees.pure (_, b)) r hr

theorem adjustLoop_agrees (hintvl : intvl < 65536) (hbt : btDur < 65536) :
    Agrees (adjustLoopChecked intvl min1 max1 min2 max2 n btDur d1 d2)
      (adjustLoop intvl min1 max1 min2 max2 n btDur d1 d2) := by
  induction n generalizing btDur d1 d2 with
  | zero => exact Agrees.pure none
  | succ n ih =>
    intro r hr
    obtain ⟨w, hw, hr⟩ := Option.bind_eq_some_iff.mp hr
    obtain ⟨d, hd, hr⟩ := Option.bind_eq_some_iff.mp hr
    have hwifi := sub_agrees hintvl w hw
    have hlt : w < 65536 := by
      rw [← hwifi]
      unfold u16; omega
    unfold adjustLoop
    rw [hwifi, adjustRound_agrees hlt d hd]
    refine Agrees.ite (fun _ => Agrees.pure (some (d.1, d.2, btDur))) (fun _ r hr => ?_) r hr
    obtain ⟨b, hb, hr⟩ := Option.bind_eq_some_iff.mp hr
    have hdec : u16 ((btDur : ℤ) - 1) = b := sub_agrees hbt b hb
    have hb' : b < 65536 := by
      rw [← hdec]
      unfold u16; omega
    rw [hdec]; exact ih hb' r hr

theorem sharedDur_spec (hmin : min1 ≤ max1) {percent : ℕ} (hp : percent ≤ 100) (hwifi : wifiDur < 65536) :
    min1 ≤ sharedDur min1 max1 wifiDur percent ∧ sharedDur min1 max1 wifiDur percent ≤ max1 ∧
      (sharedDur min1 max1 wifiDur percent = min1 ∨ sharedDur min1 max1 wifiDur percent ≤ wifiDur) := by
  have hle : percent * wifiDur / 100 ≤ wifiDur := by
    have hmul : percent * wifiDur ≤ 100 * wifiDur := Nat.mul_le_mul_right wifiDur hp
    omega
  unfold sharedDur
  dsimp only
  rw [Nat.mod_eq_of_lt (by omega)]
  generalize percent * wifiDur / 100 = x at hle
  split
  · exact ⟨le_rfl, hmin, .inl rfl⟩
  split
  · exact ⟨hmin, le_rfl, .inr (by omega)⟩
  · exact ⟨by omega, by omega, .inr hle⟩

theorem percent_le : d1 * 100 / (d1 + d2) ≤ 100 := by
  exact Nat.div_le_of_le_mul (Nat.mul_le_mul_right 100 (Nat.le_add_right d1 d2))

section

variable (h1 : min1 ≤ max1)

include h1

theorem adjustRoundChecked_settles (h2 : min2 ≤ max2) (hroom : min1 + min2 ≤ wifiDur)
    (hmax : wifiDur ≤ max1 + max2) (hwifi : wifiDur < 65536) (hpos : 0 < d1 + d2) :
    ∃ d, adjustRoundChecked min1 max1 min2 max2 wifiDur d1 d2 = some d ∧ min1 ≤ d.1 ∧ d.1 ≤ max1 ∧ min2 ≤ d.2 ∧
      d.2 ≤ max2 ∧ d.1 + d.2 = wifiDur := by
  obtain ⟨hlo, hhi, hle⟩ := @sharedDur_spec min1 max1 wifiDur h1 _ percent_le hwifi
  unfold adjustRoundChecked
  rw [checkedDiv_pos hpos, Option.bind_some]
  generalize sharedDur min1 max1 wifiDur (d1 * 100 / (d1 + d2)) = x at hlo hhi hle ⊢
  unfold restDurs
  rw [checkedSub_pos (by omega), Option.bind_some]
  split
  · rw [checkedSub_pos (by omega)]; exact ⟨_, rfl, by dsimp only; omega⟩
  split
  · rw [checkedSub_pos (by omega)]; exact ⟨_, rfl, by dsimp only; omega⟩
  · exact ⟨_, rfl, by dsimp only; omega⟩

theorem adjustRoundChecked_short (hshort : wifiDur < min1 + min2) (hroom1 : min1 ≤ wifiDur)
    (hroom2 : min2 ≤ wifiDur) (hwifi : wifiDur < 65536) (hpos : 0 < d1 + d2) :
    adjustRoundChecked min1 max1 min2 max2 wifiDur d1 d2 = some (wifiDur - min2, min2) := by
  obtain ⟨hlo, hhi, hle⟩ := @sharedDur_spec min1 max1 wifiDur h1 _ percent_le hwifi
  unfold adjustRoundChecked
  rw [checkedDiv_pos hpos, Option.bind_some]
  generalize sharedDur min1 max1 wifiDur (d1 * 100 / (d1 + d2)) = x at hlo hhi hle ⊢
  unfold restDurs
  rw [checkedSub_pos (by omega), Option.bind_some, if_pos (by omega), checkedSub_pos hroom2]; rfl

theorem adjustRoundChecked_none (hroom : wifiDur < max min1 min2) (hwifi : wifiDur < 65536) :
    adjustRoundChecked min1 max1 min2 max2 wifiDur d1 d2 = none := by
  unfold adjustRoundChecked
  by_cases hpos : 0 < d1 + d2
  · obtain ⟨hlo, hhi, hle⟩ := @sharedDur_spec min1 max1 wifiDur h1 _ percent_le hwifi
    rw [checkedDiv_pos hpos, Option.bind_some]
    generalize sharedDur min1 max1 wifiDur (d1 * 100 / (d1 + d2)) = x at hlo hhi hle ⊢
    unfold restDurs
    by_cases hx : x ≤ wifiDur
    · rw [checkedSub_pos hx, Option.bind_some, if_pos (by omega), checkedSub_neg (by omega)]; rfl
    · rw [checkedSub_neg (by omega)]; rfl
  · rw [Nat.eq_zero_of_not_pos hpos, checkedDiv_zero]; rfl

theorem adjustLoopChecked_settles (h2 : min2 ≤ max2) (hmin : 0 < min2) (hfit : min1 + min2 ≤ intvl)
    (hmax : intvl ≤ max1 + max2) (hintvl : intvl < 65536) (hbt : btDur + max min1 min2 ≤ intvl) (hpos : 0 < d1 + d2)
    (hn : 0 < n) (hrounds : btDur + min1 + min2 < intvl + n) :
    ∃ d1' d2' btDur', adjustLoopChecked intvl min1 max1 min2 max2 n btDur d1 d2 = some (some (d1', d2', btDur')) ∧
      Shares intvl min1 max1 min2 max2 d1' d2' btDur' := by
  induction n generalizing btDur d1 d2 with
  | zero => cases hn
  | succ n ih =>
    have hwifi : btDur ≤ intvl := by omega
    unfold adjustLoopChecked
    rw [checkedSub_pos hwifi, Option.bind_some]
    by_cases hroom : min1 + min2 ≤ intvl - btDur
    · obtain ⟨d, hd, hd1, hd1', hd2, hd2', hsum⟩ :=
        @adjustRoundChecked_settles d1 d2 min1 max1 min2 max2 (intvl - btDur) h1 h2 hroom (by omega) (by omega) hpos
      rw [hd, Option.bind_some, if_pos ⟨hd1, hd1', hd2, hd2'⟩]
      exact ⟨d.1, d.2, btDur, rfl, hd1, hd1', hd2, hd2', by omega⟩
    · rw [adjustRoundChecked_short h1 (by omega) (by omega) (by omega) (by omega) hpos, Option.bind_some]
      dsimp only
      rw [if_neg (by omega), checkedSub_pos (by omega), Option.bind_some]
      exact ih (by omega) (by omega) (by omega) (by omega)

theorem adjustLoopChecked_none (hintvl : intvl < 65536) (hn : 0 < n)
    (hbad : intvl < btDur + max min1 min2 ∨ d1 + d2 = 0) :
    adjustLoopChecked intvl min1 max1 min2 max2 n btDur d1 d2 = none := by
  cases n with
  | zero => cases hn
  | succ n =>
    unfold adjustLoopChecked
    by_cases hbt : btDur ≤ intvl
    · rw [checkedSub_pos hbt, Option.bind_some]
      have hround : adjustRoundChecked min1 max1 min2 max2 (intvl - btDur) d1 d2 = none := by
        rcases hbad with hroom | hzero
        · exact adjustRoundChecked_none h1 (by omega) (by omega)
        · unfold adjustRoundChecked
          rw [hzero, checkedDiv_zero]; rfl
      rw [hround]; rfl
    · rw [checkedSub_neg (by omega)]; rfl

theorem adjustLoop_iff (h2 : min2 ≤ max2) (hmin1 : min1 ≤ 20) (hmin2 : 0 < min2 ∧ min2 ≤ 20)
    (hlo : 50 ≤ intvl) (hhi : intvl < 65536) (hmax : max1 = intvl ∨ max2 = intvl) (hbt : btDur < 65536) :
    (∃ r, adjustLoopChecked intvl min1 max1 min2 max2 intvl btDur d1 d2 = some r ∧
        adjustLoop intvl min1 max1 min2 max2 intvl btDur d1 d2 = r ∧
        ∀ d ∈ r, Shares intvl min1 max1 min2 max2 d.1 d.2.1 d.2.2) ↔
      btDur + max min1 min2 ≤ intvl ∧ 0 < d1 + d2 := by
  by_cases hgood : btDur + max min1 min2 ≤ intvl ∧ 0 < d1 + d2
  · refine iff_of_true ?_ hgood
    obtain ⟨d1', d2', btDur', hrun, hshares⟩ := @adjustLoopChecked_settles intvl d1 d2 min1 max1 min2 max2 btDur intvl h1 h2 hmin2.1
      (by omega) (by omega) hhi hgood.1 hgood.2 (by omega) (by omega)
    refine ⟨_, hrun, adjustLoop_agrees hhi hbt _ hrun, fun d hd => ?_⟩
    cases hd
    exact hshares
  · refine iff_of_false ?_ hgood
    rintro ⟨r, hr, -⟩
    rw [adjustLoopChecked_none h1 hhi (by omega) (by omega)] at hr; cases hr

end

namespace MccInfo

variable {m : MccInfo}

variable (m) in
/-- `_mcc_adjust_dur_for_2g_mcc_2role_bt`, checked. -/
def adjustChecked : Option (Option (ℕ × ℕ × ℕ)) :=
  adjustLoopChecked m.mccIntvl (m.mccRole 0).minDur (m.maxDur 0) (m.mccRole 1).minDur (m.maxDur 1) m.mccIntvl
    m.btInfo.btDur (m.mccRole 0).durInfo.dur (m.mccRole 1).durInfo.dur

variable (m) in
/-- The durations of the roles and of BT are right. -/
def RolesShare : Prop :=
  Shares m.mccIntvl (m.mccRole 0).minDur (m.maxDur 0) (m.mccRole 1).minDur (m.maxDur 1) (m.mccRole 0).durInfo.dur
    (m.mccRole 1).durInfo.dur m.btInfo.btDur

theorem minDur_setDur (i j : Fin 2) (d : ℕ) : ((m.setDur i d).mccRole j).minDur = (m.mccRole j).minDur := by
  rw [mccRole_setDur]
  split
  · rename_i h
    rw [h]; rfl
  · rfl

theorem maxDur_setDur (i j : Fin 2) (d : ℕ) : (m.setDur i d).maxDur j = m.maxDur j := by
  unfold maxDur
  rw [durLimit_setDur, setDur_mccIntvl]

theorem rolesShare_adjusted {d1 d2 btDur : ℕ} (p : Pattern) :
    RolesShare { (m.setDur 0 d1).setDur 1 d2 with btInfo := { m.btInfo with btDur := btDur }, mPattern := p } ↔
      Shares m.mccIntvl (m.mccRole 0).minDur (m.maxDur 0) (m.mccRole 1).minDur (m.maxDur 1) d1 d2 btDur := by
  have hmin : ∀ j, (((m.setDur 0 d1).setDur 1 d2).mccRole j).minDur = (m.mccRole j).minDur := fun j => by
    rw [minDur_setDur, minDur_setDur]
  have hmax : ∀ j, ((m.setDur 0 d1).setDur 1 d2).maxDur j = m.maxDur j := fun j => by
    rw [maxDur_setDur, maxDur_setDur]
  have hdur0 : (((m.setDur 0 d1).setDur 1 d2).mccRole 0).durInfo.dur = d1 := by
    rw [dur_setDur, if_neg (by decide), dur_setDur, if_pos rfl]
  have hdur1 : (((m.setDur 0 d1).setDur 1 d2).mccRole 1).durInfo.dur = d2 := by
    rw [dur_setDur, if_pos rfl]
  show Shares m.mccIntvl (((m.setDur 0 d1).setDur 1 d2).mccRole 0).minDur (((m.setDur 0 d1).setDur 1 d2).maxDur 0)
    (((m.setDur 0 d1).setDur 1 d2).mccRole 1).minDur (((m.setDur 0 d1).setDur 1 d2).maxDur 1)
    (((m.setDur 0 d1).setDur 1 d2).mccRole 0).durInfo.dur (((m.setDur 0 d1).setDur 1 d2).mccRole 1).durInfo.dur btDur ↔ _
  rw [hmin, hmin, hmax, hmax, hdur0, hdur1]

theorem adjust_iff (hlo : 50 ≤ m.mccIntvl) (hhi : m.mccIntvl < 65536) (hbt : m.btInfo.btDur < 65536)
    (hlim : OneLimit (m.mccRole 0).durInfo (m.mccRole 1).durInfo m.mccIntvl (m.mccRole 0).minDur (m.mccRole 1).minDur) :
    (m.adjustChecked.isSome = true ∧
        (m.adjustDurFor2gMcc2roleBt.1 = true → m.adjustDurFor2gMcc2roleBt.2.RolesShare)) ↔
      m.btInfo.btDur + max (m.mccRole 0).minDur (m.mccRole 1).minDur ≤ m.mccIntvl ∧
        0 < (m.mccRole 0).durInfo.dur + (m.mccRole 1).durInfo.dur := by
  have hmin : ∀ r : MccRole, 0 < r.minDur ∧ r.minDur ≤ 20 := fun r => by
    unfold MccRole.minDur
    split
    · decide
    · decide
  have hle : ∀ i, ((m.mccRole i).durInfo.durLimit.enable = true →
      (m.mccRole i).minDur ≤ (m.mccRole i).durInfo.durLimit.maxDur) → (m.mccRole i).minDur ≤ m.maxDur i := fun i h => by
    unfold maxDur
    dsimp only
    split
    · rename_i hen
      exact h hen
    · exact Nat.le_trans (hmin _).2 (by omega)
  have hone : m.maxDur 0 = m.mccIntvl ∨ m.maxDur 1 = m.mccIntvl := by
    unfold maxDur
    dsimp only
    cases hen : (m.mccRole 0).durInfo.durLimit.enable with
    | false => exact .inl rfl
    | true =>
      rw [hlim.one hen]; exact .inr rfl
  rw [← @adjustLoop_iff m.mccIntvl (m.mccRole 0).durInfo.dur (m.mccRole 1).durInfo.dur _ (m.maxDur 0) _ (m.maxDur 1)
    m.btInfo.btDur (hle 0 fun hen => (hlim.first hen).1) (hle 1 fun hen => (hlim.second hen).1) (hmin _).2 (hmin _) hlo hhi
    hone hbt]
  constructor
  · rintro ⟨hsome, hright⟩
    obtain ⟨r, hr⟩ := Option.isSome_iff_exists.mp hsome
    have hrun := adjustLoop_agrees hhi hbt r hr
    refine ⟨r, hr, hrun, fun d hd => ?_⟩
    cases hd
    unfold adjustDurFor2gMcc2roleBt at hright
    rw [hrun] at hright; exact (rolesShare_adjusted _).mp (hright rfl)
  · rintro ⟨r, hr, hrun, hright⟩
    refine ⟨Option.isSome_iff_exists.mpr ⟨r, hr⟩, ?_⟩
    unfold adjustDurFor2gMcc2roleBt
    rw [hrun]
    cases r with
    | none => exact nofun
    | some d => exact fun _ => (rolesShare_adjusted _).mpr (hright d rfl)

end MccInfo

def limitedDur (dur maxDur : ℕ) : DurInfo := ⟨dur, ⟨true, 0, 0, maxDur⟩⟩

/-- An AP and a client in an interval of 50 TU, of which BT wants 33. -/
def crampedInfo : MccInfo :=
  { mccRole := fun i => ⟨i, if i = 0 then .ap else .client, true, 50, ⟨25, ⟨false, 0, 0, 0⟩⟩⟩
    refRoleIdx := 0
    mroleMap := fun _ => true
    mroleNum := 2
    mPattern := .zero
    mccIntvl := 50
    syncEn := false
    syncOffset := 0
    mccMode := .apClient
    state := .none
    coexMode := .none
    btInfo := ⟨33, 1, false⟩ }

end Rtl8852cu.Mcc
