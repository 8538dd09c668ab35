import Rtl8852cu.Lib.Reach
import Mathlib.Data.List.Basic
import Mathlib.Logic.Function.Basic

/-!
# The receive filter, monitor mode and scans

`hal_g6/hal_rx.c`: one setting, the mode of the receive filter of a band, has three users.  The
stations and access points request normal modes, a monitor session puts the filter into sniffer mode
and `RESTORE` ends it, and a scan saves the mode that it finds and sets it again at its end.
`rx_fltr_opt_mode` records the mode of each band, `monitor_mode` is one flag for both.

`RxRun` adds what the calls are to achieve: the saves that are still open on a band, latest first, the
normal mode that was last requested outside of them, and the band of the monitor session.
`filter_in_force` says when the filter is in that mode again.
-/

namespace Rtl8852cu.Hal

open Lib
open Function (update update_self update_of_ne)

inductive RxFltrOptMode
  | sniffer | scan | staLinking | staNormal | apNormal | restore
  deriving DecidableEq

inductive HwBand
  | band0 | band1
  deriving DecidableEq

/-- What the functions use of `hal_info` and `hal_com`; `inForce` is the mode last written to the hardware. -/
structure RxFltr where
  monitorMode : Bool
  rxFltrOptMode : HwBand → RxFltrOptMode
  inForce : HwBand → RxFltrOptMode

namespace RxFltr

/-- `rtw_hal_set_rxfltr_opt_by_mode`; `ok` is whether the hardware can be written. -/
def setRxfltrOptByMode (ok : Bool) (band : HwBand) (mode : RxFltrOptMode) (s : RxFltr) : Bool × RxFltr :=
  if mode = .sniffer ∧ s.monitorMode = true ∨ mode = .restore ∧ s.monitorMode = false then (false, s)
  else if s.monitorMode = true ∧ mode ≠ .restore then
    (true, { s with rxFltrOptMode := update s.rxFltrOptMode band mode })
  else
    let setMode := if mode = .restore then s.rxFltrOptMode band else mode
    if !ok then (false, s)
    else
      let s := { s with inForce := update s.inForce band setMode, monitorMode := decide (mode = .sniffer) }
      if mode ≠ .sniffer ∧ mode ≠ .restore then
        (true, { s with rxFltrOptMode := update s.rxFltrOptMode band mode })
      else (true, s)

/-- `rtw_hal_get_rxfltr_opt_mode` -/
def getRxfltrOptMode (band : HwBand) (s : RxFltr) : RxFltrOptMode :=
  if s.monitorMode then .sniffer else s.rxFltrOptMode band

/-- `rtw_hal_scan_set_rxfltr_by_mode` off the channel: the mode saved. -/
def scanSave (ok : Bool) (band : HwBand) (s : RxFltr) : RxFltrOptMode × Bool × RxFltr :=
  (s.getRxfltrOptMode band, s.setRxfltrOptByMode ok band .scan)

/-- `rtw_hal_scan_set_rxfltr_by_mode` back on the channel. -/
def scanRestore (ok : Bool) (band : HwBand) (mode : RxFltrOptMode) (s : RxFltr) : Bool × RxFltr :=
  s.setRxfltrOptByMode ok band mode

end RxFltr

/-- A run, with what the calls are to achieve. -/
structure RxRun where
  hal : RxFltr
  saves : HwBand → List RxFltrOptMode
  lastNormal : HwBand → RxFltrOptMode
  session : Option HwBand

/-- The calls; `restore` is of the save with the number `i` of those open on the band, latest first. -/
inductive RxCall
  | set (band : HwBand) (mode : RxFltrOptMode) (ok : Bool)
  | save (band : HwBand) (ok : Bool)
  | restore (band : HwBand) (i : ℕ) (ok : Bool)

/-- After `rtl8852c_hal_init` with both bands. -/
def RxRun.start : RxRun where
  hal := ⟨false, fun _ => .staNormal, fun _ => .staNormal⟩
  saves := fun _ => []
  lastNormal := fun _ => .staNormal
  session := none

namespace RxRun

/-- The band of the monitor session after a call for a mode. -/
def sessionAfter (band : HwBand) (mode : RxFltrOptMode) (done : Bool) (s : RxRun) : Option HwBand :=
  if done = true ∧ mode = .sniffer then some band
  else if done = true ∧ mode = .restore then none
  else s.session

/-- A normal mode that was requested outside of scans counts. -/
def lastNormalAfter (band : HwBand) (mode : RxFltrOptMode) (done : Bool) (s : RxRun) : HwBand → RxFltrOptMode :=
  if done = true ∧ mode ≠ .sniffer ∧ mode ≠ .restore ∧ s.saves band = [] then update s.lastNormal band mode
  else s.lastNormal

/-- A restore whose write failed is still to be done. -/
def step (s : RxRun) : RxCall → RxRun
  | .set band mode ok =>
    let r := s.hal.setRxfltrOptByMode ok band mode
    { s with
      hal := r.2
      lastNormal := s.lastNormalAfter band mode r.1
      session := s.sessionAfter band mode r.1 }
  | .save band ok =>
    let r := s.hal.scanSave ok band
    { s with hal := r.2.2, saves := update s.saves band (r.1 :: s.saves band) }
  | .restore band i ok =>
    match (s.saves band)[i]? with
    | none => s
    | some mode =>
      let r := s.hal.scanRestore ok band mode
      { s with
        hal := r.2
        saves := if r.1 || ok then update s.saves band ((s.saves band).eraseIdx i) else s.saves
        session := s.sessionAfter band mode r.1 }

end RxRun

/-- The calls that cross another user of the setting: another mode for a band while the other one is monitored, a save while
one is monitored, and the restore of the earliest save while a later one with another mode is open. -/
def RxCall.Crosses (s : RxRun) : RxCall → Prop
  | .set band mode _ =>
    s.hal.monitorMode = true ∧ s.session ≠ some band ∧ mode ≠ .sniffer ∧ mode ≠ s.hal.inForce band
  | .save _ _ => s.hal.monitorMode = true
  | .restore band i _ => ∃ mode, (s.saves band)[i]? = some mode ∧
      (s.hal.monitorMode = true ∧ s.session ≠ some band ∧ mode ≠ s.hal.inForce band ∨
        (s.saves band).eraseIdx i ≠ [] ∧ ((s.saves band).eraseIdx i).getLast? ≠ (s.saves band).getLast?)

instance (s : RxRun) : ∀ call : RxCall, Decidable (call.Crosses s)
  | .set .. => inferInstanceAs (Decidable (_ ∧ _ ∧ _ ∧ _))
  | .save .. => inferInstanceAs (Decidable (_ = true))
  | .restore band i _ =>
    match h : (s.saves band)[i]? with
    | none => .isFalse fun ⟨_, hm, _⟩ => nomatch h.symm.trans hm
    | some mode =>
      decidable_of_iff (s.hal.monitorMode = true ∧ s.session ≠ some band ∧ mode ≠ s.hal.inForce band ∨
          (s.saves band).eraseIdx i ≠ [] ∧ ((s.saves band).eraseIdx i).getLast? ≠ (s.saves band).getLast?)
        ⟨fun hc => ⟨mode, h, hc⟩, fun ⟨_, hm, hc⟩ => Option.some.inj (h.symm.trans hm) ▸ hc⟩

/-! ### One call for a mode -/

/-- A mode that is neither of monitor mode nor `RESTORE`. -/
def RxFltrOptMode.Normal (mode : RxFltrOptMode) : Prop := mode ≠ .sniffer ∧ mode ≠ .restore

theorem RxFltr.set_cases (ok : Bool) (band : HwBand) (mode : RxFltrOptMode) (s : RxFltr) :
    s.setRxfltrOptByMode ok band mode = (false, s) ∧ (ok = false ∨ ¬ mode.Normal) ∨
    (s.monitorMode = true ∧ mode.Normal ∧ s.setRxfltrOptByMode ok band mode =
      (true, { s with rxFltrOptMode := update s.rxFltrOptMode band mode })) ∨
    (s.monitorMode = false ∧ mode.Normal ∧ s.setRxfltrOptByMode ok band mode =
      (true, ⟨false, update s.rxFltrOptMode band mode, update s.inForce band mode⟩)) ∨
    (s.monitorMode = false ∧ mode = .sniffer ∧ s.setRxfltrOptByMode ok band mode =
      (true, ⟨true, s.rxFltrOptMode, update s.inForce band .sniffer⟩)) ∨
    (s.monitorMode = true ∧ mode = .restore ∧ s.setRxfltrOptByMode ok band mode =
      (true, ⟨false, s.rxFltrOptMode, update s.inForce band (s.rxFltrOptMode band)⟩)) := by
  obtain ⟨monitor, recorded, inForce⟩ := s
  unfold RxFltr.setRxfltrOptByMode RxFltrOptMode.Normal
  cases monitor <;> cases mode <;> cases ok <;> simp

/-! ### The invariant -/

namespace RxRun

variable {s : RxRun} {band : HwBand} {mode : RxFltrOptMode} {ok : Bool}

/-- The flag is that of the session; the recorded modes are normal and in force, but for the band that is monitored;
and the earliest open save of a band, or its recorded mode when none is open, is the normal mode last requested. -/
structure Inv (s : RxRun) : Prop where
  flag : s.hal.monitorMode = s.session.isSome
  recorded : ∀ b, (s.hal.rxFltrOptMode b).Normal
  saved : ∀ b, ∀ m ∈ s.saves b, m.Normal
  force : ∀ b, s.session ≠ some b → s.hal.inForce b = s.hal.rxFltrOptMode b
  base : ∀ b, (s.saves b).getLast?.getD (s.hal.rxFltrOptMode b) = s.lastNormal b

theorem Inv.start : start.Inv where
  flag := rfl
  recorded := fun _ => ⟨nofun, nofun⟩
  saved := nofun
  force := fun _ _ => rfl
  base := fun _ => rfl

theorem Inv.session_none (h : s.Inv) (hm : s.hal.monitorMode = false) : s.session = none :=
  Option.isNone_iff_eq_none.mp (Option.isSome_eq_false_iff.mp (h.flag ▸ hm))

theorem Inv.force_set {inForce : HwBand → RxFltrOptMode} (h : s.Inv)
    (hin : s.session ≠ some band → inForce band = mode) (hother : ∀ b, b ≠ band → inForce b = s.hal.inForce b) :
    ∀ b, s.session ≠ some b → inForce b = update s.hal.rxFltrOptMode band mode b := by
  intro b hb
  by_cases hbb : b = band
  · subst hbb
    rw [update_self]; exact hin hb
  · rw [update_of_ne hbb, hother b hbb]; exact h.force b hb

theorem Inv.recorded_set (h : s.Inv) (hmode : mode.Normal) (b : HwBand) :
    (update s.hal.rxFltrOptMode band mode b).Normal := by
  by_cases hbb : b = band
  · rw [hbb, update_self]; exact hmode
  · rw [update_of_ne hbb]; exact h.recorded b

theorem Inv.base_set (h : s.Inv) (hmode : mode.Normal) (b : HwBand) :
    (s.saves b).getLast?.getD (update s.hal.rxFltrOptMode band mode b) = s.lastNormalAfter band mode true b := by
  unfold lastNormalAfter
  by_cases hbb : b = band
  · subst hbb
    rw [update_self]
    cases hs : s.saves b with
    | nil =>
      rw [if_pos ⟨rfl, hmode.1, hmode.2, rfl⟩, update_self]; rfl
    | cons m l =>
      have hbase := h.base b
      rw [if_neg fun hc => (nomatch hc.2.2.2), ← hbase, hs, List.getLast?_cons]; rfl
  · rw [update_of_ne hbb, h.base b]
    split_ifs
    · rw [update_of_ne hbb]
    · rfl

theorem Inv.set_normal (h : s.Inv) (ok : Bool) (hmode : mode.Normal)
    (hcross : s.hal.monitorMode = true → s.session ≠ some band → mode = s.hal.inForce band) :
    (s.hal.setRxfltrOptByMode ok band mode = (false, s.hal) ∧ ok = false) ∨
    ∃ hal, s.hal.setRxfltrOptByMode ok band mode = (true, hal) ∧ hal.monitorMode = s.hal.monitorMode ∧
      hal.rxFltrOptMode = update s.hal.rxFltrOptMode band mode ∧
      ∀ b, s.session ≠ some b → hal.inForce b = hal.rxFltrOptMode b := by
  rcases s.hal.set_cases ok band mode with ⟨hr, hok⟩ | ⟨hm, -, hr⟩ | ⟨hm, -, hr⟩ | ⟨-, hs, -⟩ | ⟨-, hs, -⟩
  · exact Or.inl ⟨hr, hok.resolve_right fun hn => hn hmode⟩
  · exact Or.inr ⟨_, hr, rfl, rfl, h.force_set (fun hb => (hcross hm hb).symm) fun _ _ => rfl⟩
  · refine Or.inr ⟨_, hr, hm.symm, rfl, h.force_set (fun _ => update_self ..) fun b hb => ?_⟩
    exact update_of_ne hb ..
  · exact absurd hs hmode.1
  · exact absurd hs hmode.2

theorem sessionAfter_normal {done : Bool} (hmode : mode.Normal) : s.sessionAfter band mode done = s.session := by
  unfold sessionAfter
  rw [if_neg fun hc => hmode.1 hc.2, if_neg fun hc => hmode.2 hc.2]

theorem after_refused : s.lastNormalAfter band mode false = s.lastNormal ∧ s.sessionAfter band mode false = s.session := by
  unfold lastNormalAfter sessionAfter
  rw [if_neg fun hc => (nomatch hc.1), if_neg fun hc => (nomatch hc.1), if_neg fun hc => (nomatch hc.1)]
  exact ⟨rfl, rfl⟩

theorem Inv.step_set (h : s.Inv) (hcross : ¬ (RxCall.set band mode ok).Crosses s) : (s.step (.set band mode ok)).Inv := by
  have hcross : s.hal.monitorMode = true → s.session ≠ some band → mode ≠ .sniffer → mode = s.hal.inForce band :=
    fun hm hb hs => of_not_not fun hne => hcross ⟨hm, hb, hs, hne⟩
  unfold step
  simp only
  by_cases hmode : mode.Normal
  · rw [sessionAfter_normal hmode]
    rcases h.set_normal ok hmode fun hm hb => hcross hm hb hmode.1 with ⟨hr, -⟩ | ⟨hal, hr, hmon, hrec, hforce⟩
    · rw [hr, after_refused.1]; exact h
    · rw [hr]
      exact {
        flag := hmon.trans h.flag
        recorded := fun b => by rw [hrec]; exact h.recorded_set hmode b
        saved := h.saved
        force := hforce
        base := fun b => by rw [hrec]; exact h.base_set hmode b }
  have hlast : ∀ done, s.lastNormalAfter band mode done = s.lastNormal := fun done =>
    if_neg fun hc => hmode ⟨hc.2.1, hc.2.2.1⟩
  rw [hlast]
  rcases s.hal.set_cases ok band mode with ⟨hr, -⟩ | ⟨-, hn, -⟩ | ⟨-, hn, -⟩ | ⟨hm, rfl, hr⟩ | ⟨hm, rfl, hr⟩
  · rw [hr, after_refused.2]; exact h
  · exact absurd hn hmode
  · exact absurd hn hmode
  · -- a session begins
    have hnone := h.session_none hm
    rw [hr]
    exact {
      flag := rfl
      recorded := h.recorded
      saved := h.saved
      force := by
        intro b hb
        have hbb : b ≠ band := fun he => hb (he ▸ rfl)
        show update s.hal.inForce band .sniffer b = _
        rw [update_of_ne hbb]; exact h.force b (by rw [hnone]; exact nofun)
      base := h.base }
  · -- it ends, and it is that of the band
    have hsess : s.session = some band := by
      by_contra hb
      have hin := hcross hm hb nofun
      rw [h.force band hb] at hin; exact (h.recorded band).2 hin.symm
    rw [hr]
    exact {
      flag := rfl
      recorded := h.recorded
      saved := h.saved
      force := by
        intro b _
        show update s.hal.inForce band (s.hal.rxFltrOptMode band) b = _
        by_cases hbb : b = band
        · rw [hbb, update_self]
        · rw [update_of_ne hbb]
          exact h.force b fun he => hbb (Option.some.inj (hsess.symm.trans he)).symm
      base := h.base }

/-! ### Saves -/

theorem Inv.step_save (h : s.Inv) (hm : s.hal.monitorMode = false) : (s.step (.save band ok)).Inv := by
  have hnone := h.session_none hm
  have hget : s.hal.getRxfltrOptMode band = s.hal.rxFltrOptMode band := by
    unfold RxFltr.getRxfltrOptMode
    rw [hm]; rfl
  have hscan : RxFltrOptMode.Normal .scan := ⟨nofun, nofun⟩
  have hsaved : ∀ b, ∀ m ∈ update s.saves band (s.hal.rxFltrOptMode band :: s.saves band) b, m.Normal := by
    intro b m hmem
    by_cases hbb : b = band
    · rw [hbb, update_self] at hmem
      rcases List.mem_cons.mp hmem with rfl | hmem
      · exact h.recorded band
      · exact h.saved band m hmem
    · rw [update_of_ne hbb] at hmem; exact h.saved b m hmem
  -- whatever is recorded now, the earliest save is the old one or the mode just saved
  have hbase : ∀ recorded : HwBand → RxFltrOptMode, (∀ b, b ≠ band → recorded b = s.hal.rxFltrOptMode b) → ∀ b,
      (update s.saves band (s.hal.rxFltrOptMode band :: s.saves band) b).getLast?.getD (recorded b) =
        s.lastNormal b := by
    intro recorded hrec b
    by_cases hbb : b = band
    · rw [hbb, update_self, List.getLast?_cons]; exact h.base band
    · rw [update_of_ne hbb, hrec b hbb]; exact h.base b
  unfold step RxFltr.scanSave
  simp only
  rw [hget]
  rcases h.set_normal ok hscan fun hmon => (nomatch hm.symm.trans hmon) with ⟨hr, -⟩ | ⟨hal, hr, hmon, hrec, hforce⟩
  · rw [hr]; exact ⟨h.flag, h.recorded, hsaved, h.force, hbase _ fun _ _ => rfl⟩
  · rw [hr]
    exact {
      flag := hmon.trans h.flag
      recorded := fun b => by rw [hrec]; exact h.recorded_set hscan b
      saved := hsaved
      force := hforce
      base := hbase _ fun b hb => by rw [hrec, update_of_ne hb] }

theorem getLast_eraseIdx {l : List RxFltrOptMode} {i : ℕ} (hi : l[i]? = some mode)
    (hlast : l.eraseIdx i ≠ [] → (l.eraseIdx i).getLast? = l.getLast?) (x : RxFltrOptMode) :
    (l.eraseIdx i).getLast?.getD mode = l.getLast?.getD x := by
  cases l with
  | nil => exact nomatch hi
  | cons m l =>
    by_cases hnil : (m :: l).eraseIdx i = []
    · cases i with
      | zero =>
        have hl : l = [] := hnil
        subst hl; exact (Option.some.inj hi).symm
      | succ i => exact nomatch hnil
    · rw [hlast hnil, List.getLast?_cons]; rfl

theorem Inv.step_restore {i : ℕ} (h : s.Inv) (hcross : ¬ (RxCall.restore band i ok).Crosses s) :
    (s.step (.restore band i ok)).Inv := by
  unfold step
  simp only
  cases hi : (s.saves band)[i]? with
  | none => exact h
  | some mode =>
    have hmode : mode.Normal := h.saved band mode (List.mem_of_getElem? hi)
    have hin : s.hal.monitorMode = true → s.session ≠ some band → mode = s.hal.inForce band := fun hm hb =>
      of_not_not fun hne => hcross ⟨mode, hi, Or.inl ⟨hm, hb, hne⟩⟩
    have hlast : (s.saves band).eraseIdx i ≠ [] → ((s.saves band).eraseIdx i).getLast? = (s.saves band).getLast? :=
      fun hne => of_not_not fun hl => hcross ⟨mode, hi, Or.inr ⟨hne, hl⟩⟩
    simp only
    rw [sessionAfter_normal hmode]
    rcases h.set_normal ok hmode hin with ⟨hr, hok⟩ | ⟨hal, hr, hmon, hrec, hforce⟩
    · unfold RxFltr.scanRestore
      rw [hr, hok]; exact h
    · unfold RxFltr.scanRestore
      rw [hr]
      exact {
        flag := hmon.trans h.flag
        recorded := fun b => by rw [hrec]; exact h.recorded_set hmode b
        saved := by
          intro b m hmem
          have hmem : m ∈ update s.saves band ((s.saves band).eraseIdx i) b := hmem
          by_cases hbb : b = band
          · rw [hbb, update_self] at hmem; exact h.saved band m (List.mem_of_mem_eraseIdx hmem)
          · rw [update_of_ne hbb] at hmem; exact h.saved b m hmem
        force := hforce
        base := by
          intro b
          show (update s.saves band ((s.saves band).eraseIdx i) b).getLast?.getD (hal.rxFltrOptMode b) = _
          rw [hrec]
          by_cases hbb : b = band
          · rw [hbb, update_self, update_self, getLast_eraseIdx hi hlast]; exact h.base band
          · rw [update_of_ne hbb, update_of_ne hbb]; exact h.base b }

theorem Inv.step (h : s.Inv) {call : RxCall} (hcross : ¬ call.Crosses s) : (s.step call).Inv := by
  cases call with
  | set band mode ok => exact h.step_set hcross
  | save band ok => exact h.step_save (Bool.not_eq_true _ ▸ hcross)
  | restore band i ok => exact h.step_restore hcross

end RxRun

/-- **The filter in force**: where no call crosses another user of the setting, the filter of a band is in the normal mode
that was last requested outside of scans, whenever no monitor session and no save of the band is open. -/
theorem filter_in_force (calls : List RxCall) (h : Legal RxRun.step (fun s call => ¬ call.Crosses s) .start calls)
    (band : HwBand) (hmon : (calls.foldl RxRun.step .start).hal.monitorMode = false)
    (hsaves : (calls.foldl RxRun.step .start).saves band = []) :
    (calls.foldl RxRun.step .start).hal.inForce band = (calls.foldl RxRun.step .start).lastNormal band := by
  have hinv : (calls.foldl RxRun.step .start).Inv := h.reach.invariant .start fun _ _ hs hc => hs.step hc
  have hbase := hinv.base band
  rw [hsaves] at hbase
  rw [hinv.force band (by rw [hinv.session_none hmon]; exact nofun)]
  exact hbase

/-- A monitor session that is begun and ended within a scan, with a failed write. -/
def sessionInScan : List RxCall :=
  [.set .band0 .apNormal true, .save .band0 true, .set .band0 .sniffer false, .set .band0 .sniffer true,
    .set .band0 .staLinking true, .set .band0 .restore true, .restore .band0 0 true]

theorem filter_after_session :
    (sessionInScan.foldl RxRun.step .start).hal.inForce .band0 = (sessionInScan.foldl RxRun.step .start).lastNormal .band0 :=
  filter_in_force sessionInScan (by decide) .band0 (by decide) (by decide)

def scanInSession : List RxCall :=
  [.set .band0 .sniffer true, .save .band0 true, .restore .band0 0 true, .set .band0 .restore true]

/-- The scan mode stays in force. -/
theorem scan_mode_left : ¬ ∀ band, (scanInSession.foldl RxRun.step .start).hal.monitorMode = false →
      (scanInSession.foldl RxRun.step .start).saves band = [] →
      (scanInSession.foldl RxRun.step .start).hal.inForce band = (scanInSession.foldl RxRun.step .start).lastNormal band := by
  intro h
  have hband := h .band0 (by decide) (by decide)
  revert hband
  decide

end Rtl8852cu.Hal
