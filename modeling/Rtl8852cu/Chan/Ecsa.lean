import Mathlib.Algebra.Ring.Nat
import Mathlib.Algebra.Order.Ring.Nat
import Mathlib.Tactic.Ring
import Rtl8852cu.Lib.Reach

/-!
# The count-down of a channel switch announcement

An AP counts the beacons down to the switch. It changes the count 25 TU before the beacon that is to carry it, from a timer
whose value it takes from the TSF, and it sees by the clock in milliseconds whether it was late.
-/

namespace Rtl8852cu.Ecsa

open Lib

def u32Values : ℕ := 2 ^ 32

def TU : ℕ := 1024

def ECSA_UPDATE_BCN_BEFORE_TBTT_US : ℕ := 25 * TU

def ECSA_SWITCH_TIME_AFTER_LAST_COUNT_DOWN : ℕ := 10 * TU

inductive EcsaState
  | none | waitDelay | start | updateFirstBcnDone | countDown | switch | done
  deriving DecidableEq

inductive EcsaEvt
  | start | updateFirstBcnDone | countDown | switchStart
  deriving DecidableEq

structure EcsaCtrl where
  state : EcsaState
  count : ℕ
  expectedTbttMs : ℕ

/-- The subtraction of two `u32`. -/
def sub32 (a b : ℕ) : ℕ := (a + u32Values - b) % u32Values

/-- The TSF is `offset` microseconds ahead of the clock. -/
structure Bss where
  bcnInterval : ℕ
  offset : ℕ

/-- `beacon_period_us`, a `u32`. -/
def Bss.period (b : Bss) : ℕ := b.bcnInterval * TU % u32Values

/-- `next_timeslot_us`, for a beacon period and the time since the last TBTT. -/
def nextTimeslotUs (c : EcsaCtrl) (period timeslot : ℕ) : ℕ :=
  match c.state with
  | .start => (sub32 period timeslot + 2 * TU) % u32Values
  | .updateFirstBcnDone => sub32 (sub32 period timeslot) ECSA_UPDATE_BCN_BEFORE_TBTT_US
  | .countDown =>
    if c.count = 1 then (sub32 period timeslot + ECSA_SWITCH_TIME_AFTER_LAST_COUNT_DOWN) % u32Values
    else (sub32 period timeslot + sub32 period ECSA_UPDATE_BCN_BEFORE_TBTT_US) % u32Values
  | _ => 0

/-- What becomes of `expected_tbtt_ms`. -/
def expectedTbttMs (c : EcsaCtrl) (period timeslot cur : ℕ) : ℕ :=
  match c.state with
  | .updateFirstBcnDone => (cur + sub32 period timeslot / 1000) % u32Values
  | .countDown =>
    if c.count = 1 then c.expectedTbttMs
    else (cur + sub32 (2 * period % u32Values) timeslot / 1000) % u32Values
  | _ => c.expectedTbttMs

/-- The timer in milliseconds; `tsf` is what `rtw_hal_get_tsf` reads, if it succeeds. -/
def calculateNextTimerAp (b : Bss) (c : EcsaCtrl) (tsf : Option ℕ) (cur : ℕ) : EcsaCtrl × ℕ :=
  match tsf with
  | none => (c, 0)
  | some tsf =>
    let period := b.period
    let timeslot := tsf % period
    ({ c with expectedTbttMs := expectedTbttMs c period timeslot cur }, nextTimeslotUs c period timeslot / 1000)

/-- `countdown_n`, of the current time in milliseconds. -/
def countdownN (b : Bss) (c : EcsaCtrl) (cur : ℕ) : ℕ :=
  if cur < c.expectedTbttMs then 1
  else (sub32 cur c.expectedTbttMs % (b.period / 1000) + 1) % 256

/-- `_phl_ecsa_cmd_msg_hdlr` of an AP: what it leaves, and the timer if it sets one. -/
def cmdMsgHdlr (b : Bss) (c : EcsaCtrl) (evt : EcsaEvt) (tsf : Option ℕ) (cur : ℕ) : EcsaCtrl × Option ℕ :=
  match evt with
  | .start | .updateFirstBcnDone =>
    let (c, timer) := calculateNextTimerAp b c tsf cur
    (c, some timer)
  | .countDown =>
    let n := countdownN b c cur
    if n < c.count then
      let (c, timer) := calculateNextTimerAp b { c with count := c.count - n } tsf cur
      (c, some timer)
    else ({ c with count := 0, state := .switch }, none)
  | .switchStart => (c, none)

/-- The timer expires; `requested` is whether the command can be requested. -/
def stateChangeAp (requested : Bool) (c : EcsaCtrl) : EcsaCtrl × Option EcsaEvt :=
  match c.state with
  | .waitDelay => ({ c with state := if requested then .start else .none }, none)
  | .start => ({ c with state := .updateFirstBcnDone }, some .updateFirstBcnDone)
  | .updateFirstBcnDone => ({ c with state := .countDown }, some .countDown)
  | .countDown => if c.count = 1 then ({ c with state := .switch }, some .switchStart) else (c, some .countDown)
  | _ => (c, none)

/-! ## The count-down in time -/

/-- An AP at a time in microseconds; its TBTTs are the multiples of the period on the TSF, which is `offset` ahead. -/
structure Ap where
  ctrl : EcsaCtrl
  now : ℕ
  timer : Option ℕ
  /-- The number of the beacon that the count is for. -/
  beacon : ℕ

/-- How long the timer and its message are delayed, and whether the calls on the way succeed. -/
structure Delivery where
  delay : ℕ
  tsfRead : Bool
  requested : Bool

variable (b : Bss)

/-- The number of the last TBTT. -/
def Bss.tbtts (now : ℕ) : ℕ := (now + b.offset) / b.period

def Ap.handle (ap : Ap) (evt : EcsaEvt) (tsfRead : Bool) : Ap :=
  let (c, timer) := cmdMsgHdlr b ap.ctrl evt (if tsfRead then some (ap.now + b.offset) else none)
    (ap.now / 1000 % u32Values)
  { ap with
    ctrl := c
    timer := timer
    beacon := match evt with
      | .updateFirstBcnDone => b.tbtts ap.now
      | .countDown => if timer.isSome then b.tbtts ap.now + 1 else ap.beacon
      | _ => ap.beacon }

/-- When the next message is handled. -/
def Ap.arrival (ap : Ap) (d : Delivery) : ℕ := ap.now + 1000 * ap.timer.getD 0 + d.delay

/-- The message that the timer sends, if it runs. -/
def Ap.sends (ap : Ap) (d : Delivery) : Option EcsaEvt :=
  ap.timer.bind fun _ => (stateChangeAp d.requested ap.ctrl).2

/-- The timer expires, and the message that it sends is handled. -/
def Ap.step (ap : Ap) (d : Delivery) : Ap :=
  if ap.timer = none then ap
  else
    let expired := { ap with ctrl := (stateChangeAp d.requested ap.ctrl).1, now := ap.arrival d, timer := none }
    match ap.sends d with
    | none => expired
    | some evt => expired.handle b evt d.tsfRead

/-- The state when `MSG_EVT_ECSA_START` has been handled. -/
def Ap.launch (count expected now : ℕ) : Ap :=
  Ap.handle b ⟨⟨.start, count, expected⟩, now, none, 0⟩ .start true

/-! ## What it is for -/

/-- The exact time to the next timer. -/
def timeslotExact (c : EcsaCtrl) (period timeslot : ℕ) : ℤ :=
  match c.state with
  | .start => period - timeslot + 2 * TU
  | .updateFirstBcnDone => period - timeslot - ECSA_UPDATE_BCN_BEFORE_TBTT_US
  | .countDown =>
    if c.count = 1 then period - timeslot + ECSA_SWITCH_TIME_AFTER_LAST_COUNT_DOWN
    else 2 * period - timeslot - ECSA_UPDATE_BCN_BEFORE_TBTT_US
  | _ => 0

/-- The timer that is set is the exact one. -/
def TimerExact (ap : Ap) : Prop :=
  ∀ timer, ap.timer = some timer → (timer : ℤ) =
    timeslotExact ap.ctrl b.period ((ap.now + b.offset) % b.period) / 1000

/-- **What a step has to do.** A count-down takes off the beacons since the one that the count was for; the switch comes
when the count is at its end and has been sent. -/
structure InStep (ap : Ap) (d : Delivery) (ap' : Ap) : Prop where
  counted : ap.sends d = some .countDown → ap'.ctrl.count = ap.ctrl.count - (b.tbtts ap'.now + 1 - ap.beacon)
  switched : ap.ctrl.state ≠ .switch → ap'.ctrl.state = .switch → ap.ctrl.count ≤ 1 ∧ ap.beacon ≤ b.tbtts ap'.now
  timer : TimerExact b ap'

/-- When the beacon of the next count is due, by a clock that does not wrap. -/
def dueMs (ap : Ap) : ℕ := ap.now / 1000 + ((ap.beacon + 1) * b.period - (ap.now + b.offset)) / 1000

/-- **A step in time.** The TSF is read; the first beacon is not so late that its timer underflows; and a count-down is
handled before the next beacon is due, on a clock that does not wrap until then. -/
def Timely (ap : Ap) (d : Delivery) : Prop :=
  d.tsfRead = true ∧
    (ap.sends d = some .updateFirstBcnDone →
      ECSA_UPDATE_BCN_BEFORE_TBTT_US + (ap.arrival d + b.offset) % b.period ≤ b.period) ∧
    (ap.sends d = some .countDown →
      ap.arrival d / 1000 < dueMs b ap ∧ dueMs b ap / u32Values = ap.now / 1000 / u32Values)

instance (ap : Ap) (d : Delivery) : Decidable (Timely b ap d) := by
  unfold Timely; infer_instance

/-- What holds between the messages. -/
def Waiting (ap : Ap) : Prop :=
  match ap.ctrl.state with
  | .start => True
  | .updateFirstBcnDone => ap.beacon = b.tbtts ap.now ∧
      ap.ctrl.expectedTbttMs = dueMs b ap % u32Values
  | .countDown => ap.beacon = b.tbtts ap.now + 1 ∧ 0 < ap.ctrl.count ∧
      ap.beacon * b.period ≤ ap.now + b.offset + 1000 * ap.timer.getD 0 ∧
      (ap.ctrl.count ≠ 1 → ap.ctrl.expectedTbttMs = dueMs b ap % u32Values)
  | .switch => ap.timer = none
  | _ => False

/-- A timer has been set at the time `now`. -/
def timed (c : EcsaCtrl) (now beacon : ℕ) : Ap :=
  let (c, timer) := calculateNextTimerAp b c (some (now + b.offset)) (now / 1000 % u32Values)
  ⟨c, now, some timer, beacon⟩

theorem sub32_of_le {a b : ℕ} (h : b ≤ a) (ha : a < u32Values) : sub32 a b = a - b := by
  unfold sub32 u32Values at *; omega

variable {b}

theorem before_due {ap : Ap} {now' : ℕ} (hle : ap.now ≤ now') (h : now' / 1000 < dueMs b ap) :
    b.tbtts now' ≤ ap.beacon := by
  have hdue : now' + b.offset < (ap.beacon + 1) * b.period := by
    unfold dueMs at h; omega
  exact Nat.lt_succ_iff.mp (Nat.div_lt_of_lt_mul (hdue.trans_eq (Nat.mul_comm _ _)))

theorem cur_lt_expected {ap : Ap} {now' : ℕ} (hle : ap.now ≤ now') (h : now' / 1000 < dueMs b ap)
    (hwrap : dueMs b ap / u32Values = ap.now / 1000 / u32Values) :
    now' / 1000 % u32Values < dueMs b ap % u32Values := by
  unfold u32Values at *; omega

section Period

variable (hlo : 26 ≤ b.bcnInterval) (hhi : b.bcnInterval < 2 ^ 21)
include hlo hhi

theorem period_range : 26 * TU ≤ b.period ∧ b.period < 2 ^ 31 := by
  unfold Bss.period TU u32Values; omega

theorem nextTimeslotUs_eq {c : EcsaCtrl} {timeslot : ℕ} (hts : timeslot < b.period)
    (hfirst : c.state = .updateFirstBcnDone → ECSA_UPDATE_BCN_BEFORE_TBTT_US + timeslot ≤ b.period) :
    (nextTimeslotUs c b.period timeslot : ℤ) =
      timeslotExact c b.period timeslot := by
  obtain ⟨hmin, hmax⟩ := period_range hlo hhi
  generalize b.period = period at *
  have hsub : sub32 period timeslot = period - timeslot := sub32_of_le hts.le (by unfold u32Values; omega)
  have hguard : sub32 period ECSA_UPDATE_BCN_BEFORE_TBTT_US = period - ECSA_UPDATE_BCN_BEFORE_TBTT_US :=
    sub32_of_le (by unfold ECSA_UPDATE_BCN_BEFORE_TBTT_US; omega) (by unfold u32Values; omega)
  unfold nextTimeslotUs timeslotExact
  rw [hsub, hguard]
  unfold ECSA_UPDATE_BCN_BEFORE_TBTT_US ECSA_SWITCH_TIME_AFTER_LAST_COUNT_DOWN TU u32Values at *
  split
  · omega
  · rename_i hstate
    have := hfirst hstate
    rw [sub32_of_le (by omega) (by unfold u32Values; omega)]
    omega
  · split <;> omega
  · rfl

theorem waiting_calc {c : EcsaCtrl} {now beacon : ℕ} (hstate : c.state = .start ∨
      c.state = .updateFirstBcnDone ∧ beacon = b.tbtts now ∧ ECSA_UPDATE_BCN_BEFORE_TBTT_US +
        (now + b.offset) % b.period ≤ b.period ∨
      c.state = .countDown ∧ beacon = b.tbtts now + 1 ∧ 0 < c.count) :
    Waiting b (timed b c now beacon) ∧
      TimerExact b (timed b c now beacon) := by
  obtain ⟨hmin, hmax⟩ := period_range hlo hhi
  have hts : (now + b.offset) % b.period < b.period :=
    Nat.mod_lt _ (by unfold TU at hmin; omega)
  have hslot := nextTimeslotUs_eq (c := c) hlo hhi hts fun h => by
    rcases hstate with h' | ⟨-, -, h'⟩ | ⟨h', -⟩
    · rw [h] at h'; cases h'
    · exact h'
    · rw [h] at h'; cases h'
  have hdiv : b.tbtts now * b.period + (now + b.offset) % b.period =
      now + b.offset := Nat.div_add_mod' _ _
  refine ⟨?_, fun timer ht => ?_⟩
  · rcases hstate with h | ⟨h, rfl, -⟩ | ⟨h, rfl, hcount⟩
    · simp only [Waiting, timed, calculateNextTimerAp, h]
    · have hsub := sub32_of_le hts.le (by unfold u32Values; omega)
      simp only [Waiting, timed, calculateNextTimerAp, h, expectedTbttMs, dueMs, hsub, Nat.add_mul, Nat.one_mul, true_and]
      unfold u32Values; omega
    · have hsub : sub32 (2 * b.period % u32Values) ((now + b.offset) % b.period) =
          2 * b.period - (now + b.offset) % b.period := by
        rw [Nat.mod_eq_of_lt (by unfold u32Values; omega)]
        exact sub32_of_le (by omega) (by unfold u32Values; omega)
      simp only [timeslotExact, h] at hslot
      simp only [Waiting, timed, calculateNextTimerAp, h, expectedTbttMs, dueMs, hsub, Nat.add_mul, Nat.one_mul, true_and,
        Option.getD_some]
      refine ⟨hcount, ?_, fun hne => ?_⟩
      · unfold ECSA_UPDATE_BCN_BEFORE_TBTT_US ECSA_SWITCH_TIME_AFTER_LAST_COUNT_DOWN TU at *
        split at hslot <;> omega
      · rw [if_neg hne]
        unfold u32Values; omega
  · cases ht; exact (Int.natCast_ediv _ _).trans (congrArg (· / 1000) hslot)

theorem counted_step {ap : Ap} {d : Delivery} (htimer : ap.timer ≠ none)
    (hchange : stateChangeAp d.requested ap.ctrl = ({ ap.ctrl with state := .countDown }, some .countDown))
    (hexp : ap.ctrl.expectedTbttMs = dueMs b ap % u32Values) (hsent : ap.beacon ≤ b.tbtts (ap.arrival d))
    (ht : Timely b ap d) : InStep b ap d (ap.step b d) ∧ Waiting b (ap.step b d) := by
  have hsends : ap.sends d = some .countDown := by
    obtain ⟨timer, htimer⟩ := Option.ne_none_iff_exists'.mp htimer
    rw [Ap.sends, htimer, Option.bind_some, hchange]
  obtain ⟨hread, -, hdue⟩ := ht
  obtain ⟨hdue, hwrap⟩ := hdue hsends
  have hle : ap.now ≤ ap.arrival d := by unfold Ap.arrival; omega
  have hpassed := before_due hle hdue
  have hcur := (cur_lt_expected hle hdue hwrap).trans_eq hexp.symm
  have hstep : ap.step b d = if 1 < ap.ctrl.count
      then timed b { ap.ctrl with state := .countDown, count := ap.ctrl.count - 1 } (ap.arrival d)
        (b.tbtts (ap.arrival d) + 1)
      else ⟨{ ap.ctrl with count := 0, state := .switch }, ap.arrival d, none, ap.beacon⟩ := by
    simp only [Ap.step, if_neg htimer, hsends, hchange, Ap.handle, cmdMsgHdlr, countdownN, if_pos hcur, hread]
    split
    · rfl
    · rfl
  rw [hstep]
  split
  · rename_i hcount
    obtain ⟨hw, hexact⟩ := @waiting_calc b hlo hhi { ap.ctrl with state := .countDown, count := ap.ctrl.count - 1 }
      (ap.arrival d) _ (.inr (.inr ⟨rfl, rfl, Nat.sub_pos_of_lt hcount⟩))
    refine ⟨⟨fun _ => ?_, fun _ h => (nomatch h), hexact⟩, hw⟩
    show ap.ctrl.count - 1 = ap.ctrl.count - (b.tbtts (ap.arrival d) + 1 - ap.beacon)
    omega
  · refine ⟨⟨fun _ => ?_, fun _ _ => ⟨by omega, hsent⟩, fun _ h => nomatch h⟩, rfl⟩
    show 0 = ap.ctrl.count - (b.tbtts (ap.arrival d) + 1 - ap.beacon)
    omega

theorem waiting_step {ap : Ap} {d : Delivery} (hw : Waiting b ap) (ht : Timely b ap d) :
    InStep b ap d (ap.step b d) ∧ Waiting b (ap.step b d) := by
  obtain ⟨⟨state, count, expected⟩, now, none | timer, beacon⟩ := ap
  · exact ⟨⟨fun h => (nomatch h), fun h h' => absurd h' h, fun _ h => nomatch h⟩, hw⟩
  cases state with
  | start =>
    obtain ⟨hread, hfirst, -⟩ := ht
    obtain ⟨hw', hexact⟩ := waiting_calc (b := b) hlo hhi (c := ⟨.updateFirstBcnDone, count, expected⟩)
      (.inr (.inl ⟨rfl, rfl, hfirst rfl⟩))
    simp only [Ap.step, Ap.sends, stateChangeAp, Option.bind_some, Ap.handle, cmdMsgHdlr, hread]
    exact ⟨⟨fun h => (nomatch h), fun _ h => (nomatch h), hexact⟩, hw'⟩
  | updateFirstBcnDone =>
    refine counted_step hlo hhi (fun h => nomatch h) rfl hw.2 (hw.1.trans_le ?_) ht
    exact Nat.div_le_div_right (Nat.add_le_add_right (by unfold Ap.arrival; omega) _)
  | countDown =>
    obtain ⟨hb, hcount, hsent, hexp⟩ := hw
    have hsent' : beacon ≤ b.tbtts (now + 1000 * timer + d.delay) := by
      have hmin := (period_range hlo hhi).1
      unfold TU at hmin
      exact (Nat.le_div_iff_mul_le (by omega)).mpr (hsent.trans (by show now + b.offset + 1000 * timer ≤ _; omega))
    by_cases hlast : count = 1
    · subst hlast
      exact ⟨⟨fun h => (nomatch h), fun _ _ => ⟨le_rfl, hsent'⟩, fun _ h => nomatch h⟩, rfl⟩
    · exact counted_step hlo hhi (fun h => nomatch h) (if_neg hlast) (hexp hlast) hsent' ht
  | switch => cases hw
  | none => cases hw
  | waitDelay => cases hw
  | done => cases hw

end Period

/-- **The count-down.** A launched AP sets an exact timer, and in a run whose steps are all in time every count-down
takes off the beacons that have passed, no timer underflows, and the last count has been sent before the switch. -/
theorem ecsa_in_step (b : Bss) (count expected now : ℕ) (deliveries : List Delivery)
    (hlo : 26 ≤ b.bcnInterval) (hhi : b.bcnInterval < 2 ^ 21)
    (htimely : Legal (Ap.step b) (Timely b) (Ap.launch b count expected now) deliveries) :
    TimerExact b (Ap.launch b count expected now) ∧
      Legal (Ap.step b) (fun ap d => InStep b ap d (ap.step b d)) (Ap.launch b count expected now) deliveries := by
  obtain ⟨hw, hexact⟩ := @waiting_calc b hlo hhi ⟨.start, count, expected⟩ now 0 (.inl rfl)
  have hstep : ∀ ap d, Waiting b ap → (Timely b ap d ↔ Timely b ap d ∧ InStep b ap d (ap.step b d)) := fun ap d hw =>
    ⟨fun ht => ⟨ht, (waiting_step hlo hhi hw ht).1⟩, And.left⟩
  have hboth := (legal_congr hw hstep fun ap d hw ht => (waiting_step hlo hhi hw ht).2).mp htimely
  exact ⟨hexact, (legal_and.mp hboth).2⟩

/-- Two messages in time at 100 TU, from a TSF in the middle of an interval. -/
theorem ecsa_in_step_two :
    TimerExact ⟨100, 0⟩ (Ap.launch ⟨100, 0⟩ 10 0 50000) ∧
      Legal (Ap.step ⟨100, 0⟩) (fun ap d => InStep ⟨100, 0⟩ ap d (ap.step ⟨100, 0⟩ d)) (Ap.launch ⟨100, 0⟩ 10 0 50000)
        [⟨300, true, true⟩, ⟨500, true, true⟩, ⟨2000, true, true⟩] :=
  ecsa_in_step ⟨100, 0⟩ 10 0 50000 [⟨300, true, true⟩, ⟨500, true, true⟩, ⟨2000, true, true⟩] (by decide) (by decide)
    (by decide)

/-- A count-down that is 80 ms late has missed one beacon, and ends the count of 10. -/
theorem ecsa_not_in_step :
    ¬ ∀ (b : Bss) (count expected now : ℕ) (deliveries : List Delivery),
      (∀ d ∈ deliveries, d.tsfRead = true) →
      Legal (Ap.step b) (fun ap d => InStep b ap d (ap.step b d)) (Ap.launch b count expected now) deliveries := by
  intro h
  have hlate := (h ⟨100, 0⟩ 10 0 50000 [⟨300, true, true⟩, ⟨80000, true, true⟩] (by decide)).2.1.counted rfl
  revert hlate
  decide

end Rtl8852cu.Ecsa
