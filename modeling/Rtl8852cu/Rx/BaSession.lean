import Rtl8852cu.Rx.BaCam
import Rtl8852cu.Rx.Station

/-!
# Block-ack sessions in the HAL and in the PHL

`phl_rx_agg.c`, `rtw_phl_start_rx_ba_session` and `rtw_phl_stop_rx_ba_session`, with the calls of the HAL that come
before what they do to `tid_rx`. Starting asks the HAL first and does not look at what it says; the policy and the memory
are seen to later.
-/

namespace Rtl8852cu.Rx

open Function (update update_self update_of_ne update_idem)

variable {ι : Type*}

/-- The sessions of all stations, and those of the HAL. -/
structure BaSys (ι : Type*) where
  sys : RxSys ι
  hal : BaHal

/-- `max_std_entry_num`, the answers of `rtw_hal_bacam_cfg`, and the address and band of each station. -/
structure BaEnv (ι : Type*) where
  n : ℕ
  cfg : ℕ → Bool
  macid : ι → ℕ
  hwBand : ι → ℕ

section Calls

variable [DecidableEq ι]

/-- `rtw_phl_start_rx_ba_session`: the HAL is asked, the rest is `rtwPhlStartRxBaSession`. -/
def startRxBaSession (env : BaEnv ι) (sta : ι) (startSeqNum baPolicy tid bufSize : ℕ) (alloc : Bool) (s : BaSys ι) :
    BaSys ι × PhlStatus :=
  if rtwMaxTidNum ≤ tid then (s, .resource)
  else
    let hal :=
      if (s.sys.tidRx sta tid).isSome = true then s.hal.stop env.n env.cfg (env.macid sta) tid else s.hal
    let hal := hal.start env.n env.cfg ⟨env.macid sta, tid, startSeqNum, bufSize, env.hwBand sta⟩
    let r := rtwPhlStartRxBaSession sta startSeqNum baPolicy tid bufSize alloc s.sys
    (⟨r.1, hal⟩, r.2)

/-- `rtw_phl_stop_rx_ba_session`; `sta` may be `NULL`. -/
def stopRxBaSession (env : BaEnv ι) (sta : Option ι) (tid : ℕ) (s : BaSys ι) : BaSys ι :=
  match sta with
  | none => s
  | some sta =>
    if rtwMaxTidNum ≤ tid then s
    else ⟨rtwPhlStopRxBaSession (some sta) tid s.sys, s.hal.stop env.n env.cfg (env.macid sta) tid⟩

/-! ### Runs -/

/-- What happens: a session is started or stopped, or the receive path does something else. -/
inductive BaOp (ι : Type*) where
  | start (cfg : ℕ → Bool) (macid hwBand : ι → ℕ) (sta : ι) (startSeqNum baPolicy tid bufSize : ℕ) (alloc : Bool)
  | stop (cfg : ℕ → Bool) (macid hwBand : ι → ℕ) (sta : Option ι) (tid : ℕ)
  | rx (op : RxOp ι)

namespace BaSys

def init : BaSys ι := ⟨.empty, .init⟩

def step (n : ℕ) (s : BaSys ι) : BaOp ι → BaSys ι
  | .start cfg macid hwBand sta startSeqNum baPolicy tid bufSize alloc =>
    (startRxBaSession ⟨n, cfg, macid, hwBand⟩ sta startSeqNum baPolicy tid bufSize alloc s).1
  | .stop cfg macid hwBand sta tid => stopRxBaSession ⟨n, cfg, macid, hwBand⟩ sta tid s
  | .rx op => { s with sys := op.run s.sys }

def run (n : ℕ) (ops : List (BaOp ι)) : BaSys ι := ops.foldl (step n) init

theorem sane_step {n : ℕ} {s : BaSys ι} (hs : s.hal.Sane n) (op : BaOp ι) : (s.step n op).hal.Sane n := by
  cases op with
  | start cfg macid hwBand sta startSeqNum baPolicy tid bufSize alloc =>
    unfold step startRxBaSession
    simp only
    by_cases htid : rtwMaxTidNum ≤ tid
    · rw [if_pos htid]; exact hs
    · rw [if_neg htid]
      refine BaHal.sane_start ?_ _ _
      split
      · exact BaHal.sane_stop hs _ _ _
      · exact hs
  | stop cfg macid hwBand sta tid =>
    unfold step stopRxBaSession
    cases sta with
    | none => exact hs
    | some sta =>
      simp only
      by_cases htid : rtwMaxTidNum ≤ tid
      · rw [if_pos htid]; exact hs
      · rw [if_neg htid]; exact BaHal.sane_stop hs _ _ _
  | rx op => exact hs

theorem sane_run (n : ℕ) (ops : List (BaOp ι)) : (run n ops).hal.Sane n := by
  suffices hgen : ∀ s : BaSys ι, s.hal.Sane n → (ops.foldl (step n) s).hal.Sane n from hgen init (BaHal.sane_init n)
  induction ops with
  | nil => exact fun s hs => hs
  | cons op ops ih => exact fun s hs => ih _ (sane_step hs op)

/-- **The CAM in every run**: it is counted rightly, and the sessions are its entries in use, one for an address and a TID. -/
theorem ba_cam_run (n : ℕ) (ops : List (BaOp ι)) :
    (run n ops).hal.count = ((run n ops).hal.inUse n).card ∧ (run n ops).hal.count ≤ n ∧
      ∀ p e, (run n ops).hal.session n p = some e ↔
        ∃ i ∈ (run n ops).hal.inUse n, ((run n ops).hal.macId i, (run n ops).hal.tid i) = p ∧ (run n ops).hal.cam i = some e ∧
          ∀ j ∈ (run n ops).hal.inUse n, ((run n ops).hal.macId j, (run n ops).hal.tid j) = p → j = i := by
  have hs := sane_run n ops
  refine ⟨hs.count, ?_, fun p e => ?_⟩
  · rw [hs.count]
    exact (Finset.card_filter_le _ _).trans (Finset.card_range n).le
  · rw [BaHal.session_eq_some_iff hs]
    constructor
    · rintro ⟨i, hi, hm, ht, hc⟩
      refine ⟨i, hi, Prod.ext hm ht, hc, fun j hj hp => hs.unique j hj i hi ?_ ?_⟩
      · rw [hm, ← hp]
      · rw [ht, ← hp]
    · rintro ⟨i, hi, rfl, hc, -⟩
      exact ⟨i, hi, rfl, rfl, hc⟩

end BaSys

end Calls

/-! ### What a call is to do -/

/-- HAL and PHL have the same sessions. -/
def Agree (n : ℕ) (macid : ι → ℕ) (s : BaSys ι) : Prop :=
  ∀ m t, (s.hal.session n (m, t)).isSome = true ↔
    ∃ sta, macid sta = m ∧ t < rtwMaxTidNum ∧ (s.sys.tidRx sta t).isSome = true

/-- A call that is refused changes neither the HAL's session nor anything of the PHL, one that succeeds leaves a session
with the same number and size in both, and HAL and PHL agree about which sessions there are if they did before. -/
structure BaRight (env : BaEnv ι) (sta : ι) (startSeqNum tid bufSize : ℕ) (s : BaSys ι) (r : BaSys ι × PhlStatus) :
    Prop where
  refused : r.2 ≠ .success →
    r.1.hal.session env.n (env.macid sta, tid) = s.hal.session env.n (env.macid sta, tid) ∧ r.1.sys = s.sys
  taken : r.2 = .success → ∃ e x, r.1.hal.session env.n (env.macid sta, tid) = some e ∧
    r.1.sys.tidRx sta tid = some x ∧ x.ssn = startSeqNum ∧ x.bufSize = applyBufSize bufSize ∧ e.ssn = x.ssn ∧
      e.bmapSize = bmapSize x.bufSize
  agree : Agree env.n env.macid s → Agree env.n env.macid r.1

/-! ### The HAL in a call -/

variable (env : BaEnv ι) (sta : ι) (startSeqNum tid bufSize : ℕ) (s : BaSys ι)

def baReq : BaReq := ⟨env.macid sta, tid, startSeqNum, bufSize, env.hwBand sta⟩

def HalHas : Prop := (s.hal.session env.n (env.macid sta, tid)).isSome = true

instance : Decidable (HalHas env sta tid s) := inferInstanceAs (Decidable (_ = true))

/-- Both have a session, so that the HAL's is to be stopped first. -/
def Restarts : Prop := (s.sys.tidRx sta tid).isSome = true ∧ HalHas env sta tid s

instance : Decidable (Restarts env sta tid s) := inferInstanceAs (Decidable (_ ∧ _))

def HalStops : Prop := Restarts env sta tid s ∧ env.cfg s.hal.calls = true

instance : Decidable (HalStops env sta tid s) := inferInstanceAs (Decidable (_ ∧ _))

/-- The call of `rtw_hal_bacam_cfg` that fills an entry which need not be taken from another session. -/
def fillCall : ℕ := if Restarts env sta tid s then s.hal.calls + 1 else s.hal.calls

def HalRoom : Prop := HalHas env sta tid s ∨ s.hal.count ≠ env.n

instance : Decidable (HalRoom env sta tid s) := inferInstanceAs (Decidable (_ ∨ _))

/-- The entry of another TID that can be made invalid, for a session of TID 0 or 5. -/
def victim : Option (ℕ × ℕ) :=
  if tid = 0 ∨ tid = 5 then BaHal.firstVictim env.cfg (s.hal.victims (List.range env.n)) s.hal.calls else none

def HalEvicts : Prop := ¬ HalRoom env sta tid s ∧ (victim env tid s).isSome = true

def HalTakes : Prop :=
  if HalRoom env sta tid s then env.cfg (fillCall env sta tid s) = true
  else ((victim env tid s).any fun r => env.cfg (r.2 + 1)) = true

instance : Decidable (HalTakes env sta tid s) := by unfold HalTakes; infer_instance

/-- The HAL when the call has asked it. -/
def halAfter : BaHal :=
  (if (s.sys.tidRx sta tid).isSome = true then s.hal.stop env.n env.cfg (env.macid sta) tid else s.hal).start env.n env.cfg
    (baReq env sta startSeqNum tid bufSize)

variable {env sta startSeqNum tid bufSize s} (hs : s.hal.Sane env.n)

include hs in
theorem halHas_iff : HalHas env sta tid s ↔ (s.hal.find env.n (env.macid sta) tid).isSome = true := by
  unfold HalHas
  rw [BaHal.session_isSome hs]

include hs in
theorem not_halRoom (hr : ¬ HalRoom env sta tid s) :
    s.hal.find env.n (env.macid sta) tid = none ∧ s.hal.count = env.n := by
  obtain ⟨hhas, hfull⟩ := not_or.mp hr
  rw [halHas_iff hs, Option.not_isSome_iff_eq_none] at hhas; exact ⟨hhas, not_not.mp hfull⟩

theorem halTakes_room (hr : HalRoom env sta tid s) :
    HalTakes env sta tid s ↔ env.cfg (fillCall env sta tid s) = true := by
  unfold HalTakes
  rw [if_pos hr]

theorem halTakes_none (hr : ¬ HalRoom env sta tid s) (hv : victim env tid s = none) : ¬ HalTakes env sta tid s := by
  unfold HalTakes
  rw [if_neg hr, hv]; exact nofun

theorem halTakes_victim (hr : ¬ HalRoom env sta tid s) {r : ℕ × ℕ} (hv : victim env tid s = some r) :
    HalTakes env sta tid s ↔ env.cfg (r.2 + 1) = true := by
  unfold HalTakes
  rw [if_neg hr, hv, Option.any_some]

variable (sta tid) in
include hs in
theorem stopped_spec :
    ∃ h : BaHal, (if (s.sys.tidRx sta tid).isSome = true then s.hal.stop env.n env.cfg (env.macid sta) tid else s.hal) = h ∧
      h.Sane env.n ∧
      h.session env.n = (if HalStops env sta tid s then update (s.hal.session env.n) (env.macid sta, tid) none
        else s.hal.session env.n) ∧
      h.calls = fillCall env sta tid s ∧
      (HalRoom env sta tid s → (h.find env.n (env.macid sta) tid).isSome = true ∨ h.count ≠ env.n) ∧
      (¬ HalRoom env sta tid s → h = s.hal) := by
  refine ⟨_, rfl, ?_⟩
  by_cases hr : Restarts env sta tid s
  · obtain ⟨hold, hhas⟩ := hr
    obtain ⟨i, hi⟩ := Option.isSome_iff_exists.mp ((halHas_iff hs).mp hhas)
    obtain ⟨hmem, hm, ht⟩ := BaHal.find_some hi
    have hfill : fillCall env sta tid s = s.hal.calls + 1 := if_pos ⟨hold, hhas⟩
    rw [if_pos hold, BaHal.stop_eq, hi, hfill]
    simp only
    by_cases hc : env.cfg s.hal.calls = true
    · have hstops : HalStops env sta tid s := ⟨⟨hold, hhas⟩, hc⟩
      rw [if_pos hc, if_pos hstops, BaHal.session_free hs hmem, hm, ht]
      have hpos : 0 < (s.hal.inUse env.n).card := Finset.card_pos.mpr ⟨i, hmem⟩
      have hle : (s.hal.inUse env.n).card ≤ env.n :=
        (Finset.card_filter_le _ _).trans (Finset.card_range env.n).le
      have hcount := hs.count
      refine ⟨BaHal.sane_free hs hmem _, rfl, rfl, fun _ => .inr ?_, fun hno => absurd (.inl hhas) hno⟩
      show s.hal.count - 1 ≠ env.n
      omega
    · have hstops : ¬ HalStops env sta tid s := fun hst => hc hst.2
      rw [if_neg hc, if_neg hstops]
      refine ⟨BaHal.sane_called hs _, rfl, rfl, fun _ => .inl ?_, fun hno => absurd (.inl hhas) hno⟩
      exact (halHas_iff hs).mp hhas
  · have hfill : fillCall env sta tid s = s.hal.calls := if_neg hr
    have hstops : ¬ HalStops env sta tid s := fun hst => hr hst.1
    have hsame : (if (s.sys.tidRx sta tid).isSome = true then s.hal.stop env.n env.cfg (env.macid sta) tid else s.hal) =
        s.hal := by
      by_cases hold : (s.sys.tidRx sta tid).isSome = true
      · have hno : s.hal.find env.n (env.macid sta) tid = none := by
          rw [← Option.not_isSome_iff_eq_none]; exact fun hf => hr ⟨hold, (halHas_iff hs).mpr hf⟩
        rw [if_pos hold, BaHal.stop_eq, hno]
      · rw [if_neg hold]
    rw [hsame, if_neg hstops, hfill]
    exact ⟨hs, rfl, rfl, fun hroom => hroom.imp_left (halHas_iff hs).mp, fun _ => rfl⟩

include hs in
theorem session_after (hev : ¬ HalEvicts env sta tid s) : (halAfter env sta startSeqNum tid bufSize s).session env.n =
      if HalTakes env sta tid s then
        update (s.hal.session env.n) (env.macid sta, tid) (some (baReq env sta startSeqNum tid bufSize).info)
      else if HalStops env sta tid s then update (s.hal.session env.n) (env.macid sta, tid) none
      else s.hal.session env.n := by
  obtain ⟨h, heq, hsane, hsession, hcalls, hroom, hnoroom⟩ := stopped_spec sta tid hs
  unfold halAfter
  rw [heq]
  by_cases hr : HalRoom env sta tid s
  · obtain ⟨-, hstart⟩ := BaHal.start_spec (q := baReq env sta startSeqNum tid bufSize) hsane env.cfg (hroom hr)
    rw [hstart, hcalls, hsession]
    by_cases hc : env.cfg (fillCall env sta tid s) = true
    · rw [if_pos hc, if_pos ((halTakes_room hr).mpr hc)]
      by_cases hst : HalStops env sta tid s
      · rw [if_pos hst]; exact update_idem ..
      · rw [if_neg hst]; rfl
    · rw [if_neg hc, if_neg fun ht => hc ((halTakes_room hr).mp ht)]
  · obtain rfl := hnoroom hr
    obtain ⟨hfind, hfull⟩ := not_halRoom hs hr
    have hvictim : victim env tid s = none := by
      by_contra hv
      exact hev ⟨hr, Option.isSome_iff_ne_none.mpr hv⟩
    have hno : ¬ (tid = 0 ∨ tid = 5) ∨
        BaHal.firstVictim env.cfg (s.hal.victims (List.range env.n)) s.hal.calls = none := by
      unfold victim at hvictim
      by_cases ht : tid = 0 ∨ tid = 5
      · rw [if_pos ht] at hvictim; exact .inr hvictim
      · exact .inl ht
    have hst : ¬ HalStops env sta tid s := fun hst => hr (.inl hst.1.2)
    have hsame := (BaHal.start_full (q := baReq env sta startSeqNum tid bufSize) hs env.cfg hfind hfull).2.1 hno
    rw [hsame, if_neg (halTakes_none hr hvictim), if_neg hst]

variable (startSeqNum bufSize) in
include hs in
theorem session_evicted (hev : HalEvicts env sta tid s) :
    ∃ m t, t ≠ tid ∧ (s.hal.session env.n (m, t)).isSome = true ∧
      (halAfter env sta startSeqNum tid bufSize s).session env.n =
        let kept := update (s.hal.session env.n) (m, t) none
        if HalTakes env sta tid s then
          update kept (env.macid sta, tid) (some (baReq env sta startSeqNum tid bufSize).info)
        else kept := by
  obtain ⟨h, heq, -, -, -, -, hnoroom⟩ := stopped_spec sta tid hs
  obtain ⟨hr, hsome⟩ := hev
  obtain ⟨r, hv⟩ := Option.isSome_iff_exists.mp hsome
  obtain ⟨hfind, hfull⟩ := not_halRoom hs hr
  obtain ⟨ht, hfirst⟩ : (tid = 0 ∨ tid = 5) ∧
      BaHal.firstVictim env.cfg (s.hal.victims (List.range env.n)) s.hal.calls = some r := by
    unfold victim at hv
    by_cases ht : tid = 0 ∨ tid = 5
    · rw [if_pos ht] at hv; exact ⟨ht, hv⟩
    · rw [if_neg ht] at hv; cases hv
  obtain ⟨hmem, hne, hafter⟩ :=
    (BaHal.start_full (q := baReq env sta startSeqNum tid bufSize) hs env.cfg hfind hfull).2.2 r ht hfirst
  refine ⟨s.hal.macId r.1, s.hal.tid r.1, hne, ?_, ?_⟩
  · rw [BaHal.session_isSome hs, BaHal.find_own hs hmem]; rfl
  · unfold halAfter
    rw [heq, hnoroom hr, hafter]
    simp only
    by_cases hc : env.cfg (r.2 + 1) = true
    · rw [if_pos hc, if_pos ((halTakes_victim hr hv).mpr hc)]; rfl
    · rw [if_neg hc, if_neg fun ht => hc ((halTakes_victim hr hv).mp ht)]

include hs in
theorem session_at : (halAfter env sta startSeqNum tid bufSize s).session env.n (env.macid sta, tid) =
    if HalTakes env sta tid s then some (baReq env sta startSeqNum tid bufSize).info
    else if HalStops env sta tid s then none else s.hal.session env.n (env.macid sta, tid) := by
  by_cases hev : HalEvicts env sta tid s
  · obtain ⟨m, t, hne, -, hafter⟩ := session_evicted startSeqNum bufSize hs hev
    have hp : (env.macid sta, tid) ≠ (m, t) := fun hp => hne (congrArg Prod.snd hp).symm
    have hst : ¬ HalStops env sta tid s := fun hst => hev.1 (.inl hst.1.2)
    rw [hafter, if_neg hst]
    simp only
    by_cases ht : HalTakes env sta tid s
    · rw [if_pos ht, if_pos ht, update_self]
    · rw [if_neg ht, if_neg ht, update_of_ne hp]
  · rw [session_after hs hev]
    by_cases ht : HalTakes env sta tid s
    · rw [if_pos ht, if_pos ht, update_self]
    · rw [if_neg ht, if_neg ht]
      by_cases hst : HalStops env sta tid s
      · rw [if_pos hst, if_pos hst, update_self]
      · rw [if_neg hst, if_neg hst]

include hs in
theorem session_other (hev : ¬ HalEvicts env sta tid s) {p : ℕ × ℕ} (hp : p ≠ (env.macid sta, tid)) :
    (halAfter env sta startSeqNum tid bufSize s).session env.n p = s.hal.session env.n p := by
  rw [session_after hs hev]
  split_ifs
  · exact update_of_ne hp ..
  · exact update_of_ne hp ..
  · rfl

/-! ### The whole call -/

section Call

variable [DecidableEq ι] {baPolicy : ℕ} {alloc : Bool}

/-- The PHL refuses the request: there is a policy, or no memory. -/
def PhlRefuses (baPolicy : ℕ) (alloc : Bool) : Prop := baPolicy ≠ 0 ∨ alloc = false

theorem phl_refused {sys : RxSys ι} (htid : tid < rtwMaxTidNum) (h : PhlRefuses baPolicy alloc) :
    (rtwPhlStartRxBaSession sta startSeqNum baPolicy tid bufSize alloc sys).1 = sys ∧
      (rtwPhlStartRxBaSession sta startSeqNum baPolicy tid bufSize alloc sys).2 ≠ .success := by
  unfold rtwPhlStartRxBaSession
  rw [if_neg (Nat.not_le.mpr htid)]
  by_cases hpol : baPolicy = 0
  · have halloc : alloc = false := h.resolve_left (not_not.mpr hpol)
    rw [if_neg (not_not.mpr hpol), halloc, if_pos nofun]; exact ⟨rfl, nofun⟩
  · rw [if_pos hpol]; exact ⟨rfl, nofun⟩

theorem phl_taken {sys : RxSys ι} (htid : tid < rtwMaxTidNum) (h : ¬ PhlRefuses baPolicy alloc) :
    (rtwPhlStartRxBaSession sta startSeqNum baPolicy tid bufSize alloc sys).2 = .success ∧
      (rtwPhlStartRxBaSession sta startSeqNum baPolicy tid bufSize alloc sys).1.tidRx =
        update sys.tidRx sta (update (sys.tidRx sta) tid
          (some (phlTidAmpduRxAlloc startSeqNum tid (applyBufSize bufSize)))) := by
  obtain ⟨hpol, halloc⟩ := not_or.mp h
  unfold rtwPhlStartRxBaSession
  rw [if_neg (Nat.not_le.mpr htid), if_neg hpol, if_neg (not_not.mpr (Bool.not_eq_false alloc ▸ halloc))]
  refine ⟨rfl, ?_⟩
  unfold freeTid
  cases sys.tidRx sta tid with
  | none => rfl
  | some x =>
    simp only [RxSys.setTid, RxSys.recycle, update_idem, update_self]

theorem bmapSize_applyBufSize (bufSize : ℕ) : bmapSize (applyBufSize bufSize) = bmapSize bufSize := by
  unfold applyBufSize
  by_cases hz : bufSize = 0
  · rw [if_pos hz, hz]; rfl
  · rw [if_neg hz]

/-- What the HAL has for the request is what it had before; or, for a request that is granted, what was asked. -/
def HalMeets (env : BaEnv ι) (sta : ι) (startSeqNum baPolicy tid bufSize : ℕ) (alloc : Bool) (s : BaSys ι) : Prop :=
  (PhlRefuses baPolicy alloc → (HalTakes env sta tid s →
      s.hal.session env.n (env.macid sta, tid) = some (baReq env sta startSeqNum tid bufSize).info) ∧
    (HalStops env sta tid s → HalTakes env sta tid s)) ∧
  (¬ PhlRefuses baPolicy alloc → HalTakes env sta tid s ∧ startSeqNum < 2 ^ 12 ∨
    ¬ HalTakes env sta tid s ∧ ¬ HalStops env sta tid s ∧ ∃ e, s.hal.session env.n (env.macid sta, tid) = some e ∧
      e.ssn = startSeqNum ∧ e.bmapSize = bmapSize bufSize)

variable (env sta startSeqNum bufSize s baPolicy alloc) in
theorem startRxBaSession_eq (htid : tid < rtwMaxTidNum) :
    startRxBaSession env sta startSeqNum baPolicy tid bufSize alloc s =
      (⟨(rtwPhlStartRxBaSession sta startSeqNum baPolicy tid bufSize alloc s.sys).1,
        halAfter env sta startSeqNum tid bufSize s⟩,
        (rtwPhlStartRxBaSession sta startSeqNum baPolicy tid bufSize alloc s.sys).2) :=
  if_neg (Nat.not_le.mpr htid)

theorem phl_other {sys : RxSys ι} (htid : tid < rtwMaxTidNum) {sta' : ι} {t : ℕ} (hne : sta' ≠ sta ∨ t ≠ tid) :
    (rtwPhlStartRxBaSession sta startSeqNum baPolicy tid bufSize alloc sys).1.tidRx sta' t = sys.tidRx sta' t := by
  by_cases href : PhlRefuses baPolicy alloc
  · rw [(phl_refused htid href).1]
  · rw [(phl_taken htid href).2]
    by_cases hsta : sta' = sta
    · subst hsta; rw [update_self, update_of_ne (hne.resolve_left fun h => h rfl)]
    · rw [update_of_ne hsta]

include hs in
theorem agree_evicted (htid : tid < rtwMaxTidNum) (hev : HalEvicts env sta tid s) (hagree : Agree env.n env.macid s) :
    ¬ Agree env.n env.macid (startRxBaSession env sta startSeqNum baPolicy tid bufSize alloc s).1 := by
  intro hafter
  obtain ⟨m, t, hne, hsome, hsession⟩ := session_evicted startSeqNum bufSize hs hev
  obtain ⟨sta', hm, ht, hold⟩ := (hagree m t).mp hsome
  rw [startRxBaSession_eq _ _ _ _ _ _ _ htid] at hafter
  have hstill := (hafter m t).mpr ⟨sta', hm, ht, by rw [phl_other htid (.inr hne)]; exact hold⟩
  have hp : (m, t) ≠ (env.macid sta, tid) := fun hp => hne (congrArg Prod.snd hp)
  simp only [hsession] at hstill
  split_ifs at hstill
  · rw [update_of_ne hp, update_self] at hstill; cases hstill
  · rw [update_self] at hstill; cases hstill

include hs in
theorem agree_kept (htid : tid < rtwMaxTidNum) (hev : ¬ HalEvicts env sta tid s)
    (hboth : PhlRefuses baPolicy alloc ∧ (halAfter env sta startSeqNum tid bufSize s).session env.n
        (env.macid sta, tid) = s.hal.session env.n (env.macid sta, tid) ∨
      ¬ PhlRefuses baPolicy alloc ∧ ((halAfter env sta startSeqNum tid bufSize s).session env.n
        (env.macid sta, tid)).isSome = true) (hagree : Agree env.n env.macid s) :
    Agree env.n env.macid (startRxBaSession env sta startSeqNum baPolicy tid bufSize alloc s).1 := by
  rw [startRxBaSession_eq _ _ _ _ _ _ _ htid]
  intro m t
  simp only
  by_cases hp : (m, t) = (env.macid sta, tid)
  · obtain ⟨rfl, rfl⟩ := Prod.mk.inj hp
    rcases hboth with ⟨href, hsame⟩ | ⟨href, hsome⟩
    · rw [hsame, (phl_refused htid href).1]; exact hagree _ _
    · refine iff_of_true hsome ⟨sta, rfl, htid, ?_⟩
      rw [(phl_taken htid href).2, update_self, update_self]; rfl
  · rw [session_other hs hev hp, hagree m t]
    refine exists_congr fun sta' => and_congr_right fun hm => and_congr_right fun _ => ?_
    have hne : sta' ≠ sta ∨ t ≠ tid := by
      by_contra hno
      obtain ⟨hsta, ht⟩ := not_or.mp hno
      exact hp (by rw [← hm, not_not.mp hsta, not_not.mp ht])
    rw [phl_other htid hne]

include hs in
omit [DecidableEq ι] in
theorem halMeets_iff : HalMeets env sta startSeqNum baPolicy tid bufSize alloc s ↔
      (PhlRefuses baPolicy alloc → (halAfter env sta startSeqNum tid bufSize s).session env.n (env.macid sta, tid) =
        s.hal.session env.n (env.macid sta, tid)) ∧
      (¬ PhlRefuses baPolicy alloc → ∃ e, (halAfter env sta startSeqNum tid bufSize s).session env.n
        (env.macid sta, tid) = some e ∧ e.ssn = startSeqNum ∧ e.bmapSize = bmapSize bufSize) := by
  rw [session_at hs]
  unfold HalMeets
  refine and_congr (imp_congr_right fun _ => ?_) (imp_congr_right fun _ => ?_)
  · by_cases ht : HalTakes env sta tid s
    · rw [if_pos ht]; exact ⟨fun h => (h.1 ht).symm, fun h => ⟨fun _ => h.symm, fun _ => ht⟩⟩
    · rw [if_neg ht]
      by_cases hst : HalStops env sta tid s
      · obtain ⟨e, he⟩ := Option.isSome_iff_exists.mp hst.1.2
        rw [if_pos hst, he]; exact iff_of_false (fun h => ht (h.2 hst)) nofun
      · rw [if_neg hst]; exact iff_of_true ⟨fun h => absurd h ht, fun h => absurd h hst⟩ rfl
  · have hmod : startSeqNum % 2 ^ 12 = startSeqNum ↔ startSeqNum < 2 ^ 12 := by omega
    by_cases ht : HalTakes env sta tid s
    · rw [if_pos ht]
      constructor
      · intro h
        refine ⟨_, rfl, hmod.mpr ?_, rfl⟩
        rcases h with h | h
        · exact h.2
        · exact absurd ht h.1
      · rintro ⟨e, he, hssn, -⟩
        obtain rfl := Option.some.inj he
        exact .inl ⟨ht, hmod.mp hssn⟩
    · rw [if_neg ht]
      by_cases hst : HalStops env sta tid s
      · rw [if_pos hst]
        refine iff_of_false ?_ ?_
        · rintro (h | h)
          · exact ht h.1
          · exact h.2.1 hst
        · rintro ⟨e, he, -⟩; cases he
      · rw [if_neg hst]
        constructor
        · rintro (h | h)
          · exact absurd h.1 ht
          · exact h.2.2
        · exact fun h => .inr ⟨ht, hst, h⟩

/-- **A call that starts a session is right, in every state that a run comes to, exactly when its TID is none, or the HAL
meets it and, if HAL and PHL agreed before, no other session loses its entry.** -/
theorem start_rx_ba_session_iff (n : ℕ) (ops : List (BaOp ι)) (cfg : ℕ → Bool) (macid hwBand : ι → ℕ) (sta : ι)
    (startSeqNum baPolicy tid bufSize : ℕ) (alloc : Bool) :
    BaRight ⟨n, cfg, macid, hwBand⟩ sta startSeqNum tid bufSize (BaSys.run n ops)
        (startRxBaSession ⟨n, cfg, macid, hwBand⟩ sta startSeqNum baPolicy tid bufSize alloc (BaSys.run n ops)) ↔
      rtwMaxTidNum ≤ tid ∨
        HalMeets ⟨n, cfg, macid, hwBand⟩ sta startSeqNum baPolicy tid bufSize alloc (BaSys.run n ops) ∧
        (Agree n macid (BaSys.run n ops) → ¬ HalEvicts ⟨n, cfg, macid, hwBand⟩ sta tid (BaSys.run n ops)) := by
  have hs : (BaSys.run n ops).hal.Sane n := BaSys.sane_run n ops
  generalize BaSys.run n ops = s at hs ⊢
  by_cases htid : rtwMaxTidNum ≤ tid
  · refine iff_of_true ?_ (.inl htid)
    have hcall : startRxBaSession ⟨n, cfg, macid, hwBand⟩ sta startSeqNum baPolicy tid bufSize alloc s = (s, .resource) :=
      if_pos htid
    rw [hcall]; exact ⟨fun _ => ⟨rfl, rfl⟩, nofun, fun h => h⟩
  rw [or_iff_right htid, halMeets_iff hs]
  have htid := Nat.lt_of_not_le htid
  constructor
  · intro h
    have hstart := startRxBaSession_eq ⟨n, cfg, macid, hwBand⟩ sta startSeqNum bufSize s baPolicy alloc htid
    refine ⟨⟨fun href => ?_, fun href => ?_⟩, fun hagree hev => agree_evicted hs htid hev hagree (h.agree hagree)⟩
    · have hkept := (h.refused (by rw [hstart]; exact (phl_refused htid href).2)).1
      rw [hstart] at hkept; exact hkept
    · obtain ⟨e, x, he, hx, hssn, hbuf, hessn, hbmap⟩ := h.taken (by rw [hstart]; exact (phl_taken htid href).1)
      rw [hstart] at he; exact ⟨e, he, hessn.trans hssn, by rw [hbmap, hbuf, bmapSize_applyBufSize]⟩
  · rintro ⟨⟨hrefused, htaken⟩, hev⟩
    have hstart := startRxBaSession_eq ⟨n, cfg, macid, hwBand⟩ sta startSeqNum bufSize s baPolicy alloc htid
    refine ⟨fun hne => ?_, fun hok => ?_, fun hagree => agree_kept hs htid (hev hagree) ?_ hagree⟩
    · have href : PhlRefuses baPolicy alloc := by
        by_contra href
        exact hne (by rw [hstart]; exact (phl_taken htid href).1)
      rw [hstart]; exact ⟨hrefused href, (phl_refused htid href).1⟩
    · have href : ¬ PhlRefuses baPolicy alloc := by
        intro href
        rw [hstart] at hok; exact (phl_refused htid href).2 hok
      obtain ⟨e, he, hssn, hbmap⟩ := htaken href
      rw [hstart]
      refine ⟨e, phlTidAmpduRxAlloc startSeqNum tid (applyBufSize bufSize), he, ?_, rfl, rfl, hssn,
        hbmap.trans (bmapSize_applyBufSize bufSize).symm⟩
      simp only
      rw [(phl_taken htid href).2, update_self, update_self]
    · by_cases href : PhlRefuses baPolicy alloc
      · exact .inl ⟨href, hrefused href⟩
      · obtain ⟨e, he, -⟩ := htaken href; exact .inr ⟨href, by rw [he]; rfl⟩

/-- A first request that is refused for its policy leaves a session in the HAL. -/
theorem refused_policy_starts :
    ¬ BaRight ⟨8, fun _ => true, fun _ : Unit => 0, fun _ => 0⟩ () 100 3 64 (BaSys.run 8 [])
      (startRxBaSession ⟨8, fun _ => true, fun _ => 0, fun _ => 0⟩ () 100 1 3 64 true (BaSys.run 8 [])) :=
  fun h => absurd (h.refused (by decide)).1 (by decide)

end Call

end Rtl8852cu.Rx
