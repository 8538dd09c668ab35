import Rtl8852cu.Scan.End
import Rtl8852cu.Lib.Reach
import Mathlib.Data.List.Nodup
import Mathlib.Data.List.Perm.Basic

/-!
# Runs of a scan request

`Right` is what a scan request owes its caller: `scan_complete` once, after the end of both bands, with the hardware of each
started band restored, and nothing that comes later.  `ActOk` says which steps keep it; a band is in one of four states
(`Submitted`) once its token is requested, and a request is open, done or refused (`Inv`).
-/

namespace Rtl8852cu.ScanEnd

open Scan (HwBand)

/-! ### What a request owes its caller -/

/-- Nothing that the dispatcher or the timer still does goes on with the scan of the band. -/
def Band.Quiet (x : Band) : Prop := x.req ≠ .waiting ∧ (x.req = .running → x.going = false) ∧ x.abortMsg = false

namespace Param

/-- All token requests are made, and nothing is under way. -/
def Quiet (p : Param) : Prop := p.sctrl.length ≤ p.next ∧ ∀ b, (p.band b).Quiet

/-- `scan_complete` is called once, and for a request that is not refused it has been when nothing is under way any more; all bands
have ended before, each started one has been restored once at its end, the request is not touched later, and the result tells a
scan that was cancelled or aborted. -/
structure Right (bands : List HwBand) (p : Param) : Prop where
  once : p.reports.length ≤ 1
  last : p.reports ≠ [] → ∀ b ∈ bands, (p.band b).ended = true
  answered : p.refused = false → p.Quiet → p.reports ≠ []
  refused : p.refused = true → p.reports = []
  restored : ∀ b ∈ bands, (p.band b).restores = if (p.band b).started && (p.band b).ended then 1 else 0
  late : p.late = false
  result : ∀ b, (p.band b).stopped = true → Result.complete ∉ p.reports

/-! ### The steps that keep it -/

/-- The handler of a message `e` goes on with the scan; `x` is the band without the message. -/
def TurnOk (p : Param) (x : Band) (e : Evt) (fail : Bool) (t : Turn) : Prop :=
  match e with
  | .scanEnd =>
    x.cancelled = true ∨
      if fail = true ∨ t.timeUp = true then ¬(t.cannotIo = true ∧ x.started = true) else ∀ b, (p.band b).stopped = false
  | .scanStart => t.send = true ∨ x.going = true
  | .swchDone => True
  | _ => t.send = true ∨ x.going = true ∨ (fail = false ∧ t.timeUp = false ∧ t.go = true)

/-- When a step keeps what the request owes its caller. -/
def ActOk (bands : List HwBand) (p : Param) : Act → Prop
  | .submit .added => True
  | .submit .empty => ∀ b, p.sctrl[p.next]? = some b → ∃ b' ∈ bands, b' ≠ b ∧ (p.band b').ended = false
  | .submit .failed => p.next = 0 ∨ ∀ b, p.sctrl[p.next]? = some b → ∃ b' ∈ bands, b' ≠ b ∧ (p.band b').ended = false
  | .grant _ _ _ => True
  | .deliver b i fail t => ∀ e, (p.band b).queue[i]? = some e → p.TurnOk ((p.band b).take i) e fail t
  | .drop b i clrSndr ok => ∀ e, (p.band b).queue[i]? = some e →
      ((p.band b).req = .running → ((p.band b).take i).going = true ∨ (e = .listenStateExpire ∧ clrSndr = true ∧ ok = true)) ∧
      (e = .listenStateExpire → clrSndr = true → p.reports = [])
  | .timer b ok => (p.band b).req = .running → ok = true ∨ ({ p.band b with timer := some false } : Band).going = true
  | .cancel _ => True
  | .abort b send => (p.band b).req ≠ .freed ∧ (send = .fatal → (p.band b).started = false)
  | .abortDone b cannotIo => ¬(cannotIo = true ∧ (p.band b).started = true)
  | .freeDone _ => True

end Param

/-! ### The states of a band -/

structure Band.Waiting (x : Band) : Prop where
  req : x.req = .waiting
  ended : x.ended = false
  acquire : x.acquire = false
  started : x.started = false
  dfIo : x.dfIo = false
  queue : x.queue = []
  timer : x.timer = none
  abortMsg : x.abortMsg = false
  restores : x.restores = 0
  stopped : x.stopped = false

structure Band.Running (x : Band) : Prop where
  req : x.req = .running
  ended : x.ended = false
  acquire : x.acquire = true
  dfIo : x.dfIo = false
  abortMsg : x.abortMsg = false
  restores : x.restores = 0
  stopped : x.stopped = false
  going : x.going = true

/-- The message of an abort is in the queues. -/
structure Band.Aborting (x : Band) : Prop where
  req : x.req = .gone
  ended : x.ended = false
  dfIo : x.dfIo = false
  abortMsg : x.abortMsg = true
  restores : x.restores = 0

structure Band.Over (x : Band) : Prop where
  ended : x.ended = true
  req : x.req ≠ .waiting ∧ x.req ≠ .running
  timer : x.timer = none
  abortMsg : x.abortMsg = false
  restores : x.restores = if x.started then 1 else 0

/-- A band whose token was requested, or which has ended at once. -/
inductive Band.Submitted (x : Band) : Prop
  | waiting (h : x.Waiting)
  | running (h : x.Running)
  | aborting (h : x.Aborting)
  | finished (h : x.Over)

namespace Band

variable {x : Band}

theorem Submitted.over_of_ended (h : x.Submitted) (he : x.ended = true) : x.Over := by
  cases h with
  | waiting h => exact absurd he (by rw [h.ended]; exact Bool.false_ne_true)
  | running h => exact absurd he (by rw [h.ended]; exact Bool.false_ne_true)
  | aborting h => exact absurd he (by rw [h.ended]; exact Bool.false_ne_true)
  | finished h => exact h

theorem Submitted.restored (h : x.Submitted) : x.restores = if x.started && x.ended then 1 else 0 := by
  cases h with
  | waiting h => rw [h.restores, h.ended, Bool.and_false]; rfl
  | running h => rw [h.restores, h.ended, Bool.and_false]; rfl
  | aborting h => rw [h.restores, h.ended, Bool.and_false]; rfl
  | finished h => rw [h.restores, h.ended, Bool.and_true]

theorem Submitted.not_quiet (h : x.Submitted) (he : x.ended = false) : ¬x.Quiet := by
  rintro ⟨hw, hr, ha⟩
  cases h with
  | waiting h => exact hw h.req
  | running h => exact Bool.false_ne_true ((hr h.req).symm.trans h.going)
  | aborting h => exact Bool.false_ne_true (ha.symm.trans h.abortMsg)
  | finished h => exact Bool.false_ne_true (he.symm.trans h.ended)

theorem Submitted.of_waiting (h : x.Submitted) (hreq : x.req = .waiting) : x.Waiting := by
  cases h with
  | waiting h => exact h
  | running h => cases h.req.symm.trans hreq
  | aborting h => cases h.req.symm.trans hreq
  | finished h => exact absurd hreq h.req.1

theorem Submitted.of_running (h : x.Submitted) (hreq : x.req = .running) : x.Running := by
  cases h with
  | waiting h => cases h.req.symm.trans hreq
  | running h => exact h
  | aborting h => cases h.req.symm.trans hreq
  | finished h => exact absurd hreq h.req.2

theorem Submitted.of_abortMsg (h : x.Submitted) (ha : x.abortMsg = true) : x.Aborting := by
  cases h with
  | waiting h => exact absurd ha (by rw [h.abortMsg]; exact Bool.false_ne_true)
  | running h => exact absurd ha (by rw [h.abortMsg]; exact Bool.false_ne_true)
  | aborting h => exact h
  | finished h => exact absurd ha (by rw [h.abortMsg]; exact Bool.false_ne_true)

theorem going_of_mem {e : Evt} (he : e ∈ x.queue) (hne : e ≠ .swchDone) : x.going = true := by
  have hany : (x.queue.any fun e => e ≠ .swchDone) = true := List.any_eq_true.mpr ⟨e, he, decide_eq_true hne⟩
  unfold going
  rw [hany, Bool.or_true, Bool.true_or]

theorem going_append (h : x.going = true) (e : Evt) : ({ x with queue := x.queue ++ [e] } : Band).going = true := by
  unfold going at h ⊢
  dsimp only
  rw [List.any_append]
  cases hc : x.cancelled with
  | true => rfl
  | false =>
    rw [hc] at h
    cases ht : decide (x.timer = some true) with
    | true => exact Bool.or_true _
    | false =>
      rw [ht, Bool.or_false, Bool.false_or] at h
      rw [h]; rfl

end Band

/-! ### The states of a request -/

namespace Param

variable {bands : List HwBand} {p : Param} {b : HwBand}

/-- A request of which not all bands have ended, whatever the state of the band `b`. -/
structure Frame (bands : List HwBand) (b : HwBand) (p : Param) : Prop where
  nodup : bands.Nodup
  sctrl : p.sctrl = bands
  refused : p.refused = false
  reports : p.reports = []
  late : p.late = false
  next : p.next ≤ bands.length
  mem : b ∈ bands.take p.next
  phase : ∀ b' ∈ bands.take p.next, b' ≠ b → (p.band b').Submitted
  idle : ∀ b', b' ∉ bands.take p.next → p.band b' = .init

structure Open (bands : List HwBand) (p : Param) : Prop where
  nodup : bands.Nodup
  sctrl : p.sctrl = bands
  refused : p.refused = false
  reports : p.reports = []
  late : p.late = false
  next : p.next ≤ bands.length
  phase : ∀ b ∈ bands.take p.next, (p.band b).Submitted
  idle : ∀ b, b ∉ bands.take p.next → p.band b = .init
  notEnded : ∃ b ∈ bands, (p.band b).ended = false
  result : ∀ b, (p.band b).stopped = true → p.result ≠ .complete

/-- `scan_complete` was called. -/
structure Done (bands : List HwBand) (p : Param) : Prop where
  sctrl : p.sctrl = []
  refused : p.refused = false
  reports : ∃ r, p.reports = [r] ∧ ∀ b, (p.band b).stopped = true → r ≠ .complete
  late : p.late = false
  bandsOver : ∀ b ∈ bands, (p.band b).Over
  idle : ∀ b, b ∉ bands → p.band b = .init

/-- `_phl_cmd_scan_req_submit` has failed. -/
structure Refused (p : Param) : Prop where
  sctrl : p.sctrl = []
  refused : p.refused = true
  reports : p.reports = []
  late : p.late = false
  idle : ∀ b, p.band b = .init

inductive Inv (bands : List HwBand) (p : Param) : Prop
  | «open» (h : Open bands p)
  | done (h : Done bands p)
  | refused (h : Refused p)

theorem modify_self (p : Param) (b : HwBand) (f : Band → Band) : (p.modify b f).band b = f (p.band b) :=
  Function.update_self _ _ _

theorem modify_other {b' : HwBand} (f : Band → Band) (h : b' ≠ b) : (p.modify b f).band b' = p.band b' :=
  Function.update_of_ne h _ _

theorem touch_of_no_report (h : p.reports = []) : p.touch = p := by
  have hnone : (!p.reports.isEmpty) = false := by rw [h]; rfl
  unfold touch
  rw [hnone, Bool.or_false]

theorem Open.right (h : Open bands p) : p.Right bands where
  once := by rw [h.reports]; exact Nat.zero_le 1
  last hne := absurd h.reports hne
  answered _ hq := by
    obtain ⟨b, hb, he⟩ := h.notEnded
    have hall : bands.take p.next = bands := List.take_of_length_le (h.sctrl ▸ hq.1)
    exact absurd (hq.2 b) ((h.phase b (by rw [hall]; exact hb)).not_quiet he)
  refused _ := h.reports
  restored b hb := by
    by_cases hmem : b ∈ bands.take p.next
    · exact (h.phase b hmem).restored
    · rw [h.idle b hmem]; rfl
  late := h.late
  result b _ := by rw [h.reports]; exact List.not_mem_nil

theorem Done.right (h : Done bands p) : p.Right bands := by
  obtain ⟨r, hr, hstop⟩ := h.reports
  refine ⟨by rw [hr]; exact le_rfl, fun _ b hb => (h.bandsOver b hb).ended, fun _ _ => by rw [hr]; exact List.cons_ne_nil r [],
    fun hf => absurd (h.refused.symm.trans hf) Bool.false_ne_true, fun b hb => ?_, h.late, fun b hb => ?_⟩
  · have := h.bandsOver b hb; rw [this.restores, this.ended, Bool.and_true]
  · rw [hr]; exact fun hmem => hstop b hb (List.mem_singleton.mp hmem).symm

theorem Refused.right (h : Refused p) : p.Right bands where
  once := by rw [h.reports]; exact Nat.zero_le 1
  last hne := absurd h.reports hne
  answered hf := by rw [h.refused] at hf; cases hf
  refused _ := h.reports
  restored b _ := by rw [h.idle b]; rfl
  late := h.late
  result b hb := by rw [h.reports]; exact List.not_mem_nil

theorem Inv.right (h : Inv bands p) : p.Right bands := by
  cases h with
  | «open» h => exact h.right
  | done h => exact h.right
  | refused h => exact h.right

/-! ### One band changes -/

theorem Open.frame (h : Open bands p) (hb : b ∈ bands.take p.next) : Frame bands b p :=
  ⟨h.nodup, h.sctrl, h.refused, h.reports, h.late, h.next, hb, fun b' hb' _ => h.phase b' hb', h.idle⟩

theorem Frame.modify (h : Frame bands b p) (f : Band → Band) : Frame bands b (p.modify b f) := by
  refine ⟨h.nodup, h.sctrl, h.refused, h.reports, h.late, h.next, h.mem, fun b' hb' hne => ?_, fun b' hb' => ?_⟩
  · rw [modify_other f hne]; exact h.phase b' hb' hne
  · have hbb : b' ≠ b := fun hbb => hb' (by rw [hbb]; exact h.mem)
    rw [modify_other f hbb]; exact h.idle b' hb'

theorem Frame.setResult (h : Frame bands b p) (r : Result) : Frame bands b { p with result := r } :=
  ⟨h.nodup, h.sctrl, h.refused, h.reports, h.late, h.next, h.mem, h.phase, h.idle⟩

theorem Frame.mem_sctrl (h : Frame bands b p) : b ∈ p.sctrl := by
  rw [h.sctrl]; exact List.mem_of_mem_take h.mem

theorem Frame.open (h : Frame bands b p) (hb : (p.band b).Submitted) (he : (p.band b).ended = false)
    (hres : ∀ b', (p.band b').stopped = true → p.result ≠ .complete) : Inv bands p := by
  refine .open ⟨h.nodup, h.sctrl, h.refused, h.reports, h.late, h.next, fun b' hb' => ?_, h.idle,
    ⟨b, List.mem_of_mem_take h.mem, he⟩, hres⟩
  by_cases hbb : b' = b
  · rw [hbb]; exact hb
  · exact h.phase b' hb' hbb

theorem hwBand_eq {a b c : HwBand} (hab : a ≠ b) (hcb : c ≠ b) : a = c := by
  cases a <;> cases b <;> cases c <;> first | rfl | exact absurd rfl hab | exact absurd rfl hcb

theorem anyEnd_eq_true : p.anyEnd = true ↔ ∃ b, (p.band b).ended = true := by
  unfold anyEnd
  rw [Bool.or_eq_true]
  constructor
  · rintro (h | h)
    · exact ⟨_, h⟩
    · exact ⟨_, h⟩
  · rintro ⟨b, h⟩
    cases b with
    | band0 => exact Or.inl h
    | band1 => exact Or.inr h

theorem Frame.indicate_iff (h : Frame bands b p) (he : (p.band b).ended = false) :
    p.indicate = true ↔ ∀ b' ∈ bands, b' ≠ b → (p.band b').ended = true := by
  have hmem := List.mem_of_mem_take h.mem
  have hnot : p.indicate = true ↔ ¬(1 < bands.length ∧ p.anyEnd = false) := by
    unfold indicate
    rw [h.sctrl]
    cases p.anyEnd with
    | true => simp
    | false => simp
  rw [hnot]
  constructor
  · intro hind b' hb' hne
    have htwo : 1 < bands.length := by
      by_contra hle
      obtain ⟨c, hc⟩ : ∃ c, bands = [c] := by
        cases hbands : bands with
        | nil => rw [hbands] at hmem; cases hmem
        | cons c l =>
          cases l with
          | nil => exact ⟨c, rfl⟩
          | cons d l =>
            rw [hbands] at hle; exact absurd (Nat.succ_lt_succ (Nat.succ_pos _)) hle
      rw [hc] at hmem hb'
      exact hne ((List.mem_singleton.mp hb').trans (List.mem_singleton.mp hmem).symm)
    have hany : p.anyEnd = true := by
      by_contra hfalse
      exact hind ⟨htwo, Bool.eq_false_iff.mpr hfalse⟩
    obtain ⟨c, hc⟩ := anyEnd_eq_true.mp hany
    have hcb : c ≠ b := fun hcb => by rw [hcb, he] at hc; cases hc
    rw [hwBand_eq hne hcb]; exact hc
  · rintro hall ⟨htwo, hany⟩
    obtain ⟨c, hc, hcb⟩ : ∃ c ∈ bands, c ≠ b := by
      by_contra hno
      have hnil : bands.erase b = [] := List.eq_nil_iff_forall_not_mem.mpr fun c hc => by
        obtain ⟨hcb, hc⟩ := h.nodup.mem_erase_iff.mp hc
        exact hno ⟨c, hc, hcb⟩
      have hlen := List.length_erase_of_mem hmem
      rw [hnil] at hlen
      have : bands.length - 1 = 0 := hlen.symm
      omega
    rw [Bool.eq_false_iff] at hany; exact hany (anyEnd_eq_true.mpr ⟨c, hall c hc hcb⟩)

theorem Frame.ends (h : Frame bands b p) (he : (p.band b).ended = false) {f : Band → Band}
    (hover : (f { p.band b with ended := true }).Over)
    (hres : ∀ b', ((p.modify b fun x => f { x with ended := true }).band b').stopped = true → p.result ≠ .complete) :
    Inv bands (p.endWith b f) := by
  have hmod := h.modify fun x => f { x with ended := true }
  have hself : (p.modify b fun x => f { x with ended := true }).band b = f { p.band b with ended := true } :=
    modify_self p b _
  unfold endWith
  dsimp only
  by_cases hind : p.indicate = true
  · rw [if_pos hind]
    have hall := (h.indicate_iff he).mp hind
    have hin : ∀ b' ∈ bands, b' ∈ bands.take p.next := by
      intro b' hb'
      by_contra hnot
      by_cases hbb : b' = b
      · exact hnot (hbb ▸ h.mem)
      · have := hall b' hb' hbb
        rw [h.idle b' hnot] at this; cases this
    refine .done ⟨rfl, h.refused, ⟨p.result, by show p.reports ++ [p.result] = _; rw [h.reports]; rfl, hres⟩, h.late,
      fun b' hb' => ?_, fun b' hb' => hmod.idle b' fun hmem => hb' (List.mem_of_mem_take hmem)⟩
    show ((p.modify b fun x => f { x with ended := true }).band b').Over
    by_cases hbb : b' = b
    · rw [hbb, hself]; exact hover
    · rw [modify_other _ hbb]; exact (h.phase b' (hin b' hb') hbb).over_of_ended (hall b' hb' hbb)
  · rw [if_neg hind]
    obtain ⟨b', hb', hne, hb'e⟩ : ∃ b' ∈ bands, b' ≠ b ∧ (p.band b').ended = false := by
      by_contra hno
      refine hind ((h.indicate_iff he).mpr fun b' hb' hne => ?_)
      by_contra hfalse
      exact hno ⟨b', hb', hne, Bool.eq_false_iff.mpr hfalse⟩
    refine .open ⟨h.nodup, h.sctrl, h.refused, h.reports, h.late, h.next, fun c hc => ?_, hmod.idle, ⟨b', hb', ?_⟩, hres⟩
    · by_cases hcb : c = b
      · rw [hcb, hself]; exact .finished hover
      · exact hmod.phase c hc hcb
    · rw [modify_other _ hne]; exact hb'e

/-- A result that is not that of a scan that went through, once a band is stopped. -/
def ResultOk (p : Param) : Prop := ∀ b, (p.band b).stopped = true → p.result ≠ .complete

theorem ResultOk.modify (h : p.ResultOk) {f : Band → Band} (hf : ∀ x, (f x).stopped = x.stopped) : (p.modify b f).ResultOk := by
  intro b' hb'
  by_cases hbb : b' = b
  · rw [hbb, modify_self, hf] at hb'; exact h b hb'
  · rw [modify_other f hbb] at hb'; exact h b' hb'

theorem Frame.cmdScanEnd (h : Frame bands b p) (he : (p.band b).ended = false)
    (hreq : (p.band b).req ≠ .waiting ∧ (p.band b).req ≠ .running) (habort : (p.band b).abortMsg = false)
    (hrest : (p.band b).restores = 0) (hio : (p.band b).started = true → (p.band b).dfIo = false) (hres : p.ResultOk) :
    Inv bands (p.cmdScanEnd b) := by
  unfold Param.cmdScanEnd
  rw [if_pos h.mem_sctrl]
  refine h.ends he ⟨rfl, hreq, rfl, habort, ?_⟩ (hres.modify fun _ => rfl)
  show (if (p.band b).started && !(p.band b).dfIo then (p.band b).restores + 1 else (p.band b).restores) = _
  rw [hrest]
  cases hs : (p.band b).started with
  | true =>
    rw [hio hs]; exact (if_pos hs).symm
  | false =>
    show _ = if (p.band b).started then 1 else 0
    rw [hs]; rfl

theorem Frame.cmdAbortNotify {send : Send} (h : Frame bands b p) (he : (p.band b).ended = false) (hreq : (p.band b).req = .gone)
    (habort : (p.band b).abortMsg = false) (hrest : (p.band b).restores = 0) (hdfIo : (p.band b).dfIo = false)
    (hnew : (p.band b).acquire = false → (p.band b).timer = none ∧ (p.band b).started = false)
    (hfatal : send = .fatal → (p.band b).started = false) : Inv bands (p.cmdAbortNotify b send) := by
  unfold Param.cmdAbortNotify
  rw [touch_of_no_report h.reports]
  dsimp only
  have hgone : (p.band b).req ≠ .waiting ∧ (p.band b).req ≠ .running := by
    rw [hreq]; exact ⟨nofun, nofun⟩
  by_cases hacq : (p.band b).acquire = true
  · rw [if_pos hacq]
    have hf := (h.setResult .cancel).modify fun x => { x with stopped := true }
    have hself := modify_self { p with result := .cancel } b fun x => { x with stopped := true }
    have hres : (({ p with result := .cancel } : Param).modify b fun x => { x with stopped := true }).ResultOk :=
      fun _ _ => nofun
    generalize hp : ({ p with result := .cancel } : Param).modify b (fun x => { x with stopped := true }) = p' at *
    rw [if_pos hf.mem_sctrl]
    cases send with
    | ok =>
      refine (hf.modify _).open ?_ ?_ (hres.modify fun _ => rfl)
      · rw [modify_self, hself]; exact .aborting ⟨hreq, he, hdfIo, rfl, hrest⟩
      · rw [modify_self, hself]; exact he
    | failed =>
      refine hf.cmdScanEnd ?_ ?_ ?_ ?_ ?_ hres
      all_goals rw [hself]
      · exact he
      · exact hgone
      · exact habort
      · exact hrest
      · exact fun _ => hdfIo
    | fatal =>
      refine (hf.modify _).cmdScanEnd ?_ ?_ ?_ ?_ ?_ (hres.modify fun _ => rfl)
      all_goals rw [modify_self, hself]
      · exact he
      · exact hgone
      · exact habort
      · exact hrest
      · exact fun hs => absurd hs (Bool.eq_false_iff.mp (hfatal rfl))
  · rw [if_neg hacq]
    obtain ⟨htimer, hstarted⟩ := hnew (Bool.eq_false_iff.mpr hacq)
    refine (h.setResult .abort).ends he ⟨rfl, hgone, htimer, habort, ?_⟩ fun _ _ => nofun
    show (p.band b).restores = if (p.band b).started then 1 else 0
    rw [hrest, hstarted]; rfl

end Param

/-! ### Messages -/

/-- A band that holds its token, whether anything goes on or not. -/
structure Band.Held (x : Band) : Prop where
  req : x.req = .running
  ended : x.ended = false
  acquire : x.acquire = true
  dfIo : x.dfIo = false
  abortMsg : x.abortMsg = false
  restores : x.restores = 0
  stopped : x.stopped = false

variable {x : Band}

theorem Band.Running.held (h : x.Running) : x.Held :=
  ⟨h.req, h.ended, h.acquire, h.dfIo, h.abortMsg, h.restores, h.stopped⟩

theorem Band.Held.running (h : x.Held) (hg : x.going = true) : x.Running :=
  ⟨h.req, h.ended, h.acquire, h.dfIo, h.abortMsg, h.restores, h.stopped, hg⟩

theorem Band.Held.take (h : x.Held) (i : ℕ) : (x.take i).Held :=
  ⟨h.req, h.ended, h.acquire, h.dfIo, h.abortMsg, h.restores, h.stopped⟩

theorem Band.going_take {i : ℕ} (hi : x.queue[i]? = some .swchDone) (h : x.going = true) :
    (x.take i).going = true := by
  obtain ⟨hlt, hget⟩ := List.getElem?_eq_some_iff.mp hi
  have hany : (x.queue.any fun e => e ≠ .swchDone) = (x.queue.eraseIdx i).any fun e => e ≠ .swchDone := by
    rw [← (List.getElem_cons_eraseIdx_perm hlt).any_eq, hget, List.any_cons, decide_eq_false (not_not_intro rfl), Bool.false_or]
  unfold going at h ⊢
  rw [hany] at h; exact h

namespace Param

variable {bands : List HwBand} {p : Param} {b : HwBand}

variable {x : Band} {e : Evt} {fail : Bool} {t : Turn}

theorem TurnOk.of_fail (h : p.TurnOk x e fail t)
    (hdone : e = .swchDone → x.going = true) (hfail : fail = true ∨ t.timeUp = true) :
    e ≠ .scanEnd → t.send = true ∨ x.going = true := by
  intro hne
  have hno : ¬(fail = false ∧ t.timeUp = false ∧ t.go = true) := fun ⟨h₁, h₂, _⟩ =>
    hfail.elim (fun hf => Bool.false_ne_true (h₁.symm.trans hf)) fun ht => Bool.false_ne_true (h₂.symm.trans ht)
  cases e with
  | scanEnd => exact absurd rfl hne
  | scanStart => exact h
  | listenStateExpire => exact Or.imp_right (fun h => h.resolve_right hno) h
  | swchStart => exact Or.imp_right (fun h => h.resolve_right hno) h
  | swchDone => exact Or.inr (hdone rfl)

theorem TurnOk.of_fail_end (h : p.TurnOk x e fail t) (hfail : fail = true ∨ t.timeUp = true) :
    e = .scanEnd → x.cancelled = true ∨ ¬(t.cannotIo = true ∧ x.started = true) := by
  rintro rfl
  refine Or.imp_right (fun h => ?_) h
  rwa [if_pos hfail] at h

theorem Frame.goesOn (h : Frame bands b p) (hx : (p.band b).Held) (hg : (p.band b).going = true) (hres : p.ResultOk) :
    Inv bands p :=
  h.open (.running (hx.running hg)) hx.ended hres

theorem Frame.modifyGoesOn {f : Band → Band} (h : Frame bands b p) (hx : (f (p.band b)).Held)
    (hg : (f (p.band b)).going = true) (hf : ∀ x, (f x).stopped = x.stopped) (hres : p.ResultOk) :
    Inv bands (p.modify b f) := by
  refine (h.modify f).goesOn ?_ ?_ (hres.modify hf)
  · rw [modify_self]; exact hx
  · rw [modify_self]; exact hg

variable {ok : Bool}

theorem Frame.send (h : Frame bands b p) (hx : (p.band b).Held)
    (hgo : (ok = true ∧ e ≠ .swchDone) ∨ (p.band b).going = true) (hres : p.ResultOk) : Inv bands (p.send b ok e) := by
  unfold Param.send
  cases ok with
  | false => exact h.goesOn hx (hgo.resolve_left fun hok => Bool.false_ne_true hok.1) hres
  | true =>
    rw [if_pos rfl]
    refine h.modifyGoesOn ⟨hx.req, hx.ended, hx.acquire, hx.dfIo, hx.abortMsg, hx.restores, hx.stopped⟩ ?_ (fun _ => rfl) hres
    rcases hgo with ⟨-, hne⟩ | hg
    · exact Band.going_of_mem (List.mem_append_right _ List.mem_cons_self) hne
    · exact Band.going_append hg e

theorem held_arm (hx : (p.band b).Held) : ((p.modify b fun x => { x with timer := some true }).band b).Held ∧
      ((p.modify b fun x => { x with timer := some true }).band b).going = true := by
  rw [modify_self]
  refine ⟨⟨hx.req, hx.ended, hx.acquire, hx.dfIo, hx.abortMsg, hx.restores, hx.stopped⟩, ?_⟩
  unfold Band.going
  rw [decide_eq_true rfl, Bool.or_true]

theorem Frame.endFreed {io : Bool} (h : Frame bands b p) (hx : x.Held)
    (hp : p.band b = { x with req := .freed, dfIo := io }) (hio : x.started = true → io = false) (hres : p.ResultOk) :
    Inv bands (p.cmdScanEnd b) := by
  refine h.cmdScanEnd ?_ ?_ ?_ ?_ ?_ hres
  all_goals rw [hp]
  · exact hx.ended
  · exact ⟨nofun, nofun⟩
  · exact hx.abortMsg
  · exact hx.restores
  · exact hio

theorem Frame.cmdScanFailEvHdlr (h : Frame bands b p) (hx : (p.band b).Held)
    (hgo : e ≠ .scanEnd → t.send = true ∨ (p.band b).going = true)
    (hend : e = .scanEnd → (p.band b).cancelled = true ∨ ¬(t.cannotIo = true ∧ (p.band b).started = true)) (hres : p.ResultOk) :
    Inv bands (p.cmdScanFailEvHdlr b e t) := by
  have hsend : e ≠ .scanEnd → Inv bands (p.send b t.send .scanEnd) := fun hne =>
    h.send hx ((hgo hne).imp_left fun hs => ⟨hs, nofun⟩) hres
  unfold Param.cmdScanFailEvHdlr
  rw [if_pos h.mem_sctrl]
  cases e with
  | scanEnd =>
    dsimp only
    unfold freeToken
    cases hc : (p.band b).cancelled with
    | true =>
      refine h.goesOn hx ?_ hres
      unfold Band.going
      rw [hc, Bool.true_or, Bool.true_or]
    | false =>
      have hio : (p.band b).started = true → t.cannotIo = false := fun hs =>
        Bool.eq_false_iff.mpr fun ht => ((hend rfl).resolve_left (by rw [hc]; exact Bool.false_ne_true)) ⟨ht, hs⟩
      have hfreed : (p.modify b fun x => { x with req := .freed }).ResultOk := hres.modify fun _ => rfl
      refine ((h.modify _).modify _).endFreed hx ?_ hio (hfreed.modify fun _ => rfl)
      rw [modify_self, modify_self, hx.dfIo, Bool.false_or]
  | scanStart => exact hsend nofun
  | listenStateExpire => exact hsend nofun
  | swchStart => exact hsend nofun
  | swchDone => exact hsend nofun

theorem Frame.cmdScanHdlInternalEvt (h : Frame bands b p) (hx : (p.band b).Held) (ht : t.timeUp = false)
    (hok : p.TurnOk (p.band b) e false t) (hdone : e = .swchDone → (p.band b).going = true) (hres : p.ResultOk) :
    Inv bands (p.cmdScanHdlInternalEvt b e t) := by
  unfold Param.cmdScanHdlInternalEvt
  rw [if_neg (Bool.eq_false_iff.mp ht), if_pos h.mem_sctrl]
  cases e with
  | scanStart =>
    refine (h.modify _).send ?_ ?_ (hres.modify fun _ => rfl)
    · rw [modify_self]
      exact ⟨hx.req, hx.ended, hx.acquire, hx.dfIo, hx.abortMsg, hx.restores, hx.stopped⟩
    · rw [modify_self]; exact Or.imp_left (fun hs => ⟨hs, nofun⟩) hok
  | listenStateExpire =>
    dsimp only
    by_cases hgo : t.go = true
    · rw [if_pos hgo]
      exact (h.modify _).goesOn (held_arm hx).1 (held_arm hx).2 (hres.modify fun _ => rfl)
    · rw [if_neg hgo]
      refine h.send hx ?_ hres
      rcases hok with hs | hg | ⟨-, -, hg⟩
      · exact Or.inl ⟨hs, nofun⟩
      · exact Or.inr hg
      · exact absurd hg hgo
  | swchStart =>
    dsimp only
    by_cases hgo : t.go = true
    · rw [if_pos hgo]
      exact (h.modify _).send (held_arm hx).1 (Or.inr (held_arm hx).2) (hres.modify fun _ => rfl)
    · rw [if_neg hgo]
      refine h.send hx ?_ hres
      rcases hok with hs | hg | ⟨-, -, hg⟩
      · exact Or.inl ⟨hs, nofun⟩
      · exact Or.inr hg
      · exact absurd hg hgo
  | swchDone => exact h.goesOn hx (hdone rfl) hres
  | scanEnd =>
    dsimp only
    unfold freeToken
    cases hc : (p.band b).cancelled with
    | true =>
      refine h.goesOn hx ?_ hres
      unfold Band.going
      rw [hc, Bool.true_or, Bool.true_or]
    | false =>
      have hnone : ∀ b', (p.band b').stopped = false := by
        have hok := Or.resolve_left hok (by rw [hc]; exact Bool.false_ne_true)
        rwa [if_neg (by rw [ht]; exact fun hor => hor.elim Bool.false_ne_true Bool.false_ne_true)] at hok
      refine ((h.modify _).setResult .complete).endFreed hx ?_ (fun _ => hx.dfIo) fun b' hb' => ?_
      · show (p.modify b fun x => { x with req := .freed }).band b = _; rw [modify_self]
      · have hb' : ((p.modify b fun x => { x with req := .freed }).band b').stopped = true := hb'
        by_cases hbb : b' = b
        · rw [hbb, modify_self] at hb'; exact absurd hb' (Bool.eq_false_iff.mp hx.stopped)
        · rw [modify_other _ hbb] at hb'; exact absurd hb' (Bool.eq_false_iff.mp (hnone b'))

/-! ### Steps -/

theorem Open.submitted (h : Open bands p) (hb : p.band b ≠ .init) : b ∈ bands.take p.next := by
  by_contra hnot
  exact hb (h.idle b hnot)

variable {f : Band → Band}

theorem Done.modify (h : Done bands p) (hb : b ∈ bands) (hover : (f (p.band b)).Over)
    (hstop : (f (p.band b)).stopped = (p.band b).stopped) : Done bands (p.modify b f) := by
  obtain ⟨r, hr, hres⟩ := h.reports
  refine ⟨h.sctrl, h.refused, ⟨r, hr, fun b' hb' => hres b' ?_⟩, h.late, fun b' hb' => ?_, fun b' hb' => ?_⟩
  · by_cases hbb : b' = b
    · rw [hbb, modify_self, hstop] at hb'
      rwa [hbb]
    · rwa [modify_other f hbb] at hb'
  · by_cases hbb : b' = b
    · rw [hbb, modify_self]; exact hover
    · rw [modify_other f hbb]; exact h.bandsOver b' hb'
  · have hbb : b' ≠ b := fun hbb => hb' (by rw [hbb]; exact hb)
    rw [modify_other f hbb]; exact h.idle b' hb'

theorem Done.cases (h : Done bands p) (b : HwBand) : (b ∈ bands ∧ (p.band b).Over) ∨ p.band b = .init := by
  by_cases hb : b ∈ bands
  · exact Or.inl ⟨hb, h.bandsOver b hb⟩
  · exact Or.inr (h.idle b hb)

theorem Open.modifyOver (h : Open bands p) (hb : b ∈ bands.take p.next) (hx : (p.band b).Over)
    (hover : (f (p.band b)).Over) (hstop : (f (p.band b)).stopped = (p.band b).stopped) : Inv bands (p.modify b f) := by
  have hf := (h.frame hb).modify f
  obtain ⟨c, hc, hce⟩ := h.notEnded
  have hcb : c ≠ b := fun hcb => by rw [hcb, hx.ended] at hce; cases hce
  refine .open ⟨hf.nodup, hf.sctrl, hf.refused, hf.reports, hf.late, hf.next, fun b' hb' => ?_, hf.idle, ⟨c, hc, ?_⟩,
    fun b' hb' => h.result b' ?_⟩
  · by_cases hbb : b' = b
    · rw [hbb, modify_self]; exact .finished hover
    · exact hf.phase b' hb' hbb
  · rw [modify_other f hcb]; exact hce
  · by_cases hbb : b' = b
    · rw [hbb, modify_self, hstop] at hb'
      rwa [hbb]
    · rwa [modify_other f hbb] at hb'

theorem take_succ {next : ℕ} (hb : bands[next]? = some b) : bands.take (next + 1) = bands.take next ++ [b] := by
  rw [List.take_add_one, hb]; rfl

theorem Open.submit {add : Add} (h : Open bands p) (hok : ActOk bands p (.submit add)) : Inv bands (p.submit add) := by
  unfold Param.submit
  rw [h.sctrl]
  cases hb : bands[p.next]? with
  | none => exact .open h
  | some b =>
    have hlt : p.next < bands.length := (List.getElem?_eq_some_iff.mp hb).1
    have htake := take_succ hb
    have hnot : b ∉ bands.take p.next := by
      have hnd := (List.take_sublist (p.next + 1) bands).nodup h.nodup
      rw [htake] at hnd
      exact fun hmem => (List.nodup_append.mp hnd).2.2 b hmem b List.mem_cons_self rfl
    have hinit := h.idle b hnot
    -- the band `b` gets the state `f init`
    have hopen : ∀ f : Band → Band, (f .init).Submitted → (f .init).stopped = false →
        (∃ c ∈ bands, ((p.modify b f).band c).ended = false) →
        Inv bands { p.modify b f with next := p.next + 1 } := by
      intro f hf hstop hne
      refine .open ⟨h.nodup, h.sctrl, h.refused, h.reports, h.late, hlt, fun b' hb' => ?_, fun b' hb' => ?_, hne,
        fun b' hb' => h.result b' ?_⟩
      · have hb' : b' ∈ bands.take (p.next + 1) := hb'
        rw [htake] at hb'
        show ((p.modify b f).band b').Submitted
        by_cases hbb : b' = b
        · rw [hbb, modify_self, hinit]; exact hf
        · rw [modify_other f hbb]
          refine h.phase b' ((List.mem_append.mp hb').resolve_right fun hmem => hbb (List.mem_singleton.mp hmem))
      · have hb' : b' ∉ bands.take (p.next + 1) := hb'
        rw [htake, List.mem_append, not_or] at hb'
        show (p.modify b f).band b' = .init
        rw [modify_other f fun hbb => hb'.2 (List.mem_singleton.mpr hbb)]; exact h.idle b' hb'.1
      · have hb' : ((p.modify b f).band b').stopped = true := hb'
        by_cases hbb : b' = b
        · rw [hbb, modify_self, hinit, hstop] at hb'; cases hb'
        · rwa [modify_other f hbb] at hb'
    have hended : (∃ c ∈ bands, c ≠ b ∧ (p.band c).ended = false) →
        Inv bands { p.modify b fun x => { x with ended := true } with next := p.next + 1 } := by
      rintro ⟨c, hc, hcb, hce⟩
      refine hopen _ (.finished ⟨rfl, ⟨nofun, nofun⟩, rfl, rfl, rfl⟩) rfl ⟨c, hc, ?_⟩
      rw [modify_other _ hcb]; exact hce
    cases add with
    | added =>
      refine hopen _ (.waiting ⟨rfl, rfl, rfl, rfl, rfl, rfl, rfl, rfl, rfl, rfl⟩) rfl ⟨b, List.mem_of_getElem? hb, ?_⟩
      rw [modify_self, hinit]; rfl
    | empty => exact hended (hok b (by rw [h.sctrl]; exact hb))
    | failed =>
      dsimp only
      by_cases h0 : p.next = 0
      · rw [if_pos h0]
        refine .refused ⟨rfl, rfl, h.reports, h.late, fun b' => h.idle b' ?_⟩
        rw [h0, List.take_zero]; exact List.not_mem_nil
      · rw [if_neg h0]; exact hended (hok.resolve_left h0 b (by rw [h.sctrl]; exact hb))

theorem Open.resultOk (h : Open bands p) : p.ResultOk := h.result

theorem Open.grant {timeUp : Bool} (h : Open bands p) (hreq : (p.band b).req = .waiting) :
    Inv bands (p.cmdScanReqAcquired b timeUp ok) := by
  have hmem := h.submitted fun hinit => by rw [hinit] at hreq; cases hreq
  have hf := h.frame hmem
  have hx := (h.phase b hmem).of_waiting hreq
  unfold cmdScanReqAcquired
  rw [touch_of_no_report h.reports]
  dsimp only
  split
  · exact hf.modifyGoesOn ⟨rfl, hx.ended, rfl, hx.dfIo, hx.abortMsg, hx.restores, hx.stopped⟩
      (Band.going_of_mem (List.mem_append_right _ List.mem_cons_self) nofun) (fun _ => rfl) h.resultOk
  · refine (hf.modify _).cmdAbortNotify ?_ ?_ ?_ ?_ ?_ ?_ nofun
    all_goals rw [modify_self]
    · exact hx.ended
    · exact hx.abortMsg
    · exact hx.restores
    · exact hx.dfIo
    · exact fun _ => ⟨hx.timer, hx.started⟩

theorem turnOk_modify (hf : ∀ x, (f x).stopped = x.stopped)
    (h : p.TurnOk x e fail t) : (p.modify b f).TurnOk x e fail t := by
  cases e with
  | scanEnd =>
    refine Or.imp_right (fun h => ?_) h
    by_cases hfail : fail = true ∨ t.timeUp = true
    · rw [if_pos hfail] at h ⊢; exact h
    · rw [if_neg hfail] at h ⊢
      intro b'
      by_cases hbb : b' = b
      · rw [hbb, modify_self, hf]; exact h b
      · rw [modify_other f hbb]; exact h b'
  | scanStart => exact h
  | listenStateExpire => exact h
  | swchStart => exact h
  | swchDone => exact h

theorem Open.deliver {i : ℕ} (h : Open bands p) (hreq : (p.band b).req = .running)
    (he : (p.band b).queue[i]? = some e) (hok : p.TurnOk ((p.band b).take i) e fail t) :
    Inv bands ((p.modify b fun x => x.take i).cmdScanReqEvHdlr b e fail t) := by
  have hmem := h.submitted fun hinit => by rw [hinit] at hreq; cases hreq
  have hf := (h.frame hmem).modify fun x => x.take i
  have hrun := (h.phase b hmem).of_running hreq
  have hself : (p.modify b fun x => x.take i).band b = (p.band b).take i := modify_self _ _ _
  have hx : ((p.modify b fun x => x.take i).band b).Held := by
    rw [hself]; exact hrun.held.take i
  have hres : (p.modify b fun x => x.take i).ResultOk := h.resultOk.modify fun _ => rfl
  have hok' : (p.modify b fun x => x.take i).TurnOk ((p.modify b fun x => x.take i).band b) e fail t := by
    rw [hself]; exact turnOk_modify (fun _ => rfl) hok
  have hdone : e = .swchDone → ((p.modify b fun x => x.take i).band b).going = true := by
    rintro rfl
    rw [hself]; exact Band.going_take he hrun.going
  unfold cmdScanReqEvHdlr
  rw [touch_of_no_report hf.reports]
  dsimp only
  generalize (p.modify b fun x => x.take i) = p' at *
  cases fail with
  | true =>
    rw [if_pos rfl]
    refine hf.cmdScanFailEvHdlr hx (hok'.of_fail hdone (Or.inl rfl)) (hok'.of_fail_end (Or.inl rfl)) hres
  | false =>
    rw [if_neg Bool.false_ne_true]
    cases ht : t.timeUp with
    | true =>
      unfold Param.cmdScanHdlInternalEvt
      rw [if_pos ht]
      exact hf.cmdScanFailEvHdlr hx (hok'.of_fail hdone (Or.inr ht)) (hok'.of_fail_end (Or.inr ht)) hres
    | false => exact hf.cmdScanHdlInternalEvt hx ht hok' hdone hres

theorem modify_modify (p : Param) (b : HwBand) (f g : Band → Band) :
    (p.modify b f).modify b g = p.modify b fun x => g (f x) := by
  unfold modify
  dsimp only
  rw [Function.update_idem, Function.update_self]

theorem modify_congr {g : Band → Band} (h : f (p.band b) = g (p.band b)) : p.modify b f = p.modify b g := by
  unfold modify
  rw [h]

theorem Open.requeue {q : List Evt} {timer : Option Bool} (h : Open bands p) (hinit : p.band b ≠ .init)
    (hwait : (p.band b).req ≠ .waiting)
    (hrun : (p.band b).req = .running → ({ p.band b with queue := q, timer := timer } : Band).going = true)
    (htimer : (p.band b).timer = none → timer = none) :
    Inv bands (p.modify b fun x => { x with queue := q, timer := timer }) := by
  have hmem := h.submitted hinit
  cases h.phase b hmem with
  | waiting hx => exact absurd hx.req hwait
  | running hx =>
    exact (h.frame hmem).modifyGoesOn ⟨hx.req, hx.ended, hx.acquire, hx.dfIo, hx.abortMsg, hx.restores, hx.stopped⟩
      (hrun hx.req) (fun _ => rfl) h.resultOk
  | aborting hx =>
    refine ((h.frame hmem).modify _).open ?_ ?_ (h.resultOk.modify fun _ => rfl)
    · rw [modify_self]; exact .aborting ⟨hx.req, hx.ended, hx.dfIo, hx.abortMsg, hx.restores⟩
    · rw [modify_self]; exact hx.ended
  | finished hx => exact h.modifyOver hmem hx ⟨hx.ended, hx.req, htimer hx.timer, hx.abortMsg, hx.restores⟩ rfl

theorem Open.not_waiting (h : Open bands p) (he : e ∈ (p.band b).queue) :
    p.band b ≠ .init ∧ (p.band b).req ≠ .waiting := by
  have hinit : p.band b ≠ .init := fun hinit => by rw [hinit] at he; cases he
  refine ⟨hinit, fun hreq => ?_⟩
  rw [((h.phase b (h.submitted hinit)).of_waiting hreq).queue] at he; cases he

theorem Open.touch_modify (h : Open bands p) (f : Band → Band) : (p.modify b f).touch = p.modify b f :=
  touch_of_no_report h.reports

theorem Open.drop {i : ℕ} {clrSndr : Bool} (h : Open bands p) (hok : ActOk bands p (.drop b i clrSndr ok)) :
    Inv bands (p.step (.drop b i clrSndr ok)) := by
  unfold step
  dsimp only
  cases he : (p.band b).queue[i]? with
  | none => exact .open h
  | some e =>
    obtain ⟨hgo, -⟩ := hok e he
    obtain ⟨hinit, hwait⟩ := h.not_waiting (List.mem_of_getElem? he)
    have hdrop : p.modify b (fun x => x.take i) =
        p.modify b fun x => { x with queue := (p.band b).queue.eraseIdx i, timer := (p.band b).timer } := modify_congr rfl
    dsimp only
    by_cases hclr : e = .listenStateExpire ∧ clrSndr = true
    · rw [if_pos hclr]
      unfold cmdScanTimer Param.send
      rw [h.touch_modify]
      cases ok with
      | false =>
        rw [if_neg Bool.false_ne_true, hdrop]
        refine h.requeue hinit hwait (fun hreq => ?_) id
        exact (hgo hreq).resolve_right fun hno => Bool.false_ne_true hno.2.2
      | true =>
        rw [if_pos rfl, modify_modify]
        have hsend : p.modify b (fun x => { x.take i with queue := (x.take i).queue ++ [.listenStateExpire] }) =
            p.modify b fun x =>
              { x with queue := (p.band b).queue.eraseIdx i ++ [.listenStateExpire], timer := (p.band b).timer } :=
          modify_congr rfl
        rw [hsend]
        exact h.requeue hinit hwait
          (fun _ => Band.going_of_mem (List.mem_append_right _ List.mem_cons_self) nofun) id
    · rw [if_neg hclr, hdrop]
      exact h.requeue hinit hwait (fun hreq => (hgo hreq).resolve_right fun hno => hclr ⟨hno.1, hno.2.1⟩) id

theorem Open.timer (h : Open bands p) (hok : ActOk bands p (.timer b ok)) : Inv bands (p.step (.timer b ok)) := by
  unfold step
  dsimp only
  by_cases htimer : (p.band b).timer = some true
  · rw [if_pos htimer]
    have hinit : p.band b ≠ .init := fun hinit => by rw [hinit] at htimer; cases htimer
    have hwait : (p.band b).req ≠ .waiting := fun hreq => by
      rw [((h.phase b (h.submitted hinit)).of_waiting hreq).timer] at htimer; cases htimer
    have hnone : (p.band b).timer = none → (some false : Option Bool) = none := fun hno => by
      rw [htimer] at hno; cases hno
    unfold cmdScanTimer Param.send
    rw [h.touch_modify]
    cases ok with
    | false =>
      have hfire : p.modify b (fun x => { x with timer := some false }) =
          p.modify b fun x => { x with queue := (p.band b).queue, timer := some false } := modify_congr rfl
      rw [if_neg Bool.false_ne_true, hfire]
      exact h.requeue hinit hwait (fun hreq => (hok hreq).resolve_left Bool.false_ne_true) hnone
    | true =>
      have hsend : p.modify b (fun x => { x with timer := some false, queue := x.queue ++ [.listenStateExpire] }) =
          p.modify b fun x => { x with queue := (p.band b).queue ++ [.listenStateExpire], timer := some false } :=
        modify_congr rfl
      rw [if_pos rfl, modify_modify, hsend]
      exact h.requeue hinit hwait
        (fun _ => Band.going_of_mem (List.mem_append_right _ List.mem_cons_self) nofun) hnone
  · rw [if_neg htimer]; exact .open h

theorem Open.cancel (h : Open bands p) : Inv bands (p.step (.cancel b)) := by
  unfold step
  dsimp only
  by_cases hreq : (p.band b).req = .waiting ∨ (p.band b).req = .running
  · rw [if_pos hreq]
    have hmem := h.submitted fun hinit => by rw [hinit] at hreq; exact hreq.elim nofun nofun
    rcases hreq with hreq | hreq
    · have hx := (h.phase b hmem).of_waiting hreq
      refine ((h.frame hmem).modify _).open (.waiting ?_) ?_ (h.resultOk.modify fun _ => rfl)
      · rw [modify_self]
        exact ⟨hx.req, hx.ended, hx.acquire, hx.started, hx.dfIo, hx.queue, hx.timer, hx.abortMsg, hx.restores, hx.stopped⟩
      · rw [modify_self]; exact hx.ended
    · have hx := (h.phase b hmem).of_running hreq
      exact (h.frame hmem).modifyGoesOn ⟨hx.req, hx.ended, hx.acquire, hx.dfIo, hx.abortMsg, hx.restores, hx.stopped⟩ rfl
        (fun _ => rfl) h.resultOk
  · rw [if_neg hreq]; exact .open h

theorem Open.abort {send : Send} (h : Open bands p) (hok : ActOk bands p (.abort b send)) :
    Inv bands (p.step (.abort b send)) := by
  unfold step
  dsimp only
  cases hreq : (p.band b).req with
  | none => exact .open h
  | gone => exact .open h
  | freed => exact absurd hreq hok.1
  | waiting =>
    have hmem := h.submitted fun hinit => by rw [hinit] at hreq; cases hreq
    have hx := (h.phase b hmem).of_waiting hreq
    refine ((h.frame hmem).modify _).cmdAbortNotify ?_ ?_ ?_ ?_ ?_ ?_ ?_
    all_goals rw [modify_self]
    · exact hx.ended
    · exact hx.abortMsg
    · exact hx.restores
    · exact hx.dfIo
    · exact fun _ => ⟨hx.timer, hx.started⟩
    · exact fun _ => hx.started
  | running =>
    have hmem := h.submitted fun hinit => by rw [hinit] at hreq; cases hreq
    have hx := (h.phase b hmem).of_running hreq
    refine ((h.frame hmem).modify _).cmdAbortNotify ?_ ?_ ?_ ?_ ?_ ?_ ?_
    all_goals rw [modify_self]
    · exact hx.ended
    · exact hx.abortMsg
    · exact hx.restores
    · exact hx.dfIo
    · exact fun hno => absurd hx.acquire (Bool.eq_false_iff.mp hno)
    · exact hok.2

theorem Open.abortDone {cannotIo : Bool} (h : Open bands p) (hok : ActOk bands p (.abortDone b cannotIo)) :
    Inv bands (p.step (.abortDone b cannotIo)) := by
  unfold step
  dsimp only
  rw [touch_of_no_report h.reports]
  by_cases hmsg : (p.band b).abortMsg = true
  · rw [if_pos hmsg]
    have hmem := h.submitted fun hinit => by rw [hinit] at hmsg; cases hmsg
    have hx := (h.phase b hmem).of_abortMsg hmsg
    refine ((h.frame hmem).modify _).cmdScanEnd ?_ ?_ ?_ ?_ ?_ (h.resultOk.modify fun _ => rfl)
    all_goals rw [modify_self]
    · exact hx.ended
    · show (p.band b).req ≠ .waiting ∧ (p.band b).req ≠ .running
      rw [hx.req]; exact ⟨nofun, nofun⟩
    · exact hx.restores
    · intro hs
      show ((p.band b).dfIo || cannotIo) = false
      rw [hx.dfIo, Bool.false_or]; exact Bool.eq_false_iff.mpr fun hio => hok ⟨hio, hs⟩
  · rw [if_neg hmsg]; exact .open h

theorem Open.freeDone (h : Open bands p) : Inv bands (p.step (.freeDone b)) := by
  unfold step
  dsimp only
  by_cases hreq : (p.band b).req = .freed
  · rw [if_pos hreq]
    have hmem := h.submitted fun hinit => by rw [hinit] at hreq; cases hreq
    cases h.phase b hmem with
    | waiting hx => cases hx.req.symm.trans hreq
    | running hx => cases hx.req.symm.trans hreq
    | aborting hx => cases hx.req.symm.trans hreq
    | finished hx => exact h.modifyOver hmem hx ⟨hx.ended, ⟨nofun, nofun⟩, hx.timer, hx.abortMsg, hx.restores⟩ rfl
  · rw [if_neg hreq]; exact .open h

variable {a : Act}

theorem Open.step (h : Open bands p) (hok : ActOk bands p a) : Inv bands (p.step a) := by
  cases a with
  | submit add => exact h.submit hok
  | grant b timeUp ok =>
    unfold Param.step
    dsimp only
    by_cases hreq : (p.band b).req = .waiting
    · rw [if_pos hreq]; exact h.grant hreq
    · rw [if_neg hreq]; exact .open h
  | deliver b i fail t =>
    unfold Param.step
    dsimp only
    by_cases hreq : (p.band b).req = .running
    · rw [if_pos hreq]
      cases he : (p.band b).queue[i]? with
      | none => exact .open h
      | some e => exact h.deliver hreq he (hok e he)
    · rw [if_neg hreq]; exact .open h
  | drop b i clrSndr ok => exact h.drop hok
  | timer b ok => exact h.timer hok
  | cancel b => exact h.cancel
  | abort b send => exact h.abort hok
  | abortDone b cannotIo => exact h.abortDone hok
  | freeDone b => exact h.freeDone

theorem Done.step (h : Done bands p) (hok : ActOk bands p a) : Done bands (p.step a) := by
  have hinit : ∀ b, b ∉ bands → (p.band b).req = .none := fun b hb => by rw [h.idle b hb]; rfl
  have hreq : ∀ b, (p.band b).req ≠ .waiting ∧ (p.band b).req ≠ .running := by
    intro b
    rcases h.cases b with ⟨-, hx⟩ | hx
    · exact hx.req
    · rw [hx]; exact ⟨nofun, nofun⟩
  unfold Param.step
  cases a with
  | submit add =>
    unfold Param.submit
    rw [h.sctrl]; exact h
  | grant b timeUp ok =>
    dsimp only
    rw [if_neg (hreq b).1]; exact h
  | deliver b i fail t =>
    dsimp only
    rw [if_neg (hreq b).2]; exact h
  | drop b i clrSndr ok =>
    dsimp only
    cases he : (p.band b).queue[i]? with
    | none => exact h
    | some e =>
      obtain ⟨r, hr, -⟩ := h.reports
      have hclr : ¬(e = .listenStateExpire ∧ clrSndr = true) := fun ⟨h₁, h₂⟩ => by
        rw [(hok e he).2 h₁ h₂] at hr; cases hr
      dsimp only
      rw [if_neg hclr]
      rcases h.cases b with ⟨hb, hx⟩ | hx
      · exact h.modify hb ⟨hx.ended, hx.req, hx.timer, hx.abortMsg, hx.restores⟩ rfl
      · rw [hx] at he; cases he
  | timer b ok =>
    have htimer : (p.band b).timer = none := by
      rcases h.cases b with ⟨-, hx⟩ | hx
      · exact hx.timer
      · rw [hx]; rfl
    dsimp only
    rw [if_neg (by rw [htimer]; exact nofun)]
    exact h
  | cancel b =>
    dsimp only
    rw [if_neg (not_or.mpr (hreq b))]; exact h
  | abort b send =>
    dsimp only
    cases hb : (p.band b).req with
    | none => exact h
    | gone => exact h
    | freed => exact absurd hb hok.1
    | waiting => exact absurd hb (hreq b).1
    | running => exact absurd hb (hreq b).2
  | abortDone b cannotIo =>
    have hmsg : (p.band b).abortMsg = false := by
      rcases h.cases b with ⟨-, hx⟩ | hx
      · exact hx.abortMsg
      · rw [hx]; rfl
    dsimp only
    rw [if_neg (Bool.eq_false_iff.mp hmsg)]; exact h
  | freeDone b =>
    dsimp only
    by_cases hb : (p.band b).req = .freed
    · rw [if_pos hb]
      rcases h.cases b with ⟨hmem, hx⟩ | hx
      · exact h.modify hmem ⟨hx.ended, ⟨nofun, nofun⟩, hx.timer, hx.abortMsg, hx.restores⟩ rfl
      · rw [hx] at hb; cases hb
    · rw [if_neg hb]; exact h

theorem Refused.step (h : Refused p) : p.step a = p := by
  unfold Param.step
  cases a with
  | submit add =>
    unfold Param.submit
    rw [h.sctrl]; rfl
  | grant b timeUp ok => exact if_neg (by rw [h.idle b]; exact nofun)
  | deliver b i fail t => exact if_neg (by rw [h.idle b]; exact nofun)
  | drop b i clrSndr ok =>
    dsimp only
    rw [h.idle b]; rfl
  | timer b ok => exact if_neg (by rw [h.idle b]; exact nofun)
  | cancel b => exact if_neg (by rw [h.idle b]; exact fun hor => hor.elim nofun nofun)
  | abort b send =>
    dsimp only
    rw [h.idle b]; rfl
  | abortDone b cannotIo =>
    dsimp only
    rw [h.idle b]; rfl
  | freeDone b => exact if_neg (by rw [h.idle b]; exact nofun)

theorem Inv.step (h : Inv bands p) (hok : ActOk bands p a) : Inv bands (p.step a) := by
  cases h with
  | «open» h => exact h.step hok
  | done h => exact .done (h.step hok)
  | refused h =>
    rw [h.step]; exact .refused h

theorem inv_init {result : Result} (hne : bands ≠ []) (hnd : bands.Nodup) : Inv bands (init bands result) := by
  obtain ⟨b, hb⟩ := List.exists_mem_of_ne_nil bands hne
  refine .open ⟨hnd, rfl, rfl, rfl, rfl, Nat.zero_le _, fun b hb => ?_, fun _ _ => rfl, ⟨b, hb, rfl⟩,
    fun _ hstop => absurd hstop Bool.false_ne_true⟩
  have hb : b ∈ bands.take 0 := hb
  rw [List.take_zero] at hb; cases hb

/-- **Runs.**  A request whose steps all go as `ActOk` says gives its caller what it owes in every state. -/
theorem scan_completed {result : Result} {acts : List Act} (hne : bands ≠ []) (hnd : bands.Nodup)
    (h : Lib.Legal step (ActOk bands) (init bands result) acts) {pre : List Act} (hpre : pre <+: acts) :
    (pre.foldl step (init bands result)).Right bands := by
  obtain ⟨rest, rfl⟩ := hpre
  have hreach := (Lib.legal_append.mp h).1.reach
  exact (hreach.invariant (I := Inv bands) (inv_init hne hnd) fun _ _ hs hok => hs.step hok).right

/-- A scan of one channel on band 0. -/
theorem scan_of_one_channel :
    let acts : List Act :=
      [.submit .added, .grant .band0 false true, .deliver .band0 0 false ⟨false, true, true, false⟩,
        .deliver .band0 0 false ⟨false, true, true, false⟩, .timer .band0 true, .deliver .band0 0 false ⟨false, true, true, false⟩,
        .deliver .band0 0 false ⟨false, false, true, false⟩, .deliver .band0 0 false ⟨false, false, true, false⟩,
        .deliver .band0 0 false ⟨false, false, true, false⟩, .freeDone .band0]
    (acts.foldl step (init [.band0] .cancel)).Right [.band0] ∧ (acts.foldl step (init [.band0] .cancel)).reports = [.complete] := by
  intro acts
  have hlegal : Lib.Legal step (ActOk [.band0]) (init [.band0] .cancel) acts := by
    refine ⟨trivial, trivial, fun e he => ?_, fun e he => ?_, fun _ => Or.inl rfl, fun e he => ?_, fun e he => ?_,
      fun e he => ?_, fun e he => ?_, trivial, trivial⟩
    all_goals cases he
    · exact Or.inl rfl
    · exact Or.inl rfl
    · trivial
    · exact Or.inl rfl
    · exact Or.inl rfl
    · exact Or.inr fun b => by cases b <;> rfl
  exact ⟨scan_completed (by decide) (by decide) hlegal (List.prefix_refl _), rfl⟩

/-- When the handler of the first message cannot send the next one, the scan is never completed. -/
theorem scan_hangs : ¬∀ (bands : List HwBand) (result : Result) (acts : List Act), bands ≠ [] → bands.Nodup →
      (acts.foldl step (init bands result)).Right bands := by
  intro h
  have hright := h [.band0] .complete
    [.submit .added, .grant .band0 false true, .deliver .band0 0 false ⟨false, false, false, false⟩] (by decide) (by decide)
  refine hright.answered rfl ⟨by decide, fun b => ?_⟩ rfl
  cases b with
  | band0 => exact ⟨nofun, fun _ => rfl, rfl⟩
  | band1 => exact ⟨nofun, nofun, rfl⟩

end Param

end Rtl8852cu.ScanEnd
