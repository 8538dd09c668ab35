import Rtl8852cu.Rx.PhyStsRuns
import Mathlib.Data.List.Nodup

/-!
# What happens to every packet

Every packet is indicated once or waits (`Delivered`), a status is only copied by a report that matches (`StatusRight`), and the order
of a band is kept as long as no packet overtakes (`delivered_runs`).
-/

namespace Rtl8852cu.Rx

open Lib

theorem PstsInfo.QueueInv.handlePpduStsQ_spec {s : PstsInfo} (h : s.QueueInv) :
    s.handlePpduStsQ.QueueInv ∧ ∀ band, PstsInfo.BandStep band s s.handlePpduStsQ (s.parked band) [] := by
  unfold PstsInfo.handlePpduStsQ
  have h' := h.flushed .band0
  rw [h.flushBand_eq, PstsInfo.QueueInv.flushBand_eq h']
  refine ⟨h'.flushed .band1, fun band => ?_⟩
  cases band with
  | band0 =>
    have hother : PstsInfo.SameBand .band0 (s.flushed .band0) ((s.flushed .band0).flushed .band1) := h'.flushed_other nofun
    have hstep := (h.flushed_step .band0).trans hother
    rwa [List.append_nil, (h.flushed_step .band0).parked] at hstep
  | band1 =>
    have hother : PstsInfo.SameBand .band1 s (s.flushed .band0) := h.flushed_other nofun
    have hstep := PstsInfo.BandStep.trans hother (h'.flushed_step .band1)
    rwa [List.nil_append, hother.parked] at hstep

namespace PstsRun

open PstsInfo

variable {r : PstsRun} {band : HwBand}

/-- The start: no packet waits, with any configuration. -/
def start (cfg : PstsInfo) : PstsRun where
  info := { cfg with curPpduCnt := fun _ => 0, frames := fun _ _ => [], indicated := [] }
  received := []

def run (cfg : PstsInfo) (es : List PstsEvent) : PstsRun := es.foldl step (start cfg)

/-- An event that puts a packet before others that were received before it. -/
def Overtaking (r : PstsRun) (e : PstsEvent) : Prop := ∃ pkt, e = .wifi pkt ∧ r.info.Overtakes (r.numbered pkt)

/-- The packets after an event: the old ones, the one received, and those that a report which matches has given its status. -/
def StatusRight (r : PstsRun) (e : PstsEvent) : Prop :=
  ∀ band, ∀ q ∈ (r.step e).line band, q ∈ r.line band ∨ (∃ pkt, e = .wifi pkt ∧ q = r.numbered pkt) ∨
    ∃ env sts, e = .ppduStatus env sts ∧ ∃ p ∈ r.info.parked band, q = { p with phyInfo := q.phyInfo } ∧ r.info.Matches sts p

/-- What holds of the packets received: each is indicated once or waits, those that wait do so in one queue of the band and in their
order, and those that do not have been indicated in their order. -/
structure Delivered (r : PstsRun) : Prop where
  distinct : ∀ band, (r.ids band).Nodup
  once : ∀ band, ((r.line band).map (·.id)).Perm (r.ids band)
  same : ∀ band, ∀ q ∈ r.line band, ∃ x ∈ r.received, q = { x.1 with phyInfo := q.phyInfo }
  one : ∀ band i, r.info.frames band i ≠ [] → i = (r.info.curPpduCnt band).toNat
  waited : ∀ band, (r.idsOf true band).Sublist ((r.line band).map (·.id))
  direct : ∀ band, (r.idsOf false band).Sublist ((r.info.done band).map (·.id))

theorem start_inv (cfg : PstsInfo) : (start cfg).Inv where
  queue := ⟨fun _ => Nat.zero_lt_succ 7, fun _ _ hne => absurd rfl hne, nofun⟩
  once := fun _ => .refl _
  waited := fun _ => List.Sublist.refl []
  direct := fun _ => List.Sublist.refl []
  same := nofun
  small := nofun

theorem start_inOrder (cfg : PstsInfo) : (start cfg).InOrder := fun _ => rfl

/-! ### A packet -/

theorem Inv.wifi_split (h : r.Inv) (pkt : StsPkt) : (r.step (.wifi pkt)).info.QueueInv ∧
      (∀ other, other ≠ (r.numbered pkt).band → SameBand other r.info (r.step (.wifi pkt)).info) ∧
      ∃ w out wait before after, (r.step (.wifi pkt)).received = r.received ++ [(r.numbered pkt, w)] ∧
        BandStep (r.numbered pkt).band r.info (r.step (.wifi pkt)).info out wait ∧
        before ++ after = r.info.parked (r.numbered pkt).band ∧
        (w = true → out ++ wait = before ++ after ++ [r.numbered pkt]) ∧
        (w = false → out = before ++ [r.numbered pkt] ∧ wait = after) ∧
        (¬ r.info.Overtakes (r.numbered pkt) ↔ w = true ∨ after = []) := by
  set p := r.numbered pkt with hp
  obtain ⟨ret, s', hret, hq, hother, out, wait, hstep, htrue, hfalse⟩ := h.queue.procWaitPhySts_spec p
  have hinfo : (r.step (.wifi pkt)).info = if ret then s' else s'.handleNormal p := by
    show r.info.rxWifi p = _
    unfold rxWifi
    rw [hret]
  have hreceived : (r.step (.wifi pkt)).received = r.received ++ [(p, ret)] := by
    show r.received ++ [(p, (r.info.procWaitPhySts p).1)] = _
    rw [hret]
  rw [hinfo, hreceived]
  cases ret with
  | true =>
    obtain ⟨hsplit, hnot⟩ := htrue rfl
    refine ⟨hq, hother, true, out, wait, r.info.parked p.band, [], rfl, hstep, List.append_nil _, fun _ => ?_, nofun,
      iff_of_true hnot (Or.inl rfl)⟩
    rw [hsplit, List.append_nil]
  | false =>
    obtain ⟨hsplit, hover⟩ := hfalse rfl
    have hband : ∀ q ∈ [p], q.band = p.band := fun q hq => by rw [List.mem_singleton.mp hq]
    have hdone : (s'.handleNormal p).done p.band = s'.done p.band ++ [p] := done_append (f := s'.frames) hband
    refine ⟨⟨hq.bound, hq.one, hq.member⟩, fun other hne => ⟨?_, (hother other hne).parked⟩, false, out ++ [p], wait, out, wait, rfl,
      ⟨?_, hstep.parked⟩, hsplit, nofun, fun _ => ⟨rfl, rfl⟩, ?_⟩
    · exact (done_append_ne (f := s'.frames) hband hne).trans (hother other hne).done
    · rw [if_neg Bool.false_ne_true, hdone, hstep.done, List.append_assoc]
    · rw [hover, not_not]; exact ⟨Or.inr, fun hor => hor.resolve_left Bool.false_ne_true⟩

theorem Inv.wifi (h : r.Inv) (pkt : StsPkt) :
    (r.step (.wifi pkt)).Inv ∧ (r.InOrder → ((r.step (.wifi pkt)).InOrder ↔ ¬ r.info.Overtakes (r.numbered pkt))) := by
  obtain ⟨hq, hother, w, out, wait, before, after, hr, hstep, hsplit, hwaits, hdirect, hover⟩ := h.wifi_split pkt
  refine ⟨h.packet hr rfl hq hother hstep hsplit hwaits hdirect, fun ho => ?_⟩
  rw [hover]; exact inOrder_packet h ho hr rfl hother hstep hsplit hwaits hdirect

theorem Inv.wifi_status (h : r.Inv) (pkt : StsPkt) : r.StatusRight (.wifi pkt) := by
  obtain ⟨-, hother, w, out, wait, before, after, -, hstep, hsplit, hwaits, hdirect, -⟩ := h.wifi_split pkt
  intro band q hq
  unfold line at hq
  by_cases hb : band = (r.numbered pkt).band
  · subst hb
    rw [hstep.done, hstep.parked, List.append_assoc] at hq
    have hmem : q ∈ r.line (r.numbered pkt).band ∨ q = r.numbered pkt := by
      unfold line
      rw [← hsplit]
      rcases List.mem_append.mp hq with hq | hq
      · exact Or.inl (List.mem_append_left _ hq)
      · cases w with
        | true =>
          rw [hwaits rfl] at hq
          exact (List.mem_append.mp hq).imp (List.mem_append_right _) List.mem_singleton.mp
        | false =>
          obtain ⟨rfl, rfl⟩ := hdirect rfl
          rw [List.append_assoc, List.mem_append, List.mem_append, List.mem_singleton] at hq
          rcases hq with hq | hq | hq
          · exact Or.inl (List.mem_append_right _ (List.mem_append_left _ hq))
          · exact Or.inr hq
          · exact Or.inl (List.mem_append_right _ (List.mem_append_right _ hq))
    exact hmem.imp_right fun he => Or.inl ⟨pkt, rfl, he⟩
  · rw [(hother band hb).done, (hother band hb).parked, List.append_nil] at hq; exact Or.inl hq

/-! ### The other events -/

theorem Inv.step_line (h : r.Inv) {e : PstsEvent} (he : ∀ pkt, e ≠ .wifi pkt) (he' : ∀ env sts, e ≠ .ppduStatus env sts) (band : HwBand) :
    (r.step e).line band = r.line band := by
  cases e with
  | wifi pkt => exact absurd rfl (he pkt)
  | ppduStatus env sts => exact absurd rfl (he' env sts)
  | handleQueuedRx =>
    obtain ⟨-, hstep⟩ := h.queue.handlePpduStsQ_spec
    show r.info.handlePpduStsQ.done band ++ r.info.handlePpduStsQ.parked band = _
    rw [(hstep band).done, (hstep band).parked, List.append_nil]; rfl
  | initPpduStsPara en ampdu rxFltr => rfl
  | setPpduSts band en => rfl

theorem Inv.step_kept (h : r.Inv) {e : PstsEvent} (he : ∀ pkt, e ≠ .wifi pkt) :
    (r.step e).received = r.received ∧ (r.step e).info.QueueInv ∧ ∀ band, BandKept band r.info (r.step e).info := by
  cases e with
  | wifi pkt => exact absurd rfl (he pkt)
  | ppduStatus env sts =>
    obtain ⟨hq, hother, out, wait, hstep, hids, hmem⟩ := h.queue.procPhySts_spec env sts
    refine ⟨rfl, hq, fun band => ?_⟩
    by_cases hb : band = sts.band
    · subst hb
      exact ⟨out, wait, hstep, hids, fun q hq => (hmem q hq).imp fun p hp => ⟨hp.1, hp.2.1⟩⟩
    · exact (hother band hb).kept
  | handleQueuedRx =>
    obtain ⟨hq, hstep⟩ := h.queue.handlePpduStsQ_spec
    refine ⟨rfl, hq, fun band => ⟨_, _, hstep band, ?_, fun q hq => ⟨q, ?_, rfl⟩⟩⟩
    · rw [List.append_nil]
    · rwa [List.append_nil] at hq
  | initPpduStsPara en ampdu rxFltr =>
    exact ⟨rfl, ⟨h.queue.bound, h.queue.one, h.queue.member⟩, fun band => SameBand.kept ⟨(List.append_nil _).symm, rfl⟩⟩
  | setPpduSts band en =>
    exact ⟨rfl, ⟨h.queue.bound, h.queue.one, h.queue.member⟩, fun band => SameBand.kept ⟨(List.append_nil _).symm, rfl⟩⟩

theorem Inv.statusRight (h : r.Inv) (e : PstsEvent) : r.StatusRight e := by
  cases e with
  | wifi pkt => exact h.wifi_status pkt
  | ppduStatus env sts =>
    obtain ⟨-, hother, out, wait, hstep, -, hmem⟩ := h.queue.procPhySts_spec env sts
    intro band q hq
    unfold line at hq
    by_cases hb : band = sts.band
    · subst hb
      have hq : q ∈ (r.info.procPhySts env sts).done sts.band ++ (r.info.procPhySts env sts).parked sts.band := hq
      rw [hstep.done, hstep.parked, List.append_assoc] at hq
      rcases List.mem_append.mp hq with hq | hq
      · exact Or.inl (List.mem_append_left _ hq)
      · obtain ⟨p, hp, he, hmatch⟩ := hmem q hq
        by_cases hphy : q.phyInfo = p.phyInfo
        · rw [hphy] at he; exact Or.inl (List.mem_append_right _ (he ▸ hp))
        · exact Or.inr (Or.inr ⟨env, sts, rfl, p, hp, he, hmatch hphy⟩)
    · have hq : q ∈ (r.info.procPhySts env sts).done band ++ (r.info.procPhySts env sts).parked band := hq
      rw [(hother band hb).done, (hother band hb).parked, List.append_nil] at hq; exact Or.inl hq
  | handleQueuedRx =>
    intro band q hq
    rw [h.step_line (by rintro _ ⟨⟩) (by rintro _ _ ⟨⟩) band] at hq; exact Or.inl hq
  | initPpduStsPara en ampdu rxFltr => exact fun band q hq => Or.inl hq
  | setPpduSts band en => exact fun band q hq => Or.inl hq

/-! ### Every event -/

theorem Inv.step (h : r.Inv) (e : PstsEvent) : (r.step e).Inv ∧ (r.InOrder → ((r.step e).InOrder ↔ ¬ r.Overtaking e)) := by
  by_cases he : ∃ pkt, e = .wifi pkt
  · obtain ⟨pkt, rfl⟩ := he
    obtain ⟨hinv, hiff⟩ := h.wifi pkt
    refine ⟨hinv, fun ho => (hiff ho).trans (not_congr ⟨fun hover => ⟨pkt, rfl, hover⟩, ?_⟩)⟩
    rintro ⟨pkt', he, hover⟩
    cases he
    exact hover
  · obtain ⟨hr, hq, hk⟩ := h.step_kept fun pkt hpkt => he ⟨pkt, hpkt⟩
    have heq : r.step e = { r with info := (r.step e).info } := congrArg (PstsRun.mk _) hr
    rw [heq]
    refine ⟨h.kept hq hk, fun ho => iff_of_true (fun band => ?_) fun ⟨pkt, hpkt, _⟩ => he ⟨pkt, hpkt⟩⟩
    exact (line_kept (hk band)).trans (ho band)

theorem Inv.delivered (h : r.Inv) (hnum : (r.received.map (·.1.id)).Nodup) : r.Delivered where
  distinct := fun _ => hnum.sublist (List.filter_sublist.map _)
  once := h.once
  same := h.same
  one := h.queue.one
  waited := h.waited
  direct := h.direct

theorem numbers_step (e : PstsEvent) (hnum : r.received.map (·.1.id) = List.range r.received.length) :
    (r.step e).received.map (·.1.id) = List.range (r.step e).received.length := by
  cases e with
  | wifi pkt =>
    show (r.received ++ [_]).map _ = List.range (r.received ++ [_]).length
    rw [List.map_append, hnum, List.length_append, List.length_singleton, List.range_succ]; rfl
  | _ => exact hnum

theorem run_inv (cfg : PstsInfo) (es : List PstsEvent) :
    (run cfg es).Inv ∧ (run cfg es).received.map (·.1.id) = List.range (run cfg es).received.length := by
  have hlegal : Legal PstsRun.step (fun _ _ => True) (start cfg) es := legal_of_forall (fun _ _ => trivial) (start cfg) es
  have hreach := hlegal.reach
  exact hreach.invariant (I := fun r => r.Inv ∧ r.received.map (·.1.id) = List.range r.received.length) ⟨start_inv cfg, rfl⟩
    fun r e h _ => ⟨(h.1.step e).1, numbers_step e h.2⟩

/-- Every packet is indicated once or waits, and only a report that matches changes a status; the order of each band is kept in all
states of a run exactly when no packet of the run overtakes those that wait. -/
theorem delivered_runs (cfg : PstsInfo) (es : List PstsEvent) :
    (run cfg es).Delivered ∧ (∀ e, (run cfg es).StatusRight e) ∧
      ((∀ pre, pre <+: es → (run cfg pre).InOrder) ↔ ∀ pre e, pre ++ [e] <+: es → ¬ (run cfg pre).Overtaking e) := by
  obtain ⟨hinv, hnum⟩ := run_inv cfg es
  refine ⟨hinv.delivered (hnum ▸ List.nodup_range), hinv.statusRight, ?_⟩
  exact Legal.always_iff (J := fun r => r.Inv ∧ r.InOrder) ⟨start_inv cfg, start_inOrder cfg⟩ (fun r h => h.2)
    (fun r e h _ hnot => ⟨(h.1.step e).1, ((h.1.step e).2 h.2).mpr hnot⟩)
    (fun r e h _ hbad ho => ((h.1.step e).2 h.2).mp ho hbad) (legal_of_forall (fun _ _ => trivial) (start cfg) es)

/-! ### A run out of order -/

def noPhyInfo : PhyInfo where
  isValid := false
  isPktWithData := true
  rssi := 0
  rssiPath := Vector.replicate 4 0
  txBf := 0
  frameType := 0
  snrFdAvg := 0
  snrFd := Vector.replicate 4 0
  snrTdAvg := 0
  snrTd := Vector.replicate 4 0
  isDrvinfoVld := false
  signalStrength := 0
  chIdx := 0
  rxsc := 0

/-- A packet of a PPDU and a frame type, all with the same rate; all PPDUs have the same counter. -/
def plainPkt (ppdu : ℕ) (frameType : UInt8) (phyInfo : PhyInfo) : StsPkt where
  id := 0
  ppdu := ppdu
  mdata :=
    { ppduCnt := 1, bbSel := 0, longRxd := 1, frameType := frameType, rxRate := 0, bw := 0, rxGiLtf := 0, ppduType := 0 }
  hdrType := 0
  phyInfo := phyInfo

/-- The defaults of `_phl_com_init_ppdu_sts`: management, control and extension frames wait. -/
def initPpduSts : PstsInfo where
  enPstsPerPkt := true
  enPpduSts := fun _ => true
  pstsAmpdu := false
  ppduStsFilter := 0b1011
  enFakePsts := false
  curPpduCnt := fun _ => 0
  frames := fun _ _ => []
  indicated := []

/-- A data packet overtakes a management packet that waits for its status, and this one then gets the status of a PPDU eight later,
as the reports and the packets between are lost. -/
theorem data_overtakes :
    ¬ (run initPpduSts [.wifi (plainPkt 1 0 noPhyInfo), .wifi (plainPkt 1 2 noPhyInfo)]).InOrder ∧
      ((run initPpduSts [.wifi (plainPkt 1 0 noPhyInfo), .ppduStatus ⟨fun _ => 0, fun _ => 0⟩
        (plainPkt 9 0 { noPhyInfo with isValid := true, rssi := 70 })]).info.indicated.map fun q => (q.ppdu, q.phyInfo.rssi)) =
        [(1, 70)] := by
  constructor
  · intro ho; exact absurd (ho .band0) (by decide)
  · decide

end PstsRun

end Rtl8852cu.Rx
