import Rtl8852cu.Rx.Drain

/-!
# Runs that hand up what is ready

`Drained` with the reorder timer of the station as part of the state, and the exact condition on the operations of a run under which
it holds in all its states (`drained_iff`).
-/

namespace Rtl8852cu.Rx

open Lib Lib.Serial

/-- A session, and whether `reorder_timer` runs. -/
structure DrainSt where
  r : TidAmpduRx
  armed : Bool

/-- An operation on the session, or the expiry of the timer. -/
inductive DrainOp
  | op (o : ReorderOp)
  | expired (now : ℕ)

/-- The sequence number an operation carries is 12 bits wide. -/
def DrainOp.SeqOk : DrainOp → Prop
  | .op o => o.SeqOk
  | .expired _ => True

def drainStep (st : DrainSt) : DrainOp → DrainSt
  | .op o => ⟨(o.run st.r).r, st.armed || (o.run st.r).timerSet⟩
  | .expired now => ⟨(phlReorderRelease now (.start st.r)).r, (phlReorderRelease now (.start st.r)).timerSet⟩

/-- No frame that is next in order is left waiting, and the timer runs while frames are stored. -/
def Drained (st : DrainSt) : Prop := headSlot st.r = none ∧ (st.r.storedMpduNum ≠ 0 → st.armed = true)

/-- The operations that move the head to the slot of a stored frame and leave it there: a BAR to it, and a frame that wakes the
session up at an occupied slot. -/
def LeavesReady (r : TidAmpduRx) : DrainOp → Prop
  | .op (.bar seq) => seqSub seq r.headSeqNum < r.bufSize ∧ r.reorderBuf (reorderIndex r seq) ≠ none
  | .op (.mpdu pkt _) =>
    r.sleep = true ∧ (r.started = true ∨ ¬ seqLess pkt.mdata.seq r.headSeqNum) ∧ r.reorderBuf (reorderIndex r pkt.mdata.seq) ≠ none
  | .op (.release _) | .op .sleep | .expired _ => False

/-- What an operation that leaves nothing ready does to the session: the timer is set unless frames were stored before. -/
structure Drains (stored : ℕ) (s' : RxSt) : Prop where
  ring : RingOk s'.r
  head : headSlot s'.r = none
  timer : s'.r.storedMpduNum ≠ 0 → s'.timerSet = true ∨ stored ≠ 0

/-! ### A received MPDU -/

variable {s : RxSt} {r : TidAmpduRx} {pkt : RxPkt}

theorem placeMpdu_drains (now : ℕ) (h : RingOk s.r)
    (hfree : headSlot s.r = none ∨ s.r.reorderBuf (reorderIndex s.r pkt.mdata.seq) = none) :
    Drains s.r.storedMpduNum (passUp pkt (placeMpdu now pkt s)) := by
  unfold placeMpdu
  simp only
  split
  case isTrue hs =>
    have hhead := hfree.resolve_right fun hnone => by
      rw [hnone] at hs; exact Bool.false_ne_true hs
    exact ⟨h.congr rfl rfl rfl rfl h.head, hhead, fun hne => Or.inr hne⟩
  case isFalse hs =>
    have hnone : s.r.reorderBuf (reorderIndex s.r pkt.mdata.seq) = none := Option.not_isSome_iff_eq_none.mp hs
    split
    case isTrue hd =>
      have hinc : seqInc s.r.headSeqNum < seqModulo := Nat.mod_lt _ (by decide)
      exact ⟨h.congr rfl rfl rfl rfl hinc, h.empty hd.2 _, fun hne => absurd hd.2 hne⟩
    case isFalse =>
      obtain ⟨hE, htimer⟩ := phlReorderRelease_emptied now (h.store (Nat.mod_lt _ h.pos) hnone pkt now)
      exact ⟨hE.ring, hE.head, fun hne => Or.inl (htimer hne)⟩

theorem makeRoom_frees (h : RingOk s.r) (hhead : headSlot s.r = none) (hseq : pkt.mdata.seq < seqModulo)
    (hold : ¬ seqLess pkt.mdata.seq s.r.headSeqNum) :
    RingOk (makeRoom pkt s).r ∧ (makeRoom pkt s = s ∨
      (makeRoom pkt s).r.reorderBuf (reorderIndex (makeRoom pkt s).r pkt.mdata.seq) = none) := by
  -- the position of the frame
  have hp : pkt.mdata.seq = (s.r.headSeqNum + seqSub pkt.mdata.seq s.r.headSeqNum) % seqModulo := by
    have hadd := add_dist (M := seqModulo) (by decide) pkt.mdata.seq s.r.headSeqNum
    rw [Nat.mod_eq_of_lt hseq] at hadd; exact hadd.symm
  have hle : seqSub pkt.mdata.seq s.r.headSeqNum ≤ seqModulo / 2 := not_lt.mp hold
  set H := s.r.headSeqNum with hH
  set p := H + seqSub pkt.mdata.seq H with hpdef
  have hHmod : s.r.headSeqNum = H % seqModulo := (Nat.mod_eq_of_lt h.head).symm
  have hlt := h.lt
  have hpos := h.pos
  have hend := seqLess_end (p := p) hHmod h.lt (Nat.le_add_right _ _) (by omega)
  unfold makeRoom
  rw [hp]
  split
  case isFalse => exact ⟨h, Or.inl rfl⟩
  case isTrue hout =>
    rw [hend] at hout
    have hT : seqInc (seqSub (p % seqModulo) s.r.bufSize) = (p + 1 - s.r.bufSize) % seqModulo := seqInc_seqSub (by omega) h.lt
    rw [hT]
    by_cases h0 : s.r.storedMpduNum = 0
    · have heq : phlReleaseReorderFrames ((p + 1 - s.r.bufSize) % seqModulo) s = s.setHead ((p + 1 - s.r.bufSize) % seqModulo) := by
        unfold phlReleaseReorderFrames releaseUpTo
        rw [if_neg fun hc => hc.2 h0]
      rw [heq]; exact ⟨h.setHead (Nat.mod_lt _ (by decide)), Or.inr (h.empty h0 _)⟩
    · -- more than one slot, as one slot is that of the head
      have hsize : s.r.bufSize ≠ 1 := by
        intro h1
        refine h0 (h.stored.trans (filled_eq_zero.mpr fun i hi => ?_))
        have hi0 : reorderIndex s.r s.r.headSeqNum = i := by
          unfold reorderIndex
          rw [h1, Nat.mod_one]; omega
        rw [← hi0]; exact hhead
      have hpass := phlReleaseReorderFrames_passed (T := p + 1 - s.r.bufSize) h (by omega) (by omega)
      refine ⟨hpass.ring, Or.inr ?_⟩
      have hslot : reorderIndex (phlReleaseReorderFrames ((p + 1 - s.r.bufSize) % seqModulo) s).r (p % seqModulo) =
          (p - s.r.bufSize) % s.r.bufSize := by
        rw [hpass.ring.slot, hpass.size, ← Nat.mod_eq_sub_mod (by omega)]
      rw [hslot]; exact hpass.clear _ (by omega) (by omega)

theorem acceptMpdu_drains (now : ℕ) (h : RingOk s.r) (hhead : headSlot s.r = none) (hseq : pkt.mdata.seq < seqModulo) :
    Drains s.r.storedMpduNum (passUp pkt (acceptMpdu now pkt s)) := by
  unfold acceptMpdu
  split
  case isTrue => exact ⟨h.congr rfl rfl rfl rfl h.head, hhead, fun hne => Or.inr hne⟩
  case isFalse hold =>
    obtain ⟨hring, hfree⟩ := makeRoom_frees h hhead hseq hold
    have hstored := (makeRoom_releases pkt h.pos).stored_le
    have hfree' : headSlot (makeRoom pkt s).r = none ∨
        (makeRoom pkt s).r.reorderBuf (reorderIndex (makeRoom pkt s).r pkt.mdata.seq) = none :=
      hfree.imp_left fun he => by rw [he]; exact hhead
    have hd := placeMpdu_drains now hring hfree'
    exact ⟨hd.ring, hd.head, fun hne => (hd.timer hne).imp_right (by omega)⟩

theorem acceptMpdu_wakes (now : ℕ) (h : RingOk s.r) (hseq : pkt.mdata.seq < seqModulo) (hsleep : s.r.sleep = true) :
    (s.r.reorderBuf (reorderIndex s.r pkt.mdata.seq) = none → Drains s.r.storedMpduNum (passUp pkt (acceptMpdu now pkt (wakeUp pkt s)))) ∧
      (s.r.reorderBuf (reorderIndex s.r pkt.mdata.seq) ≠ none →
        headSlot (passUp pkt (acceptMpdu now pkt (wakeUp pkt s))).r ≠ none) := by
  set s₁ : RxSt := { s with r := { s.r with headSeqNum := pkt.mdata.seq, sleep := false } } with hs₁
  have hwake : wakeUp pkt s = s₁ := if_pos hsleep
  have hring : RingOk s₁.r := h.congr rfl rfl rfl rfl hseq
  have hend := seqLess_end (r := s₁.r) (p := pkt.mdata.seq) (Nat.mod_eq_of_lt hseq).symm h.lt le_rfl (Nat.le_add_right _ _)
  rw [Nat.mod_eq_of_lt hseq] at hend
  have hnot : ¬ seqLess pkt.mdata.seq s₁.r.headSeqNum := by
    show ¬ seqLess pkt.mdata.seq pkt.mdata.seq
    unfold seqLess seqSub
    rw [Serial.dist_self (by decide)]; exact Nat.not_lt_zero _
  have hplace : acceptMpdu now pkt (wakeUp pkt s) = placeMpdu now pkt s₁ := by
    have hroom : makeRoom pkt s₁ = s₁ := if_neg (not_not.mpr (hend.mpr (Nat.lt_add_of_pos_right h.pos)))
    unfold acceptMpdu
    rw [hwake, if_neg hnot, hroom]
  rw [hplace]
  refine ⟨fun hnone => ?_, fun hsome => ?_⟩
  · have hd := placeMpdu_drains now hring (Or.inr hnone); exact ⟨hd.ring, hd.head, hd.timer⟩
  · have hdup : placeMpdu now pkt s₁ = (s₁.recycle pkt, true) := if_pos (Option.ne_none_iff_isSome.mp hsome)
    rw [hdup]; exact hsome

/-! ### A BAR -/

theorem phlReleaseReorderFrames_head {seq : ℕ} (h : RingOk r) (hhead : headSlot r = none) (hseq : seq < seqModulo)
    (hold : ¬ seqLess seq r.headSeqNum) :
    RingOk (phlReleaseReorderFrames seq (.start r)).r ∧
      (headSlot (phlReleaseReorderFrames seq (.start r)).r = none ↔ ¬ LeavesReady r (.op (.bar seq))) := by
  have hp : seq = (r.headSeqNum + seqSub seq r.headSeqNum) % seqModulo := by
    have hadd := add_dist (M := seqModulo) (by decide) seq r.headSeqNum
    rw [Nat.mod_eq_of_lt hseq] at hadd; exact hadd.symm
  have hle : seqSub seq r.headSeqNum ≤ seqModulo / 2 := not_lt.mp hold
  have hslot : reorderIndex r seq = (r.headSeqNum + seqSub seq r.headSeqNum) % r.bufSize := by
    conv_lhs => rw [hp]
    exact h.slot _
  have hlt := h.lt
  have hpos := h.pos
  by_cases hhalf : seqSub seq r.headSeqNum = seqModulo / 2
  · -- half the numbers ahead: nothing is released, and the slot is that of the old head
    have heq : phlReleaseReorderFrames seq (.start r) = (RxSt.start r).setHead seq := by
      have hless : ¬ seqLess r.headSeqNum seq := by
        rw [← Nat.mod_eq_of_lt h.head, hp, seqLess_head (Nat.le_add_right _ _) (by rw [hhalf]; unfold seqModulo; omega)]
        omega
      unfold phlReleaseReorderFrames
      show (releaseUpTo seq (4095 + 1) _).setHead seq = _
      unfold releaseUpTo
      rw [if_neg fun hc => hless hc.1]
    rw [heq]
    refine ⟨(show RingOk (RxSt.start r).r from h).setHead hseq, iff_of_true ?_ fun hbad => ?_⟩
    · have hsame : reorderIndex r seq = reorderIndex r r.headSeqNum := by
        rw [hslot, hhalf]
        obtain ⟨c, hc⟩ := h.dvd
        unfold reorderIndex
        rw [hc, Nat.add_mul_mod_self_left]
      show r.reorderBuf (reorderIndex r seq) = none
      rw [hsame]; exact hhead
    · have hnear := hbad.1
      rw [hhalf] at hnear; exact absurd hnear (by unfold seqModulo; omega)
  · have hpass := phlReleaseReorderFrames_passed (s := .start r) (T := r.headSeqNum + seqSub seq r.headSeqNum) h
      (Nat.le_add_right _ _) (by show _ < r.headSeqNum + seqModulo / 2; omega)
    rw [← hp] at hpass
    refine ⟨hpass.ring, ?_⟩
    have hnew : headSlot (phlReleaseReorderFrames seq (.start r)).r =
        (phlReleaseReorderFrames seq (.start r)).r.reorderBuf (reorderIndex r seq) := by
      unfold headSlot reorderIndex
      rw [hpass.size]; rfl
    rw [hnew]
    by_cases hfar : r.bufSize ≤ seqSub seq r.headSeqNum
    · refine iff_of_true ?_ fun hbad => absurd hbad.1 (Nat.not_lt.mpr hfar)
      have hclear := hpass.clear (r.headSeqNum + seqSub seq r.headSeqNum - r.bufSize)
        (by show r.headSeqNum ≤ _; omega) (by omega)
      rw [hslot, Nat.mod_eq_sub_mod (by omega)]; exact hclear
    · rw [hpass.keep (reorderIndex r seq) fun q h1 h2 hq => ?_]
      · show r.reorderBuf _ = none ↔ ¬ (_ ∧ r.reorderBuf _ ≠ none)
        rw [not_and, not_not]; exact ⟨fun hnone _ => hnone, fun himp => himp (Nat.not_le.mp hfar)⟩
      · have h1 : r.headSeqNum ≤ q := h1
        have hq : q % r.bufSize = reorderIndex r seq := hq
        have := eq_of_mod_eq (hq.trans hslot) (by omega) (by omega)
        omega

/-! ### The operations -/

theorem run_drains {op : ReorderOp} (h : RingOk r) (hhead : headSlot r = none) (hseq : op.SeqOk) :
    (¬ LeavesReady r (.op op) → Drains r.storedMpduNum (op.run r)) ∧ (LeavesReady r (.op op) → headSlot (op.run r).r ≠ none) := by
  cases op with
  | mpdu pkt now =>
    have h₁ : RingOk (setStarted (.start r)).r := h.congr rfl rfl rfl rfl h.head
    unfold ReorderOp.run phlManageStaReorderBuf
    simp only
    by_cases hnew : ¬ r.started = true ∧ seqLess pkt.mdata.seq r.headSeqNum
    · rw [if_pos (show ¬ (RxSt.start r).r.started = true ∧ seqLess pkt.mdata.seq (RxSt.start r).r.headSeqNum from hnew)]
      exact ⟨fun _ => ⟨h, hhead, fun hne => Or.inr hne⟩, fun hbad => absurd hbad.2.1 fun hor => hor.elim hnew.1 fun hn => hn hnew.2⟩
    · rw [if_neg (show ¬ (¬ (RxSt.start r).r.started = true ∧ seqLess pkt.mdata.seq (RxSt.start r).r.headSeqNum) from hnew)]
      by_cases hsleep : r.sleep = true
      · obtain ⟨hgood, hbad⟩ := acceptMpdu_wakes now h₁ hseq hsleep
        refine ⟨fun hnot => hgood ?_, fun hl => hbad hl.2.2⟩
        have hon : r.started = true ∨ ¬ seqLess pkt.mdata.seq r.headSeqNum := by
          by_cases hstarted : r.started = true
          · exact Or.inl hstarted
          · exact Or.inr fun hless => hnew ⟨hstarted, hless⟩
        exact of_not_not fun hsome => hnot ⟨hsleep, hon, hsome⟩
      · have hawake : wakeUp pkt (setStarted (.start r)) = setStarted (.start r) := if_neg hsleep
        rw [hawake]
        exact ⟨fun _ => acceptMpdu_drains now h₁ hhead hseq, fun hl => absurd hl.1 hsleep⟩
  | bar seq =>
    have hlt := h.lt
    unfold ReorderOp.run rtwPhlRxBar
    simp only
    split
    case isTrue hless =>
      refine ⟨fun _ => ⟨h, hhead, fun hne => Or.inr hne⟩, fun hbad => ?_⟩
      have hless : seqModulo / 2 < seqSub seq r.headSeqNum := hless
      have hnear := hbad.1
      exact absurd hnear (by unfold seqModulo at *; omega)
    case isFalse hold =>
      obtain ⟨hring, hiff⟩ := phlReleaseReorderFrames_head h hhead hseq hold
      have hstored : _ ≤ r.storedMpduNum := (phlReleaseReorderFrames_releases seq (s := .start r) h.pos).stored_le
      exact ⟨fun hnot => ⟨hring, hiff.mpr hnot, fun hne => Or.inr (by omega)⟩, fun hbad hnone => hiff.mp hnone hbad⟩
  | release now =>
    obtain ⟨hE, htimer⟩ := phlReorderRelease_emptied now (s := .start r) h
    exact ⟨fun _ => ⟨hE.ring, hE.head, fun hne => Or.inl (htimer hne)⟩, fun hbad => hbad.elim⟩
  | sleep => exact ⟨fun _ => ⟨h.congr rfl rfl rfl rfl h.head, hhead, fun hne => Or.inr hne⟩, fun hbad => hbad.elim⟩

/-! ### Runs -/

/-- What holds between operations that leave nothing ready. -/
def DrainInv (st : DrainSt) : Prop := RingOk st.r ∧ Drained st

theorem drainStep_inv {st : DrainSt} {op : DrainOp} (h : DrainInv st) (hseq : op.SeqOk) :
    (¬ LeavesReady st.r op → DrainInv (drainStep st op)) ∧ (LeavesReady st.r op → ¬ Drained (drainStep st op)) := by
  obtain ⟨hring, hhead, harmed⟩ := h
  cases op with
  | op o =>
    obtain ⟨hgood, hbad⟩ := run_drains hring hhead hseq
    refine ⟨fun hnot => ?_, fun hl hd => hbad hl hd.1⟩
    have hd := hgood hnot
    refine ⟨hd.ring, hd.head, fun hne => ?_⟩
    show (st.armed || (o.run st.r).timerSet) = true
    rw [Bool.or_eq_true]; exact (hd.timer hne).symm.imp_left harmed
  | expired now =>
    obtain ⟨hE, htimer⟩ := phlReorderRelease_emptied now (s := .start st.r) hring
    exact ⟨fun _ => ⟨hE.ring, hE.head, htimer⟩, fun hbad => hbad.elim⟩

theorem phlTidAmpduRxAlloc_ringOk {ssn tid n k : ℕ} (hssn : ssn < seqModulo) (hn : n < 1024) (hk : applyBufSize n = 2 ^ k) :
    RingOk (phlTidAmpduRxAlloc ssn tid (applyBufSize n)) := by
  have hw : WindowAt (phlTidAmpduRxAlloc ssn tid (applyBufSize n)) ssn := phlTidAmpduRxAlloc_window hssn hn
  refine ⟨hw.pos, hw.lt, ?_, hssn, fun _ _ => rfl, hw.stored, rfl⟩
  have hlt : applyBufSize n < 1024 := hw.lt
  show applyBufSize n ∣ seqModulo / 2
  rw [hk] at hlt ⊢
  have hk11 : k ≤ 11 := by
    by_contra hgt
    have h11 : (2 : ℕ) ^ 11 ≤ 2 ^ k := Nat.pow_le_pow_right (by decide) (by omega)
    omega
  exact Nat.pow_dvd_pow 2 hk11

/-- In all states of a run no frame that is next in order is left waiting and the timer runs while frames are stored, exactly when no
operation of the run moves the head to the slot of a stored frame and leaves it there. -/
theorem drained_iff {ssn tid n k : ℕ} (hssn : ssn < seqModulo) (hn : n < 1024) (hk : applyBufSize n = 2 ^ k) (armed : Bool)
    {ops : List DrainOp} (hseq : ∀ op ∈ ops, op.SeqOk) :
    (∀ pre, pre <+: ops → Drained (pre.foldl drainStep ⟨phlTidAmpduRxAlloc ssn tid (applyBufSize n), armed⟩)) ↔
      ∀ pre op, pre ++ [op] <+: ops →
        ¬ LeavesReady (pre.foldl drainStep ⟨phlTidAmpduRxAlloc ssn tid (applyBufSize n), armed⟩).r op := by
  have hring : RingOk (phlTidAmpduRxAlloc ssn tid (applyBufSize n)) := phlTidAmpduRxAlloc_ringOk hssn hn hk
  have hstart : DrainInv ⟨phlTidAmpduRxAlloc ssn tid (applyBufSize n), armed⟩ := ⟨hring, rfl, fun hne => absurd rfl hne⟩
  refine Legal.always_iff (J := DrainInv) (B := fun st op => LeavesReady st.r op) hstart (fun _ h => h.2)
    (fun st op h hok => (drainStep_inv h hok).1)
    (fun st op h hok => (drainStep_inv h hok).2) ?_
  clear hring hstart
  generalize DrainSt.mk (phlTidAmpduRxAlloc ssn tid (applyBufSize n)) armed = st
  induction ops generalizing st with
  | nil => trivial
  | cons op ops ih => exact ⟨hseq op List.mem_cons_self, ih (fun op' hmem => hseq op' (List.mem_cons_of_mem op hmem)) _⟩

/-- The operations of a run in which a frame waits for its time. -/
def timedOutRun : List DrainOp := [.op (.mpdu (plainMpdu 1 5) 0), .expired 600]

theorem drained_timedOutRun :
    (∀ pre, pre <+: timedOutRun → Drained (pre.foldl drainStep ⟨phlTidAmpduRxAlloc 0 0 (applyBufSize 64), false⟩)) ↔
      ∀ pre op, pre ++ [op] <+: timedOutRun →
        ¬ LeavesReady (pre.foldl drainStep ⟨phlTidAmpduRxAlloc 0 0 (applyBufSize 64), false⟩).r op := by
  refine drained_iff (k := 6) (by decide) (by decide) (by decide) false fun op hop => ?_
  rcases List.mem_cons.mp hop with rfl | hop
  · show 5 < seqModulo; decide
  · rw [List.mem_singleton.mp hop]; trivial

/-- A BAR for a frame that is stored makes it the head, and hands up neither it nor those after it; and a frame that wakes the session up
is dropped for one of an earlier lap, which is then the head. -/
theorem bar_leaves_ready : ¬ Drained ([.op (.mpdu (plainMpdu 1 5) 0), .op (.bar 5)].foldl drainStep
        ⟨phlTidAmpduRxAlloc 0 0 (applyBufSize 64), false⟩) ∧
      ¬ Drained ([.op (.mpdu (plainMpdu 1 5) 0), .op .sleep, .op (.mpdu (plainMpdu 2 69) 0)].foldl drainStep
        ⟨phlTidAmpduRxAlloc 0 0 (applyBufSize 64), false⟩) := by
  constructor
  · exact fun h => absurd (congrArg Option.isSome h.1) (by decide)
  · exact fun h => absurd (congrArg Option.isSome h.1) (by decide)

end Rtl8852cu.Rx
