import Rtl8852cu.Rx.Release
import Rtl8852cu.Rx.Window

/-!
# Runs of a reorder session

A session is created with the buffer size of the ADDBA request and then runs any operations in any
order (`sessionStep`).  The specification of each operation follows those of its parts in `Window`;
`session_window` is the window property of every state reached by operations that meet
`StaysInWindow`, and `not_session_window` shows a run of each kind that this condition rules out.
-/

namespace Rtl8852cu.Rx

open Lib Lib.Serial

/-! ### A received MPDU -/

/-- A ring of one slot stores nothing: the frame of the window is always the next in order. -/
def OneSlotEmpty (r : TidAmpduRx) : Prop := r.bufSize = 1 → r.storedMpduNum = 0

variable {s : RxSt} {H p : ℕ} {pkt : RxPkt}

theorem ScanAt.store (now : ℕ) (h : WindowAt s.r H) (h1 : H ≤ p)
    (h2 : p < H + s.r.bufSize) (hlap : SameLap s.r H p) (hseq : pkt.mdata.seq = p % seqModulo)
    (hnone : s.r.reorderBuf (p % seqModulo % s.r.bufSize) = none) :
    WindowAt (s.store (p % seqModulo % s.r.bufSize) pkt now).r H := by
  refine ⟨h.pos, h.lt, h.head, le_rfl, le_rfl, fun i q hi => ?_, ?_⟩
  · by_cases hip : i = p % seqModulo % s.r.bufSize
    · subst hip
      simp only [RxSt.store, Function.update_self, Option.some.injEq] at hi
      subst hi; exact ⟨p, h1, h2, hlap, hseq, rfl⟩
    · simp only [RxSt.store, Function.update_of_ne hip] at hi; exact h.slots i q hi
  · have := filled_store (r := s.r) (q := (s.store (p % seqModulo % s.r.bufSize) pkt now).r) rfl
      (Nat.mod_lt _ h.pos) hnone rfl
    rw [this, ← h.stored]; rfl

theorem placeMpdu_spec (now : ℕ) (h : WindowAt s.r H)
    (hone : OneSlotEmpty s.r) (h1 : H ≤ p) (h2 : p < H + s.r.bufSize) (hlap : SameLap s.r H p)
    (hseq : pkt.mdata.seq = p % seqModulo) :
    ∃ H' ≤ H + s.r.bufSize, WindowAt (passUp pkt (placeMpdu now pkt s)).r H' ∧
      Moved s (passUp pkt (placeMpdu now pkt s)) H H' ∧
      OneSlotEmpty (passUp pkt (placeMpdu now pkt s)).r := by
  have hpos := h.pos
  have hlt := h.lt
  simp only [placeMpdu, reorderIndex, hseq]
  split_ifs with hs hd
  · -- a duplicate: the session is left alone
    exact ⟨H, by omega, h, (Moved.refl s H).recycle pkt, hone⟩
  · obtain ⟨hhead, h0⟩ := hd
    obtain rfl : p = H := by
      rw [h.head] at hhead
      exact eq_of_mod_eq hhead (by unfold seqModulo; omega) (by unfold seqModulo; omega)
    refine ⟨p + 1, by omega, ⟨h.pos, h.lt, ?_, le_rfl, le_rfl, ?_, h.stored⟩,
      ⟨by omega, rfl, rfl, rfl, [pkt], rfl, .single hseq le_rfl (Nat.lt_succ_self _)⟩, hone⟩
    · simp only [passUp, RxSt.setHead, seqInc, h.head, Bool.false_eq_true, if_false]
      rw [Nat.mod_add_mod]
    · intro i q hi
      rw [show (passUp pkt (s.setHead (seqInc s.r.headSeqNum), false)).r.reorderBuf i = none from
        h.empty_slots h0 i] at hi
      cases hi
  · have hnone : s.r.reorderBuf (p % seqModulo % s.r.bufSize) = none := by
      rw [← Option.not_isSome_iff_eq_none]; exact hs
    have hst := ScanAt.store now h h1 h2 hlap hseq hnone
    obtain ⟨H', hle, hw, hm⟩ := phlReorderRelease_spec now hst
    refine ⟨H', hle, hw, ⟨hm.le, hm.size, hm.started, hm.sleep, hm.frames⟩, fun hb => ?_⟩
    -- with one slot the frame is the next in order, which is passed through
    have hb' : s.r.bufSize = 1 := hm.size.symm.trans hb
    exact absurd ⟨by rw [h.head]; congr 1; omega, hone hb'⟩ hd

/-- The frame does not have to wait across the step of the sequence numbers from 4095 to 0. -/
def BeforeSeam (r : TidAmpduRx) (seq : ℕ) : Prop :=
  r.bufSize ∣ seqModulo ∨ (seqLess seq (r.headSeqNum + r.bufSize) ∧ r.headSeqNum ≤ seq) ∨
      (¬ seqLess seq (r.headSeqNum + r.bufSize) ∧ r.bufSize ≤ seq + 1)

variable {r : TidAmpduRx}

theorem seqLess_end (hhead : r.headSeqNum = H % seqModulo) (hlt : r.bufSize < 1024)
    (h1 : H ≤ p) (h2 : p ≤ H + seqModulo / 2) :
    seqLess (p % seqModulo) (r.headSeqNum + r.bufSize) ↔ p < H + r.bufSize := by
  have hb : Serial.dist seqModulo (p % seqModulo) (r.headSeqNum + r.bufSize) =
      Serial.dist seqModulo (p % seqModulo) ((H + r.bufSize) % seqModulo) := by
    unfold Serial.dist
    rw [hhead, Nat.mod_add_mod, Nat.mod_mod]
  unfold seqLess seqSub
  rw [hb]
  rcases Nat.lt_or_ge p (H + r.bufSize) with hp | hp
  · have hp' : p % seqModulo = (p + seqModulo) % seqModulo := (Nat.add_mod_right _ _).symm
    rw [hp', dist_mod (by unfold seqModulo; omega) (by omega)]
    unfold seqModulo; omega
  · rw [dist_mod hp (by unfold seqModulo at *; omega)]
    unfold seqModulo at *; omega

theorem div_eq_of_mod_le {M : ℕ} (hM : 0 < M) (h1 : H ≤ p) (h2 : p < H + M) (h : H % M ≤ p % M) : p / M = H / M := by
  have e1 := Nat.div_add_mod H M
  have e2 := Nat.div_add_mod p M
  have e3 := Nat.mod_lt p hM
  have e4 := Nat.div_le_div_right (c := M) h1
  by_contra hne
  have h6 : H / M + 1 ≤ p / M := by omega
  have h7 := Nat.mul_le_mul_left M h6
  rw [Nat.mul_succ] at h7; omega

theorem seqInc_seqSub {n : ℕ} (hle : n ≤ p) (hn : n < 1024) :
    seqInc (seqSub (p % seqModulo) n) = (p + 1 - n) % seqModulo := by
  have hb : n % seqModulo = n := Nat.mod_eq_of_lt (by unfold seqModulo; omega)
  have hd := mod_add_dist (M := seqModulo) (by decide) (p % seqModulo) n
  rw [hb, Nat.mod_mod] at hd
  unfold seqInc seqSub
  -- the distance is `p - n` up to laps
  have he : (Serial.dist seqModulo (p % seqModulo) n + n) % seqModulo = (p - n + n) % seqModulo := by
    rw [Nat.add_comm, hd]; congr 1; omega
  have hcancel := Nat.ModEq.add_right_cancel' (n := seqModulo) n he
  rw [show p + 1 - n = p - n + 1 by omega]; exact Nat.ModEq.add_right 1 hcancel

theorem makeRoom_spec (h : WindowAt s.r H) (hone : OneSlotEmpty s.r) (h1 : H ≤ p) (h2 : p ≤ H + seqModulo / 2)
    (hseq : pkt.mdata.seq = p % seqModulo) (hseam : BeforeSeam s.r pkt.mdata.seq) :
    ∃ H', H' ≤ p ∧ p < H' + s.r.bufSize ∧ H' + s.r.bufSize ≤ max (p + 1) (H + s.r.bufSize) ∧
      WindowAt (makeRoom pkt s).r H' ∧ SameLap (makeRoom pkt s).r H' p ∧
      Moved s (makeRoom pkt s) H H' ∧ OneSlotEmpty (makeRoom pkt s).r := by
  have hpos := h.pos
  have hlt := h.lt
  unfold BeforeSeam at hseam
  rw [hseq, seqLess_end h.head h.lt h1 h2] at hseam
  simp only [makeRoom, hseq, seqLess_end h.head h.lt h1 h2]
  by_cases hin : p < H + s.r.bufSize
  · rw [if_neg (not_not.mpr hin)]
    refine ⟨H, h1, hin, by omega, h, ?_, .refl s H, hone⟩
    rw [h.head] at hseam
    rcases hseam with hd | ⟨-, hle⟩ | ⟨hout, -⟩
    · exact Or.inl hd
    · exact Or.inr (div_eq_of_mod_le (by decide) h1 (by unfold seqModulo; omega) hle)
    · exact absurd hin hout
  · rw [if_pos hin]
    have hseam : s.r.bufSize ∣ seqModulo ∨ s.r.bufSize ≤ p % seqModulo + 1 := by
      rcases hseam with hd | ⟨hin', -⟩ | ⟨-, hle⟩
      · exact Or.inl hd
      · exact absurd hin' hin
      · exact Or.inr hle
    have hT := seqInc_seqSub (p := p) (show s.r.bufSize ≤ p by omega) hlt
    rw [hT]
    have hhalf : p + 1 - s.r.bufSize < H + seqModulo / 2 ∨ s.r.storedMpduNum = 0 := by
      by_cases hb : s.r.bufSize = 1
      · exact Or.inr (hone hb)
      · exact Or.inl (by omega)
    obtain ⟨hw, hm⟩ := phlReleaseReorderFrames_spec (T := p + 1 - s.r.bufSize) h (by omega)
      (by omega) hhalf
    refine ⟨p + 1 - s.r.bufSize, by omega, by omega, by omega, hw, ?_, hm, fun hb => ?_⟩
    · rcases hseam with hd | hle
      · exact Or.inl (by rw [hm.size]; exact hd)
      · refine Or.inr (div_eq_of_mod_le (M := seqModulo) (by decide) (by omega)
          (by unfold seqModulo; omega) ?_)
        have e1 := Nat.div_add_mod p seqModulo
        have e2 : p + 1 - s.r.bufSize = seqModulo * (p / seqModulo) + (p % seqModulo + 1 - s.r.bufSize) := by omega
        rw [e2, Nat.mul_add_mod, Nat.mod_eq_of_lt (by have := Nat.mod_lt p (y := seqModulo) (by decide); omega)]
        omega
    · have := (phlReleaseReorderFrames_releases ((p + 1 - s.r.bufSize) % seqModulo) hpos).stored_le
      have := hone (hm.size.symm.trans hb)
      omega

theorem acceptMpdu_spec (now : ℕ) (h : WindowAt s.r H) (hone : OneSlotEmpty s.r) (hlt : pkt.mdata.seq < seqModulo)
    (hseam : ¬ seqLess pkt.mdata.seq s.r.headSeqNum → BeforeSeam s.r pkt.mdata.seq) :
    ∃ H' ≤ H + seqModulo / 2 + 1, WindowAt (passUp pkt (acceptMpdu now pkt s)).r H' ∧
      Moved s (passUp pkt (acceptMpdu now pkt s)) H H' ∧
      OneSlotEmpty (passUp pkt (acceptMpdu now pkt s)).r := by
  unfold acceptMpdu
  split_ifs with hold
  · exact ⟨H, by omega, h, (Moved.refl s H).recycle pkt, hone⟩
  · -- the position of the frame
    have hp : pkt.mdata.seq = (H + Serial.dist seqModulo pkt.mdata.seq (H % seqModulo)) % seqModulo := by
      rw [mod_add_dist (by decide), Nat.mod_eq_of_lt hlt]
    have hle : Serial.dist seqModulo pkt.mdata.seq (H % seqModulo) ≤ seqModulo / 2 := by
      rw [← h.head]; exact not_lt.mp hold
    obtain ⟨H₁, h1, h2, h3, hw, hlap, hm, hone₁⟩ :=
      makeRoom_spec h hone (Nat.le_add_right _ _) (by omega) hp (hseam hold)
    have hsize := hm.size
    obtain ⟨H', h4, hw', hm', hone'⟩ :=
      placeMpdu_spec now hw hone₁ h1 (by omega) hlap hp
    have := h.lt
    exact ⟨H', by unfold seqModulo at *; omega, hw', hm.trans hm', hone'⟩

/-! ### Waking up -/

/-- The window that begins at the first frame after a sleep holds everything that is stored. -/
def WakesInWindow (r : TidAmpduRx) (pkt : RxPkt) : Prop :=
  ∀ i q, r.reorderBuf i = some q → seqSub q.mdata.seq pkt.mdata.seq < r.bufSize ∧
    (r.bufSize ∣ seqModulo ∨ pkt.mdata.seq ≤ q.mdata.seq)

theorem wakeUp_spec (h : WindowAt s.r H)
    (hlt : pkt.mdata.seq < seqModulo) (hsleep : s.r.sleep) (hwake : WakesInWindow s.r pkt) :
    WindowAt (wakeUp pkt s).r pkt.mdata.seq := by
  unfold wakeUp
  rw [if_pos hsleep]
  refine ⟨h.pos, h.lt, (Nat.mod_eq_of_lt hlt).symm, le_rfl, le_rfl, fun i q hi => ?_, h.stored⟩
  obtain ⟨p, -, -, -, hseq, hslot⟩ := h.slots i q hi
  obtain ⟨hwin, hseam⟩ := hwake i q hi
  have hq : q.mdata.seq < seqModulo := by rw [hseq]; exact Nat.mod_lt _ (by decide)
  have hpos : (pkt.mdata.seq + seqSub q.mdata.seq pkt.mdata.seq) % seqModulo = q.mdata.seq := by
    rw [seqSub, add_dist (by decide), Nat.mod_eq_of_lt hq]
  refine ⟨pkt.mdata.seq + seqSub q.mdata.seq pkt.mdata.seq, by omega,
    Nat.add_lt_add_left hwin _, hseam.imp_right fun hle => ?_, hpos.symm, ?_⟩
  · have hpq : pkt.mdata.seq + seqSub q.mdata.seq pkt.mdata.seq < pkt.mdata.seq + seqModulo :=
      Nat.add_lt_add_left (dist_lt (by decide) _ _) _
    refine div_eq_of_mod_le (by decide) (by omega) hpq ?_
    rw [hpos, Nat.mod_eq_of_lt hlt]; exact hle
  · rw [hpos, hseq]; exact hslot

/-! ### BARs -/

theorem rtwPhlRxBar_spec {seq : ℕ} (h : WindowAt s.r H) (hone : OneSlotEmpty s.r)
    (hlt : seq < seqModulo) (hhalf : seqSub seq s.r.headSeqNum = seqModulo / 2 → s.r.storedMpduNum = 0) :
    ∃ H' ≤ H + seqModulo / 2, WindowAt (rtwPhlRxBar seq s).r H' ∧
      Moved s (rtwPhlRxBar seq s) H H' ∧ OneSlotEmpty (rtwPhlRxBar seq s).r := by
  unfold rtwPhlRxBar
  split_ifs with hold
  · exact ⟨H, by omega, h, .refl s H, hone⟩
  · have hle : seqSub seq s.r.headSeqNum ≤ seqModulo / 2 := not_lt.mp hold
    have hT : (H + seqSub seq s.r.headSeqNum) % seqModulo = seq := by
      rw [seqSub, h.head, mod_add_dist (by decide), Nat.mod_eq_of_lt hlt]
    have hspec := phlReleaseReorderFrames_spec (T := H + seqSub seq s.r.headSeqNum) h
      (Nat.le_add_right _ _) (by omega) (by
        by_cases he : seqSub seq s.r.headSeqNum = seqModulo / 2
        · exact Or.inr (hhalf he)
        · exact Or.inl (by omega))
    rw [hT] at hspec
    refine ⟨_, by omega, hspec.1, hspec.2, fun hb => ?_⟩
    have := (phlReleaseReorderFrames_releases seq h.pos).stored_le
    have := hone (hspec.2.size.symm.trans hb)
    omega

/-! ### Runs -/

/-- **The condition on an operation** under which it keeps the window. -/
def StaysInWindow (r : TidAmpduRx) : ReorderOp → Prop
  | .mpdu pkt _ => (r.sleep → WakesInWindow r pkt) ∧
      (¬ r.sleep → ¬ seqLess pkt.mdata.seq r.headSeqNum → BeforeSeam r pkt.mdata.seq)
  | .bar seq => seqSub seq r.headSeqNum = seqModulo / 2 → r.storedMpduNum = 0
  | .release _ | .sleep => True

def SessionInv (r : TidAmpduRx) : Prop := ∃ H, WindowAt r H ∧ OneSlotEmpty r

theorem phlTidAmpduRxAlloc_window {ssn tid n : ℕ} (hssn : ssn < seqModulo) (hn : n < 1024) :
    WindowAt (phlTidAmpduRxAlloc ssn tid (applyBufSize n)) ssn := by
  have hsize : 0 < applyBufSize n ∧ applyBufSize n < 1024 := by
    unfold applyBufSize phlMaxAggWsize
    split_ifs with h0
    · decide
    · omega
  refine ⟨hsize.1, hsize.2, (Nat.mod_eq_of_lt hssn).symm, le_rfl, le_rfl, fun i pkt hi => ?_,
    (filled_eq_zero.mpr fun _ _ => rfl).symm⟩
  cases hi

theorem phlManageStaReorderBuf_inv (now : ℕ) (h : SessionInv r)
    (hlt : pkt.mdata.seq < seqModulo) (hok : StaysInWindow r (.mpdu pkt now)) :
    SessionInv (passUp pkt (phlManageStaReorderBuf now pkt (.start r))).r := by
  obtain ⟨H, hw, hone⟩ := h
  obtain ⟨hwake, hseam⟩ := hok
  unfold phlManageStaReorderBuf
  split_ifs with hnew
  · exact ⟨H, hw, hone⟩
  · have hw₀ : WindowAt (setStarted (.start r)).r H := ⟨hw.pos, hw.lt, hw.head, hw.base, hw.le, hw.slots, hw.stored⟩
    by_cases hsleep : r.sleep
    · have hw₁ := wakeUp_spec hw₀ hlt hsleep (hwake hsleep)
      have hone₁ : OneSlotEmpty (wakeUp pkt (setStarted (.start r))).r := by
        unfold wakeUp; rw [if_pos (show (setStarted (.start r)).r.sleep from hsleep)]; exact hone
      have hhead : (wakeUp pkt (setStarted (.start r))).r.headSeqNum = pkt.mdata.seq := by
        unfold wakeUp; rw [if_pos (show (setStarted (.start r)).r.sleep from hsleep)]
      obtain ⟨H', -, hw', -, hone'⟩ := acceptMpdu_spec now hw₁ hone₁ hlt fun _ => by
        have hend := seqLess_end hw₁.head hw₁.lt le_rfl (Nat.le_add_right _ _)
        rw [Nat.mod_eq_of_lt hlt] at hend
        have hpos := hw₁.pos
        exact Or.inr (Or.inl ⟨hend.mpr (by omega), hhead.le⟩)
      exact ⟨H', hw', hone'⟩
    · have hawake : wakeUp pkt (setStarted (.start r)) = setStarted (.start r) := by
        unfold wakeUp; exact if_neg hsleep
      rw [hawake]
      obtain ⟨H', -, hw', -, hone'⟩ := acceptMpdu_spec now hw₀ hone hlt (hseam hsleep)
      exact ⟨H', hw', hone'⟩

theorem phlReorderRelease_inv (now : ℕ) (h : SessionInv r) : SessionInv (phlReorderRelease now (.start r)).r := by
  obtain ⟨H, hw, hone⟩ := h
  obtain ⟨H', -, hw', hm⟩ := phlReorderRelease_spec now (s := .start r) hw
  refine ⟨H', hw', fun hb => ?_⟩
  have := (phlReorderRelease_releases now (s := .start r) hw.pos).stored_le
  have h0 : (RxSt.start r).r.storedMpduNum = 0 := hone (hm.size.symm.trans hb)
  omega

theorem ReorderOp.run_inv {op : ReorderOp} (h : SessionInv r) (hseq : op.SeqOk)
    (hok : StaysInWindow r op) : SessionInv (op.run r).r := by
  cases op with
  | mpdu pkt now => exact phlManageStaReorderBuf_inv now h hseq hok
  | bar seq =>
    obtain ⟨H, hw, hone⟩ := h
    obtain ⟨H', -, hw', -, hone'⟩ := rtwPhlRxBar_spec (s := .start r) hw hone hseq hok
    exact ⟨H', hw', hone'⟩
  | release now => exact phlReorderRelease_inv now h
  | sleep =>
    obtain ⟨H, hw, hone⟩ := h
    exact ⟨H, ⟨hw.pos, hw.lt, hw.head, hw.base, hw.le, hw.slots, hw.stored⟩, hone⟩

def sessionStep (r : TidAmpduRx) (op : ReorderOp) : TidAmpduRx := (op.run r).r

/-- **The window property holds in every state reached** by operations that meet `StaysInWindow`. -/
theorem session_window {ssn tid n : ℕ} (hssn : ssn < seqModulo) (hn : n < 1024) {r : TidAmpduRx}
    (h : Reach sessionStep (fun r op => op.SeqOk ∧ StaysInWindow r op)
      (phlTidAmpduRxAlloc ssn tid (applyBufSize n)) r) : WindowOk r := by
  obtain ⟨H, hw, -⟩ : SessionInv r := h.invariant
    ⟨ssn, phlTidAmpduRxAlloc_window hssn hn, fun _ => rfl⟩
    fun r op hr hok => ReorderOp.run_inv hr hok.1 hok.2
  exact hw.windowOk

/-- A QoS data frame with nothing special about it. -/
def plainMpdu (ptr seq : ℕ) : RxPkt where
  ptr := ptr
  mdata :=
    { seq := seq, tid := 0, amsduCut := false, lastMsdu := true, bc := false, mc := false
      qos := true, qNull := false, moreFrag := false, fragNum := 0, addrCamVld := true, macid := 0
      rxDeferredRelease := false }
  length := 100

/-- A frame waits for the one before it, and a BAR close to the head overtakes both. -/
theorem session_window_bar : WindowOk (sessionStep (sessionStep (phlTidAmpduRxAlloc 0 0 (applyBufSize 64))
      (.mpdu (plainMpdu 1 1) 0)) (.bar 100)) := by
  refine session_window (by decide) (by decide) (.step _ (.step _ .init ⟨?_, ?_, ?_⟩) ⟨?_, ?_⟩)
  · show 1 < seqModulo; decide
  · intro h; cases h
  · intro _ _; exact Or.inl (by decide)
  · show 100 < seqModulo; decide
  · intro h; exact absurd h (by decide)

/-- The stored frames lie in the window, as a check that can be evaluated. -/
def inWindow (r : TidAmpduRx) : Prop :=
  ∀ i < r.bufSize, ∀ pkt ∈ r.reorderBuf i, seqSub pkt.mdata.seq r.headSeqNum < r.bufSize

instance (r : TidAmpduRx) : Decidable (inWindow r) := by unfold inWindow; infer_instance

theorem WindowOk.inWindow (h : WindowOk r) : inWindow r := fun i _ pkt hi => h.window i pkt hi

/-- **Each kind of operation that `StaysInWindow` rules out leaves a frame outside the window**: a
BAR 2048 ahead of the head, a wake-up by a frame far away, and a frame that waits across the step
from 4095 to 0 in a ring of 100 slots. -/
theorem not_session_window :
    (∃ r, Reach sessionStep (fun _ op => op.SeqOk) (phlTidAmpduRxAlloc 0 0 (applyBufSize 64)) r ∧
      r = [.mpdu (plainMpdu 1 1) 0, .bar 2048].foldl sessionStep
        (phlTidAmpduRxAlloc 0 0 (applyBufSize 64)) ∧ ¬ WindowOk r) ∧
    (∃ r, Reach sessionStep (fun _ op => op.SeqOk) (phlTidAmpduRxAlloc 0 0 (applyBufSize 64)) r ∧
      r = [.mpdu (plainMpdu 1 0) 0, .mpdu (plainMpdu 2 2) 0, .sleep, .mpdu (plainMpdu 3 500) 0].foldl sessionStep
        (phlTidAmpduRxAlloc 0 0 (applyBufSize 64)) ∧ ¬ WindowOk r) ∧
    (∃ r, Reach sessionStep (fun _ op => op.SeqOk) (phlTidAmpduRxAlloc 4090 0 (applyBufSize 100)) r ∧
      r = [.mpdu (plainMpdu 1 4090) 0, .mpdu (plainMpdu 2 0) 0, .mpdu (plainMpdu 3 2) 800,
        .release 1000].foldl sessionStep
        (phlTidAmpduRxAlloc 4090 0 (applyBufSize 100)) ∧ ¬ WindowOk r) := by
  refine ⟨⟨_, .foldl _ ?_, rfl, fun h => ?_⟩, ⟨_, .foldl _ ?_, rfl, fun h => ?_⟩, ⟨_, .foldl _ ?_, rfl, fun h => ?_⟩⟩
  · simp [ReorderOp.SeqOk, plainMpdu, seqModulo]
  · exact absurd h.inWindow (by decide)
  · simp [ReorderOp.SeqOk, plainMpdu, seqModulo]
  · exact absurd h.inWindow (by decide)
  · simp [ReorderOp.SeqOk, plainMpdu, seqModulo]
  · exact absurd h.inWindow (by decide +kernel)

end Rtl8852cu.Rx
