import Rtl8852cu.Rx.Drain

/-!
# What `phl_reorder_release` hands up

The stored frames in the order of the window (`storedMpdus`), the prefix of them that is ready (`readyPrefix`), and that
`phl_reorder_release` hands up this prefix and moves the head behind it (`phlReorderRelease_released`).
-/

namespace Rtl8852cu.Rx

open Lib Lib.Serial
open Function (update update_self update_of_ne)

/-- The stored frame with the sequence number of a position. -/
def atPos (r : TidAmpduRx) (q : ℕ) : Option RxPkt :=
  (r.reorderBuf (reorderIndex r (q % seqModulo))).filter fun pkt => decide (pkt.mdata.seq = q % seqModulo)

/-- The stored frames, from the sequence number of the head on. -/
def storedMpdus (r : TidAmpduRx) : List RxPkt := (List.range' r.headSeqNum r.bufSize).filterMap (atPos r)

/-- The longest prefix of frames that each follow the one before, or `next` at first, or are due. -/
def readyPrefix (due : RxPkt → Bool) : ℕ → List RxPkt → List RxPkt
  | _, [] => []
  | next, pkt :: l => if pkt.mdata.seq = next ∨ due pkt = true then pkt :: readyPrefix due (seqInc pkt.mdata.seq) l else []

/-- How long ago `t` was, on a clock of 32 bits. -/
def waited (t now : ℕ) : ℕ := (now % 2 ^ 32 + 2 ^ 32 - t % 2 ^ 32) % 2 ^ 32

/-- The frame has been stored for the time-out, and not for so long that the difference of the clocks is negative again. -/
def timedOut (r : TidAmpduRx) (now : ℕ) (pkt : RxPkt) : Bool :=
  decide (htRxReorderBufTimeoutMs ≤ waited (r.reorderTime (reorderIndex r pkt.mdata.seq)) now ∧
    waited (r.reorderTime (reorderIndex r pkt.mdata.seq)) now ≤ 2 ^ 31 + htRxReorderBufTimeoutMs)

def RxPkt.deferred (pkt : RxPkt) : RxPkt := { pkt with mdata := { pkt.mdata with rxDeferredRelease := true } }

/-- The scan for frames that have timed out, with `none` when the fuel ends before it does. -/
def timedOutLoop (now index : ℕ) : ℕ → ℕ → ℕ → RxSt → Option (RxSt × Bool)
  | 0, _, _, _ => none
  | fuel + 1, j, skipped, s =>
    if j = index then some (s, false)
    else match s.r.reorderBuf j with
      | none => timedOutLoop now index fuel ((j + 1) % s.r.bufSize) (skipped + 1) s
      | some _ =>
        if skipped ≠ 0 ∧ mayWait (s.r.reorderTime j) now then some (s, true)
        else
          let s := phlReleaseReorderFrame s j
          let s := s.setHead ((s.r.headSeqNum + skipped) % seqModulo)
          timedOutLoop now index fuel ((j + 1) % s.r.bufSize) 0 s

/-- The loop over consecutive frames, with `none` when the fuel ends before it does. -/
def consecutiveLoop : ℕ → ℕ → RxSt → Option RxSt
  | 0, _, _ => none
  | fuel + 1, index, s =>
    match s.r.reorderBuf index with
    | none => some s
    | some _ =>
      let s := phlReleaseReorderFrame s index
      consecutiveLoop fuel (reorderIndex s.r s.r.headSeqNum) s

/-! ### The clock -/

theorem mayWait_iff (t now : ℕ) :
    mayWait t now ↔ ¬ (htRxReorderBufTimeoutMs ≤ waited t now ∧ waited t now ≤ 2 ^ 31 + htRxReorderBufTimeoutMs) := by
  unfold mayWait waited htRxReorderBufTimeoutMs; omega

/-! ### The frames of a window -/

variable {r : TidAmpduRx} {pkt : RxPkt}

theorem atPos_seq {q : ℕ} (h : atPos r q = some pkt) : pkt.mdata.seq = q % seqModulo :=
  of_decide_eq_true (Option.filter_eq_some_iff.mp h).2

theorem ScanAt.atPos {B H P k : ℕ} (h : ScanAt r B H P) (hk : k < r.bufSize) :
    atPos r (B + k) = r.reorderBuf (slotOf r B k) := by
  have hlt := h.lt
  have hBP := h.base.trans h.le
  cases hs : r.reorderBuf (slotOf r B k) with
  | some pkt =>
    obtain ⟨-, hlap, hseq⟩ := h.slots.pos_eq hBP hk hs
    have hslot : reorderIndex r ((B + k) % seqModulo) = slotOf r B k := slot_add hlap
    unfold Rx.atPos
    rw [hslot, hs]; exact Option.filter_some_pos (decide_eq_true hseq)
  | none =>
    refine Option.eq_none_iff_forall_ne_some.mpr fun pkt hpkt => ?_
    obtain ⟨hbuf, hseq⟩ := Option.filter_eq_some_iff.mp hpkt
    obtain ⟨p, h1, h2, hlap, hp, -⟩ := h.slots _ _ hbuf
    have hpk : p = B + k := by
      have := of_decide_eq_true hseq
      exact eq_of_mod_eq (hp.symm.trans this) (by unfold seqModulo; omega) (by unfold seqModulo; omega)
    rw [hpk] at hlap
    have hslot : reorderIndex r ((B + k) % seqModulo) = slotOf r B k := slot_add hlap
    rw [hslot, hs] at hbuf; cases hbuf

theorem atPos_unstore {r' : TidAmpduRx} {i q : ℕ} (hsize : r'.bufSize = r.bufSize)
    (hbuf : r'.reorderBuf = update r.reorderBuf i none) (hs : r.reorderBuf i = some pkt)
    (hne : pkt.mdata.seq ≠ q % seqModulo) : atPos r' q = atPos r q := by
  have hindex : reorderIndex r' (q % seqModulo) = reorderIndex r (q % seqModulo) := by
    unfold reorderIndex
    rw [hsize]
  unfold atPos
  rw [hindex, hbuf]
  by_cases hi : reorderIndex r (q % seqModulo) = i
  · rw [hi, update_self, hs]; exact (if_neg fun he => hne (of_decide_eq_true he)).symm
  · rw [update_of_ne hi]

/-! ### The prefix that is ready -/

variable {l : List RxPkt}

theorem readyPrefix_stuck {next : ℕ} (hne : ∀ pkt ∈ l, pkt.mdata.seq ≠ next) :
    readyPrefix (fun _ => false) next l = [] := by
  cases l with
  | nil => rfl
  | cons pkt l => exact if_neg fun hor => hor.elim (hne pkt List.mem_cons_self) Bool.false_ne_true

/-- The frames that are ready have been handed up, and the head is behind them. -/
structure Released (due : RxPkt → Bool) (s s' : RxSt) (next : ℕ) (l : List RxPkt) : Prop where
  frames : s'.frames = s.frames ++ (readyPrefix due next l).map RxPkt.deferred
  head : s'.r.headSeqNum = (readyPrefix due next l).getLast?.elim next fun pkt => seqInc pkt.mdata.seq

theorem Released.nil {due : RxPkt → Bool} {s : RxSt} {next : ℕ} (hhead : s.r.headSeqNum = next)
    (hl : readyPrefix due next l = []) : Released due s s next l := by
  refine ⟨?_, ?_⟩
  · rw [hl, List.map_nil, List.append_nil]
  · rw [hl]; exact hhead

theorem Released.cons {due : RxPkt → Bool} {s s₁ s' : RxSt} {next : ℕ}
    (hready : pkt.mdata.seq = next ∨ due pkt = true) (hframes : s₁.frames = s.frames ++ [pkt.deferred])
    (h : Released due s₁ s' (seqInc pkt.mdata.seq) l) : Released due s s' next (pkt :: l) := by
  have hcons : readyPrefix due next (pkt :: l) = pkt :: readyPrefix due (seqInc pkt.mdata.seq) l := if_pos hready
  refine ⟨?_, ?_⟩
  · rw [h.frames, hframes, hcons, List.append_assoc]; rfl
  · rw [h.head, hcons, List.getLast?_cons]
    cases (readyPrefix due (seqInc pkt.mdata.seq) l).getLast? with
    | none => rfl
    | some last => rfl

/-! ### The loops -/

variable {s : RxSt} {B H k : ℕ}

theorem slotOf_inj {j : ℕ} (hj : j < r.bufSize) (hk : k < r.bufSize) (he : slotOf r B j = slotOf r B k) : j = k := by
  have := eq_of_mod_eq he (by omega) (by omega)
  omega

theorem ScanAt.frames_none (h : ScanAt s.r B H (B + k)) (hk : k < s.r.bufSize) (hs : s.r.reorderBuf (slotOf s.r B k) = none) :
    (List.range' (B + k) (s.r.bufSize - k)).filterMap (Rx.atPos s.r) =
      (List.range' (B + (k + 1)) (s.r.bufSize - (k + 1))).filterMap (Rx.atPos s.r) := by
  have hlen : s.r.bufSize - k = s.r.bufSize - (k + 1) + 1 := by omega
  rw [hlen, List.range'_succ, List.filterMap_cons_none (by rw [h.atPos hk]; exact hs), Nat.add_assoc]

theorem ScanAt.frames_some {s' : RxSt} (h : ScanAt s.r B H (B + k)) (hk : k < s.r.bufSize)
    (hs : s.r.reorderBuf (slotOf s.r B k) = some pkt) (hsize : s'.r.bufSize = s.r.bufSize)
    (hbuf : s'.r.reorderBuf = update s.r.reorderBuf (slotOf s.r B k) none) :
    (List.range' (B + k) (s.r.bufSize - k)).filterMap (Rx.atPos s.r) =
      pkt :: (List.range' (B + (k + 1)) (s'.r.bufSize - (k + 1))).filterMap (Rx.atPos s'.r) := by
  have hlen : s.r.bufSize - k = s.r.bufSize - (k + 1) + 1 := by omega
  have hlt := h.lt
  have hpkt : Rx.atPos s.r (B + k) = some pkt := by rw [h.atPos hk]; exact hs
  rw [hlen, List.range'_succ, List.filterMap_cons_some hpkt, Nat.add_assoc, hsize]
  refine congrArg (pkt :: ·) (List.filterMap_congr fun q hq => ?_)
  obtain ⟨h1, h2⟩ := List.mem_range'_1.mp hq
  refine (atPos_unstore hsize hbuf hs fun he => ?_).symm
  rw [atPos_seq hpkt] at he
  have := eq_of_mod_eq he (by unfold seqModulo; omega) (by unfold seqModulo; omega)
  omega

theorem releaseConsecutive_released : ∀ (fuel k : ℕ) (s : RxSt), ScanAt s.r B (B + k) (B + k) → k ≤ s.r.bufSize →
    s.r.bufSize ≤ k + fuel →
    Released (fun _ => false) s (releaseConsecutive fuel (reorderIndex s.r s.r.headSeqNum) s) ((B + k) % seqModulo)
        ((List.range' (B + k) (s.r.bufSize - k)).filterMap (atPos s.r)) ∧
      consecutiveLoop (fuel + 1) (reorderIndex s.r s.r.headSeqNum) s =
        some (releaseConsecutive fuel (reorderIndex s.r s.r.headSeqNum) s) := by
  intro fuel
  induction fuel using Nat.strongRecOn with
  | _ fuel ih =>
    intro k s h hk hfuel
    have hlt := h.lt
    have hindex : reorderIndex s.r s.r.headSeqNum = slotOf s.r (B + k) 0 := h.window.index
    have hhead : Rx.atPos s.r (B + k) = s.r.reorderBuf (reorderIndex s.r s.r.headSeqNum) := by
      rw [hindex]; exact h.window.atPos (k := 0) h.pos
    -- the slot of the head is empty: the loop ends
    have hend : s.r.reorderBuf (reorderIndex s.r s.r.headSeqNum) = none →
        Released (fun _ => false) s s ((B + k) % seqModulo) ((List.range' (B + k) (s.r.bufSize - k)).filterMap (atPos s.r)) := by
      intro hnone
      refine .nil h.head (readyPrefix_stuck fun pkt hpkt he => ?_)
      obtain ⟨q, hq, hqpkt⟩ := List.mem_filterMap.mp hpkt
      obtain ⟨h1, h2⟩ := List.mem_range'_1.mp hq
      rw [atPos_seq hqpkt] at he
      have hqk : q = B + k := eq_of_mod_eq he (by unfold seqModulo; omega) (by unfold seqModulo; omega)
      rw [hqk, hhead, hnone] at hqpkt; cases hqpkt
    cases hs : s.r.reorderBuf (reorderIndex s.r s.r.headSeqNum) with
    | none =>
      have hloop : consecutiveLoop (fuel + 1) (reorderIndex s.r s.r.headSeqNum) s = some s := by
        unfold consecutiveLoop
        rw [hs]
      have hmodel : releaseConsecutive fuel (reorderIndex s.r s.r.headSeqNum) s = s := by
        cases fuel with
        | zero => rfl
        | succ fuel =>
          unfold releaseConsecutive
          rw [hs]
      rw [hmodel, hloop]; exact ⟨hend hs, rfl⟩
    | some pkt =>
      have hpkt : Rx.atPos s.r (B + k) = some pkt := hhead.trans hs
      have hk' : k < s.r.bufSize := by
        refine lt_of_le_of_ne hk fun hkb => ?_
        obtain ⟨p, h1, h2, -⟩ := h.slots _ _ hs
        omega
      have hs' : s.r.reorderBuf (slotOf s.r B k) = some pkt := by rw [← h.atPos hk']; exact hpkt
      obtain ⟨-, hlap, hseq⟩ := h.slots.pos_eq (Nat.le_add_right B k) hk' hs'
      have hslot : reorderIndex s.r s.r.headSeqNum = slotOf s.r B k := by
        rw [hindex, slotOf_zero]; exact slot_add hlap
      rw [hslot]
      cases fuel with
      | zero => exact absurd hfuel (by omega)
      | succ fuel =>
        obtain ⟨hrel, hmv⟩ := h.release hk' hs'
        have heq := phlReleaseReorderFrame_some hs'
        have hbuf : (phlReleaseReorderFrame s (slotOf s.r B k)).r.reorderBuf = update s.r.reorderBuf (slotOf s.r B k) none := by
          rw [heq]; rfl
        have hframes : (phlReleaseReorderFrame s (slotOf s.r B k)).frames = s.frames ++ [pkt.deferred] := by
          rw [heq]; rfl
        obtain ⟨hready, hends⟩ := ih fuel fuel.lt_succ_self (k + 1) _ hrel (by rw [hmv.size]; exact hk') (by rw [hmv.size]; omega)
        rw [h.frames_some hk' hs' hmv.size hbuf]
        have hnext : (B + (k + 1)) % seqModulo = seqInc pkt.mdata.seq := by
          rw [hseq]; exact (Nat.mod_add_mod (B + k) seqModulo 1).symm
        rw [hnext] at hready
        have hmodel : releaseConsecutive (fuel + 1) (slotOf s.r B k) s = releaseConsecutive fuel
            (reorderIndex (phlReleaseReorderFrame s (slotOf s.r B k)).r (phlReleaseReorderFrame s (slotOf s.r B k)).r.headSeqNum)
            (phlReleaseReorderFrame s (slotOf s.r B k)) := by
          conv_lhs => unfold releaseConsecutive
          rw [hs']
        have hloop : consecutiveLoop (fuel + 2) (slotOf s.r B k) s = consecutiveLoop (fuel + 1)
            (reorderIndex (phlReleaseReorderFrame s (slotOf s.r B k)).r (phlReleaseReorderFrame s (slotOf s.r B k)).r.headSeqNum)
            (phlReleaseReorderFrame s (slotOf s.r B k)) := by
          conv_lhs => unfold consecutiveLoop
          rw [hs']
        rw [hmodel, hloop]; exact ⟨hready.cons (Or.inl hseq) hframes, hends⟩

theorem releaseTimedOut_released (now : ℕ) (due : RxPkt → Bool) : ∀ (fuel k skipped H : ℕ) (s : RxSt), ScanAt s.r B H (B + k) →
    H + skipped = B + k → 1 ≤ k → k ≤ s.r.bufSize → s.r.bufSize ≤ k + fuel →
    (∀ i pkt, s.r.reorderBuf i = some pkt → (due pkt = true ↔ ¬ mayWait (s.r.reorderTime i) now)) →
    Released due s (releaseTimedOut now (slotOf s.r B 0) fuel (slotOf s.r B k) skipped s).1 (H % seqModulo)
        ((List.range' (B + k) (s.r.bufSize - k)).filterMap (atPos s.r)) ∧
      timedOutLoop now (slotOf s.r B 0) (fuel + 1) (slotOf s.r B k) skipped s =
        some (releaseTimedOut now (slotOf s.r B 0) fuel (slotOf s.r B k) skipped s) := by
  intro fuel
  induction fuel using Nat.strongRecOn with
  | _ fuel ih =>
    intro k skipped H s h hH hk1 hk hfuel hdue
    have hlt := h.lt
    rcases Nat.eq_or_lt_of_le hk with hkb | hk'
    · -- the scan is back at its start
      have hback : slotOf s.r B k = slotOf s.r B 0 := by
        unfold slotOf
        rw [hkb, Nat.add_zero, Nat.add_mod_right]
      have hmodel : releaseTimedOut now (slotOf s.r B 0) fuel (slotOf s.r B k) skipped s = (s, false) := by
        cases fuel with
        | zero => rfl
        | succ fuel =>
          unfold releaseTimedOut; exact if_pos hback
      have hloop : timedOutLoop now (slotOf s.r B 0) (fuel + 1) (slotOf s.r B k) skipped s = some (s, false) := by
        unfold timedOutLoop; exact if_pos hback
      rw [hmodel, hloop, hkb, Nat.sub_self]; exact ⟨.nil h.head rfl, rfl⟩
    · have hnot : slotOf s.r B k ≠ slotOf s.r B 0 := fun he => by
        have := slotOf_inj hk' h.pos he
        omega
      have hnext : (slotOf s.r B k + 1) % s.r.bufSize = slotOf s.r B (k + 1) := by
        unfold slotOf
        rw [Nat.mod_add_mod, Nat.add_assoc]
      cases fuel with
      | zero => exact absurd hfuel (by omega)
      | succ fuel =>
        cases hs : s.r.reorderBuf (slotOf s.r B k) with
        | none =>
          have hmodel : releaseTimedOut now (slotOf s.r B 0) (fuel + 1) (slotOf s.r B k) skipped s =
              releaseTimedOut now (slotOf s.r B 0) fuel (slotOf s.r B (k + 1)) (skipped + 1) s := by
            conv_lhs => unfold releaseTimedOut
            rw [if_neg hnot, hs, hnext]
          have hloop : timedOutLoop now (slotOf s.r B 0) (fuel + 2) (slotOf s.r B k) skipped s =
              timedOutLoop now (slotOf s.r B 0) (fuel + 1) (slotOf s.r B (k + 1)) (skipped + 1) s := by
            conv_lhs => unfold timedOutLoop
            rw [if_neg hnot, hs, hnext]
          rw [hmodel, hloop, h.frames_none hk' hs]
          exact ih fuel fuel.lt_succ_self (k + 1) (skipped + 1) H s (h.skip hs) (by omega) (by omega) hk' (by omega) hdue
        | some pkt =>
          obtain ⟨-, -, hseq⟩ := h.slots.pos_eq (Nat.le_add_right B k) hk' hs
          have hle := h.le
          -- the frame follows the head exactly when nothing was skipped
          have hcons : skipped = 0 ↔ pkt.mdata.seq = H % seqModulo := by
            rw [hseq]
            refine ⟨fun h0 => by rw [← hH, h0, Nat.add_zero], fun he => ?_⟩
            have hb := h.base
            have := eq_of_mod_eq he (by unfold seqModulo; omega) (by unfold seqModulo; omega)
            omega
          have hready : ¬ (skipped ≠ 0 ∧ mayWait (s.r.reorderTime (slotOf s.r B k)) now) ↔ pkt.mdata.seq = H % seqModulo ∨ due pkt = true := by
            rw [not_and_or, not_not, hcons, hdue _ _ hs]
          obtain ⟨hrel, hmv⟩ := h.release hk' hs
          have heq := phlReleaseReorderFrame_some hs
          have hbuf : (phlReleaseReorderFrame s (slotOf s.r B k)).r.reorderBuf = update s.r.reorderBuf (slotOf s.r B k) none := by
            rw [heq]; rfl
          have hlist := h.frames_some hk' hs hmv.size hbuf
          by_cases hw : skipped ≠ 0 ∧ mayWait (s.r.reorderTime (slotOf s.r B k)) now
          · have hmodel : releaseTimedOut now (slotOf s.r B 0) (fuel + 1) (slotOf s.r B k) skipped s = (s, true) := by
              unfold releaseTimedOut
              rw [if_neg hnot, hs]; exact if_pos hw
            have hloop : timedOutLoop now (slotOf s.r B 0) (fuel + 2) (slotOf s.r B k) skipped s = some (s, true) := by
              unfold timedOutLoop
              rw [if_neg hnot, hs]; exact if_pos hw
            rw [hmodel, hloop, hlist]
            exact ⟨.nil h.head (if_neg fun hor => hready.mpr hor hw), rfl⟩
          · -- the frame is released, and the head goes behind it
            set s₁ := phlReleaseReorderFrame s (slotOf s.r B k) with hs₁
            have hhead : (s₁.r.headSeqNum + skipped) % seqModulo = (B + (k + 1)) % seqModulo := by
              rw [hrel.head, Nat.mod_add_mod]
              congr 1
              omega
            set s₂ := s₁.setHead ((B + (k + 1)) % seqModulo) with hs₂
            have hsize : s₂.r.bufSize = s.r.bufSize := hmv.size
            have hslot : ∀ m, slotOf s.r B m = slotOf s₂.r B m := fun m => by
              unfold slotOf
              rw [hsize]
            have hmodel : releaseTimedOut now (slotOf s.r B 0) (fuel + 1) (slotOf s.r B k) skipped s =
                releaseTimedOut now (slotOf s₂.r B 0) fuel (slotOf s₂.r B (k + 1)) 0 s₂ := by
              conv_lhs => unfold releaseTimedOut
              rw [if_neg hnot, hs]
              simp only
              rw [if_neg hw, ← hs₁, hhead, ← hs₂, hsize, hnext, hslot, hslot]
            have hloop : timedOutLoop now (slotOf s.r B 0) (fuel + 2) (slotOf s.r B k) skipped s =
                timedOutLoop now (slotOf s₂.r B 0) (fuel + 1) (slotOf s₂.r B (k + 1)) 0 s₂ := by
              conv_lhs => unfold timedOutLoop
              rw [if_neg hnot, hs]
              simp only
              rw [if_neg hw, ← hs₁, hhead, ← hs₂, hsize, hnext, hslot, hslot]
            have hbuf₂ : s₂.r.reorderBuf = update s.r.reorderBuf (slotOf s.r B k) none := hbuf
            have htime : s₂.r.reorderTime = s.r.reorderTime := by
              rw [hs₂, heq]; rfl
            have hframes : s₂.frames = s.frames ++ [pkt.deferred] := by
              rw [hs₂, heq]; rfl
            have hdue₂ : ∀ i q, s₂.r.reorderBuf i = some q → (due q = true ↔ ¬ mayWait (s₂.r.reorderTime i) now) := by
              intro i q hq
              have hi : i ≠ slotOf s.r B k := by
                rintro rfl
                rw [hbuf₂, update_self] at hq; cases hq
              rw [hbuf₂, update_of_ne hi] at hq
              rw [htime]; exact hdue i q hq
            have h₂ : ScanAt s₂.r B (B + (k + 1)) (B + (k + 1)) := hrel.setHead (by omega) le_rfl
            obtain ⟨hrest, hends⟩ := ih fuel fuel.lt_succ_self (k + 1) 0 (B + (k + 1)) s₂ h₂ rfl (by omega)
              (by rw [hsize]; exact hk') (by rw [hsize]; omega) hdue₂
            have hnextSeq : (B + (k + 1)) % seqModulo = seqInc pkt.mdata.seq := by
              rw [hseq]; exact (Nat.mod_add_mod (B + k) seqModulo 1).symm
            rw [hmodel, hloop, hlist]
            rw [hnextSeq] at hrest; exact ⟨hrest.cons (hready.mp hw) hframes, hends⟩

/-! ### `phl_reorder_release` -/

/-- The frames are due that have timed out, as long as the one of the head is not there. -/
def releaseDue (r : TidAmpduRx) (now : ℕ) (pkt : RxPkt) : Bool := (headSlot r).isNone && timedOut r now pkt

theorem timedOut_iff (h : WindowAt r H) (now : ℕ) {i : ℕ} (hi : r.reorderBuf i = some pkt) :
    timedOut r now pkt = true ↔ ¬ mayWait (r.reorderTime i) now := by
  obtain ⟨p, -, -, -, hseq, hslot⟩ := h.slots i pkt hi
  have hindex : reorderIndex r pkt.mdata.seq = i := by
    rw [hseq]; exact hslot.symm
  unfold timedOut
  rw [decide_eq_true_iff, hindex, mayWait_iff, not_not]

theorem storedMpdus_eq (h : WindowAt r H) :
    storedMpdus r = (List.range' (H + 0) (r.bufSize - 0)).filterMap (atPos r) := by
  unfold storedMpdus
  rw [h.head, List.range'_eq_map_range, List.range'_eq_map_range, List.filterMap_map, List.filterMap_map]
  refine List.filterMap_congr fun k _ => ?_
  show atPos r (H % seqModulo + k) = atPos r (H + k)
  unfold atPos
  rw [Nat.mod_add_mod]

theorem releaseReady_released (now : ℕ) (h : WindowAt s.r H) :
    Released (releaseDue s.r now) s (releaseReady now s).1 s.r.headSeqNum (storedMpdus s.r) := by
  have hindex : reorderIndex s.r s.r.headSeqNum = slotOf s.r H 0 := h.index
  have hnext : (slotOf s.r H 0 + 1) % s.r.bufSize = slotOf s.r H 1 := by
    unfold slotOf
    rw [Nat.mod_add_mod, Nat.add_assoc]
  unfold releaseReady
  simp only
  rw [storedMpdus_eq h]
  split
  case isTrue hc =>
    have hnone : headSlot s.r = none := Option.isNone_iff_eq_none.mp hc.1
    have hs : s.r.reorderBuf (slotOf s.r H 0) = none := by rw [← hindex]; exact hnone
    have hdue : ∀ i pkt, s.r.reorderBuf i = some pkt → (releaseDue s.r now pkt = true ↔ ¬ mayWait (s.r.reorderTime i) now) := by
      intro i pkt hi
      unfold releaseDue
      rw [hnone, ← timedOut_iff h now hi, Option.isNone_none, Bool.true_and]
    rw [hindex, hnext, ScanAt.frames_none (k := 0) h h.pos hs, h.head]
    exact (releaseTimedOut_released now _ s.r.bufSize 1 1 H s (ScanAt.skip (k := 0) h hs) rfl le_rfl h.pos (by omega) hdue).1
  case isFalse hc =>
    have hrel := (releaseConsecutive_released (B := H) s.r.bufSize 0 s h (Nat.zero_le _) (by omega)).1
    rw [Nat.add_zero, ← h.head] at hrel
    cases hs : headSlot s.r with
    | some pkt =>
      have hdue : releaseDue s.r now = fun _ => false := by
        funext q
        unfold releaseDue
        rw [hs]; rfl
      rw [hdue]; exact hrel
    | none =>
      -- nothing is stored
      have h0 : s.r.storedMpduNum = 0 := of_not_not fun hne => hc ⟨Option.isNone_iff_eq_none.mpr hs, hne⟩
      have hnil : (List.range' H (s.r.bufSize - 0)).filterMap (atPos s.r) = [] := by
        refine List.filterMap_eq_nil_iff.mpr fun q _ => ?_
        unfold atPos
        rw [h.empty_slots h0]; rfl
      rw [Nat.add_zero, hnil]
      rw [hnil] at hrel; exact ⟨hrel.frames, hrel.head⟩

/-- `phl_reorder_release` hands up the prefix of the stored frames that is ready and moves the head behind it; its loops end. -/
theorem phlReorderRelease_released (now : ℕ) {s : RxSt} {H : ℕ} (h : WindowAt s.r H) :
    Released (releaseDue s.r now) s (phlReorderRelease now s) s.r.headSeqNum (storedMpdus s.r) ∧
      consecutiveLoop (s.r.bufSize + 1) (reorderIndex s.r s.r.headSeqNum) s =
        some (releaseConsecutive s.r.bufSize (reorderIndex s.r s.r.headSeqNum) s) ∧
      (headSlot s.r = none → timedOutLoop now (reorderIndex s.r s.r.headSeqNum) (s.r.bufSize + 1)
          ((reorderIndex s.r s.r.headSeqNum + 1) % s.r.bufSize) 1 s =
        some (releaseTimedOut now (reorderIndex s.r s.r.headSeqNum) s.r.bufSize
          ((reorderIndex s.r s.r.headSeqNum + 1) % s.r.bufSize) 1 s)) := by
  have hready := releaseReady_released now h
  refine ⟨?_, (releaseConsecutive_released (B := H) s.r.bufSize 0 s h (Nat.zero_le _) (by omega)).2, fun hnone => ?_⟩
  · unfold phlReorderRelease
    simp only
    split
    · exact ⟨hready.frames, hready.head⟩
    · exact hready
  · have hindex : reorderIndex s.r s.r.headSeqNum = slotOf s.r H 0 := h.index
    have hnext : (slotOf s.r H 0 + 1) % s.r.bufSize = slotOf s.r H 1 := by
      unfold slotOf
      rw [Nat.mod_add_mod, Nat.add_assoc]
    have hs : s.r.reorderBuf (slotOf s.r H 0) = none := by rw [← hindex]; exact hnone
    rw [hindex, hnext]
    exact (releaseTimedOut_released now (timedOut s.r now) s.r.bufSize 1 1 H s (ScanAt.skip (k := 0) h hs) rfl le_rfl h.pos (by omega)
      fun i pkt hi => timedOut_iff h now hi).2

/-- Two frames wait for the one before them, one of them for longer than the time-out. -/
def waitingPair : RxSt :=
  ((RxSt.start (phlTidAmpduRxAlloc 0 0 (applyBufSize 64))).store 2 (plainMpdu 1 2) 0).store 4 (plainMpdu 2 4) 300

theorem waitingPair_window : WindowAt waitingPair.r 0 := by
  have h₀ : WindowAt (RxSt.start (phlTidAmpduRxAlloc 0 0 (applyBufSize 64))).r 0 :=
    phlTidAmpduRxAlloc_window (by decide) (by decide)
  have h₁ : WindowAt ((RxSt.start (phlTidAmpduRxAlloc 0 0 (applyBufSize 64))).store (2 % seqModulo % 64) (plainMpdu 1 2) 0).r 0 :=
    ScanAt.store 0 (p := 2) h₀ (by decide) (by decide) (Or.inl (by decide)) rfl rfl
  exact ScanAt.store 300 (p := 4) h₁ (by decide) (by decide) (Or.inl (by decide)) rfl rfl

theorem phlReorderRelease_waitingPair :
    Released (releaseDue waitingPair.r 600) waitingPair (phlReorderRelease 600 waitingPair) waitingPair.r.headSeqNum
      (storedMpdus waitingPair.r) :=
  (phlReorderRelease_released 600 waitingPair_window).1

/-- The frame of the head arrives when one behind it has waited for longer than the time-out. -/
def lateHead : RxSt :=
  ((RxSt.start (phlTidAmpduRxAlloc 0 0 (applyBufSize 64))).store 2 (plainMpdu 1 2) 0).store 0 (plainMpdu 2 0) 600

/-- A frame waits across the step from 4095 to 0 in a ring of 100 slots. -/
def lateSeam : RxSt := (RxSt.start (phlTidAmpduRxAlloc 4095 0 (applyBufSize 100))).store 0 (plainMpdu 1 0) 0

theorem lateSeam_window : WindowOk lateSeam.r where
  count := by
    have hfilled : filled lateSeam.r = filled (phlTidAmpduRxAlloc 4095 0 (applyBufSize 100)) + 1 :=
      filled_store (i := 0) rfl (by decide) rfl rfl
    exact hfilled.symm
  slot := by
    intro i pkt hi
    have hi : update (fun _ => none) 0 (some (plainMpdu 1 0)) i = some pkt := hi
    rcases Nat.eq_zero_or_pos i with rfl | hpos
    · rw [update_self] at hi
      cases hi
      rfl
    · rw [update_of_ne hpos.ne'] at hi; cases hi
  window := by
    intro i pkt hi
    have hi : update (fun _ => none) 0 (some (plainMpdu 1 0)) i = some pkt := hi
    rcases Nat.eq_zero_or_pos i with rfl | hpos
    · rw [update_self] at hi
      cases hi
      decide
    · rw [update_of_ne hpos.ne'] at hi; cases hi

/-- With the frame of the head there, only the frames in order are handed up, and not one that has timed out; and slots that no
sequence number has are counted as skipped. -/
theorem lateHead_leaves_timedOut :
    (WindowAt lateHead.r 0 ∧ (phlReorderRelease 600 lateHead).frames.map (·.mdata.seq) = [0] ∧
      (readyPrefix (fun pkt => decide (htRxReorderBufTimeoutMs ≤ waited (lateHead.r.reorderTime pkt.mdata.seq) 600)) 0
        (storedMpdus lateHead.r)).map (·.mdata.seq) = [0, 2]) ∧
      WindowOk lateSeam.r ∧ (phlReorderRelease 600 lateSeam).frames.map (·.mdata.seq) = [0] ∧
        (phlReorderRelease 600 lateSeam).r.headSeqNum = 5 := by
  refine ⟨⟨?_, by decide, by decide⟩, lateSeam_window, by decide, by decide⟩
  have h₀ : WindowAt (RxSt.start (phlTidAmpduRxAlloc 0 0 (applyBufSize 64))).r 0 :=
    phlTidAmpduRxAlloc_window (by decide) (by decide)
  have h₁ : WindowAt ((RxSt.start (phlTidAmpduRxAlloc 0 0 (applyBufSize 64))).store (2 % seqModulo % 64) (plainMpdu 1 2) 0).r 0 :=
    ScanAt.store 0 (p := 2) h₀ (by decide) (by decide) (Or.inl (by decide)) rfl rfl
  exact ScanAt.store 600 (p := 0) h₁ (by decide) (by decide) (Or.inl (by decide)) rfl rfl

end Rtl8852cu.Rx
