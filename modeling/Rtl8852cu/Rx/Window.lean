import Mathlib.Tactic.Linarith
import Rtl8852cu.Lib.Reach
import Rtl8852cu.Rx.Reorder

/-!
# The window of a reorder session

Every stored frame lies in the window `[headSeqNum, headSeqNum + bufSize)` and in the slot of its
sequence number, and `storedMpduNum` counts the stored frames (`WindowOk`).

The proofs work with positions (`Lib.Serial`): the head is at a position `H`, the frames are at
positions of `[H, H + bufSize)`.  `ScanAt r B H P` is the state in the middle of a loop: the window
began at `B`, the head has come to `H`, and no frame is left below `P`.  Between operations the
three agree (`WindowAt`).  `Moved s s' H H'` says what an operation did: the head went from `H` to
`H'`, and the frames handed up have increasing positions in between.

`StaysInWindow` is the condition on an operation under which it keeps the window.  It rules out

* a BAR exactly `SEQ_MODULO / 2` ahead of the head while frames are stored: `seq_less` orders
  neither of the two before the other, so the loop of `phl_release_reorder_frames` does not run;
* a wake-up whose first sequence number puts a stored frame outside the window;
* for a buffer size that does not divide `SEQ_MODULO`, a frame that has to wait across the step from
  sequence number 4095 to 0, where the slots of the two sides overlap.
-/

namespace Rtl8852cu.Rx

open Lib Lib.Serial

def filled (r : TidAmpduRx) : ℕ :=
  ((Finset.range r.bufSize).filter fun i => (r.reorderBuf i).isSome).card

structure WindowOk (r : TidAmpduRx) : Prop where
  count : r.storedMpduNum = filled r
  slot : ∀ i pkt, r.reorderBuf i = some pkt → i = pkt.mdata.seq % r.bufSize
  window : ∀ i pkt, r.reorderBuf i = some pkt → seqSub pkt.mdata.seq r.headSeqNum < r.bufSize

/-! ### Counting the stored frames -/

variable {r : TidAmpduRx}

theorem filled_eq_zero : filled r = 0 ↔ ∀ i < r.bufSize, r.reorderBuf i = none := by
  simp [filled, Finset.filter_eq_empty_iff]

variable {pkt : RxPkt}

theorem filled_store {q : TidAmpduRx} {i : ℕ} (hsize : q.bufSize = r.bufSize)
    (hi : i < r.bufSize) (hnone : r.reorderBuf i = none)
    (hbuf : q.reorderBuf = Function.update r.reorderBuf i (some pkt)) :
    filled q = filled r + 1 := by
  unfold filled
  rw [hsize, hbuf, ← Finset.card_insert_of_notMem (a := i) (by simp [hnone])]
  congr 1
  ext j
  by_cases h : j = i
  · subst h; simp [hi]
  · simp [h]

theorem filled_unstore {q : TidAmpduRx} {i : ℕ} (hsize : q.bufSize = r.bufSize)
    (hi : i < r.bufSize) (hsome : r.reorderBuf i = some pkt)
    (hbuf : q.reorderBuf = Function.update r.reorderBuf i none) :
    filled q = filled r - 1 := by
  unfold filled
  rw [hsize, hbuf, ← Finset.card_erase_of_mem (a := i) (by simp [hsome, hi])]
  congr 1
  ext j
  by_cases h : j = i
  · subst h; simp
  · simp [h]

/-! ### Frames at positions -/

/-- A frame at position `p` may be stored in a window that begins at `B`. -/
def SameLap (r : TidAmpduRx) (B p : ℕ) : Prop :=
  r.bufSize ∣ seqModulo ∨ p / seqModulo = B / seqModulo

/-- Every stored frame is at a position from `P` on, inside the window that begins at `B`. -/
def SlotsAt (r : TidAmpduRx) (B P : ℕ) : Prop :=
  ∀ i pkt, r.reorderBuf i = some pkt → ∃ p, P ≤ p ∧ p < B + r.bufSize ∧ SameLap r B p ∧
    pkt.mdata.seq = p % seqModulo ∧ i = p % seqModulo % r.bufSize

/-- The slot `k` places after the one of the window's first position. -/
def slotOf (r : TidAmpduRx) (B k : ℕ) : ℕ := (B % seqModulo % r.bufSize + k) % r.bufSize

/-- The state inside a loop: window from `B`, head at `H`, no frame below `P`. -/
structure ScanAt (r : TidAmpduRx) (B H P : ℕ) : Prop where
  pos : 0 < r.bufSize
  lt : r.bufSize < 1024
  head : r.headSeqNum = H % seqModulo
  base : B ≤ H
  le : H ≤ P
  slots : SlotsAt r B P
  stored : r.storedMpduNum = filled r

/-- The state between operations, with the head at position `H`. -/
abbrev WindowAt (r : TidAmpduRx) (H : ℕ) : Prop := ScanAt r H H H

variable {B : ℕ}

theorem slotOf_zero : slotOf r B 0 = B % seqModulo % r.bufSize := by
  unfold slotOf; rw [Nat.add_zero, Nat.mod_mod]

variable {P k : ℕ}

theorem SlotsAt.pos_eq (h : SlotsAt r B P)
    (hBP : B ≤ P) (hk : k < r.bufSize) (hs : r.reorderBuf (slotOf r B k) = some pkt) :
    P ≤ B + k ∧ SameLap r B (B + k) ∧ pkt.mdata.seq = (B + k) % seqModulo := by
  obtain ⟨p, h1, h2, h3, h4, h5⟩ := h _ _ hs
  obtain ⟨k', rfl⟩ := Nat.exists_eq_add_of_le (hBP.trans h1)
  rw [slot_add h3] at h5
  have hkk := eq_of_mod_eq h5 (by omega) (by omega)
  have : k = k' := by omega
  subst this; exact ⟨h1, h3, h4⟩

theorem slotOf_lt (hpos : 0 < r.bufSize) (B k : ℕ) : slotOf r B k < r.bufSize := Nat.mod_lt _ hpos

theorem SlotsAt.clear {r' : TidAmpduRx} (h : SlotsAt r B (B + k)) (hsize : r'.bufSize = r.bufSize)
    (hbuf : r'.reorderBuf = Function.update r.reorderBuf (slotOf r B k) none) :
    SlotsAt r' B (B + k + 1) := by
  intro i pkt hi
  have hne : i ≠ slotOf r B k := by
    rintro rfl
    rw [hbuf, Function.update_self] at hi; cases hi
  rw [hbuf, Function.update_of_ne hne] at hi
  obtain ⟨p, h1, h2, h3, h4, h5⟩ := h i pkt hi
  refine ⟨p, ?_, by rw [hsize]; exact h2, by unfold SameLap; rw [hsize]; exact h3, h4, by rw [hsize]; exact h5⟩
  by_contra hlt
  obtain rfl : p = B + k := by omega
  exact hne (by rw [h5, slot_add h3]; rfl)

variable {H : ℕ}

theorem ScanAt.window (h : ScanAt r B H P) : WindowAt r H := by
  refine ⟨h.pos, h.lt, h.head, le_rfl, le_rfl, fun i pkt hi => ?_, h.stored⟩
  obtain ⟨p, h1, h2, h3, h4, h5⟩ := h.slots i pkt hi
  have hb := h.base
  have hl := h.le
  refine ⟨p, by omega, by omega, ?_, h4, h5⟩
  rcases h3 with h3 | h3
  · exact Or.inl h3
  · have h6 := Nat.div_le_div_right (c := seqModulo) hb
    have h7 := Nat.div_le_div_right (c := seqModulo) (hl.trans h1)
    exact Or.inr (by omega)

theorem WindowAt.windowOk (h : WindowAt r H) : WindowOk r := by
  refine ⟨h.stored, fun i pkt hi => ?_, fun i pkt hi => ?_⟩
  · obtain ⟨p, -, -, -, h4, h5⟩ := h.slots i pkt hi
    rw [h4]; exact h5
  · obtain ⟨p, h1, h2, -, h4, -⟩ := h.slots i pkt hi
    have hlt := h.lt
    rw [h4, h.head, seqSub, dist_mod h1 (by unfold seqModulo; omega)]
    omega

theorem ScanAt.skip (h : ScanAt r B H (B + k)) (hs : r.reorderBuf (slotOf r B k) = none) : ScanAt r B H (B + k + 1) :=
  { h with
    le := h.le.trans (Nat.le_succ _)
    slots := h.slots.clear rfl (by rw [← hs, Function.update_eq_self]) }

theorem ScanAt.empty_slots (h : ScanAt r B H P) (h0 : r.storedMpduNum = 0) (i : ℕ) : r.reorderBuf i = none := by
  by_contra hne
  obtain ⟨pkt, hp⟩ := Option.ne_none_iff_exists'.mp hne
  obtain ⟨p, -, -, -, -, hi⟩ := h.slots i pkt hp
  have hlt : i < r.bufSize := by rw [hi]; exact Nat.mod_lt _ h.pos
  rw [filled_eq_zero.mp (h.stored.symm.trans h0) i hlt] at hp; cases hp

/-! ### What an operation does to the outside -/

/-- The frames `rel` are handed up in the order of their positions, which lie in `[H, H')`. -/
def HandedUp (rel : List RxPkt) (H H' : ℕ) : Prop :=
  ∃ ps : List ℕ, rel.map (fun q => q.mdata.seq) = ps.map (· % seqModulo) ∧
    ps.Pairwise (· < ·) ∧ ∀ p ∈ ps, H ≤ p ∧ p < H'

/-- The head went from `H` to `H'`; the frames handed up lie in between. -/
structure Moved (s s' : RxSt) (H H' : ℕ) : Prop where
  le : H ≤ H'
  size : s'.r.bufSize = s.r.bufSize
  started : s'.r.started = s.r.started
  sleep : s'.r.sleep = s.r.sleep
  frames : ∃ rel, s'.frames = s.frames ++ rel ∧ HandedUp rel H H'

variable {H' : ℕ}

theorem HandedUp.nil : HandedUp [] H H' := ⟨[], rfl, .nil, by simp⟩

theorem HandedUp.single {q : RxPkt} {p : ℕ} (hq : q.mdata.seq = p % seqModulo) (h1 : H ≤ p)
    (h2 : p < H') : HandedUp [q] H H' :=
  ⟨[p], by simp [hq], by simp, by simp [h1, h2]⟩

variable {H'' : ℕ}

theorem HandedUp.append {l l' : List RxPkt} (h : HandedUp l H H')
    (h' : HandedUp l' H' H'') (h1 : H ≤ H') (h2 : H' ≤ H'') : HandedUp (l ++ l') H H'' := by
  obtain ⟨ps, e, hp, hb⟩ := h
  obtain ⟨ps', e', hp', hb'⟩ := h'
  refine ⟨ps ++ ps', by rw [List.map_append, List.map_append, e, e'],
    List.pairwise_append.mpr ⟨hp, hp', fun p hm p' hm' => ?_⟩, fun p hm => ?_⟩
  · have := hb p hm; have := hb' p' hm'; omega
  · rcases List.mem_append.mp hm with hm | hm
    · have := hb p hm; omega
    · have := hb' p hm; omega

theorem HandedUp.mono {l : List RxPkt} (h : HandedUp l H H') (hle : H' ≤ H'') : HandedUp l H H'' := by
  obtain ⟨ps, e, hp, hb⟩ := h
  exact ⟨ps, e, hp, fun p hm => ⟨(hb p hm).1, (hb p hm).2.trans_le hle⟩⟩

theorem Moved.refl (s : RxSt) (H : ℕ) : Moved s s H H := ⟨le_rfl, rfl, rfl, rfl, [], by simp, .nil⟩

variable {s s' : RxSt}

theorem Moved.trans {s'' : RxSt} (h : Moved s s' H H') (h' : Moved s' s'' H' H'') : Moved s s'' H H'' := by
  obtain ⟨rel, e, hr⟩ := h.frames
  obtain ⟨rel', e', hr'⟩ := h'.frames
  exact ⟨h.le.trans h'.le, h'.size.trans h.size, h'.started.trans h.started,
    h'.sleep.trans h.sleep, rel ++ rel', by rw [e', e, List.append_assoc],
    hr.append hr' h.le h'.le⟩

theorem Moved.advance (h : Moved s s' H H') (hle : H' ≤ H'') (head : ℕ) : Moved s (s'.setHead head) H H'' := by
  obtain ⟨rel, e, hr⟩ := h.frames
  exact ⟨h.le.trans hle, h.size, h.started, h.sleep, rel, e, hr.mono hle⟩

/-! ### The loops -/

theorem ScanAt.release (h : ScanAt s.r B H (B + k))
    (hk : k < s.r.bufSize) (hs : s.r.reorderBuf (slotOf s.r B k) = some pkt) :
    ScanAt (phlReleaseReorderFrame s (slotOf s.r B k)).r B (H + 1) (B + k + 1) ∧
      Moved s (phlReleaseReorderFrame s (slotOf s.r B k)) H (B + k + 1) := by
  have hb := h.base
  have hl := h.le
  obtain ⟨-, -, hseq⟩ := h.slots.pos_eq (hb.trans hl) hk hs
  simp only [phlReleaseReorderFrame, hs]
  refine ⟨⟨h.pos, h.lt, ?_, by omega, by omega, h.slots.clear rfl rfl, ?_⟩, by omega, rfl, rfl, rfl,
    [_], rfl, .single hseq hl (Nat.lt_succ_self _)⟩
  · simp only [RxSt.setHead, seqInc, h.head]; rw [Nat.mod_add_mod]
  · have := filled_unstore (r := s.r)
      (q := (s.unstore (slotOf s.r B k) pkt).r) rfl (slotOf_lt h.pos B k) hs rfl
    simp only [RxSt.setHead, RxSt.unstore] at this ⊢
    rw [h.stored]; exact this.symm

theorem ScanAt.setHead (h : ScanAt s.r B H P) (h1 : B ≤ H')
    (h2 : H' ≤ P) : ScanAt (s.setHead (H' % seqModulo)).r B H' P :=
  { h with head := rfl, base := h1, le := h2 }

theorem releaseTimedOut_spec (now B : ℕ) : ∀ (fuel k skipped H : ℕ) (s : RxSt),
    ScanAt s.r B H (B + k) → H + skipped = B + k → k ≤ s.r.bufSize →
    ∃ H' ≤ B + s.r.bufSize, WindowAt (releaseTimedOut now (slotOf s.r B 0) fuel (slotOf s.r B k) skipped s).1.r H' ∧
      Moved s (releaseTimedOut now (slotOf s.r B 0) fuel (slotOf s.r B k) skipped s).1 H H'
  | 0, k, skipped, H, s, h, _, hk => ⟨H, by have := h.le; omega, h.window, .refl s H⟩
  | fuel + 1, k, skipped, H, s, h, hH, hk => by
    unfold releaseTimedOut
    by_cases hj : slotOf s.r B k = slotOf s.r B 0
    · rw [if_pos hj]; exact ⟨H, by have := h.le; omega, h.window, .refl s H⟩
    · rw [if_neg hj]
      have hk' : k < s.r.bufSize := by
        refine lt_of_le_of_ne hk ?_
        rintro rfl
        exact hj (by unfold slotOf; rw [Nat.add_zero, Nat.add_mod_right])
      have hnext : (slotOf s.r B k + 1) % s.r.bufSize = slotOf s.r B (k + 1) := by
        unfold slotOf; rw [Nat.mod_add_mod, Nat.add_assoc]
      cases hs : s.r.reorderBuf (slotOf s.r B k) with
      | none =>
        simp only
        rw [hnext]
        exact releaseTimedOut_spec now B fuel (k + 1) (skipped + 1) H s (h.skip hs) (by omega) hk'
      | some pkt =>
        simp only
        split_ifs with hw
        · exact ⟨H, by have := h.le; omega, h.window, .refl s H⟩
        · obtain ⟨hrel, hmv⟩ := h.release hk' hs
          set s₁ := phlReleaseReorderFrame s (slotOf s.r B k) with hs₁
          have hsz : s₁.r.bufSize = s.r.bufSize := hmv.size
          have hhead : (s₁.r.headSeqNum + skipped) % seqModulo = (B + k + 1) % seqModulo := by
            rw [hrel.head, Nat.mod_add_mod]; congr 1; omega
          rw [hhead]
          set s₂ := s₁.setHead ((B + k + 1) % seqModulo) with hs₂
          have hsz₂ : s₂.r.bufSize = s.r.bufSize := hsz
          have h₂ : ScanAt s₂.r B (B + k + 1) (B + (k + 1)) := hrel.setHead (by omega) le_rfl
          have hm₂ : Moved s s₂ H (B + k + 1) := hmv.advance le_rfl _
          have hslot : ∀ m, slotOf s.r B m = slotOf s₂.r B m := fun m => by
            unfold slotOf; rw [hsz₂]
          rw [hsz₂, hnext, hslot, hslot]
          obtain ⟨H', hle, hw', hm'⟩ :=
            releaseTimedOut_spec now B fuel (k + 1) 0 (B + k + 1) s₂ h₂ (by omega) (by omega)
          exact ⟨H', by omega, hw', hm₂.trans hm'⟩

theorem ScanAt.index (h : ScanAt r B H P) : reorderIndex r r.headSeqNum = slotOf r H 0 := by
  rw [slotOf_zero, reorderIndex, h.head]

theorem releaseConsecutive_spec : ∀ (fuel H : ℕ) (s : RxSt), WindowAt s.r H → ∃ H' ≤ H + fuel,
      WindowAt (releaseConsecutive fuel (reorderIndex s.r s.r.headSeqNum) s).r H' ∧
      Moved s (releaseConsecutive fuel (reorderIndex s.r s.r.headSeqNum) s) H H'
  | 0, H, s, h => ⟨H, le_rfl, h, .refl s H⟩
  | fuel + 1, H, s, h => by
    rw [h.index]
    unfold releaseConsecutive
    cases hs : s.r.reorderBuf (slotOf s.r H 0) with
    | none => exact ⟨H, by omega, h, .refl s H⟩
    | some pkt =>
      obtain ⟨hrel, hmv⟩ := ScanAt.release (k := 0) h h.pos hs
      obtain ⟨H', hle, hw, hm⟩ := releaseConsecutive_spec fuel (H + 1) _ hrel.window
      exact ⟨H', by omega, hw, hmv.trans hm⟩

theorem Moved.timer (h : Moved s s' H H') (b : Bool) :
    Moved s { s' with timerSet := b } H H' := ⟨h.le, h.size, h.started, h.sleep, h.frames⟩

theorem Moved.recycle (h : Moved s s' H H') (pkt : RxPkt) :
    Moved s (s'.recycle pkt) H H' := ⟨h.le, h.size, h.started, h.sleep, h.frames⟩

theorem releaseReady_spec (now : ℕ) (h : WindowAt s.r H) :
    ∃ H' ≤ H + s.r.bufSize, WindowAt (releaseReady now s).1.r H' ∧ Moved s (releaseReady now s).1 H H' := by
  simp only [releaseReady]
  split_ifs with hc
  · have hnone : s.r.reorderBuf (slotOf s.r H 0) = none := by
      rw [← h.index]; exact Option.isNone_iff_eq_none.mp hc.1
    have hnext : (slotOf s.r H 0 + 1) % s.r.bufSize = slotOf s.r H 1 := by
      unfold slotOf; rw [Nat.mod_add_mod, Nat.add_assoc]
    rw [h.index, hnext]
    exact releaseTimedOut_spec now H s.r.bufSize 1 1 H s (ScanAt.skip (k := 0) h hnone) rfl h.pos
  · exact releaseConsecutive_spec s.r.bufSize H s h

theorem phlReorderRelease_spec (now : ℕ) (h : WindowAt s.r H) :
    ∃ H' ≤ H + s.r.bufSize, WindowAt (phlReorderRelease now s).r H' ∧ Moved s (phlReorderRelease now s) H H' := by
  obtain ⟨H', hle, hw, hm⟩ := releaseReady_spec now h
  refine ⟨H', hle, ?_⟩
  simp only [phlReorderRelease]
  split_ifs
  · exact ⟨hw, hm.timer true⟩
  · exact ⟨hw, hm⟩

theorem seqLess_head {T : ℕ} (h1 : H ≤ T) (h2 : T < H + seqModulo) :
    seqLess (H % seqModulo) (T % seqModulo) ↔ H < T ∧ T < H + seqModulo / 2 := by
  unfold seqLess seqSub
  rcases Nat.eq_or_lt_of_le h1 with rfl | hlt
  · rw [Serial.dist_self (by decide)]; omega
  · have : H % seqModulo = (H + seqModulo) % seqModulo := (Nat.add_mod_right _ _).symm
    rw [this, dist_mod (by omega) (by omega)]
    unfold seqModulo at *; omega

theorem releaseUpTo_spec {T : ℕ} : ∀ (fuel H : ℕ) (s : RxSt), WindowAt s.r H → H ≤ T →
    T ≤ H + fuel → T < H + seqModulo → (T < H + seqModulo / 2 ∨ s.r.storedMpduNum = 0) →
    ∃ H' ≤ T, WindowAt (releaseUpTo (T % seqModulo) fuel s).r H' ∧ Moved s (releaseUpTo (T % seqModulo) fuel s) H H' ∧
      (H' = T ∨ (releaseUpTo (T % seqModulo) fuel s).r.storedMpduNum = 0)
  | 0, H, s, h, hle, hT, _, _ => ⟨H, hle, h, .refl s H, Or.inl (by omega)⟩
  | fuel + 1, H, s, h, hle, hT, hM, hhalf => by
    unfold releaseUpTo
    split_ifs with hc
    · obtain ⟨hless, hne⟩ := hc
      rw [h.head, seqLess_head hle hM] at hless
      rw [h.index]
      have hstep : WindowAt (phlReleaseReorderFrame s (slotOf s.r H 0)).r (H + 1) ∧
          Moved s (phlReleaseReorderFrame s (slotOf s.r H 0)) H (H + 1) := by
        cases hs : s.r.reorderBuf (slotOf s.r H 0) with
        | none =>
          have hsk := ScanAt.skip (k := 0) h hs
          have heq : phlReleaseReorderFrame s (slotOf s.r H 0) = s.setHead ((H + 1) % seqModulo) := by
            simp only [phlReleaseReorderFrame, hs, seqInc, h.head]
            rw [Nat.mod_add_mod]
          rw [heq]
          exact ⟨(hsk.setHead (by omega) le_rfl).window, (Moved.refl s H).advance (by omega) _⟩
        | some pkt =>
          obtain ⟨hrel, hmv⟩ := ScanAt.release (k := 0) h h.pos hs
          exact ⟨hrel.window, hmv⟩
      obtain ⟨hw, hm⟩ := hstep
      obtain ⟨H', h1, h2, h3, h4⟩ := releaseUpTo_spec (T := T) fuel (H + 1) _ hw (by omega)
        (by omega)
        (by omega) (Or.inl (by omega))
      exact ⟨H', h1, h2, hm.trans h3, h4⟩
    · refine ⟨H, hle, h, .refl s H, ?_⟩
      by_cases h0 : s.r.storedMpduNum = 0
      · exact Or.inr h0
      · rw [not_and_or, h.head, seqLess_head hle hM] at hc
        rcases hc with hc | hc
        · exact Or.inl (by omega)
        · exact absurd hc (by simpa using h0)

theorem phlReleaseReorderFrames_spec {T : ℕ} (h : WindowAt s.r H) (hle : H ≤ T)
    (hT : T ≤ H + seqModulo / 2) (hhalf : T < H + seqModulo / 2 ∨ s.r.storedMpduNum = 0) :
    WindowAt (phlReleaseReorderFrames (T % seqModulo) s).r T ∧
      Moved s (phlReleaseReorderFrames (T % seqModulo) s) H T := by
  obtain ⟨H', h1, h2, h3, h4⟩ := releaseUpTo_spec seqModulo H s h hle
    (by unfold seqModulo at *; omega) (by unfold seqModulo at *; omega) hhalf
  refine ⟨?_, h3.advance h1 _⟩
  rcases h4 with rfl | h0
  · exact h2.setHead le_rfl le_rfl
  · refine ⟨h2.pos, h2.lt, rfl, le_rfl, le_rfl, fun i pkt hi => ?_, h2.stored⟩
    have : (phlReleaseReorderFrames (T % seqModulo) s).r.reorderBuf i = none := h2.empty_slots h0 i
    rw [this] at hi; cases hi

end Rtl8852cu.Rx
