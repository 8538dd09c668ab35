import Rtl8852cu.Rx.Session

/-!
# What is ready is handed up

After an operation the slot of the head should be empty and the reorder timer should run while frames are stored (`Drained`).  In a
ring whose size divides the sequence numbers (`RingOk`) this is a matter of slots alone: `phl_reorder_release` establishes it
(`phlReorderRelease_drained`), and the two places that move the head without it leave a frame that is ready (`LeavesReady`).
-/

namespace Rtl8852cu.Rx

open Lib Lib.Serial
open Function (update update_of_ne)

/-- A session whose ring goes round with the sequence numbers. -/
structure RingOk (r : TidAmpduRx) : Prop where
  pos : 0 < r.bufSize
  lt : r.bufSize < 1024
  dvd : r.bufSize ∣ seqModulo / 2
  head : r.headSeqNum < seqModulo
  inside : ∀ i, r.bufSize ≤ i → r.reorderBuf i = none
  stored : r.storedMpduNum = filled r
  live : r.removed = false

def headSlot (r : TidAmpduRx) : Option RxPkt := r.reorderBuf (reorderIndex r r.headSeqNum)

namespace RingOk

variable {r r' : TidAmpduRx} {s : RxSt} {i : ℕ}

theorem dvd_modulo (h : RingOk r) : r.bufSize ∣ seqModulo := h.dvd.trans (by decide)

theorem slot (h : RingOk r) (p : ℕ) : reorderIndex r (p % seqModulo) = p % r.bufSize := slot_of_dvd h.dvd_modulo p

theorem stored_le (h : RingOk r) : r.storedMpduNum ≤ r.bufSize := by
  rw [h.stored]; exact (Finset.card_filter_le _ _).trans (Finset.card_range _).le

theorem empty (h : RingOk r) (h0 : r.storedMpduNum = 0) (i : ℕ) : r.reorderBuf i = none := by
  rcases Nat.lt_or_ge i r.bufSize with hi | hi
  · exact filled_eq_zero.mp (h.stored.symm.trans h0) i hi
  · exact h.inside i hi

theorem congr (h : RingOk r) (hbuf : r'.reorderBuf = r.reorderBuf) (hsize : r'.bufSize = r.bufSize)
    (hstored : r'.storedMpduNum = r.storedMpduNum) (hlive : r'.removed = r.removed) (hhead : r'.headSeqNum < seqModulo) : RingOk r' where
  pos := hsize ▸ h.pos
  lt := hsize ▸ h.lt
  dvd := hsize ▸ h.dvd
  head := hhead
  inside := by
    rw [hbuf, hsize]; exact h.inside
  stored := by
    rw [hstored, h.stored]
    unfold filled
    rw [hsize, hbuf]
  live := hlive.trans h.live

theorem setHead (h : RingOk s.r) {head : ℕ} (hhead : head < seqModulo) : RingOk (s.setHead head).r := h.congr rfl rfl rfl rfl hhead

theorem store (h : RingOk s.r) (hi : i < s.r.bufSize) (hnone : s.r.reorderBuf i = none) (pkt : RxPkt) (now : ℕ) :
    RingOk (s.store i pkt now).r where
  pos := h.pos
  lt := h.lt
  dvd := h.dvd
  head := h.head
  inside := fun j hj => by
    show update s.r.reorderBuf i (some pkt) j = none
    rw [update_of_ne (lt_of_lt_of_le hi hj).ne']; exact h.inside j hj
  stored := by
    have hfilled : filled (s.store i pkt now).r = filled s.r + 1 := filled_store rfl hi hnone rfl
    rw [hfilled, ← h.stored]; rfl
  live := h.live

end RingOk

/-! ### One frame -/

/-- What `phl_release_reorder_frame` does to the ring: the slot is empty and the head is one further. -/
structure SlotFreed (s s' : RxSt) (i : ℕ) : Prop where
  ring : RingOk s'.r
  size : s'.r.bufSize = s.r.bufSize
  buf : s'.r.reorderBuf = update s.r.reorderBuf i none
  head : s'.r.headSeqNum = seqInc s.r.headSeqNum

variable {s : RxSt} {i : ℕ}

theorem phlReleaseReorderFrame_none (hs : s.r.reorderBuf i = none) :
    phlReleaseReorderFrame s i = s.setHead (seqInc s.r.headSeqNum) := by
  unfold phlReleaseReorderFrame
  rw [hs]

theorem phlReleaseReorderFrame_some {pkt : RxPkt} (hs : s.r.reorderBuf i = some pkt) :
    phlReleaseReorderFrame s i = (s.unstore i pkt).setHead (seqInc s.r.headSeqNum) := by
  unfold phlReleaseReorderFrame
  rw [hs]

theorem phlReleaseReorderFrame_freed (h : RingOk s.r) (hi : i < s.r.bufSize) :
    SlotFreed s (phlReleaseReorderFrame s i) i := by
  have hinc : seqInc s.r.headSeqNum < seqModulo := Nat.mod_lt _ (by decide)
  cases hs : s.r.reorderBuf i with
  | none =>
    rw [phlReleaseReorderFrame_none hs]
    refine ⟨h.setHead hinc, rfl, ?_, rfl⟩
    rw [← hs, Function.update_eq_self]; rfl
  | some pkt =>
    rw [phlReleaseReorderFrame_some hs]
    refine ⟨⟨h.pos, h.lt, h.dvd, hinc, fun j hj => ?_, ?_, h.live⟩, rfl, rfl, rfl⟩
    · show update s.r.reorderBuf i none j = none
      rw [update_of_ne (lt_of_lt_of_le hi hj).ne']; exact h.inside j hj
    · rw [filled_unstore (r := s.r) (q := ((s.unstore i pkt).setHead (seqInc s.r.headSeqNum)).r) rfl hi hs rfl, ← h.stored]
      rfl

theorem SlotFreed.stored {s' : RxSt} {pkt : RxPkt} (h : RingOk s.r) (hf : SlotFreed s s' i) (hi : i < s.r.bufSize)
    (hs : s.r.reorderBuf i = some pkt) : s'.r.storedMpduNum = s.r.storedMpduNum - 1 := by
  rw [hf.ring.stored, filled_unstore hf.size hi hs hf.buf, ← h.stored]

/-! ### `phl_reorder_release` -/

/-- A loop that ends with the slot of the head empty. -/
structure Emptied (s s' : RxSt) : Prop where
  ring : RingOk s'.r
  size : s'.r.bufSize = s.r.bufSize
  head : headSlot s'.r = none

theorem releaseConsecutive_emptied : ∀ (fuel : ℕ) (s : RxSt), RingOk s.r → s.r.storedMpduNum ≤ fuel →
    Emptied s (releaseConsecutive fuel (reorderIndex s.r s.r.headSeqNum) s)
  | 0, s, h, hfuel => ⟨h, rfl, h.empty (Nat.le_zero.mp hfuel) _⟩
  | fuel + 1, s, h, hfuel => by
    unfold releaseConsecutive
    have hi : reorderIndex s.r s.r.headSeqNum < s.r.bufSize := Nat.mod_lt _ h.pos
    cases hs : s.r.reorderBuf (reorderIndex s.r s.r.headSeqNum) with
    | none => exact ⟨h, rfl, hs⟩
    | some pkt =>
      have hf := phlReleaseReorderFrame_freed h hi
      have hstored := hf.stored h hi hs
      obtain ⟨hring, hsize, hhead⟩ := releaseConsecutive_emptied fuel _ hf.ring (by omega)
      exact ⟨hring, hsize.trans hf.size, hhead⟩

theorem releaseTimedOut_emptied (now index : ℕ) : ∀ (fuel k skipped H : ℕ) (s : RxSt), RingOk s.r → s.r.headSeqNum = H % seqModulo →
    index < s.r.bufSize → s.r.reorderBuf index = none → 1 ≤ k → k ≤ s.r.bufSize → s.r.bufSize ≤ k + fuel →
    (index + k) % s.r.bufSize = (H + skipped) % s.r.bufSize → (skipped ≠ 0 → headSlot s.r = none) →
    Emptied s (releaseTimedOut now index fuel ((index + k) % s.r.bufSize) skipped s).1
  | fuel, k, skipped, H, s, h, hH, hindex, hnone, hk1, hk, hfuel, hat, hskip => by
    have hslot : reorderIndex s.r s.r.headSeqNum = H % s.r.bufSize := by rw [hH, h.slot]
    -- the scan is back at its start
    have hback : k = s.r.bufSize → Emptied s s := by
      intro hkb
      refine ⟨h, rfl, ?_⟩
      by_cases h0 : skipped = 0
      · unfold headSlot
        rw [hslot, ← Nat.add_zero H, ← h0, ← hat, hkb, Nat.add_mod_right, Nat.mod_eq_of_lt hindex]
        exact hnone
      · exact hskip h0
    match fuel with
    | 0 => exact hback (by omega)
    | fuel + 1 =>
      unfold releaseTimedOut
      by_cases hj : (index + k) % s.r.bufSize = index
      · rw [if_pos hj]
        refine hback ?_
        rcases Nat.lt_or_ge k s.r.bufSize with hlt | hge
        · have := eq_of_mod_eq (hj.trans (Nat.mod_eq_of_lt hindex).symm) (by omega) (by omega)
          omega
        · omega
      · rw [if_neg hj]
        have hlt : k < s.r.bufSize := by
          refine lt_of_le_of_ne hk fun hkb => hj ?_
          rw [hkb, Nat.add_mod_right, Nat.mod_eq_of_lt hindex]
        have hnext : ((index + k) % s.r.bufSize + 1) % s.r.bufSize = (index + (k + 1)) % s.r.bufSize := Nat.mod_add_mod _ _ _
        have hji : (index + k) % s.r.bufSize < s.r.bufSize := Nat.mod_lt _ h.pos
        cases hs : s.r.reorderBuf ((index + k) % s.r.bufSize) with
        | none =>
          simp only
          rw [hnext]
          refine releaseTimedOut_emptied now index fuel (k + 1) (skipped + 1) H s h hH hindex hnone (by omega) hlt (by omega) ?_ fun _ => ?_
          · rw [← Nat.add_assoc, ← Nat.add_assoc, Nat.add_mod, hat, ← Nat.add_mod]
          · by_cases h0 : skipped = 0
            · unfold headSlot
              rw [hslot, ← Nat.add_zero H, ← h0, ← hat]; exact hs
            · exact hskip h0
        | some pkt =>
          simp only
          split_ifs with hw
          · exact ⟨h, rfl, hskip hw.1⟩
          · have hf := phlReleaseReorderFrame_freed h hji
            set s₁ := phlReleaseReorderFrame s ((index + k) % s.r.bufSize) with hs₁
            have hhead : (s₁.r.headSeqNum + skipped) % seqModulo = (H + skipped + 1) % seqModulo := by
              rw [hf.head, hH]
              unfold seqInc
              rw [Nat.mod_add_mod, Nat.add_assoc, Nat.mod_add_mod, Nat.add_comm 1, ← Nat.add_assoc]
            rw [hhead]
            set s₂ := s₁.setHead ((H + skipped + 1) % seqModulo) with hs₂
            have hsize : s₂.r.bufSize = s.r.bufSize := hf.size
            have hne : index ≠ (index + k) % s.r.bufSize := fun he => hj he.symm
            have hbuf : s₂.r.reorderBuf index = none := by
              show s₁.r.reorderBuf index = none
              rw [hf.buf, update_of_ne hne]; exact hnone
            rw [hsize, hnext, ← hsize]
            have hring : RingOk s₂.r := hf.ring.setHead (Nat.mod_lt _ (by decide))
            have hE := releaseTimedOut_emptied now index fuel (k + 1) 0 (H + skipped + 1) s₂ hring rfl (hsize ▸ hindex) hbuf (by omega)
              (by rw [hsize]; exact hlt) (by rw [hsize]; omega)
              (by rw [hsize, ← Nat.add_assoc, Nat.add_zero, Nat.add_mod, hat, ← Nat.add_mod]) (fun h0 => absurd rfl h0)
            exact ⟨hE.ring, hE.size.trans hsize, hE.head⟩

theorem releaseReady_emptied (now : ℕ) (h : RingOk s.r) : Emptied s (releaseReady now s).1 := by
  unfold releaseReady
  simp only
  split
  case isTrue hc =>
    have hnone : headSlot s.r = none := Option.isNone_iff_eq_none.mp hc.1
    have hH : s.r.headSeqNum = s.r.headSeqNum % seqModulo := (Nat.mod_eq_of_lt h.head).symm
    refine releaseTimedOut_emptied now _ s.r.bufSize 1 1 s.r.headSeqNum s h hH (Nat.mod_lt _ h.pos) hnone le_rfl h.pos (by omega) ?_
      fun _ => hnone
    unfold reorderIndex
    rw [Nat.mod_add_mod]
  case isFalse => exact releaseConsecutive_emptied _ s h h.stored_le

theorem phlReorderRelease_emptied (now : ℕ) (h : RingOk s.r) : Emptied s (phlReorderRelease now s) ∧
      ((phlReorderRelease now s).r.storedMpduNum ≠ 0 → (phlReorderRelease now s).timerSet = true) := by
  have hE := releaseReady_emptied now h
  unfold phlReorderRelease
  simp only
  split
  case isTrue => exact ⟨⟨hE.ring, hE.size, hE.head⟩, fun _ => rfl⟩
  case isFalse hc => exact ⟨hE, fun hne => absurd ⟨Or.inr hne, by rw [hE.ring.live]; exact Bool.false_ne_true⟩ hc⟩

/-! ### Moving the head -/

/-- What the loop of `phl_release_reorder_frames` does on the way from `H` to `T`: the slots on the way are emptied, the others are
left alone. -/
structure Passed (s s' : RxSt) (H T : ℕ) : Prop where
  ring : RingOk s'.r
  size : s'.r.bufSize = s.r.bufSize
  clear : ∀ p, H ≤ p → p < T → s'.r.reorderBuf (p % s.r.bufSize) = none
  keep : ∀ i, (∀ p, H ≤ p → p < T → p % s.r.bufSize ≠ i) → s'.r.reorderBuf i = s.r.reorderBuf i

theorem releaseUpTo_passed {T : ℕ} : ∀ (fuel H : ℕ) (s : RxSt), RingOk s.r → s.r.headSeqNum = H % seqModulo → H ≤ T →
    T < H + seqModulo / 2 → T ≤ H + fuel → Passed s (releaseUpTo (T % seqModulo) fuel s) H T
  | 0, H, s, h, _, _, _, hfuel => ⟨h, rfl, fun p h1 h2 => absurd h2 (by omega), fun _ _ => rfl⟩
  | fuel + 1, H, s, h, hH, hle, hT, hfuel => by
    unfold releaseUpTo
    split_ifs with hc
    · obtain ⟨hless, -⟩ := hc
      rw [hH, seqLess_head hle (by unfold seqModulo at *; omega)] at hless
      have hslot : reorderIndex s.r s.r.headSeqNum = H % s.r.bufSize := by rw [hH, h.slot]
      rw [hslot]
      have hf := phlReleaseReorderFrame_freed h (Nat.mod_lt H h.pos)
      have hhead : (phlReleaseReorderFrame s (H % s.r.bufSize)).r.headSeqNum = (H + 1) % seqModulo := by
        rw [hf.head, hH]; exact Nat.mod_add_mod _ _ _
      have hp := releaseUpTo_passed (T := T) fuel (H + 1) _ hf.ring hhead hless.1 (by omega) (by omega)
      refine ⟨hp.ring, hp.size.trans hf.size, fun p h1 h2 => ?_, fun i hi => ?_⟩
      · by_cases hmore : ∃ q, H + 1 ≤ q ∧ q < T ∧ q % s.r.bufSize = p % s.r.bufSize
        · obtain ⟨q, h3, h4, hq⟩ := hmore
          have hclear := hp.clear q h3 h4
          rw [hf.size, hq] at hclear; exact hclear
        · have hpH : p = H := by
            by_contra hne
            exact hmore ⟨p, by omega, h2, rfl⟩
          rw [hp.keep _ fun q h3 h4 hq => hmore ⟨q, h3, h4, by rw [hf.size] at hq; exact hq⟩, hf.buf, hpH, Function.update_self]
      · rw [hp.keep i fun q h3 h4 hq => hi q (by omega) h4 (by rw [hf.size] at hq; exact hq), hf.buf,
          update_of_ne (hi H le_rfl hless.1).symm]
    · by_cases h0 : s.r.storedMpduNum = 0
      · exact ⟨h, rfl, fun p _ _ => h.empty h0 _, fun i _ => rfl⟩
      · rw [not_and_or, hH, seqLess_head hle (by unfold seqModulo at *; omega)] at hc
        have hT : T = H := by
          rcases hc with hc | hc
          · omega
          · exact absurd h0 hc
        exact ⟨h, rfl, fun p h1 h2 => absurd h2 (by omega), fun _ _ => rfl⟩

theorem phlReleaseReorderFrames_passed {T : ℕ} (h : RingOk s.r) (hle : s.r.headSeqNum ≤ T)
    (hT : T < s.r.headSeqNum + seqModulo / 2) :
    Passed s (phlReleaseReorderFrames (T % seqModulo) s) s.r.headSeqNum T := by
  have hp := releaseUpTo_passed seqModulo s.r.headSeqNum s h (Nat.mod_eq_of_lt h.head).symm hle hT (by unfold seqModulo at *; omega)
  exact ⟨hp.ring.setHead (Nat.mod_lt _ (by decide)), hp.size, hp.clear, hp.keep⟩

end Rtl8852cu.Rx
