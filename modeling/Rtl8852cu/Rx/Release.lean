import Mathlib.Algebra.Order.Group.Multiset
import Rtl8852cu.Lib.SumUpdate
import Rtl8852cu.Rx.Reorder

/-!
# Where the frames of a session are

A frame is identified by its address.  `RxSt.owned` collects the frames a session has recycled,
handed up or still stores.  `Releases s s'` is what the release functions do: frames go from slots to
the list and nowhere else (`phlReorderRelease_releases`, `phlReleaseReorderFrames_releases`).  A
received frame is added to what is owned exactly once (`owned_mpdu`).
-/

namespace Rtl8852cu.Rx

/-- The addresses of the frames of a list. -/
def ptrsOf (l : List RxPkt) : Multiset ℕ := (l.map RxPkt.ptr : List ℕ)

/-- The address of the frame in a slot. -/
def slotPtrs : Option RxPkt → Multiset ℕ
  | none => 0
  | some pkt => {pkt.ptr}

/-- The addresses of the stored frames. -/
def storedPtrs (r : TidAmpduRx) : Multiset ℕ := ∑ i ∈ Finset.range r.bufSize, slotPtrs (r.reorderBuf i)

/-- The addresses of all frames a session has been given. -/
def RxSt.owned (s : RxSt) : Multiset ℕ := ptrsOf s.recycled + ptrsOf s.frames + storedPtrs s.r

@[simp] theorem ptrsOf_append (l l' : List RxPkt) : ptrsOf (l ++ l') = ptrsOf l + ptrsOf l' := by
  simp [ptrsOf]

@[simp] theorem ptrsOf_single (pkt : RxPkt) : ptrsOf [pkt] = {pkt.ptr} := rfl

variable {i : ℕ}

theorem storedPtrs_update {r q : TidAmpduRx} {o : Option RxPkt} (hsize : q.bufSize = r.bufSize) (hi : i < r.bufSize)
    (hbuf : q.reorderBuf = Function.update r.reorderBuf i o) :
    slotPtrs (r.reorderBuf i) + storedPtrs q = slotPtrs o + storedPtrs r := by
  unfold storedPtrs
  rw [hsize, hbuf]; exact Lib.add_sum_update _ r.reorderBuf slotPtrs (Finset.mem_range.mpr hi) o

theorem owned_recycle (s : RxSt) (pkt : RxPkt) : (s.recycle pkt).owned = {pkt.ptr} + s.owned := by
  simp only [RxSt.owned, RxSt.recycle, ptrsOf_append, ptrsOf_single]
  rw [add_comm (ptrsOf s.recycled), add_assoc, add_assoc, ← add_assoc (ptrsOf s.recycled)]

theorem owned_passUp (s : RxSt) (pkt : RxPkt) : (passUp pkt (s, false)).owned = {pkt.ptr} + s.owned := by
  simp only [RxSt.owned, passUp, Bool.false_eq_true, if_false, ptrsOf_append, ptrsOf_single]
  ac_rfl

variable {s : RxSt}

theorem owned_store (pkt : RxPkt) (now : ℕ) (hi : i < s.r.bufSize)
    (hnone : s.r.reorderBuf i = none) : (s.store i pkt now).owned = {pkt.ptr} + s.owned := by
  have h := storedPtrs_update (r := s.r) (q := (s.store i pkt now).r) rfl hi rfl
  rw [hnone] at h
  simp only [slotPtrs, zero_add] at h
  simp only [RxSt.owned, h]
  simp only [RxSt.store]
  ac_rfl

theorem owned_unstore {pkt : RxPkt} (hi : i < s.r.bufSize)
    (hsome : s.r.reorderBuf i = some pkt) : (s.unstore i pkt).owned = s.owned := by
  have h := storedPtrs_update (r := s.r) (q := (s.unstore i pkt).r) rfl hi rfl
  rw [hsome] at h
  simp only [slotPtrs, zero_add] at h
  simp only [RxSt.owned, ← h]
  simp only [RxSt.unstore, ptrsOf_append, ptrsOf_single]
  ac_rfl

/-! ### Releasing -/

/-- Frames go from slots to the list of frames handed up; nothing else happens to them. -/
structure Releases (s s' : RxSt) : Prop where
  size : s'.r.bufSize = s.r.bufSize
  recycled : s'.recycled = s.recycled
  stored_le : s'.r.storedMpduNum ≤ s.r.storedMpduNum
  owned : s'.owned = s.owned

theorem Releases.refl (s : RxSt) : Releases s s := ⟨rfl, rfl, le_rfl, rfl⟩

theorem Releases.trans {s' s'' : RxSt} (h : Releases s s') (h' : Releases s' s'') : Releases s s'' :=
  ⟨h'.size.trans h.size, h'.recycled.trans h.recycled, h'.stored_le.trans h.stored_le, h'.owned.trans h.owned⟩

theorem Releases.setHead {s' : RxSt} (h : Releases s s') (head : ℕ) :
    Releases s (s'.setHead head) := ⟨h.size, h.recycled, h.stored_le, h.owned⟩

theorem phlReleaseReorderFrame_releases (hi : i < s.r.bufSize) : Releases s (phlReleaseReorderFrame s i) := by
  unfold phlReleaseReorderFrame
  cases hs : s.r.reorderBuf i with
  | none => exact (Releases.refl s).setHead _
  | some pkt =>
    have h : Releases s (s.unstore i pkt) := ⟨rfl, rfl, Nat.sub_le _ _, owned_unstore hi hs⟩
    exact h.setHead _

theorem releaseTimedOut_releases (now index : ℕ) : ∀ (fuel j skipped : ℕ) (s : RxSt),
    j < s.r.bufSize → Releases s (releaseTimedOut now index fuel j skipped s).1
  | 0, _, _, s, _ => .refl s
  | fuel + 1, j, skipped, s, hj => by
    have hnext : (j + 1) % s.r.bufSize < s.r.bufSize := Nat.mod_lt _ (by omega)
    unfold releaseTimedOut
    by_cases hji : j = index
    · rw [if_pos hji]; exact .refl s
    · rw [if_neg hji]
      cases s.r.reorderBuf j with
      | none => exact releaseTimedOut_releases now index fuel _ _ s hnext
      | some pkt =>
        simp only
        split_ifs
        · exact .refl s
        · have hrel := (phlReleaseReorderFrame_releases hj).setHead
            (((phlReleaseReorderFrame s j).r.headSeqNum + skipped) % seqModulo)
          refine hrel.trans (releaseTimedOut_releases now index fuel _ _ _ ?_)
          rw [hrel.size]; exact hnext

theorem releaseConsecutive_releases : ∀ (fuel index : ℕ) (s : RxSt), index < s.r.bufSize →
    Releases s (releaseConsecutive fuel index s)
  | 0, _, s, _ => .refl s
  | fuel + 1, index, s, hi => by
    unfold releaseConsecutive
    cases s.r.reorderBuf index with
    | none => exact .refl s
    | some pkt =>
      have hrel := phlReleaseReorderFrame_releases hi
      exact hrel.trans (releaseConsecutive_releases fuel _ _
        (Nat.mod_lt _ (by rw [hrel.size]; omega)))

theorem releaseReady_releases (now : ℕ) (hpos : 0 < s.r.bufSize) : Releases s (releaseReady now s).1 := by
  simp only [releaseReady]
  split_ifs
  · exact releaseTimedOut_releases _ _ _ _ _ s (Nat.mod_lt _ hpos)
  · exact releaseConsecutive_releases _ _ s (Nat.mod_lt _ hpos)

theorem phlReorderRelease_releases (now : ℕ) (hpos : 0 < s.r.bufSize) : Releases s (phlReorderRelease now s) := by
  have h := releaseReady_releases now hpos
  simp only [phlReorderRelease]
  split_ifs
  · exact ⟨h.size, h.recycled, h.stored_le, h.owned⟩
  · exact h

theorem releaseUpTo_releases (T : ℕ) : ∀ (fuel : ℕ) (s : RxSt), 0 < s.r.bufSize → Releases s (releaseUpTo T fuel s)
  | 0, s, _ => .refl s
  | fuel + 1, s, hpos => by
    unfold releaseUpTo
    split_ifs
    · have hrel := phlReleaseReorderFrame_releases (s := s)
        (i := reorderIndex s.r s.r.headSeqNum) (Nat.mod_lt _ hpos)
      exact hrel.trans (releaseUpTo_releases T fuel _ (by rw [hrel.size]; exact hpos))
    · exact .refl s

theorem phlReleaseReorderFrames_releases (T : ℕ) (hpos : 0 < s.r.bufSize) :
    Releases s (phlReleaseReorderFrames T s) := (releaseUpTo_releases T _ s hpos).setHead _

theorem makeRoom_releases (pkt : RxPkt) (hpos : 0 < s.r.bufSize) : Releases s (makeRoom pkt s) := by
  unfold makeRoom
  split_ifs with hin
  · exact .refl s
  · exact phlReleaseReorderFrames_releases _ hpos

theorem rtwPhlRxBar_releases (seq : ℕ) (hpos : 0 < s.r.bufSize) : Releases s (rtwPhlRxBar seq s) := by
  unfold rtwPhlRxBar
  split_ifs
  · exact .refl s
  · exact phlReleaseReorderFrames_releases _ hpos

/-! ### A received frame -/

theorem owned_placeMpdu (now : ℕ) (pkt : RxPkt) (hpos : 0 < s.r.bufSize) :
    (passUp pkt (placeMpdu now pkt s)).owned = {pkt.ptr} + s.owned ∧
      (passUp pkt (placeMpdu now pkt s)).r.bufSize = s.r.bufSize := by
  have hi : reorderIndex s.r pkt.mdata.seq < s.r.bufSize := Nat.mod_lt _ hpos
  simp only [placeMpdu]
  split_ifs with hs hd
  · exact ⟨owned_recycle s pkt, rfl⟩
  · exact ⟨owned_passUp (s.setHead (seqInc s.r.headSeqNum)) pkt, rfl⟩
  · have hrel := phlReorderRelease_releases now
      (s := s.store (reorderIndex s.r pkt.mdata.seq) pkt now) hpos
    refine ⟨hrel.owned.trans (owned_store pkt now hi ?_), hrel.size⟩
    rw [← Option.not_isSome_iff_eq_none]; exact hs

theorem owned_acceptMpdu (now : ℕ) (pkt : RxPkt) (hpos : 0 < s.r.bufSize) :
    (passUp pkt (acceptMpdu now pkt s)).owned = {pkt.ptr} + s.owned ∧
      (passUp pkt (acceptMpdu now pkt s)).r.bufSize = s.r.bufSize := by
  unfold acceptMpdu
  split_ifs
  · exact ⟨owned_recycle s pkt, rfl⟩
  · have hroom := makeRoom_releases pkt hpos
    obtain ⟨hown, hsize⟩ := owned_placeMpdu now pkt
      (s := makeRoom pkt s) (by rw [hroom.size]; exact hpos)
    exact ⟨hown.trans (by rw [hroom.owned]), hsize.trans hroom.size⟩

theorem owned_mpdu (now : ℕ) (pkt : RxPkt) (hpos : 0 < s.r.bufSize) :
    (passUp pkt (phlManageStaReorderBuf now pkt s)).owned = {pkt.ptr} + s.owned ∧
      (passUp pkt (phlManageStaReorderBuf now pkt s)).r.bufSize = s.r.bufSize := by
  unfold phlManageStaReorderBuf
  split_ifs
  · exact ⟨owned_passUp s pkt, rfl⟩
  · have hwake : (wakeUp pkt (setStarted s)).owned = s.owned ∧
        (wakeUp pkt (setStarted s)).r.bufSize = s.r.bufSize := by
      unfold wakeUp
      split_ifs
      · exact ⟨rfl, rfl⟩
      · exact ⟨rfl, rfl⟩
    obtain ⟨hown, hsize⟩ := owned_acceptMpdu now pkt
      (s := wakeUp pkt (setStarted s)) (by rw [hwake.2]; exact hpos)
    exact ⟨hown.trans (by rw [hwake.1]), hsize.trans hwake.2⟩

end Rtl8852cu.Rx
