import Mathlib.Algebra.BigOperators.Group.Finset.Basic
import Rtl8852cu.Rx.Station

/-!
# Every received frame has exactly one owner

The addresses of the frames given to `phl_rx_reorder` are, counted with multiplicity, those recycled,
those put on a `frames` list and those stored in a slot of a live session (`frame_ownership`): for
every run of operations on any number of stations.  A frame given once is therefore in exactly one of
these places, and once its session has been stopped or freed it has been delivered or recycled.

`Owns sys m` says that the frames in all places together are `m`.  Every operation but
`phl_rx_reorder` keeps `m`, and that one adds the frame received.
-/

set_option linter.unusedSectionVars false

namespace Rtl8852cu.Rx

open Lib

variable {ι : Type*} [DecidableEq ι]

/-! ### Tearing a session down -/

theorem ptrsOf_filterMap_range (buf : ℕ → Option RxPkt) (n : ℕ) :
    ptrsOf ((List.range n).filterMap buf) = ∑ i ∈ Finset.range n, slotPtrs (buf i) := by
  induction n with
  | zero => rfl
  | succ n ih =>
    rw [List.range_succ, List.filterMap_append, ptrsOf_append, ih, Finset.sum_range_succ]
    congr 1
    cases h : buf n with
    | none => simp [h, slotPtrs, ptrsOf]
    | some pkt => simp [h, slotPtrs, ptrsOf]

theorem ptrsOf_phlTidAmpduRxFree (r : TidAmpduRx) : ptrsOf (phlTidAmpduRxFree r) = storedPtrs r :=
  ptrsOf_filterMap_range r.reorderBuf r.bufSize

theorem storedPtrs_alloc (ssn tid n : ℕ) : storedPtrs (phlTidAmpduRxAlloc ssn tid n) = 0 :=
  Finset.sum_eq_zero fun _ _ => rfl

theorem applyBufSize_pos (n : ℕ) : 0 < applyBufSize n := by
  unfold applyBufSize phlMaxAggWsize
  split_ifs with h
  · decide
  · omega

/-! ### All places -/

/-- The addresses stored in an entry of `tid_rx`. -/
def tidPtrs : Option TidAmpduRx → Multiset ℕ
  | none => 0
  | some r => storedPtrs r

/-- The addresses stored for a station. -/
def staPtrs (tidRx : ℕ → Option TidAmpduRx) : Multiset ℕ :=
  ∑ tid ∈ Finset.range rtwMaxTidNum, tidPtrs (tidRx tid)

variable [Fintype ι]

/-- The addresses stored in slots of live sessions. -/
def RxSys.stored (sys : RxSys ι) : Multiset ℕ := ∑ sta, staPtrs (sys.tidRx sta)

/-- The frames in all places together are `m`. -/
structure Owns (sys : RxSys ι) (m : Multiset ℕ) : Prop where
  size : ∀ sta tid r, sys.tidRx sta tid = some r → 0 < r.bufSize
  total : ptrsOf sys.recycled + ptrsOf sys.frames + sys.stored = m

theorem empty_owns : Owns (RxSys.empty : RxSys ι) 0 := by
  refine ⟨fun sta tid r h => ?_, ?_⟩
  · cases h
  · have : (RxSys.empty : RxSys ι).stored = 0 :=
      Finset.sum_eq_zero fun _ _ => Finset.sum_eq_zero fun _ _ => rfl
    rw [this]; rfl

variable {tid : ℕ}

theorem stored_setTid (sys : RxSys ι) (sta : ι) (htid : tid < rtwMaxTidNum) (o : Option TidAmpduRx) :
    tidPtrs (sys.tidRx sta tid) + (sys.setTid sta tid o).stored = tidPtrs o + sys.stored := by
  have h1 := add_sum_update (Finset.range rtwMaxTidNum) (sys.tidRx sta) tidPtrs
    (Finset.mem_range.mpr htid) o
  have h2 := add_sum_update Finset.univ sys.tidRx staPtrs (Finset.mem_univ sta)
    (Function.update (sys.tidRx sta) tid o)
  -- the station's own share is exchanged for its share with the entry overwritten
  have h3 : staPtrs (sys.tidRx sta) + (tidPtrs (sys.tidRx sta tid) + (sys.setTid sta tid o).stored) =
      staPtrs (sys.tidRx sta) + (tidPtrs o + sys.stored) := by
    calc staPtrs (sys.tidRx sta) + (tidPtrs (sys.tidRx sta tid) + (sys.setTid sta tid o).stored)
        = tidPtrs (sys.tidRx sta tid) +
            (staPtrs (sys.tidRx sta) + (sys.setTid sta tid o).stored) := add_left_comm _ _ _
      _ = tidPtrs (sys.tidRx sta tid) + (staPtrs (Function.update (sys.tidRx sta) tid o) + sys.stored) :=
          congrArg (tidPtrs (sys.tidRx sta tid) + ·) h2
      _ = tidPtrs (sys.tidRx sta tid) + staPtrs (Function.update (sys.tidRx sta) tid o) +
            sys.stored := (add_assoc _ _ _).symm
      _ = tidPtrs o + staPtrs (sys.tidRx sta) + sys.stored := congrArg (· + sys.stored) h1
      _ = staPtrs (sys.tidRx sta) + (tidPtrs o + sys.stored) := by
          rw [add_comm (tidPtrs o), add_assoc]
  exact add_left_cancel h3

variable {sys : RxSys ι}

theorem size_setTid {sta : ι} {o : Option TidAmpduRx}
    (h : ∀ s t r, sys.tidRx s t = some r → 0 < r.bufSize) (ho : ∀ r, o = some r → 0 < r.bufSize) :
    ∀ s t r, (sys.setTid sta tid o).tidRx s t = some r → 0 < r.bufSize := by
  intro s t r hr
  simp only [RxSys.setTid, Function.update_apply] at hr
  by_cases hs : s = sta
  · rw [if_pos hs, Function.update_apply] at hr
    by_cases ht : t = tid
    · rw [if_pos ht] at hr; exact ho r hr
    · rw [if_neg ht] at hr; exact h sta t r hr
  · rw [if_neg hs] at hr; exact h s t r hr

variable {m : Multiset ℕ}

theorem Owns.addFrame (h : Owns sys m) (pkt : RxPkt) : Owns (sys.addFrame pkt) ({pkt.ptr} + m) := by
  refine ⟨h.size, ?_⟩
  rw [← h.total]
  change ptrsOf sys.recycled + ptrsOf (sys.frames ++ [pkt]) + sys.stored = _
  rw [ptrsOf_append, ptrsOf_single]
  ac_rfl

theorem Owns.recycle (h : Owns sys m) (l : List RxPkt) : Owns (sys.recycle l) (ptrsOf l + m) := by
  refine ⟨h.size, ?_⟩
  rw [← h.total]
  change ptrsOf (sys.recycled ++ l) + ptrsOf sys.frames + sys.stored = _
  rw [ptrsOf_append]
  ac_rfl

variable {f : RxSt → RxSt}

theorem Owns.onSession {x : Multiset ℕ} {sta : ι} {r : TidAmpduRx} (h : Owns sys m) (htid : tid < rtwMaxTidNum)
    (hr : sys.tidRx sta tid = some r)
    (hf : (f (.start r)).owned = x + (RxSt.start r).owned ∧ (f (.start r)).r.bufSize = r.bufSize) :
    Owns (sys.onSession sta tid r f) (x + m) := by
  obtain ⟨hown, hsize⟩ := hf
  refine ⟨size_setTid h.size fun q hq => ?_, ?_⟩
  · rw [← Option.some.inj hq, hsize]; exact h.size sta tid r hr
  · have hst := stored_setTid sys sta htid (some (f (.start r)).r)
    rw [hr] at hst
    have hown' : ptrsOf (f (.start r)).recycled + ptrsOf (f (.start r)).frames +
        storedPtrs (f (.start r)).r = x + storedPtrs r := by
      have : (RxSt.start r).owned = storedPtrs r := by simp [RxSt.owned, RxSt.start, ptrsOf]
      rw [← this, ← hown]; rfl
    change ptrsOf (sys.recycled ++ (f (.start r)).recycled) + ptrsOf (sys.frames ++ (f (.start r)).frames) +
        (sys.setTid sta tid (some (f (.start r)).r)).stored = x + m
    rw [ptrsOf_append, ptrsOf_append, ← h.total]
    refine add_left_cancel (a := storedPtrs r) ?_
    calc storedPtrs r + (ptrsOf sys.recycled + ptrsOf (f (.start r)).recycled +
          (ptrsOf sys.frames + ptrsOf (f (.start r)).frames) +
          (sys.setTid sta tid (some (f (.start r)).r)).stored)
        = ptrsOf sys.recycled + ptrsOf sys.frames + (ptrsOf (f (.start r)).recycled + ptrsOf (f (.start r)).frames) +
            (storedPtrs r + (sys.setTid sta tid (some (f (.start r)).r)).stored) := by ac_rfl
      _ = ptrsOf sys.recycled + ptrsOf sys.frames + (ptrsOf (f (.start r)).recycled + ptrsOf (f (.start r)).frames) +
            (storedPtrs (f (.start r)).r + sys.stored) := congrArg (_ + ·) hst
      _ = ptrsOf sys.recycled + ptrsOf sys.frames + (ptrsOf (f (.start r)).recycled + ptrsOf (f (.start r)).frames +
              storedPtrs (f (.start r)).r) + sys.stored := by ac_rfl
      _ = storedPtrs r + (x + (ptrsOf sys.recycled + ptrsOf sys.frames + sys.stored)) := by
          rw [hown']
          ac_rfl

/-- An operation that gives a session nothing. -/
def Keeps (f : RxSt → RxSt) : Prop :=
  ∀ s, 0 < s.r.bufSize → (f s).owned = s.owned ∧ (f s).r.bufSize = s.r.bufSize

theorem Owns.onTid (h : Owns sys m) (hf : Keeps f) (sta : ι) (htid : tid < rtwMaxTidNum) :
    Owns (sys.onTid sta f tid) m := by
  unfold RxSys.onTid
  cases hr : sys.tidRx sta tid with
  | none => exact h
  | some r =>
    obtain ⟨hown, hsize⟩ := hf (.start r) (h.size sta tid r hr)
    have := h.onSession (x := 0) htid hr ⟨by rw [zero_add]; exact hown, hsize⟩
    rw [zero_add] at this; exact this

theorem Owns.onEachTid (h : Owns sys m) (hf : Keeps f) (sta : ι) : Owns (sys.onEachTid sta f) m :=
  List.foldlRecOn (motive := fun s => Owns s m) _ _ h fun _ hs _ htid =>
    hs.onTid hf sta (List.mem_range.mp htid)

theorem Owns.freeTid (h : Owns sys m) (sta : ι) (htid : tid < rtwMaxTidNum) : Owns (freeTid sta sys tid) m := by
  unfold Rx.freeTid
  cases hr : sys.tidRx sta tid with
  | none => exact h
  | some r =>
    have hrec := h.recycle (phlTidAmpduRxFree r)
    refine ⟨size_setTid h.size (fun q hq => by cases hq), ?_⟩
    have hst := stored_setTid (sys.recycle (phlTidAmpduRxFree r)) sta htid none
    rw [show (sys.recycle (phlTidAmpduRxFree r)).tidRx sta tid = some r from hr] at hst
    rw [ptrsOf_phlTidAmpduRxFree] at hrec
    refine add_left_cancel (a := storedPtrs r) ?_
    rw [← hrec.total]
    simp only [tidPtrs, zero_add] at hst
    rw [← hst]
    change storedPtrs r + (ptrsOf (sys.recycle (phlTidAmpduRxFree r)).recycled + ptrsOf sys.frames +
      ((sys.recycle (phlTidAmpduRxFree r)).setTid sta tid none).stored) = _
    change _ = ptrsOf (sys.recycle (phlTidAmpduRxFree r)).recycled + ptrsOf sys.frames + _
    ac_rfl

theorem Owns.timer (h : Owns sys m) (t : ι → Bool) : Owns { sys with reorderTimer := t } m := ⟨h.size, h.total⟩

/-! ### The operations -/

theorem keeps_phlReorderRelease (now : ℕ) : Keeps (phlReorderRelease now) := fun _ hpos =>
  ⟨(phlReorderRelease_releases now hpos).owned, (phlReorderRelease_releases now hpos).size⟩

theorem keeps_rtwPhlRxBar (seq : ℕ) : Keeps (rtwPhlRxBar seq) := fun _ hpos =>
  ⟨(rtwPhlRxBar_releases seq hpos).owned, (rtwPhlRxBar_releases seq hpos).size⟩

theorem removeFcs_ptr {env : RxEnv ι} {pkt pkt' : RxPkt} (h : removeFcs env pkt = some pkt') :
    pkt'.ptr = pkt.ptr := by
  unfold removeFcs at h
  split_ifs at h
  · rw [← Option.some.inj h]
  · rw [← Option.some.inj h]

theorem findSession_some {env : RxEnv ι} {pkt : RxPkt} {sta : ι} {r : TidAmpduRx}
    (h : findSession sys env pkt = some (sta, r)) :
    pkt.mdata.tid < rtwMaxTidNum ∧ sys.tidRx sta pkt.mdata.tid = some r := by
  unfold findSession at h
  by_cases hd : dontReorder env pkt
  · rw [if_pos hd] at h; cases h
  · rw [if_neg hd] at h
    cases hs : findSta env pkt with
    | none => rw [hs] at h; cases h
    | some s =>
      simp only [hs] at h
      split_ifs at h with htid
      obtain ⟨q, hq, he⟩ := Option.map_eq_some_iff.mp h
      obtain ⟨rfl, rfl⟩ := Prod.mk.inj he
      exact ⟨not_le.mp htid, hq⟩

section

variable (h : Owns sys m)

include h

theorem phlRxReorder_owns (env : RxEnv ι)
    (now : ℕ) (pkt : RxPkt) : Owns (phlRxReorder env now pkt sys).1 ({pkt.ptr} + m) := by
  cases hfcs : removeFcs env pkt with
  | none =>
    simp only [phlRxReorder, hfcs]; exact h.recycle [pkt]
  | some pkt' =>
    rw [← removeFcs_ptr hfcs]
    cases hses : findSession sys env pkt' with
    | none =>
      simp only [phlRxReorder, hfcs, hses]; exact h.addFrame pkt'
    | some p =>
      obtain ⟨sta, r⟩ := p
      obtain ⟨htid, hr⟩ := findSession_some hses
      simp only [phlRxReorder, hfcs, hses]
      exact h.onSession htid hr (owned_mpdu now pkt' (s := .start r) (h.size sta _ r hr))

theorem rtwPhlStartRxBaSession_owns (sta : ι) (ssn baPolicy tid bufSize : ℕ) (alloc : Bool) :
    Owns (rtwPhlStartRxBaSession sta ssn baPolicy tid bufSize alloc sys).1 m := by
  unfold rtwPhlStartRxBaSession
  split_ifs with htid hpol hall
  · exact h
  · exact h
  · have hfree := h.freeTid sta (not_le.mp htid)
    have hnone : (freeTid sta sys tid).tidRx sta tid = none := by
      unfold Rx.freeTid
      cases hr : sys.tidRx sta tid with
      | none => exact hr
      | some r => simp [RxSys.setTid]
    have hst := stored_setTid (freeTid sta sys tid) sta (not_le.mp htid)
      (some (phlTidAmpduRxAlloc ssn tid (applyBufSize bufSize)))
    rw [hnone, tidPtrs, tidPtrs, storedPtrs_alloc, zero_add, zero_add] at hst
    refine ⟨size_setTid hfree.size fun q hq => ?_, ?_⟩
    · rw [← Option.some.inj hq]; exact applyBufSize_pos bufSize
    · rw [hst]; exact hfree.total
  · exact h

theorem phlFreeRxReorder_owns (sta : ι) : Owns (phlFreeRxReorder sta sys) m := by
  have hmark : Keeps fun s => { s with r := { s.r with removed := true } } := fun _ _ => ⟨rfl, rfl⟩
  exact List.foldlRecOn (motive := fun s => Owns s m) _ _ ((h.onEachTid hmark sta).timer _)
    fun _ hs _ htid => hs.freeTid sta (List.mem_range.mp htid)

theorem rtwPhlRxBarSta_owns (sta : ι) (tid seq : ℕ) : Owns (rtwPhlRxBarSta sta tid seq sys) m := by
  unfold rtwPhlRxBarSta
  split_ifs with htid
  · exact h
  · exact h.onTid (keeps_rtwPhlRxBar seq) sta (not_le.mp htid)

theorem phlStaRxReorderTimerExpired_owns (now : ℕ) (sta : ι) : Owns (phlStaRxReorderTimerExpired now sta sys) m := by
  unfold phlStaRxReorderTimerExpired; exact (h.timer _).onEachTid (keeps_phlReorderRelease now) sta

theorem rtwPhlFlushReorderBuf_owns (now : ℕ) (sta : ι) : Owns (rtwPhlFlushReorderBuf now sta sys) m := by
  unfold rtwPhlFlushReorderBuf; exact h.onEachTid (keeps_phlReorderRelease now) sta

theorem rtwPhlStopRxBaSession_owns (sta : Option ι) (tid : ℕ) : Owns (rtwPhlStopRxBaSession sta tid sys) m := by
  unfold rtwPhlStopRxBaSession
  cases sta with
  | none => exact h
  | some sta =>
    simp only
    split_ifs with htid
    · exact h
    · exact h.freeTid sta (not_le.mp htid)

theorem phlNotifyReorderSleepSta_owns (sta : Option ι) : Owns (phlNotifyReorderSleepSta sta sys) m := by
  unfold phlNotifyReorderSleepSta
  have hsleep : Keeps phlNotifyReorderSleep := fun _ _ => ⟨rfl, rfl⟩
  cases sta with
  | none => exact h
  | some sta => exact h.onEachTid hsleep sta

end

def RxOp.given : RxOp ι → List RxPkt
  | .reorder _ _ pkt => [pkt]
  | _ => []

theorem RxOp.run_owns (h : Owns sys m) (op : RxOp ι) : Owns (op.run sys) (ptrsOf op.given + m) := by
  have hnil : ptrsOf [] + m = m := zero_add m
  cases op with
  | reorder env now pkt => exact phlRxReorder_owns h env now pkt
  | bar sta tid seq =>
    simp only [RxOp.run, RxOp.given, hnil]; exact rtwPhlRxBarSta_owns h sta tid seq
  | timer now sta =>
    simp only [RxOp.run, RxOp.given, hnil]; exact phlStaRxReorderTimerExpired_owns h now sta
  | flush now sta =>
    simp only [RxOp.run, RxOp.given, hnil]; exact rtwPhlFlushReorderBuf_owns h now sta
  | startBa sta ssn baPolicy tid bufSize alloc =>
    simp only [RxOp.run, RxOp.given, hnil]
    exact rtwPhlStartRxBaSession_owns h sta ssn baPolicy tid bufSize alloc
  | stopBa sta tid =>
    simp only [RxOp.run, RxOp.given, hnil]; exact rtwPhlStopRxBaSession_owns h sta tid
  | free sta =>
    simp only [RxOp.run, RxOp.given, hnil]; exact phlFreeRxReorder_owns h sta
  | sleep sta =>
    simp only [RxOp.run, RxOp.given, hnil]; exact phlNotifyReorderSleepSta_owns h sta

/-! ### After a session has ended -/

theorem freeTid_tidRx (sys : RxSys ι) (sta : ι) (tid t : ℕ) :
    (freeTid sta sys tid).tidRx sta t = if t = tid then none else sys.tidRx sta t := by
  unfold Rx.freeTid
  cases hr : sys.tidRx sta tid with
  | none =>
    split_ifs with ht
    · rw [ht]; exact hr
    · rfl
  | some r => simp [RxSys.setTid, RxSys.recycle, Function.update_apply]

theorem freeTid_range (sys : RxSys ι) (sta : ι) (n : ℕ) :
    ∀ t < n, ((List.range n).foldl (freeTid sta) sys).tidRx sta t = none := by
  induction n with
  | zero => intro t ht; omega
  | succ n ih =>
    intro t ht
    rw [List.range_succ, List.foldl_append, List.foldl_cons, List.foldl_nil, freeTid_tidRx]
    split_ifs with htn
    · rfl
    · exact ih t (by omega)

theorem phlFreeRxReorder_tidRx (sys : RxSys ι) (sta : ι) :
    ∀ tid < rtwMaxTidNum, (phlFreeRxReorder sta sys).tidRx sta tid = none := by
  simp only [phlFreeRxReorder]; exact freeTid_range _ sta rtwMaxTidNum

/-! ### Runs -/

/-- The sessions, with the frames handed in so far. -/
structure OwnSt (ι : Type*) where
  sys : RxSys ι
  given : List RxPkt

def ownStep (st : OwnSt ι) (op : RxOp ι) : OwnSt ι := ⟨op.run st.sys, op.given ++ st.given⟩

/-- The number of slots of live sessions that hold the frame. -/
def slotsHolding (sys : RxSys ι) (ptr : ℕ) : ℕ :=
  ∑ sta, ∑ tid ∈ Finset.range rtwMaxTidNum, match sys.tidRx sta tid with
    | none => 0
    | some r => ((Finset.range r.bufSize).filter fun i =>
        (r.reorderBuf i).map RxPkt.ptr = some ptr).card

theorem count_storedPtrs (r : TidAmpduRx) (ptr : ℕ) :
    (storedPtrs r).count ptr = ((Finset.range r.bufSize).filter fun i =>
      (r.reorderBuf i).map RxPkt.ptr = some ptr).card := by
  unfold storedPtrs
  rw [Multiset.count_sum', Finset.card_filter]
  refine Finset.sum_congr rfl fun i _ => ?_
  cases r.reorderBuf i with
  | none => simp [slotPtrs]
  | some pkt => simp [slotPtrs, Multiset.count_singleton, eq_comm]

theorem count_stored (sys : RxSys ι) (ptr : ℕ) : sys.stored.count ptr = slotsHolding sys ptr := by
  unfold RxSys.stored slotsHolding
  rw [Multiset.count_sum']
  refine Finset.sum_congr rfl fun sta _ => ?_
  unfold staPtrs
  rw [Multiset.count_sum']
  refine Finset.sum_congr rfl fun tid _ => ?_
  cases sys.tidRx sta tid with
  | none => rfl
  | some r => exact count_storedPtrs r ptr

theorem run_owns (ops : List (RxOp ι)) : Owns (ops.foldl ownStep ⟨RxSys.empty, []⟩).sys
      (ptrsOf (ops.foldl ownStep ⟨RxSys.empty, []⟩).given) := by
  refine List.foldlRecOn (motive := fun st : OwnSt ι => Owns st.sys (ptrsOf st.given)) ops ownStep
    empty_owns fun st hst op _ => ?_
  change Owns (op.run st.sys) (ptrsOf (op.given ++ st.given))
  rw [ptrsOf_append]; exact op.run_owns hst

/-- **Every frame handed in is in exactly one place**: it has been recycled, it has been put on a
`frames` list, or it is in one slot of a live session.  Stopping a session or freeing a station
leaves no session, hence nothing stored; without sessions every frame has been recycled or
delivered. -/
theorem frame_ownership (ops : List (RxOp ι)) :
    let st := ops.foldl ownStep ⟨RxSys.empty, []⟩
    (∀ ptr, (ptrsOf st.given).count ptr = (ptrsOf st.sys.recycled).count ptr +
        (ptrsOf st.sys.frames).count ptr + slotsHolding st.sys ptr) ∧
      (∀ sta, ∀ tid < rtwMaxTidNum, (rtwPhlStopRxBaSession (some sta) tid st.sys).tidRx sta tid = none) ∧
      (∀ sta, ∀ tid < rtwMaxTidNum, (phlFreeRxReorder sta st.sys).tidRx sta tid = none) ∧
      ((∀ sta, ∀ tid < rtwMaxTidNum, st.sys.tidRx sta tid = none) →
        ptrsOf st.given = ptrsOf st.sys.recycled + ptrsOf st.sys.frames) := by
  intro st
  have hst : Owns st.sys (ptrsOf st.given) := run_owns ops
  refine ⟨fun ptr => ?_, fun sta tid htid => ?_, fun sta tid htid => ?_, fun hnone => ?_⟩
  · rw [← hst.total, Multiset.count_add, Multiset.count_add, count_stored]
  · unfold rtwPhlStopRxBaSession
    simp only
    rw [if_neg (not_le.mpr htid), freeTid_tidRx, if_pos rfl]
  · exact phlFreeRxReorder_tidRx st.sys sta tid htid
  · have hzero : st.sys.stored = 0 := Finset.sum_eq_zero fun sta _ =>
      Finset.sum_eq_zero fun tid htid => by rw [hnone sta tid (Finset.mem_range.mp htid)]; rfl
    rw [← hst.total, hzero, add_zero]

end Rtl8852cu.Rx
