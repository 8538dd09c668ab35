import Rtl8852cu.Rx.Session

/-!
# The order in which a reorder session hands frames up

A run of a session is observed through the frames it hands up after it has started.  The observer
counts the steps of `headSeqNum` without reducing them: `head` is the position of the head, and each
frame is logged with the positions of the head before and after the operation that handed it up.
-/

namespace Rtl8852cu.Rx

open Lib Lib.Serial

/-- A frame handed up: its sequence number, and the head's position before and after. -/
structure HandUp where
  sn : ℕ
  before : ℕ
  after : ℕ
  deriving DecidableEq, Repr

/-- The position of the frame, ahead of the head before the operation. -/
def HandUp.pos (u : HandUp) : ℕ := u.before + seqSub u.sn (u.before % seqModulo)

/-- A session, the position of its head, and what it has handed up since it started. -/
structure OrderSt where
  r : TidAmpduRx
  head : ℕ
  log : List HandUp

def orderStart (r : TidAmpduRx) : OrderSt := ⟨r, r.headSeqNum, []⟩

def orderStep (st : OrderSt) (op : ReorderOp) : OrderSt :=
  let s := op.run st.r
  let head := st.head + seqSub s.r.headSeqNum st.r.headSeqNum
  { r := s.r
    head := head
    log := st.log ++ if s.r.started then s.frames.map fun q => ⟨q.mdata.seq, st.head, head⟩ else [] }

/-- **The order property.**  The head passes every frame handed up; later frames are at later
positions; a sequence number comes again only after the head has moved on by 2048; and as long as
`seq_less` can tell, it puts the earlier frame first. -/
structure InOrder (log : List HandUp) : Prop where
  passed : ∀ u ∈ log, u.before ≤ u.pos ∧ u.pos < u.after
  sorted : log.Pairwise fun a b => a.pos < b.pos
  again : log.Pairwise fun a b => a.sn = b.sn →
    a.before + seqModulo / 2 ≤ b.before ∧ a.after + seqModulo / 2 ≤ b.after
  less : log.Pairwise fun a b => b.pos < a.pos + seqModulo / 2 → seqLess a.sn b.sn

/-- **The condition on an operation** under which it keeps the order: no sleep, and no BAR half the
sequence space ahead of stored frames. -/
def KeepsOrder (r : TidAmpduRx) : ReorderOp → Prop
  | .mpdu _ _ | .release _ => True
  | .bar seq => seqSub seq r.headSeqNum = seqModulo / 2 → r.storedMpduNum = 0
  | .sleep => False

/-! ### One operation -/

theorem acceptMpdu_awake (now : ℕ) {r : TidAmpduRx} {pkt : RxPkt} (hsleep : r.sleep = false) :
    acceptMpdu now pkt (wakeUp pkt (setStarted (.start r))) = acceptMpdu now pkt (setStarted (.start r)) := by
  have : wakeUp pkt (setStarted (.start r)) = setStarted (.start r) := by
    unfold wakeUp; exact if_neg (by simp [setStarted, RxSt.start, hsleep])
  rw [this]

theorem ReorderOp.run_handedUp {r : TidAmpduRx} {H : ℕ} {op : ReorderOp} (h : WindowAt r H)
    (hone : OneSlotEmpty r) (hdvd : r.bufSize ∣ seqModulo) (hsleep : r.sleep = false)
    (hseq : op.SeqOk) (hok : KeepsOrder r op) :
    ∃ H' ≤ H + seqModulo / 2 + 1, H ≤ H' ∧ WindowAt (op.run r).r H' ∧ OneSlotEmpty (op.run r).r ∧
      (op.run r).r.bufSize = r.bufSize ∧ (op.run r).r.sleep = false ∧
      ((op.run r).r.started → HandedUp (op.run r).frames H H') := by
  have hlt := h.lt
  cases op with
  | mpdu pkt now =>
    simp only [ReorderOp.run, phlManageStaReorderBuf]
    split_ifs with hnew
    · exact ⟨H, by omega, le_rfl, h, hone, rfl, hsleep, fun hs => absurd hs hnew.1⟩
    · rw [acceptMpdu_awake now hsleep]
      have h₀ : WindowAt (setStarted (.start r)).r H :=
        ⟨h.pos, h.lt, h.head, h.base, h.le, h.slots, h.stored⟩
      obtain ⟨H', hle, hw, hm, hone'⟩ :=
        acceptMpdu_spec now h₀ hone hseq fun _ => Or.inl hdvd
      obtain ⟨rel, hrel, hup⟩ := hm.frames
      refine ⟨H', hle, hm.le, hw, hone', hm.size, hm.sleep.trans hsleep, fun _ => ?_⟩
      rw [hrel]; exact hup
  | bar seq =>
    obtain ⟨H', hle, hw, hm, hone'⟩ := rtwPhlRxBar_spec (s := .start r) h hone hseq hok
    obtain ⟨rel, hrel, hup⟩ := hm.frames
    refine ⟨H', by omega, hm.le, hw, hone', hm.size, hm.sleep.trans hsleep, fun _ => ?_⟩
    rw [show (ReorderOp.run r (.bar seq)).frames = [] ++ rel from hrel]; exact hup
  | release now =>
    obtain ⟨H', hle, hw, hm⟩ := phlReorderRelease_spec now (s := .start r) h
    obtain ⟨rel, hrel, hup⟩ := hm.frames
    refine ⟨H', by unfold seqModulo; change H' ≤ H + r.bufSize at hle; omega, hm.le, hw,
      fun hb => ?_, hm.size, hm.sleep.trans hsleep, fun _ => ?_⟩
    · have := (phlReorderRelease_releases now (s := .start r) h.pos).stored_le
      have h0 : (RxSt.start r).r.storedMpduNum = 0 := hone (hm.size.symm.trans hb)
      change (phlReorderRelease now (.start r)).r.storedMpduNum = 0
      omega
    · rw [show (ReorderOp.run r (.release now)).frames = [] ++ rel from hrel]; exact hup
  | sleep => exact hok.elim

/-! ### Runs -/

theorem HandedUp.log {l : List RxPkt} {H H' : ℕ} (h : HandedUp l H H') (hle : H' ≤ H + seqModulo / 2 + 1) :
    (∀ u ∈ l.map fun q => (⟨q.mdata.seq, H, H'⟩ : HandUp),
        u.before = H ∧ u.after = H' ∧ H ≤ u.pos ∧ u.pos < H' ∧ u.sn = u.pos % seqModulo) ∧
      (l.map fun q => (⟨q.mdata.seq, H, H'⟩ : HandUp)).Pairwise fun a b => a.pos < b.pos := by
  obtain ⟨ps, hps, hsorted, hmem⟩ := h
  have hlog : (l.map fun q => (⟨q.mdata.seq, H, H'⟩ : HandUp)) = ps.map fun p => ⟨p % seqModulo, H, H'⟩ := by
    have := congrArg (List.map fun sn => (⟨sn, H, H'⟩ : HandUp)) hps
    simpa [List.map_map, Function.comp_def] using this
  have hpos : ∀ p ∈ ps, (⟨p % seqModulo, H, H'⟩ : HandUp).pos = p := by
    intro p hp
    have hb := hmem p hp
    change H + seqSub (p % seqModulo) (H % seqModulo) = p
    rw [seqSub, Lib.Serial.dist_mod hb.1 (by unfold seqModulo at *; omega)]
    omega
  rw [hlog]
  constructor
  · intro u hu
    obtain ⟨p, hp, rfl⟩ := List.mem_map.mp hu
    rw [hpos p hp]; exact ⟨rfl, rfl, (hmem p hp).1, (hmem p hp).2, rfl⟩
  · rw [List.pairwise_map]
    refine hsorted.imp_of_mem fun {a b} ha hb hab => ?_
    rw [hpos a ha, hpos b hb]; exact hab

structure OrderInv (n : ℕ) (st : OrderSt) : Prop where
  window : WindowAt st.r st.head
  one : OneSlotEmpty st.r
  size : st.r.bufSize = n
  awake : st.r.sleep = false
  entry : ∀ u ∈ st.log, u.before ≤ u.pos ∧ u.pos < u.after ∧ u.after ≤ st.head ∧
    u.after ≤ u.before + seqModulo / 2 + 1 ∧ u.sn = u.pos % seqModulo
  sorted : st.log.Pairwise fun a b => a.pos < b.pos
  apart : st.log.Pairwise fun a b => a.before = b.before ∨ a.after ≤ b.before

theorem orderStep_inv {n : ℕ} {st : OrderSt} {op : ReorderOp} (hdvd : n ∣ seqModulo)
    (h : OrderInv n st) (hseq : op.SeqOk) (hok : KeepsOrder st.r op) :
    OrderInv n (orderStep st op) := by
  obtain ⟨H', hle, hge, hw, hone, hsize, hsleep, hup⟩ := ReorderOp.run_handedUp h.window h.one
    (by rw [h.size]; exact hdvd) h.awake hseq hok
  -- the observer's count of the head is the head's position
  have hhead : st.head + seqSub (op.run st.r).r.headSeqNum st.r.headSeqNum = H' := by
    rw [seqSub, hw.head, h.window.head, Lib.Serial.dist_mod hge (by unfold seqModulo at *; omega)]
    omega
  have hnew : ∃ new, (orderStep st op).log = st.log ++ new ∧
      (∀ u ∈ new, u.before = st.head ∧ u.after = H' ∧ st.head ≤ u.pos ∧ u.pos < H' ∧
        u.sn = u.pos % seqModulo) ∧ new.Pairwise fun a b => a.pos < b.pos := by
    simp only [orderStep, hhead]
    by_cases hs : (op.run st.r).r.started
    · rw [if_pos hs]; exact ⟨_, rfl, (hup hs).log hle⟩
    · rw [if_neg hs]; exact ⟨[], rfl, by simp, .nil⟩
  obtain ⟨new, hlog, hmem, hsorted⟩ := hnew
  have hH : (orderStep st op).head = H' := hhead
  refine ⟨by rw [hH]; exact hw, hone, hsize.trans h.size, hsleep, ?_, ?_, ?_⟩
  · intro u hu
    rw [hlog] at hu
    rw [hH]
    rcases List.mem_append.mp hu with hu | hu
    · obtain ⟨h1, h2, h3, h4, h5⟩ := h.entry u hu; exact ⟨h1, h2, by omega, h4, h5⟩
    · obtain ⟨h1, h2, h3, h4, h5⟩ := hmem u hu; exact ⟨by omega, by omega, by omega, by omega, h5⟩
  · rw [hlog]
    refine List.pairwise_append.mpr ⟨h.sorted, hsorted, fun a ha b hb => ?_⟩
    have := h.entry a ha
    have := hmem b hb
    omega
  · rw [hlog]
    refine List.pairwise_append.mpr ⟨h.apart, ?_, fun a ha b hb => ?_⟩
    · refine List.Pairwise.imp_of_mem (fun {a b} ha hb _ => ?_) hsorted
      exact Or.inl ((hmem a ha).1.trans (hmem b hb).1.symm)
    · have := h.entry a ha
      have := hmem b hb
      exact Or.inr (by omega)

theorem add_seqModulo_le {p q : ℕ} (hlt : p < q) (h : p % seqModulo = q % seqModulo) : p + seqModulo ≤ q := by
  by_contra hc
  have := eq_of_mod_eq h (by unfold seqModulo; omega) (by omega)
  omega

theorem OrderInv.inOrder {n : ℕ} {st : OrderSt} (h : OrderInv n st) : InOrder st.log := by
  refine ⟨fun u hu => ⟨(h.entry u hu).1, (h.entry u hu).2.1⟩, h.sorted, ?_, ?_⟩
  · refine (h.sorted.and h.apart).imp_of_mem fun {a b} ha hb hab heq => ?_
    obtain ⟨hlt, -⟩ := hab
    obtain ⟨a1, a2, -, a4, a5⟩ := h.entry a ha
    obtain ⟨b1, b2, -, b4, b5⟩ := h.entry b hb
    have := add_seqModulo_le hlt (by rw [← a5, ← b5]; exact heq)
    unfold seqModulo at *; omega
  · refine h.sorted.imp_of_mem fun {a b} ha hb hlt hnear => ?_
    rw [(h.entry a ha).2.2.2.2, (h.entry b hb).2.2.2.2]
    exact (seqLess_head hlt.le (by unfold seqModulo at *; omega)).mpr ⟨hlt, hnear⟩

theorem mpdu_recycled {r : TidAmpduRx} {H : ℕ} {pkt : RxPkt} (now : ℕ) (h : WindowAt r H)
    (hsleep : r.sleep = false) (hseq : pkt.mdata.seq < seqModulo)
    (hwin : seqSub pkt.mdata.seq r.headSeqNum < r.bufSize)
    (hnone : r.reorderBuf (reorderIndex r pkt.mdata.seq) = none) :
    (ReorderOp.run r (.mpdu pkt now)).recycled = [] := by
  have hlt := h.lt
  simp only [ReorderOp.run, phlManageStaReorderBuf]
  split_ifs with hnew
  · rfl
  · rw [acceptMpdu_awake now hsleep]
    have hnotold : ¬ seqLess pkt.mdata.seq r.headSeqNum := by
      unfold seqLess; unfold seqModulo at *; omega
    have hend : seqLess pkt.mdata.seq (r.headSeqNum + r.bufSize) := by
      have hp : pkt.mdata.seq = (H + seqSub pkt.mdata.seq r.headSeqNum) % seqModulo := by
        rw [seqSub, h.head, mod_add_dist (by decide), Nat.mod_eq_of_lt hseq]
      rw [hp]
      exact (seqLess_end h.head h.lt (Nat.le_add_right _ _) (by unfold seqModulo at *; omega)).mpr (by omega)
    have hroom : makeRoom pkt (setStarted (.start r)) = setStarted (.start r) := by
      unfold makeRoom; exact if_neg (not_not.mpr hend)
    have hsome : ¬ ((setStarted (.start r)).r.reorderBuf
        (reorderIndex (setStarted (.start r)).r pkt.mdata.seq)).isSome := by
      rw [Option.not_isSome_iff_eq_none]; exact hnone
    unfold acceptMpdu
    rw [if_neg (show ¬ seqLess pkt.mdata.seq (setStarted (.start r)).r.headSeqNum from hnotold), hroom]
    simp only [placeMpdu, if_neg hsome]
    split_ifs
    · rfl
    · exact (phlReorderRelease_releases now h.pos).recycled

theorem orderStart_inv {ssn tid n : ℕ} (hssn : ssn < seqModulo) (hn : n < 1024) :
    OrderInv (applyBufSize n) (orderStart (phlTidAmpduRxAlloc ssn tid (applyBufSize n))) :=
  ⟨phlTidAmpduRxAlloc_window hssn hn, fun _ => rfl, rfl, rfl, by simp [orderStart], .nil, .nil⟩

/-- **In every run that meets `KeepsOrder` frames are handed up in order**, and none that belongs in
the window is dropped. -/
theorem session_order {ssn tid k : ℕ} (hssn : ssn < seqModulo) (hk : k ≤ 8) {st : OrderSt}
    (h : Reach orderStep (fun st op => op.SeqOk ∧ KeepsOrder st.r op)
      (orderStart (phlTidAmpduRxAlloc ssn tid (applyBufSize (2 ^ k)))) st) :
    InOrder st.log ∧ ∀ (pkt : RxPkt) (now : ℕ), pkt.mdata.seq < seqModulo →
      seqSub pkt.mdata.seq st.r.headSeqNum < st.r.bufSize →
      st.r.reorderBuf (reorderIndex st.r pkt.mdata.seq) = none →
      (ReorderOp.run st.r (.mpdu pkt now)).recycled = [] := by
  have hpow : 2 ^ k ≤ 2 ^ 8 := Nat.pow_le_pow_right (by decide) hk
  have hsize : applyBufSize (2 ^ k) = 2 ^ k := if_neg (by positivity)
  have hdvd : applyBufSize (2 ^ k) ∣ seqModulo := by
    rw [hsize]; exact Nat.pow_dvd_pow 2 (show k ≤ 12 by omega)
  have hinv : OrderInv (applyBufSize (2 ^ k)) st := h.invariant
    (orderStart_inv hssn (by omega))
    fun st op hst hok => orderStep_inv hdvd hst hok.1 hok.2
  exact ⟨hinv.inOrder, fun pkt now hseq hwin hnone =>
    mpdu_recycled now hinv.window hinv.awake hseq hwin hnone⟩

/-- Two frames that come in the wrong order. -/
theorem session_order_swap : InOrder ([.mpdu (plainMpdu 1 1) 0, .mpdu (plainMpdu 2 0) 0].foldl orderStep
      (orderStart (phlTidAmpduRxAlloc 0 0 (applyBufSize (2 ^ 6))))).log := by
  refine (@session_order 0 0 6 (by decide) (by decide) _ (.foldl _ fun op hop st => ?_)).1
  simp only [List.mem_cons, List.not_mem_nil, or_false] at hop
  rcases hop with rfl | rfl
  · exact ⟨show 1 < seqModulo by decide, trivial⟩
  · exact ⟨show 0 < seqModulo by decide, trivial⟩

/-- **A BAR 2048 ahead of a stored frame breaks the order**: the frame 1 stays in its slot, and is
handed up after the frame 2048. -/
theorem not_session_order : ∃ st, Reach orderStep (fun _ op => op.SeqOk ∧ op ≠ .sleep)
        (orderStart (phlTidAmpduRxAlloc 0 0 (applyBufSize (2 ^ 6)))) st ∧
      st.log.map HandUp.sn = [2048, 1] ∧ ¬ InOrder st.log := by
  refine ⟨[.mpdu (plainMpdu 1 1) 0, .bar 2048, .mpdu (plainMpdu 2 2048) 0].foldl orderStep _,
    .foldl _ fun op hop st => ?_, by decide, fun h => ?_⟩
  · simp only [List.mem_cons, List.not_mem_nil, or_false] at hop
    rcases hop with rfl | rfl | rfl
    · exact ⟨show 1 < seqModulo by decide, by simp⟩
    · exact ⟨show 2048 < seqModulo by decide, by simp⟩
    · exact ⟨show 2048 < seqModulo by decide, by simp⟩
  · have hpassed : ∀ u ∈ ([.mpdu (plainMpdu 1 1) 0, .bar 2048, .mpdu (plainMpdu 2 2048) 0].foldl
        orderStep (orderStart (phlTidAmpduRxAlloc 0 0 (applyBufSize (2 ^ 6))))).log,
        u.pos < u.after := fun u hu => (h.passed u hu).2
    exact absurd hpassed (by decide)

end Rtl8852cu.Rx
