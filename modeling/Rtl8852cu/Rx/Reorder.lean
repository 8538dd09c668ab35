import Mathlib.Logic.Function.Basic
import Mathlib.Data.Finset.Card
import Rtl8852cu.Lib.Serial

/-!
# The receive reorder buffer

One block-ack session of `phl_rx.c`: `struct phl_tid_ampdu_rx` with its ring `reorder_buf` of
stored MPDUs, and the functions that store, release and drop them.

The pointers `reorder_buf` and `reorder_time` are functions of the slot, empty from `buf_size` on.
A function that appends to the list `frames`, calls `recycle_rx_pkt` or arms `reorder_timer` works
on an `RxSt`, the session together with what has been done to the outside so far.  The clock
`_os_get_cur_time_ms()` is the argument `now`.  Every loop of the source has a bound on its
rounds as its first argument, which it cannot exceed: the scan of `phl_reorder_release` ends at the slot it began at, its
other loop empties a slot each round, and the head is not behind a sequence number by `SEQ_MODULO` steps.

Sequence numbers are 12 bits wide (`mdata.seq < SEQ_MODULO` for a received frame).
-/

namespace Rtl8852cu.Rx

/-- The fields of `struct rtw_r_meta_data` that the reorder path reads or writes. -/
structure RMetaData where
  seq : ℕ
  tid : ℕ
  amsduCut : Bool
  lastMsdu : Bool
  bc : Bool
  mc : Bool
  qos : Bool
  qNull : Bool
  moreFrag : Bool
  fragNum : ℕ
  addrCamVld : Bool
  macid : ℕ
  rxDeferredRelease : Bool
  deriving DecidableEq, Repr

/-- `struct rtw_phl_rx_pkt`: `ptr` is the object's address, `length` is `pkt_list[0].length`. -/
structure RxPkt where
  ptr : ℕ
  mdata : RMetaData
  length : ℕ
  deriving DecidableEq, Repr

structure TidAmpduRx where
  reorderBuf : ℕ → Option RxPkt
  reorderTime : ℕ → ℕ
  headSeqNum : ℕ
  storedMpduNum : ℕ
  ssn : ℕ
  bufSize : ℕ
  tid : ℕ
  started : Bool
  removed : Bool
  sleep : Bool

abbrev seqModulo : ℕ := 0x1000

def phlMaxAggWsize : ℕ := 32

def htRxReorderBufTimeoutMs : ℕ := 500

/-- `seq_sub`: `(sq1 - sq2) & SEQ_MASK`. -/
def seqSub (sq1 sq2 : ℕ) : ℕ := Lib.Serial.dist seqModulo sq1 sq2

/-- `seq_less`: `((sq1 - sq2) & SEQ_MASK) > (SEQ_MODULO >> 1)`. -/
def seqLess (sq1 sq2 : ℕ) : Prop := seqModulo / 2 < seqSub sq1 sq2

instance (sq1 sq2 : ℕ) : Decidable (seqLess sq1 sq2) := by unfold seqLess; infer_instance

def seqInc (sq : ℕ) : ℕ := (sq + 1) % seqModulo

def reorderIndex (r : TidAmpduRx) (seq : ℕ) : ℕ := seq % r.bufSize

/-- `phl_tid_ampdu_rx_alloc`, when its three allocations succeed. -/
def phlTidAmpduRxAlloc (ssn tid bufSize : ℕ) : TidAmpduRx where
  reorderBuf := fun _ => none
  reorderTime := fun _ => 0
  headSeqNum := ssn
  storedMpduNum := 0
  ssn := ssn
  bufSize := bufSize
  tid := tid
  started := false
  removed := false
  sleep := false

/-- The buffer size `rtw_phl_start_rx_ba_session` applies. -/
def applyBufSize (bufSize : ℕ) : ℕ := if bufSize = 0 then phlMaxAggWsize else bufSize

/-- A session in the middle of an operation: the frames appended to `frames`, those given to
`recycle_rx_pkt`, and whether `reorder_timer` has been set. -/
structure RxSt where
  r : TidAmpduRx
  frames : List RxPkt
  recycled : List RxPkt
  timerSet : Bool

namespace RxSt

/-- The session at the start of an operation. -/
def start (r : TidAmpduRx) : RxSt := ⟨r, [], [], false⟩

def setHead (s : RxSt) (head : ℕ) : RxSt := { s with r := { s.r with headSeqNum := head } }

def recycle (s : RxSt) (pkt : RxPkt) : RxSt := { s with recycled := s.recycled ++ [pkt] }

/-- Put `pkt` into slot `index`. -/
def store (s : RxSt) (index : ℕ) (pkt : RxPkt) (now : ℕ) : RxSt :=
  { s with r := { s.r with
      reorderBuf := Function.update s.r.reorderBuf index (some pkt)
      reorderTime := Function.update s.r.reorderTime index now
      storedMpduNum := s.r.storedMpduNum + 1 } }

/-- Take the frame `pkt` out of slot `index` and hand it up. -/
def unstore (s : RxSt) (index : ℕ) (pkt : RxPkt) : RxSt :=
  { s with
    r := { s.r with
      reorderBuf := Function.update s.r.reorderBuf index none
      storedMpduNum := s.r.storedMpduNum - 1 }
    frames := s.frames ++ [{ pkt with mdata := { pkt.mdata with rxDeferredRelease := true } }] }

end RxSt

def phlReleaseReorderFrame (s : RxSt) (index : ℕ) : RxSt :=
  match s.r.reorderBuf index with
  | none => s.setHead (seqInc s.r.headSeqNum)
  | some pkt => (s.unstore index pkt).setHead (seqInc s.r.headSeqNum)

/-- The test of `phl_reorder_release` that the frame stored at time `t` may still wait:
`(s32)(t + HT_RX_REORDER_BUF_TIMEOUT_MS - cur_time) > 0`. -/
def mayWait (t now : ℕ) : Prop :=
  0 < (t + htRxReorderBufTimeoutMs + 2 ^ 32 - now % 2 ^ 32) % 2 ^ 32 ∧
    (t + htRxReorderBufTimeoutMs + 2 ^ 32 - now % 2 ^ 32) % 2 ^ 32 < 2 ^ 31

instance (t now : ℕ) : Decidable (mayWait t now) := by unfold mayWait; infer_instance

/-- The scan of `phl_reorder_release` for frames that have timed out, at slot `j` with `skipped`
empty slots behind it.  The second component says that the scan left by `goto set_release_timer`. -/
def releaseTimedOut (now index : ℕ) : ℕ → ℕ → ℕ → RxSt → RxSt × Bool
  | 0, _, _, s => (s, false)
  | fuel + 1, j, skipped, s =>
    if j = index then (s, false)
    else match s.r.reorderBuf j with
      | none => releaseTimedOut now index fuel ((j + 1) % s.r.bufSize) (skipped + 1) s
      | some _ =>
        if skipped ≠ 0 ∧ mayWait (s.r.reorderTime j) now then (s, true)
        else
          let s := phlReleaseReorderFrame s j
          let s := s.setHead ((s.r.headSeqNum + skipped) % seqModulo)
          releaseTimedOut now index fuel ((j + 1) % s.r.bufSize) 0 s

/-- The loop of `phl_reorder_release` over consecutive stored frames. -/
def releaseConsecutive : ℕ → ℕ → RxSt → RxSt
  | 0, _, s => s
  | fuel + 1, index, s =>
    match s.r.reorderBuf index with
    | none => s
    | some _ =>
      let s := phlReleaseReorderFrame s index
      releaseConsecutive fuel (reorderIndex s.r s.r.headSeqNum) s

/-- The part of `phl_reorder_release` before the timer: with the head's slot empty and frames
behind it look for timed-out ones, otherwise release the frames in order. -/
def releaseReady (now : ℕ) (s : RxSt) : RxSt × Bool :=
  let index := reorderIndex s.r s.r.headSeqNum
  if (s.r.reorderBuf index).isNone ∧ s.r.storedMpduNum ≠ 0 then
    releaseTimedOut now index s.r.bufSize ((index + 1) % s.r.bufSize) 1 s
  else (releaseConsecutive s.r.bufSize index s, false)

def phlReorderRelease (now : ℕ) (s : RxSt) : RxSt :=
  let p := releaseReady now s
  if (p.2 ∨ p.1.r.storedMpduNum ≠ 0) ∧ ¬ p.1.r.removed then { p.1 with timerSet := true } else p.1

/-- The loop of `phl_release_reorder_frames`. -/
def releaseUpTo (headSeqNum : ℕ) : ℕ → RxSt → RxSt
  | 0, s => s
  | fuel + 1, s =>
    if seqLess s.r.headSeqNum headSeqNum ∧ s.r.storedMpduNum ≠ 0 then
      releaseUpTo headSeqNum fuel (phlReleaseReorderFrame s (reorderIndex s.r s.r.headSeqNum))
    else s

def phlReleaseReorderFrames (headSeqNum : ℕ) (s : RxSt) : RxSt :=
  (releaseUpTo headSeqNum seqModulo s).setHead headSeqNum

/-- The part of `phl_manage_sta_reorder_buf` after the frame is known to be in the window: drop a
duplicate, pass the frame through, or store it. -/
def placeMpdu (now : ℕ) (pkt : RxPkt) (s : RxSt) : RxSt × Bool :=
  let index := reorderIndex s.r pkt.mdata.seq
  if (s.r.reorderBuf index).isSome then (s.recycle pkt, true)
  else if pkt.mdata.seq = s.r.headSeqNum ∧ s.r.storedMpduNum = 0 then
    (s.setHead (seqInc s.r.headSeqNum), false)
  else (phlReorderRelease now (s.store index pkt now), true)

/-- The frame ends beyond the window: move the head so that the frame comes last in it. -/
def makeRoom (pkt : RxPkt) (s : RxSt) : RxSt :=
  if ¬ seqLess pkt.mdata.seq (s.r.headSeqNum + s.r.bufSize) then
    phlReleaseReorderFrames (seqInc (seqSub pkt.mdata.seq s.r.bufSize)) s
  else s

/-- After a sleep the head is the first sequence number received. -/
def wakeUp (pkt : RxPkt) (s : RxSt) : RxSt :=
  if s.r.sleep then
    { s with r := { s.r with headSeqNum := pkt.mdata.seq, sleep := false } }
  else s

/-- The part of `phl_manage_sta_reorder_buf` after the session has started and woken up: drop a
frame behind the head, make room for one beyond the window, and place it. -/
def acceptMpdu (now : ℕ) (pkt : RxPkt) (s : RxSt) : RxSt × Bool :=
  if seqLess pkt.mdata.seq s.r.headSeqNum then (s.recycle pkt, true)
  else placeMpdu now pkt (makeRoom pkt s)

def setStarted (s : RxSt) : RxSt := { s with r := { s.r with started := true } }

/-- `phl_manage_sta_reorder_buf`: `false` leaves the frame to the caller. -/
def phlManageStaReorderBuf (now : ℕ) (pkt : RxPkt) (s : RxSt) : RxSt × Bool :=
  if ¬ s.r.started ∧ seqLess pkt.mdata.seq s.r.headSeqNum then (s, false)
  else acceptMpdu now pkt (wakeUp pkt (setStarted s))

/-- `phl_rx_reorder` appends a frame that `phl_manage_sta_reorder_buf` left to it. -/
def passUp (pkt : RxPkt) (p : RxSt × Bool) : RxSt :=
  if p.2 then p.1 else { p.1 with frames := p.1.frames ++ [pkt] }

/-- `rtw_phl_rx_bar`, for a TID with a session. -/
def rtwPhlRxBar (seq : ℕ) (s : RxSt) : RxSt :=
  if seqLess seq s.r.headSeqNum then s else phlReleaseReorderFrames seq s

/-- `phl_notify_reorder_sleep`, for one session. -/
def phlNotifyReorderSleep (s : RxSt) : RxSt := { s with r := { s.r with sleep := true } }

/-! ### The operations on one session -/

/-- What happens to a session: a received MPDU, a BAR, an expiry of the reorder timer or a flush
(both run `phl_reorder_release`), a sleep notification. -/
inductive ReorderOp where
  | mpdu (pkt : RxPkt) (now : ℕ)
  | bar (seq : ℕ)
  | release (now : ℕ)
  | sleep

def ReorderOp.run (r : TidAmpduRx) : ReorderOp → RxSt
  | .mpdu pkt now => passUp pkt (phlManageStaReorderBuf now pkt (.start r))
  | .bar seq => rtwPhlRxBar seq (.start r)
  | .release now => phlReorderRelease now (.start r)
  | .sleep => phlNotifyReorderSleep (.start r)

/-- The sequence number an operation carries is 12 bits wide. -/
def ReorderOp.SeqOk : ReorderOp → Prop
  | .mpdu pkt _ => pkt.mdata.seq < seqModulo
  | .bar seq => seq < seqModulo
  | .release _ | .sleep => True

end Rtl8852cu.Rx
