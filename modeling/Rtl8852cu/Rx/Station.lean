import Rtl8852cu.Rx.Release

/-!
# The reorder sessions of all stations

`phl_rx_reorder`, which sends a received frame past or into a session, and the functions of
`phl_rx.c` and `phl_rx_agg.c` that create, flush and tear down sessions.

A station record is an element of `ι`.  `RxSys` holds the array `tid_rx` of every station and
collects what the functions put out: the frames on the `frames` lists handed to
`phl_handle_rx_frame_list`, and those given to `recycle_rx_pkt`.  The locks are left out: every
access to `tid_rx` is made under `tid_rx_lock`, so an operation is one step.
-/

namespace Rtl8852cu.Rx

variable {ι : Type*} [DecidableEq ι]

/-- `RTW_MAX_TID_NUM`, the size of `tid_rx`. -/
def rtwMaxTidNum : ℕ := 16

/-- The sessions of all stations, with what has been put out. -/
structure RxSys (ι : Type*) where
  tidRx : ι → ℕ → Option TidAmpduRx
  reorderTimer : ι → Bool
  frames : List RxPkt
  recycled : List RxPkt

/-- What `phl_rx_reorder` reads of the rest of the driver: `append_fcs`, `phl_is_mp_mode`, and the
station `rtw_phl_get_stainfo_by_macid` finds. -/
structure RxEnv (ι : Type*) where
  appendFcs : Bool
  mpMode : Bool
  stainfoByMacid : ℕ → Option ι

inductive PhlStatus where
  | success
  | failure
  | resource
  deriving DecidableEq, Repr

namespace RxSys

def empty : RxSys ι := ⟨fun _ _ => none, fun _ => false, [], []⟩

def setTid (sys : RxSys ι) (sta : ι) (tid : ℕ) (o : Option TidAmpduRx) : RxSys ι :=
  { sys with
    tidRx := Function.update sys.tidRx sta (Function.update (sys.tidRx sta) tid o) }

/-- `list_add_tail` to `frames`. -/
def addFrame (sys : RxSys ι) (pkt : RxPkt) : RxSys ι := { sys with frames := sys.frames ++ [pkt] }

/-- `recycle_rx_pkt`, for each frame of a list. -/
def recycle (sys : RxSys ι) (l : List RxPkt) : RxSys ι :=
  { sys with recycled := sys.recycled ++ l }

/-- Run an operation on the session `r` of `tid`. -/
def onSession (sys : RxSys ι) (sta : ι) (tid : ℕ) (r : TidAmpduRx) (f : RxSt → RxSt) : RxSys ι :=
  let s := f (.start r)
  let sys := sys.setTid sta tid (some s.r)
  { sys with
    frames := sys.frames ++ s.frames
    recycled := sys.recycled ++ s.recycled
    reorderTimer := Function.update sys.reorderTimer sta (sys.reorderTimer sta || s.timerSet) }

/-- Run an operation on the session of `tid`, if there is one. -/
def onTid (sys : RxSys ι) (sta : ι) (f : RxSt → RxSt) (tid : ℕ) : RxSys ι :=
  match sys.tidRx sta tid with
  | none => sys
  | some r => sys.onSession sta tid r f

/-- Run an operation on every session of a station. -/
def onEachTid (sys : RxSys ι) (sta : ι) (f : RxSt → RxSt) : RxSys ι :=
  (List.range rtwMaxTidNum).foldl (fun sys tid => sys.onTid sta f tid) sys

end RxSys

/-- `phl_rx_reorder` removes an appended FCS; `none` is a frame too short to have one. -/
def removeFcs (env : RxEnv ι) (pkt : RxPkt) : Option RxPkt :=
  if env.appendFcs ∧ ¬ (pkt.mdata.amsduCut ∧ ¬ pkt.mdata.lastMsdu) then
    if pkt.length ≤ 4 then none else some { pkt with length := pkt.length - 4 }
  else some pkt

/-- The tests of `phl_rx_reorder` that lead to `dont_reorder` before a station is looked up. -/
def dontReorder (env : RxEnv ι) (pkt : RxPkt) : Bool :=
  env.mpMode || (pkt.mdata.bc || pkt.mdata.mc) || !pkt.mdata.qos || pkt.mdata.qNull ||
    (pkt.mdata.moreFrag || pkt.mdata.fragNum ≠ 0)

/-- The station `phl_rx_reorder` finds for a frame. -/
def findSta (env : RxEnv ι) (pkt : RxPkt) : Option ι :=
  if pkt.mdata.addrCamVld then env.stainfoByMacid pkt.mdata.macid else none

/-- The session `phl_rx_reorder` finds for a frame. -/
def findSession (sys : RxSys ι) (env : RxEnv ι) (pkt : RxPkt) : Option (ι × TidAmpduRx) :=
  if dontReorder env pkt then none
  else match findSta env pkt with
    | none => none
    | some sta =>
      if rtwMaxTidNum ≤ pkt.mdata.tid then none
      else (sys.tidRx sta pkt.mdata.tid).map fun r => (sta, r)

def phlRxReorder (env : RxEnv ι) (now : ℕ) (pkt : RxPkt) (sys : RxSys ι) : RxSys ι × PhlStatus :=
  match removeFcs env pkt with
  | none => (sys.recycle [pkt], .failure)
  | some pkt =>
    match findSession sys env pkt with
    | none => (sys.addFrame pkt, .success)
    | some (sta, r) =>
      (sys.onSession sta pkt.mdata.tid r fun s => passUp pkt (phlManageStaReorderBuf now pkt s), .success)

/-- `rtw_phl_rx_bar`. -/
def rtwPhlRxBarSta (sta : ι) (tid seq : ℕ) (sys : RxSys ι) : RxSys ι :=
  if rtwMaxTidNum ≤ tid then sys else sys.onTid sta (rtwPhlRxBar seq) tid

def phlStaRxReorderTimerExpired (now : ℕ) (sta : ι) (sys : RxSys ι) : RxSys ι :=
  { sys with reorderTimer := Function.update sys.reorderTimer sta false }.onEachTid sta
    (phlReorderRelease now)

def rtwPhlFlushReorderBuf (now : ℕ) (sta : ι) (sys : RxSys ι) : RxSys ι :=
  sys.onEachTid sta (phlReorderRelease now)

/-- The frames `phl_tid_ampdu_rx_free` recycles. -/
def phlTidAmpduRxFree (r : TidAmpduRx) : List RxPkt :=
  (List.range r.bufSize).filterMap r.reorderBuf

/-- Free the session of `tid`, if there is one. -/
def freeTid (sta : ι) (sys : RxSys ι) (tid : ℕ) : RxSys ι :=
  match sys.tidRx sta tid with
  | none => sys
  | some r => (sys.recycle (phlTidAmpduRxFree r)).setTid sta tid none

/-- `phl_free_rx_reorder`: mark every session as removed, cancel the timer, free them. -/
def phlFreeRxReorder (sta : ι) (sys : RxSys ι) : RxSys ι :=
  let sys := sys.onEachTid sta fun s => { s with r := { s.r with removed := true } }
  let sys := { sys with reorderTimer := Function.update sys.reorderTimer sta false }
  (List.range rtwMaxTidNum).foldl (freeTid sta) sys

/-- `rtw_phl_stop_rx_ba_session`; `sta` may be `NULL`. -/
def rtwPhlStopRxBaSession (sta : Option ι) (tid : ℕ) (sys : RxSys ι) : RxSys ι :=
  match sta with
  | none => sys
  | some sta => if rtwMaxTidNum ≤ tid then sys else freeTid sta sys tid

/-- `rtw_phl_start_rx_ba_session`; `alloc` says whether the allocations succeed. -/
def rtwPhlStartRxBaSession (sta : ι) (startSeqNum baPolicy tid bufSize : ℕ) (alloc : Bool)
    (sys : RxSys ι) : RxSys ι × PhlStatus :=
  if rtwMaxTidNum ≤ tid then (sys, .resource)
  else if baPolicy ≠ 0 then (sys, .failure)
  else if ¬ alloc then (sys, .resource)
  else
    ((freeTid sta sys tid).setTid sta tid
      (some (phlTidAmpduRxAlloc startSeqNum tid (applyBufSize bufSize))), .success)

/-- `phl_notify_reorder_sleep`; `sta` may be `NULL`. -/
def phlNotifyReorderSleepSta (sta : Option ι) (sys : RxSys ι) : RxSys ι :=
  match sta with
  | none => sys
  | some sta => sys.onEachTid sta phlNotifyReorderSleep

inductive RxOp (ι : Type*) where
  | reorder (env : RxEnv ι) (now : ℕ) (pkt : RxPkt)
  | bar (sta : ι) (tid seq : ℕ)
  | timer (now : ℕ) (sta : ι)
  | flush (now : ℕ) (sta : ι)
  | startBa (sta : ι) (startSeqNum baPolicy tid bufSize : ℕ) (alloc : Bool)
  | stopBa (sta : Option ι) (tid : ℕ)
  | free (sta : ι)
  | sleep (sta : Option ι)

def RxOp.run (sys : RxSys ι) : RxOp ι → RxSys ι
  | .reorder env now pkt => (phlRxReorder env now pkt sys).1
  | .bar sta tid seq => rtwPhlRxBarSta sta tid seq sys
  | .timer now sta => phlStaRxReorderTimerExpired now sta sys
  | .flush now sta => rtwPhlFlushReorderBuf now sta sys
  | .startBa sta ssn baPolicy tid bufSize alloc =>
    (rtwPhlStartRxBaSession sta ssn baPolicy tid bufSize alloc sys).1
  | .stopBa sta tid => rtwPhlStopRxBaSession sta tid sys
  | .free sta => phlFreeRxReorder sta sys
  | .sleep sta => phlNotifyReorderSleepSta sta sys

end Rtl8852cu.Rx
