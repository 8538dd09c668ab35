import Rtl8852cu.Mesh.Path

/-!
# The path tables

The functions of `rtw_mesh_pathtbl.c`, with `rtw_mesh_queue_preq` of `rtw_mesh_hwmp.c` that the expiry
calls.  A walk over a table is a list of the pointers that the iterator yields, in any order and
not necessarily all; a pointer that is no longer in the table at its turn is not yielded.  The
iterator holds a read section, so what a walk removes is freed when it stops.

An allocation or an insertion that may fail takes its outcome as an argument; `hz` and the
conversion of times belong to the adapter.
-/

namespace Rtl8852cu.Mesh

open Lib

namespace MeshInfo

variable (adapter : Adapter) (now : Systime)

/-- The error codes of these functions. -/
inductive Errno
  | notsupp | nospc | nomem | insert | exist | nxio | hostunreach
  deriving DecidableEq

/-! ### Requests -/

/-- `rtw_mesh_queue_preq`; `malloc` is whether a node could be allocated. -/
def queuePreq (malloc : Bool) (p : ℕ) (flags : PreqFlags) (s : MeshInfo) : Option MeshInfo := do
  let path ← s.path p
  if !malloc then
    return s
  if s.preqQueueLen = maxPreqQueueLen then
    return s
  if path.flags.reqQueued then
    return s
  let s := s.setPath p fun path => { path with flags := { path.flags with
    reqQueued := true
    peerAka := path.flags.peerAka || flags.peerAka
    bcastPreq := path.flags.bcastPreq || flags.bcastPreq } }
  let s := { s with
    preqQueue := s.preqQueue ++ [⟨path.dst, flags⟩]
    preqQueueLen := s.preqQueueLen + 1 }
  if timeAfter now (s.lastPreq + adapter.minPreqIntJiff) then
    return s
  -- the system time has wrapped around
  if timeBefore now s.lastPreq then
    return { s with lastPreq := now - adapter.minPreqIntJiff - 1 }
  return s

/-! ### Gates -/

/-- `max_addr_gate` and what goes with it. -/
def setMaxAddrGate (p : ℕ) (path : MeshPath) (s : MeshInfo) : MeshInfo :=
  { s with maxAddrGate := some p, maxAddrGateIsLargerThanSelf := path.dst.isLarger adapter.macAddr }

/-- Whether a path to be linked becomes `max_addr_gate`. -/
def isMaxAddrGate (path : MeshPath) (s : MeshInfo) : Option Bool :=
  if s.numGates = 0 then some true
  else do
    let maxAddrGate ← s.maxAddrGate
    let max ← s.path maxAddrGate
    return path.dst.isLarger max.dst

/-- The part of `rtw_mesh_path_add_gate` under `gates_lock`. -/
def linkGate (p : ℕ) (path : MeshPath) (s : MeshInfo) : Option MeshInfo := do
  let larger ← s.isMaxAddrGate path
  let s := { s with numGates := s.numGates + 1, knownGates := p :: s.knownGates }
  if larger then
    return s.setMaxAddrGate adapter p path
  return s

/-- When a gate times out that has been announced now. -/
def gateTimeout (path : MeshPath) : Systime :=
  now + adapter.msToSystime (.ofNat 32 adapter.pathGateTimeoutFactor.toNat * path.gateAnnInt)

def meshPathAddGate (p : ℕ) (s : MeshInfo) : Option (Option Errno × MeshInfo) := do
  let path ← s.path p
  let s := s.setPath p (.withGateTimeout (gateTimeout adapter now path))
  if path.isGate then
    return (some .exist, s)
  let s ← (s.setPath p .asGate).linkGate adapter p path
  return (none, s)

/-- The loop of `rtw_mesh_gate_del` over the gates that are left. -/
def largestGate (s : MeshInfo) : List ℕ → Option ℕ → Option (Option ℕ)
  | [], maxAddrGate => some maxAddrGate
  | gate :: gates, none => do
    let _ ← s.path gate
    s.largestGate gates (some gate)
  | gate :: gates, some maxAddrGate => do
    let path ← s.path gate
    let max ← s.path maxAddrGate
    s.largestGate gates (some (if path.dst.isLarger max.dst then gate else maxAddrGate))

def meshGateDel (p : ℕ) (s : MeshInfo) : Option MeshInfo := do
  let path ← s.path p
  if !path.isGate then
    return s
  let s := s.setPath p .noGate
  let oriNumGates := s.numGates
  let s := { s with knownGates := s.knownGates.erase p, numGates := s.numGates - 1 }
  if oriNumGates = 1 then
    return { s with maxAddrGate := none, maxAddrGateIsLargerThanSelf := false }
  if s.maxAddrGate = some p then
    let maxAddrGate ← s.largestGate s.knownGates none
    let gate ← maxAddrGate
    let max ← s.path gate
    return { s with
      maxAddrGate := some gate
      maxAddrGateIsLargerThanSelf := max.dst.isLarger adapter.macAddr }
  return s

/-! ### Frames that wait for a path -/

def prepareForGate (xframe : XmitFrame) (dstAddr nextHop : MacAddr) : XmitFrame where
  id := xframe.id
  meshFrameMode := if xframe.meshFrameMode = .ucastData then .ucastPxData else xframe.meshFrameMode
  ra := nextHop
  mda := dstAddr

/-- The loop of `rtw_mesh_path_move_to_queue`: what is left in `failq`, with `failq_len`; `limit` is
`RTW_MESH_FRAME_QUEUE_LEN`. -/
def moveFailq (limit gate : ℕ) : List XmitFrame → ℕ → MeshInfo → Option (List XmitFrame × ℕ × MeshInfo)
  | [], failqLen, s => some ([], failqLen, s)
  | fskb :: failq, failqLen, s => do
    let gatePath ← s.path gate
    if limit ≤ gatePath.frameQueueLen then
      return (fskb :: failq, failqLen, s)
    let nextHop ← gatePath.nextHop
    moveFailq limit gate failq (failqLen - 1) (s.setPath gate fun path =>
      path.withFrames (path.frameQueue ++ [prepareForGate fskb gatePath.dst nextHop.macAddr]) (path.frameQueueLen + 1))

def meshPathMoveToQueue (limit gate frm : ℕ) (copy : Bool) (s : MeshInfo) : Option MeshInfo := do
  if gate = frm then
    return s
  let gatePath ← s.path gate
  if gatePath.nextHop = none then
    return s
  let fromPath ← s.path frm
  let s := s.setPath frm .noFrames
  let (failq, failqLen, s) ← moveFailq limit gate fromPath.frameQueue fromPath.frameQueueLen s
  if !copy then
    return s
  return s.setPath frm fun path => path.withFrames (failq ++ path.frameQueue) (path.frameQueueLen + failqLen)

def meshPathTxPending (p : ℕ) (s : MeshInfo) : Option MeshInfo := do
  let path ← s.path p
  if !path.flags.active then
    return s
  if path.frameQueueLen = 0 then
    return s
  let s := s.setPath p .noFrames
  return { s with
    mpathTxQueue := s.mpathTxQueue ++ path.frameQueue
    mpathTxQueueLen := s.mpathTxQueueLen + path.frameQueueLen }

/-- The first loop of `rtw_mesh_path_send_to_gates`: the path that the frames were moved to last. -/
def moveToGates (limit : ℕ) : List ℕ → ℕ → Bool → MeshInfo → Option (ℕ × MeshInfo)
  | [], frm, _, s => some (frm, s)
  | gate :: gates, frm, copy, s => do
    let path ← s.path gate
    if path.flags.active then
      moveToGates limit gates gate true (← s.meshPathMoveToQueue limit gate frm copy)
    else
      moveToGates limit gates frm copy s

def txGates : List ℕ → MeshInfo → Option MeshInfo
  | [], s => some s
  | gate :: gates, s => do txGates gates (← s.meshPathTxPending gate)

def meshPathSendToGates (limit p : ℕ) (s : MeshInfo) : Option (Option Errno × MeshInfo) := do
  let (frm, s) ← moveToGates limit s.knownGates p false s
  let s ← txGates s.knownGates s
  return (if frm = p then some .hostunreach else none, s)

/-- `rtw_mesh_path_flush_pending`, with `rtw_mesh_path_discard_frame` for each frame. -/
def meshPathFlushPending (p : ℕ) (s : MeshInfo) : Option MeshInfo := do
  let path ← s.path p
  let s := s.setPath p .noFrames
  return { s with discarded := s.discarded ++ path.frameQueue }

/-! ### Paths in the tables -/

def insertPath (t : Table) (p : ℕ) (s : MeshInfo) : MeshInfo :=
  { s with tbl := Function.update s.tbl t (p :: s.tbl t) }

/-- `rtw_mesh_path_add`; `insert` is whether the table takes a path that it does not have. -/
def meshPathAdd (malloc insert : Bool) (dst : MacAddr) (s : MeshInfo) : Except Errno ℕ × MeshInfo :=
  if dst = adapter.macAddr then (.error .notsupp, s)
  else if dst.isMulticast then (.error .notsupp, s)
  else if s.mpaths = meshMaxMpaths then (.error .nospc, s)
  else
    let s := { s with mpaths := s.mpaths + 1 }
    if !malloc then (.error .nomem, s)
    else
      let newMpath := s.heap.next
      let s := { s with heap := s.heap.alloc (.new dst now) }
      match s.lookupFast .meshPaths dst with
      | some mpath => (.ok mpath, { s with heap := s.heap.free newMpath })
      | none => if insert then (.ok newMpath, s.insertPath .meshPaths newMpath) else (.error .insert, s)

def mppPathAdd (malloc insert : Bool) (dst mpp : MacAddr) (s : MeshInfo) : Option Errno × MeshInfo :=
  if dst = adapter.macAddr then (some .notsupp, s)
  else if dst.isMulticast then (some .notsupp, s)
  else if !malloc then (some .nomem, s)
  else
    let newMpath := s.heap.next
    let s := { s with heap := s.heap.alloc { MeshPath.new dst now with mpp := mpp } }
    match s.lookupFast .mppPaths dst with
    | some _ => (some .exist, s)
    | none => if insert then (none, s.insertPath .mppPaths newMpath) else (some .insert, s)

def meshPathFreeRcu (p : ℕ) (s : MeshInfo) : Option MeshInfo := do
  let _ ← s.path p
  let s := s.setPath p .withoutUse
  let s ← s.meshGateDel adapter p
  let s := s.setPath p .noTimer
  let s := { s with mpaths := s.mpaths - 1 }
  let s ← s.meshPathFlushPending p
  return { s with retired := p :: s.retired }

/-- `__rtw_mesh_path_del` -/
def delPath (t : Table) (p : ℕ) (s : MeshInfo) : Option MeshInfo :=
  meshPathFreeRcu adapter p { s with tbl := Function.update s.tbl t ((s.tbl t).erase p) }

def walk (t : Table) (body : ℕ → MeshInfo → Option MeshInfo) : List ℕ → MeshInfo → Option MeshInfo
  | [], s => some s
  | p :: visits, s => do
    if p ∈ s.tbl t then
      walk t body visits (← body p s)
    else
      walk t body visits s

def meshPathFlushByNexthop (sta : Sta) (visits : List ℕ) (s : MeshInfo) : Option MeshInfo := do
  let s ← walk .meshPaths (fun p s => do
    let path ← s.path p
    if path.nextHop = some sta then s.delPath adapter .meshPaths p else some s) visits s
  return s.rcuReadUnlock

def mppFlushByProxy (proxy : MacAddr) (visits : List ℕ) (s : MeshInfo) : Option MeshInfo := do
  let s ← walk .mppPaths (fun p s => do
    let path ← s.path p
    if path.mpp = proxy then s.delPath adapter .mppPaths p else some s) visits s
  return s.rcuReadUnlock

def tableFlushByIface (t : Table) (visits : List ℕ) (s : MeshInfo) : Option MeshInfo := do
  let s ← walk t (fun p s => s.delPath adapter t p) visits s
  return s.rcuReadUnlock

def tablePathDel (t : Table) (addr : MacAddr) (s : MeshInfo) : Option MeshInfo :=
  match s.lookupFast t addr with
  | none => some s
  | some p => do
    let s ← s.delPath adapter t p
    return s.rcuReadUnlock

def meshPathDel (addr : MacAddr) (visits : List ℕ) (s : MeshInfo) : Option MeshInfo := do
  let s ← s.mppFlushByProxy adapter addr visits
  s.tablePathDel adapter .meshPaths addr

/-- What `rtw_mesh_path_tbl_expire` does with a gate that has not been announced. -/
def expireGate (malloc : Bool) (p : ℕ) (s : MeshInfo) : Option MeshInfo := do
  let path ← s.path p
  if path.isGate && timeAfter now path.gateTimeout then
    if path.gateAsked then
      s.meshGateDel adapter p
    else
      let s := s.setPath p (.withGateAsked (now + adapter.msToSystime path.gateAnnInt))
      s.queuePreq adapter now malloc p { start := true, refresh := true }
  else
    return s

def expirePath (t : Table) (malloc : ℕ → Bool) (p : ℕ) (s : MeshInfo) : Option MeshInfo := do
  let path ← s.path p
  let s ←
    if !path.flags.resolving && !path.flags.fixed && timeAfter now (path.expTime + adapter.meshPathExpire) then
      s.delPath adapter t p
    else
      some s
  -- the path may have been deleted, but the read section goes on
  s.expireGate adapter now (malloc p) p

def meshPathTblExpire (t : Table) (malloc : ℕ → Bool) (visits : List ℕ) (s : MeshInfo) : Option MeshInfo := do
  let s ← walk t (expirePath adapter now t malloc) visits s
  return s.rcuReadUnlock

end MeshInfo

end Rtl8852cu.Mesh
