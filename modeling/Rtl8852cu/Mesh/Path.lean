import Rtl8852cu.Lib.Heap
import Mathlib.Data.UInt
import Mathlib.Data.Nat.Notation

/-!
# Mesh paths

The data of `rtw_mesh_pathtbl.h`: MAC addresses with the order of `rtw_macaddr_is_larger`, the system
time with its wrapped comparison, `struct rtw_mesh_path` with its flags, and `struct rtw_mesh_info`
with both path tables, the list of known gates, the queue of path requests and the transmit queue.

Paths are cells of a heap and a table is the list of the pointers in it.  A function that reads a path
through its pointer returns an `Option`: `none` is the read of a path that has been freed.  A removed
path is `retired`: `kfree_rcu` frees it when the read section that is going on ends.
-/

namespace Rtl8852cu.Mesh

open Lib

/-! ### Addresses -/

structure MacAddr where
  b0 : UInt8
  b1 : UInt8
  b2 : UInt8
  b3 : UInt8
  b4 : UInt8
  b5 : UInt8
  deriving DecidableEq

namespace MacAddr

/-- `be32_to_cpu` of the first four bytes. -/
def hi (a : MacAddr) : ℕ := a.b0.toNat * 0x1000000 + a.b1.toNat * 0x10000 + a.b2.toNat * 0x100 + a.b3.toNat

/-- `be16_to_cpu` of the other two. -/
def lo (a : MacAddr) : ℕ := a.b4.toNat * 0x100 + a.b5.toNat

/-- `rtw_macaddr_is_larger` -/
def isLarger (a b : MacAddr) : Bool :=
  if b.hi < a.hi then true
  else if a.hi < b.hi then false
  else decide (b.lo < a.lo)

/-- `is_multicast_mac_addr` -/
def isMulticast (a : MacAddr) : Bool := a.b0 &&& 0x01 == 0x01 && a.b0 != 0xff

def val (a : MacAddr) : ℕ := a.hi * 0x10000 + a.lo

theorem lo_lt (a : MacAddr) : a.lo < 0x10000 := by
  have h4 := a.b4.toNat_lt
  have h5 := a.b5.toNat_lt
  unfold lo; omega

theorem val_inj {a b : MacAddr} (h : a.val = b.val) : a = b := by
  have ha := a.lo_lt
  have hb := b.lo_lt
  have hhi : a.hi = b.hi := by unfold val at h; omega
  have hlo : a.lo = b.lo := by unfold val at h; omega
  obtain ⟨a0, a1, a2, a3, a4, a5⟩ := a
  obtain ⟨b0, b1, b2, b3, b4, b5⟩ := b
  have ha1 := a1.toNat_lt
  have ha2 := a2.toNat_lt
  have ha3 := a3.toNat_lt
  have ha5 := a5.toNat_lt
  have hb1 := b1.toNat_lt
  have hb2 := b2.toNat_lt
  have hb3 := b3.toNat_lt
  have hb5 := b5.toNat_lt
  unfold hi at hhi
  unfold lo at hlo
  simp only at hhi hlo
  rw [MacAddr.mk.injEq, ← UInt8.toNat_inj, ← UInt8.toNat_inj, ← UInt8.toNat_inj, ← UInt8.toNat_inj,
    ← UInt8.toNat_inj, ← UInt8.toNat_inj]
  omega

theorem isLarger_iff {a b : MacAddr} : a.isLarger b = true ↔ b.val < a.val := by
  have ha := a.lo_lt
  have hb := b.lo_lt
  unfold isLarger val
  split_ifs with h1 h2
  · exact iff_of_true rfl (by omega)
  · exact iff_of_false nofun (by omega)
  · rw [decide_eq_true_iff]; omega

end MacAddr

/-! ### Time -/

abbrev Systime := BitVec 64

/-- `rtw_time_after`: the difference as a signed number is negative. -/
def timeAfter (a b : Systime) : Bool := (b - a).msb

def timeBefore (a b : Systime) : Bool := timeAfter b a

/-! ### Paths -/

/-- A station, by its number, with the address of `phl_sta`. -/
structure Sta where
  id : ℕ
  macAddr : MacAddr
  deriving DecidableEq

inductive MeshFrameType
  | ucastData | bmcastData | ucastPxData | bmcastPxData | mhopUcastAct | mhopBmcastAct
  deriving DecidableEq

/-- `struct xmit_frame`, by its number, with what a path changes in `attrib`. -/
structure XmitFrame where
  id : ℕ
  meshFrameMode : MeshFrameType
  ra : MacAddr
  mda : MacAddr
  deriving DecidableEq

/-- `enum rtw_mesh_path_flags` -/
structure PathFlags where
  active : Bool := false
  resolving : Bool := false
  snValid : Bool := false
  fixed : Bool := false
  resolved : Bool := false
  reqQueued : Bool := false
  deleted : Bool := false
  rootAddChk : Bool := false
  peerAka : Bool := false
  bcastPreq : Bool := false
  deriving DecidableEq

/-- `struct rtw_mesh_path`; the timer is armed for a time or not. -/
structure MeshPath where
  dst : MacAddr
  mpp : MacAddr
  nextHop : Option Sta
  timer : Option Systime
  frameQueue : List XmitFrame
  frameQueueLen : ℕ
  sn : BitVec 32
  metric : BitVec 32
  hopCount : UInt8
  expTime : Systime
  discoveryTimeout : Systime
  gateTimeout : Systime
  gateAnnInt : BitVec 32
  discoveryRetries : UInt8
  flags : PathFlags
  rannSndAddr : MacAddr
  rannMetric : BitVec 32
  lastPreqToRoot : Systime
  isRoot : Bool
  isGate : Bool
  gateAsked : Bool
  deriving DecidableEq

def zeroAddr : MacAddr := ⟨0, 0, 0, 0, 0, 0⟩

def bcastAddr : MacAddr := ⟨0xff, 0xff, 0xff, 0xff, 0xff, 0xff⟩

/-- `rtw_mesh_path_new` -/
def MeshPath.new (dst : MacAddr) (now : Systime) : MeshPath where
  dst := dst
  mpp := zeroAddr
  nextHop := none
  timer := none
  frameQueue := []
  frameQueueLen := 0
  sn := 0
  metric := 0
  hopCount := 0
  expTime := now
  discoveryTimeout := 0
  gateTimeout := 0
  gateAnnInt := 0
  discoveryRetries := 0
  flags := {}
  rannSndAddr := bcastAddr
  rannMetric := 0
  lastPreqToRoot := 0
  isRoot := false
  isGate := false
  gateAsked := false

/-- `is_gate` cleared. -/
def MeshPath.noGate (path : MeshPath) : MeshPath := { path with isGate := false }

/-- `RTW_MESH_PATH_RESOLVING` and `RTW_MESH_PATH_DELETED` set. -/
def MeshPath.withoutUse (path : MeshPath) : MeshPath :=
  { path with flags := { path.flags with resolving := true, deleted := true } }

def MeshPath.noTimer (path : MeshPath) : MeshPath := { path with timer := none }

/-- `gate_timeout` set. -/
def MeshPath.withGateTimeout (timeout : Systime) (path : MeshPath) : MeshPath := { path with gateTimeout := timeout }

/-- `gate_asked` set, with a new `gate_timeout`. -/
def MeshPath.withGateAsked (timeout : Systime) (path : MeshPath) : MeshPath :=
  { path with gateAsked := true, gateTimeout := timeout }

/-- `is_gate` set. -/
def MeshPath.asGate (path : MeshPath) : MeshPath := { path with isGate := true }

/-- `frame_queue` emptied. -/
def MeshPath.noFrames (path : MeshPath) : MeshPath := { path with frameQueue := [], frameQueueLen := 0 }

/-- `frame_queue` and its length. -/
def MeshPath.withFrames (frames : List XmitFrame) (len : ℕ) (path : MeshPath) : MeshPath :=
  { path with frameQueue := frames, frameQueueLen := len }

/-- `RTW_PREQ_Q_F_*`, without the check of the root that `CONFIG_RTW_MESH_ADD_ROOT_CHK` would add. -/
structure PreqFlags where
  start : Bool := false
  refresh : Bool := false
  peerAka : Bool := false
  bcastPreq : Bool := false
  deriving DecidableEq

/-- `struct rtw_mesh_preq_queue` -/
structure PreqNode where
  dst : MacAddr
  flags : PreqFlags
  deriving DecidableEq

/-- What the functions read of the adapter and its `mesh_cfg`; `hz` are the ticks of a second. -/
structure Adapter where
  macAddr : MacAddr
  hz : Systime
  msToSystime : BitVec 32 → Systime
  pathGateTimeoutFactor : UInt8
  preqMinInterval : UInt16
  minDiscoveryTimeout : UInt16
  maxPreqRetries : UInt8
  elementTtl : UInt8

def Adapter.meshPathExpire (adapter : Adapter) : Systime := 600 * adapter.hz

def Adapter.minPreqIntJiff (adapter : Adapter) : Systime :=
  adapter.msToSystime (.ofNat 32 adapter.preqMinInterval.toNat)

def meshMaxMpaths : ℤ := 1024

def meshFrameQueueLen : ℕ := 10

def maxPreqQueueLen : ℤ := 64

/-! ### The mesh of an adapter -/

inductive Table
  | meshPaths | mppPaths
  deriving DecidableEq

/-- `struct rtw_mesh_info`; `knownGates` is the list of the table of mesh paths, `discarded` holds the frames that
`rtw_mesh_path_discard_frame` has freed. -/
structure MeshInfo where
  heap : Heap MeshPath
  retired : List ℕ
  tbl : Table → List ℕ
  mpaths : ℤ
  knownGates : List ℕ
  numGates : ℤ
  maxAddrGate : Option ℕ
  maxAddrGateIsLargerThanSelf : Bool
  preqQueue : List PreqNode
  preqQueueLen : ℤ
  lastPreq : Systime
  mpathTxQueue : List XmitFrame
  mpathTxQueueLen : ℕ
  discarded : List XmitFrame

def MeshInfo.init : MeshInfo where
  heap := .empty
  retired := []
  tbl := fun _ => []
  mpaths := 0
  knownGates := []
  numGates := 0
  maxAddrGate := none
  maxAddrGateIsLargerThanSelf := false
  preqQueue := []
  preqQueueLen := 0
  lastPreq := 0
  mpathTxQueue := []
  mpathTxQueueLen := 0
  discarded := []

namespace MeshInfo

/-- The read of a path through its pointer. -/
def path (s : MeshInfo) (p : ℕ) : Option MeshPath := s.heap.cell p

def setPath (s : MeshInfo) (p : ℕ) (f : MeshPath → MeshPath) : MeshInfo := { s with heap := s.heap.modify p f }

/-- The end of a read section: what has been retired is freed. -/
def rcuReadUnlock (s : MeshInfo) : MeshInfo :=
  { s with heap := s.retired.foldl Heap.free s.heap, retired := [] }

/-- `rtw_rhashtable_lookup_fast` -/
def lookupFast (s : MeshInfo) (t : Table) (dst : MacAddr) : Option ℕ :=
  (s.tbl t).find? fun p => (s.path p).any (·.dst = dst)

end MeshInfo

end Rtl8852cu.Mesh
