import Rtl8852cu.Mesh.PathTbl

/-!
# Path selection

The handlers of `rtw_mesh_hwmp.c` for received elements, `rtw_mesh_path_start_discovery` and `rtw_mesh_path_timer`.  An
element comes with the address of its transmitter and what `rtw_get_stainfo` and `rtw_airtime_link_metric_get` give
for it; an allocation that may fail has its outcome as an argument, and the frames sent are returned.  `none` is
the read of a path that is not there, or of the next hop of a path without one.
-/

namespace Rtl8852cu.Mesh

open Lib

/-- The adapter, with what the path selection reads of `mesh_cfg`. -/
structure HwmpAdapter extends Adapter where
  tuToSystime : BitVec 32 → Systime
  meshForwarding : Bool
  meshGateAnnouncementProtocol : Bool
  netDiameterTraversalTime : UInt16
  activePathTimeout : BitVec 32
  confirmationInterval : UInt16
  perrMinInterval : UInt16

def rtwSnGt (x y : BitVec 32) : Bool := (y - x).msb

def rtwSnLt (x y : BitVec 32) : Bool := (x - y).msb

def rtwSnDelta (x y : BitVec 32) : BitVec 32 := if y ≤ x then x - y else y - x

def maxMetric : BitVec 32 := BitVec.allOnes 32

/-- The transmitter of an element, with the metric of the link to it. -/
structure Neighbour where
  sta : Sta
  linkMetric : BitVec 32

/-- The outcomes of `rtw_mesh_path_add`. -/
structure PathAlloc where
  malloc : Bool
  insert : Bool

/-! ### Elements and frames -/

structure PreqElem where
  flags : BitVec 8
  hopcount : UInt8
  ttl : UInt8
  preqId : BitVec 32
  origAddr : MacAddr
  origSn : BitVec 32
  lifetime : BitVec 32
  metric : BitVec 32
  targetFlags : BitVec 8
  targetAddr : MacAddr
  targetSn : BitVec 32

structure PrepElem where
  flags : BitVec 8
  hopcount : UInt8
  ttl : UInt8
  targetAddr : MacAddr
  targetSn : BitVec 32
  lifetime : BitVec 32
  metric : BitVec 32
  origAddr : MacAddr
  origSn : BitVec 32

/-- A PERR element with one destination. -/
structure PerrElem where
  ttl : UInt8
  targetAddr : MacAddr
  targetSn : BitVec 32
  reasonCode : BitVec 16

/-- `struct rtw_ieee80211_rann_ie` -/
structure RannElem where
  flags : BitVec 8
  hopcount : UInt8
  ttl : UInt8
  addr : MacAddr
  seq : BitVec 32
  interval : BitVec 32
  metric : BitVec 32

/-- `enum rtw_mpath_frame_type`, without the PERR that has a function of its own. -/
inductive MpathFrameType
  | preq | prep | rann
  deriving DecidableEq

/-- The arguments of `rtw_mesh_path_sel_frame_tx`. -/
structure SelFrame where
  action : MpathFrameType
  flags : BitVec 8
  originatorAddr : MacAddr
  originatorSn : BitVec 32
  targetFlags : BitVec 8
  target : Option MacAddr
  targetSn : BitVec 32
  da : MacAddr
  hopcount : UInt8
  ttl : UInt8
  lifetime : BitVec 32
  metric : BitVec 32
  preqId : BitVec 32

/-- What is sent: also by `rtw_mesh_path_error_tx`. -/
inductive Sent
  | sel (frame : SelFrame)
  | perr (ttl : UInt8) (target : MacAddr) (targetSn : BitVec 32) (reasonCode : BitVec 16) (ra : MacAddr)

/-- The part of `rtw_mesh_info` for the path selection. -/
structure Hwmp where
  mesh : MeshInfo
  sn : BitVec 32
  lastSnUpdate : Systime
  preqId : BitVec 32
  nextPerr : Systime

/-! ### Routes -/

def mpathExpired (now : Systime) (path : MeshPath) : Bool :=
  path.flags.active && timeAfter now path.expTime && !path.flags.fixed

namespace MeshPath

/-- `RTW_MESH_PATH_ACTIVE` cleared. -/
def inactive (path : MeshPath) : MeshPath := { path with flags := { path.flags with active := false } }

/-- `rtw_mesh_path_assign_nexthop` -/
def assignNexthop (sta : Sta) (path : MeshPath) : MeshPath :=
  { path with nextHop := some sta, frameQueue := path.frameQueue.map fun xframe => { xframe with ra := sta.macAddr } }

/-- `rtw_mesh_path_activate` -/
def activate (path : MeshPath) : MeshPath := { path with flags := { path.flags with active := true, resolved := true } }

def laterTime (a b : Systime) : Systime := if timeAfter a b then a else b

/-- The route to the originator of an element. -/
def originatorUpdate (sta : Sta) (newMetric originatorSn : BitVec 32) (expTime : Systime) (path : MeshPath) : MeshPath :=
  let path := path.assignNexthop sta
  { path with
    flags := { path.flags with snValid := true }
    metric := newMetric
    sn := originatorSn
    expTime := laterTime path.expTime expTime }.activate

def transmitterUpdate (sta : Sta) (lastHopMetric : BitVec 32) (expTime : Systime) (path : MeshPath) : MeshPath :=
  { path.assignNexthop sta with metric := lastHopMetric, expTime := laterTime path.expTime expTime }.activate

/-- What `rtw_hwmp_route_info_get` decides for a path that is known: `process` and `fresh_info`. -/
def originatorInfo (originatorSn newMetric : BitVec 32) (path : MeshPath) : Bool × Bool :=
  if path.flags.fixed then (true, false)
  else if path.flags.active && path.flags.snValid then
    if rtwSnGt path.sn originatorSn || (decide (path.sn = originatorSn) && decide (path.metric ≤ newMetric)) then (false, false)
    else (true, true)
  else if !path.flags.active then
    let haveSn := path.flags.snValid
    let newerSn := haveSn && rtwSnGt originatorSn path.sn
    let bounced := haveSn && decide (32 < rtwSnDelta originatorSn path.sn)
    if !haveSn || newerSn then (true, true)
    else if bounced then (true, true)
    else (false, false)
  else (true, true)

/-- Whether the route to a transmitter that is known is kept. -/
def keepsTransmitter (lastHopMetric : BitVec 32) (path : MeshPath) : Bool :=
  path.flags.fixed || path.flags.active && decide (path.metric < lastHopMetric)

end MeshPath

namespace MeshInfo

variable (adapter : HwmpAdapter) (now : Systime)

def meshPathLookup (dst : MacAddr) (s : MeshInfo) : Option (Option ℕ × MeshInfo) :=
  match s.lookupFast .meshPaths dst with
  | none => some (none, s)
  | some p => do
    let path ← s.path p
    return (some p, if mpathExpired now path then s.setPath p .inactive else s)

/-- The lookup of a path that is added if it is not there: with the path as it was found. -/
def meshPathGet (alloc : PathAlloc) (dst : MacAddr) (s : MeshInfo) : Option (Option (ℕ × Option MeshPath) × MeshInfo) := do
  let (found, s) ← s.meshPathLookup now dst
  match found with
  | some p => do
    let path ← s.path p
    return (some (p, some path), s)
  | none =>
    match s.meshPathAdd adapter.toAdapter now alloc.malloc alloc.insert dst with
    | (.error _, s) => return (none, s)
    | (.ok p, s) => return (some (p, none), s)

/-- A route that is set, and the frames that waited for it sent. -/
def setRoute (p : ℕ) (f : MeshPath → MeshPath) (s : MeshInfo) : Option MeshInfo := (s.setPath p f).meshPathTxPending p

/-- The originator in `rtw_hwmp_route_info_get`, when it is not this station: `process`, or none when no path could be added. -/
def originatorRoute (alloc : PathAlloc) (sta : Sta) (originatorAddr : MacAddr) (originatorSn newMetric : BitVec 32)
    (expTime : Systime) (s : MeshInfo) : Option (Option Bool × MeshInfo) := do
  let (got, s) ← s.meshPathGet adapter now alloc originatorAddr
  match got with
  | none => return (none, s)
  | some (p, path) =>
    let info := (path.map (MeshPath.originatorInfo originatorSn newMetric)).getD (true, true)
    if info.2 then
      return (some info.1, ← s.setRoute p (.originatorUpdate sta newMetric originatorSn expTime))
    else
      return (some info.1, s)

def originatorProcess (alloc : PathAlloc) (sta : Sta) (originatorAddr : MacAddr) (originatorSn newMetric : BitVec 32)
    (expTime : Systime) (s : MeshInfo) : Option (Option Bool × MeshInfo) :=
  if originatorAddr = adapter.macAddr then some (some false, s)
  else s.originatorRoute adapter now alloc sta originatorAddr originatorSn newMetric expTime

/-- The transmitter, when it is not the originator: whether there is a path. -/
def transmitterRoute (alloc : PathAlloc) (sta : Sta) (ta : MacAddr) (lastHopMetric : BitVec 32) (expTime : Systime)
    (s : MeshInfo) : Option (Bool × MeshInfo) := do
  let (got, s) ← s.meshPathGet adapter now alloc ta
  match got with
  | none => return (false, s)
  | some (p, path) =>
    if (path.map (MeshPath.keepsTransmitter lastHopMetric)).getD false then
      return (true, s)
    else
      return (true, ← s.setRoute p (.transmitterUpdate sta lastHopMetric expTime))

def transmitterKnown (alloc : PathAlloc) (sta : Sta) (originatorAddr ta : MacAddr) (lastHopMetric : BitVec 32) (expTime : Systime)
    (s : MeshInfo) : Option (Bool × MeshInfo) :=
  if originatorAddr = ta then some (true, s) else s.transmitterRoute adapter now alloc sta ta lastHopMetric expTime

/-- The metric to the originator by way of the transmitter. -/
def newMetric (originatorMetric lastHopMetric : BitVec 32) : BitVec 32 :=
  if originatorMetric + lastHopMetric < originatorMetric then maxMetric else originatorMetric + lastHopMetric

def hwmpRouteInfoGet (alloc taAlloc : PathAlloc) (neighbour : Option Neighbour) (ta originatorAddr : MacAddr)
    (originatorSn originatorLifetime originatorMetric : BitVec 32) (s : MeshInfo) : Option (BitVec 32 × MeshInfo) :=
  match neighbour with
  | none => some (0, s)
  | some nb => do
    let metric := newMetric originatorMetric nb.linkMetric
    let expTime := now + adapter.tuToSystime originatorLifetime
    let (process, s) ← s.originatorProcess adapter now alloc nb.sta originatorAddr originatorSn metric expTime
    match process with
    | none => return (0, s)
    | some process =>
      let (got, s) ← s.transmitterKnown adapter now taAlloc nb.sta originatorAddr ta nb.linkMetric expTime
      return (if got && process then metric else 0, s)

/-- A gate that announces itself, or does no more. -/
def announceGate (isGate : Bool) (p : ℕ) (f : MeshPath → MeshPath) (s : MeshInfo) : Option MeshInfo :=
  if isGate then do
    let (_, s) ← (s.setPath p f).meshPathAddGate adapter.toAdapter now p
    return s
  else do
    let path ← s.path p
    if path.isGate then s.meshGateDel adapter.toAdapter p else some s

end MeshInfo

/-- `gate_ann_int` set, and `gate_asked` cleared. -/
def MeshPath.withGateAnnInt (interval : BitVec 32) (path : MeshPath) : MeshPath :=
  { path with gateAnnInt := interval, gateAsked := false }

/-- `gate_asked` cleared. -/
def MeshPath.notAsked (path : MeshPath) : MeshPath := { path with gateAsked := false }

/-- `sn` set, with `RTW_MESH_PATH_SN_VALID`. -/
def MeshPath.withSn (sn : BitVec 32) (path : MeshPath) : MeshPath :=
  { path with sn := sn, flags := { path.flags with snValid := true } }

def MeshPath.broken (sn : BitVec 32) (path : MeshPath) : MeshPath := { path.inactive with sn := sn }

/-- `last_preq_to_root` set. -/
def MeshPath.withLastPreqToRoot (now : Systime) (path : MeshPath) : MeshPath := { path with lastPreqToRoot := now }

/-- The path to a root that announces itself. -/
def MeshPath.rootUpdate (seq metric : BitVec 32) (sndAddr : MacAddr) (path : MeshPath) : MeshPath :=
  { path with sn := seq, rannMetric := metric, isRoot := true, rannSndAddr := sndAddr }

namespace Hwmp

variable (adapter : HwmpAdapter) (now : Systime)

/-- The own sequence number goes up when it was not updated for `rtw_net_traversal_jiffies`. -/
def updateSn (s : Hwmp) : Hwmp :=
  if timeAfter now (s.lastSnUpdate + adapter.msToSystime (.ofNat 32 adapter.netDiameterTraversalTime.toNat)) ||
      timeBefore now s.lastSnUpdate then
    { s with sn := s.sn + 1, lastSnUpdate := now }
  else s

/-! ### PREQ -/

/-- What the first half of `rtw_hwmp_preq_frame_process` leaves for its second half. -/
structure PreqAnswer where
  reply : Bool
  forward : Bool
  toGateAsk : Bool
  targetAddr : MacAddr
  targetSn : BitVec 32
  targetFlags : BitVec 8
  targetMetric : BitVec 32
  path : Option ℕ
  s : Hwmp

/-- A PREQ that is forwarded as it came. -/
def PreqAnswer.forwarded (e : PreqElem) (s : Hwmp) : PreqAnswer where
  reply := false
  forward := true
  toGateAsk := false
  targetAddr := e.targetAddr
  targetSn := e.targetSn
  targetFlags := e.targetFlags
  targetMetric := 0
  path := none
  s := s

def preqForUs (e : PreqElem) (s : Hwmp) : PreqAnswer :=
  let s := s.updateSn adapter now
  { PreqAnswer.forwarded e s with reply := true, forward := false, toGateAsk := true, targetSn := s.sn }

def preqProactive (e : PreqElem) (s : Hwmp) : Option PreqAnswer := do
  let (found, mesh) ← s.mesh.meshPathLookup now e.origAddr
  let s := { s with mesh := mesh }
  match found with
  | none => return .forwarded e s
  | some p => do
    let answer : PreqAnswer :=
      if e.flags.getLsbD 2 then
        { PreqAnswer.forwarded e { s with sn := s.sn + 1, lastSnUpdate := now } with
          reply := true, targetAddr := adapter.macAddr, targetSn := s.sn + 1 }
      else .forwarded e s
    let mesh ← s.mesh.announceGate adapter now (e.flags.getLsbD 0) p (.withGateAnnInt e.lifetime)
    return { answer with path := some p, s := { answer.s with mesh := mesh } }

def preqForOther (e : PreqElem) (s : Hwmp) : Option PreqAnswer := do
  let (found, mesh) ← s.mesh.meshPathLookup now e.targetAddr
  let s := { s with mesh := mesh }
  match found with
  | none => return .forwarded e s
  | some p => do
    let path ← s.mesh.path p
    if !path.flags.snValid || rtwSnLt path.sn e.targetSn then
      return { PreqAnswer.forwarded e { s with mesh := s.mesh.setPath p (.withSn e.targetSn) } with path := some p }
    else if !e.targetFlags.getLsbD 0 && path.flags.active then
      return { PreqAnswer.forwarded e s with
        reply := true, targetMetric := path.metric, targetSn := path.sn, targetFlags := e.targetFlags ||| 1, path := some p }
    else
      return { PreqAnswer.forwarded e s with path := some p }

/-- The first half of `rtw_hwmp_preq_frame_process`. -/
def preqAnswer (e : PreqElem) (s : Hwmp) : Option PreqAnswer :=
  if e.targetAddr = adapter.macAddr then some (s.preqForUs adapter now e)
  else if e.targetAddr = bcastAddr ∧ e.targetFlags.getLsbD 0 = true then s.preqProactive adapter now e
  else s.preqForOther now e

def preqReply (ta : MacAddr) (e : PreqElem) (answer : PreqAnswer) : List Sent :=
  if answer.reply && adapter.elementTtl != 0 then
    [.sel {
      action := .prep
      flags := if answer.toGateAsk && adapter.meshGateAnnouncementProtocol then 0x81 else 0
      originatorAddr := e.origAddr
      originatorSn := e.origSn
      targetFlags := 0
      target := some answer.targetAddr
      targetSn := answer.targetSn
      da := ta
      hopcount := 0
      ttl := adapter.elementTtl
      lifetime := e.lifetime
      metric := answer.targetMetric
      preqId := 0 }]
  else []

def preqForward (e : PreqElem) (originatorMetric : BitVec 32) (answer : PreqAnswer) : Option (List Sent) :=
  if answer.forward && adapter.meshForwarding && decide (1 < e.ttl) then do
    let path ← answer.path.elim (some none) fun p => (answer.s.mesh.path p).map some
    let proactive := e.flags.getLsbD 2
    return [.sel {
      action := .preq
      flags := e.flags
      originatorAddr := e.origAddr
      originatorSn := e.origSn
      targetFlags := answer.targetFlags
      target := some (if proactive then e.targetAddr else answer.targetAddr)
      targetSn := if proactive then e.targetSn else answer.targetSn
      da := (path.map fun path => if path.isRoot then path.rannSndAddr else bcastAddr).getD bcastAddr
      hopcount := e.hopcount + 1
      ttl := e.ttl - 1
      lifetime := e.lifetime
      metric := originatorMetric
      preqId := e.preqId }]
  else some []

/-- `rtw_hwmp_preq_frame_process` -/
def preqFrameProcess (ta : MacAddr) (e : PreqElem) (originatorMetric : BitVec 32) (s : Hwmp) : Option (Hwmp × List Sent) := do
  let answer ← s.preqAnswer adapter now e
  let forward ← preqForward adapter e originatorMetric answer
  return (answer.s, preqReply adapter ta e answer ++ forward)

/-! ### PREP, PERR and RANN -/

/-- A PREP that has arrived: a gate that was asked may be none any more. -/
def prepForUs (e : PrepElem) (s : Hwmp) : Option Hwmp := do
  let (found, mesh) ← s.mesh.meshPathLookup now e.targetAddr
  match found with
  | none => return { s with mesh := mesh }
  | some p => do
    let path ← mesh.path p
    if path.gateAsked && e.flags.getLsbD 7 then
      let mesh := mesh.setPath p .notAsked
      return { s with mesh := ← if e.flags.getLsbD 0 then some mesh else mesh.meshGateDel adapter.toAdapter p }
    else
      return { s with mesh := mesh }

def prepForward (e : PrepElem) (metric : BitVec 32) (s : Hwmp) : Option (Hwmp × List Sent) := do
  let (found, mesh) ← s.mesh.meshPathLookup now e.origAddr
  let s := { s with mesh := mesh }
  match found with
  | none => return (s, [])
  | some p => do
    let path ← mesh.path p
    if !path.flags.active then
      return (s, [])
    let nextHop ← path.nextHop
    return (s, [.sel {
      action := .prep
      flags := e.flags
      originatorAddr := e.origAddr
      originatorSn := e.origSn
      targetFlags := 0
      target := some e.targetAddr
      targetSn := e.targetSn
      da := nextHop.macAddr
      hopcount := e.hopcount + 1
      ttl := e.ttl - 1
      lifetime := e.lifetime
      metric := metric
      preqId := 0 }])

/-- `rtw_hwmp_prep_frame_process` -/
def prepFrameProcess (e : PrepElem) (metric : BitVec 32) (s : Hwmp) : Option (Hwmp × List Sent) :=
  if e.origAddr = adapter.macAddr then (s.prepForUs adapter now e).map (·, [])
  else if !adapter.meshForwarding then some (s, [])
  else if e.ttl ≤ 1 then some (s, [])
  else s.prepForward now e metric

/-- `rtw_mesh_path_error_tx` -/
def pathErrorTx (ttl : UInt8) (target : MacAddr) (targetSn : BitVec 32) (reasonCode : BitVec 16) (ra : MacAddr) (s : Hwmp) :
    Hwmp × List Sent :=
  if timeBefore now s.nextPerr then (s, [])
  else ({ s with nextPerr := now + adapter.tuToSystime (.ofNat 32 adapter.perrMinInterval.toNat) },
    [.perr ttl target targetSn reasonCode ra])

/-- `rtw_hwmp_perr_frame_process` -/
def perrFrameProcess (ta : MacAddr) (e : PerrElem) (s : Hwmp) : Option (Hwmp × List Sent) := do
  if e.ttl ≤ 1 then
    return (s, [])
  let (found, mesh) ← s.mesh.meshPathLookup now e.targetAddr
  let s := { s with mesh := mesh }
  match found with
  | none => return (s, [])
  | some p => do
    let path ← mesh.path p
    if !path.flags.active then
      return (s, [])
    let nextHop ← path.nextHop
    if ta = nextHop.macAddr ∧ path.flags.fixed = false ∧
        (path.flags.snValid = false ∨ rtwSnGt e.targetSn path.sn = true ∨ e.targetSn = 0) then
      let s := { s with mesh := mesh.setPath p (.broken (if e.targetSn = 0 then path.sn + 1 else e.targetSn)) }
      if adapter.meshForwarding then
        return s.pathErrorTx adapter now (e.ttl - 1) e.targetAddr e.targetSn e.reasonCode bcastAddr
      else
        return (s, [])
    else
      return (s, [])

/-- Whether a RANN is newer than what is known of its root. -/
def rannNew (e : RannElem) (path : MeshPath) : Bool :=
  rtwSnLt path.sn e.seq || decide (path.sn = e.seq) && decide (e.metric < path.rannMetric)

/-- Whether the path to the root is to be confirmed. -/
def rannRefresh (e : RannElem) (path : MeshPath) : Bool :=
  (!(path.flags.active || path.flags.resolving) ||
    timeAfter now (path.lastPreqToRoot + adapter.msToSystime (.ofNat 32 adapter.confirmationInterval.toNat)) ||
    timeBefore now path.lastPreqToRoot) && !path.flags.fixed && e.ttl != 0

/-- The request for the root of a RANN that is new. -/
def rannRequest (malloc : Bool) (p : ℕ) (path : MeshPath) (e : RannElem) (mesh : MeshInfo) : Option MeshInfo :=
  if rannRefresh adapter now e path then do
    let mesh ← mesh.queuePreq adapter.toAdapter now malloc p { start := true, refresh := true }
    return mesh.setPath p (.withLastPreqToRoot now)
  else
    some mesh

/-- What a RANN that is new does to the path of its root. -/
def rannRoute (malloc : Bool) (p : ℕ) (path : MeshPath) (ta : MacAddr) (e : RannElem) (linkMetric : BitVec 32) (mesh : MeshInfo) :
    Option MeshInfo := do
  let mesh ← rannRequest adapter now malloc p path e mesh
  (mesh.setPath p (.rootUpdate e.seq (e.metric + linkMetric) ta)).announceGate adapter now (e.flags.getLsbD 0) p
    (.withGateAnnInt e.interval)

def rannForward (e : RannElem) (linkMetric : BitVec 32) : List Sent :=
  if 1 < e.ttl ∧ adapter.meshForwarding = true then
    [.sel {
      action := .rann
      flags := e.flags
      originatorAddr := e.addr
      originatorSn := e.seq
      targetFlags := 0
      target := none
      targetSn := 0
      da := bcastAddr
      hopcount := e.hopcount + 1
      ttl := e.ttl - 1
      lifetime := e.interval
      metric := e.metric + linkMetric
      preqId := 0 }]
  else []

/-- `rtw_hwmp_rann_frame_process` -/
def rannFrameProcess (alloc : PathAlloc) (malloc : Bool) (neighbour : Option Neighbour) (ta : MacAddr) (e : RannElem) (s : Hwmp) :
    Option (Hwmp × List Sent) :=
  if e.addr = adapter.macAddr then some (s, [])
  else match neighbour with
    | none => some (s, [])
    | some nb => do
      let (got, mesh) ← s.mesh.meshPathGet adapter now alloc e.addr
      match got with
      | none => return ({ s with mesh := mesh }, [])
      | some (p, _) => do
        let path ← mesh.path p
        if rannNew e path then
          let mesh ← rannRoute adapter now malloc p path ta e nb.linkMetric mesh
          return ({ s with mesh := mesh }, rannForward adapter e nb.linkMetric)
        else
          return ({ s with mesh := mesh }, [])

end Hwmp

/-! ### Received elements -/

/-- An element of a path selection frame. -/
inductive Elem
  | preq (e : PreqElem)
  | prep (e : PrepElem)
  | perr (e : PerrElem)
  | rann (e : RannElem)

/-- An element that is received, with the time, its transmitter and the outcomes of the allocations. -/
structure Rx where
  now : Systime
  ta : MacAddr
  neighbour : Option Neighbour
  alloc : PathAlloc
  taAlloc : PathAlloc
  malloc : Bool
  elem : Elem

namespace Hwmp

variable (adapter : HwmpAdapter)

/-- The call of `rtw_hwmp_route_info_get` in `rtw_mesh_rx_path_sel_frame`: `path_metric`. -/
def rxRoute (rx : Rx) (s : Hwmp) : Option (BitVec 32 × Hwmp) :=
  match rx.elem with
  | .preq e => do
    let (m, mesh) ← s.mesh.hwmpRouteInfoGet adapter rx.now rx.alloc rx.taAlloc rx.neighbour rx.ta e.origAddr e.origSn e.lifetime
      e.metric
    return (m, { s with mesh := mesh })
  | .prep e => do
    let (m, mesh) ← s.mesh.hwmpRouteInfoGet adapter rx.now rx.alloc rx.taAlloc rx.neighbour rx.ta e.targetAddr e.targetSn e.lifetime
      e.metric
    return (m, { s with mesh := mesh })
  | .perr _ => some (0, s)
  | .rann _ => some (0, s)

def rxProcess (rx : Rx) (pathMetric : BitVec 32) (s : Hwmp) : Option (Hwmp × List Sent) :=
  match rx.elem with
  | .preq e => if pathMetric = 0 then some (s, []) else s.preqFrameProcess adapter rx.now rx.ta e pathMetric
  | .prep e => if pathMetric = 0 then some (s, []) else s.prepFrameProcess adapter rx.now e pathMetric
  | .perr e => s.perrFrameProcess adapter rx.now rx.ta e
  | .rann e => s.rannFrameProcess adapter rx.now rx.alloc rx.malloc rx.neighbour rx.ta e

/-- `rtw_mesh_rx_path_sel_frame`, for one element of a frame from a peer with an established link. -/
def meshRxPathSelFrame (rx : Rx) (s : Hwmp) : Option (Hwmp × List Sent) := do
  let (pathMetric, s) ← s.rxRoute adapter rx
  s.rxProcess adapter rx pathMetric

end Hwmp

/-! ### Discovery -/

def MeshPath.startResolving (timeout : Systime) (path : MeshPath) : MeshPath :=
  { path with
    flags := { path.flags with resolved := false, resolving := true }
    discoveryRetries := 0
    discoveryTimeout := timeout }

/-- `RTW_MESH_PATH_REQ_QUEUED` cleared. -/
def MeshPath.notQueued (path : MeshPath) : MeshPath := { path with flags := { path.flags with reqQueued := false } }

/-- `RTW_MESH_PATH_RESOLVING` cleared. -/
def MeshPath.notResolving (path : MeshPath) : MeshPath := { path with flags := { path.flags with resolving := false } }

/-- The timer armed for `discovery_timeout` from now. -/
def MeshPath.armed (now : Systime) (path : MeshPath) : MeshPath := { path with timer := some (now + path.discoveryTimeout) }

/-- A discovery that is over because the path is resolved or was given up. -/
def MeshPath.settled (path : MeshPath) : MeshPath :=
  { path with flags := { path.flags with
    resolving := false, resolved := false, rootAddChk := false, peerAka := false, bcastPreq := false } }

def MeshPath.retried (path : MeshPath) : MeshPath :=
  { path with
    flags := { path.flags with reqQueued := false }
    discoveryRetries := path.discoveryRetries + 1
    discoveryTimeout := path.discoveryTimeout * 2 }

def MeshPath.failed (now : Systime) (path : MeshPath) : MeshPath := { path.settled.notQueued with expTime := now }

namespace Hwmp

variable (adapter : HwmpAdapter) (now : Systime)

/-- `rtw_hwmp_preq_da` -/
def preqDa (path : MeshPath) : MacAddr :=
  if path.flags.peerAka then path.dst
  else if path.flags.bcastPreq then bcastAddr
  else if path.isRoot then path.rannSndAddr
  else bcastAddr

/-- The second part of `rtw_mesh_path_start_discovery`: the PREQ is sent and the timer armed. -/
def sendPreq (node : PreqNode) (p : ℕ) (s : Hwmp) : Option (Hwmp × List Sent) := do
  let s := { s with mesh := { s.mesh with lastPreq := now } }.updateSn adapter now
  if adapter.elementTtl = 0 then
    return (s, [])
  let path ← s.mesh.path p
  return ({ s with mesh := s.mesh.setPath p (.armed now), preqId := s.preqId + 1 }, [.sel {
    action := .preq
    flags := 0
    originatorAddr := adapter.macAddr
    originatorSn := s.sn
    targetFlags := if node.flags.refresh then 1 else 0
    target := some path.dst
    targetSn := path.sn
    da := preqDa path
    hopcount := 0
    ttl := adapter.elementTtl
    lifetime := adapter.activePathTimeout * 1000 / 1024
    metric := 0
    preqId := s.preqId }])

/-- What `rtw_mesh_path_start_discovery` does with the request it has taken. -/
def discover (node : PreqNode) (s : Hwmp) : Option (Hwmp × List Sent) := do
  let (found, mesh) ← s.mesh.meshPathLookup now node.dst
  let s := { s with mesh := mesh }
  match found with
  | none => return (s, [])
  | some p => do
    let path ← mesh.path p
    if path.flags.deleted || path.flags.fixed then
      return (s, [])
    let mesh := mesh.setPath p .notQueued
    if node.flags.start then
      if path.flags.resolving then
        return ({ s with mesh := mesh }, [])
      else
        let timeout := adapter.msToSystime (.ofNat 32 adapter.minDiscoveryTimeout.toNat)
        sendPreq adapter now node p { s with mesh := mesh.setPath p (.startResolving timeout) }
    else if !path.flags.resolving || path.flags.resolved then
      return ({ s with mesh := mesh.setPath p .notResolving }, [])
    else
      sendPreq adapter now node p { s with mesh := mesh }

def meshPathStartDiscovery (s : Hwmp) : Option (Hwmp × List Sent) :=
  if s.mesh.preqQueueLen = 0 ∨ timeBefore now (s.mesh.lastPreq + adapter.toAdapter.minPreqIntJiff) = true then some (s, [])
  else match s.mesh.preqQueue with
    | [] => none
    | node :: rest =>
      discover adapter now node { s with mesh := { s.mesh with preqQueue := rest, preqQueueLen := s.mesh.preqQueueLen - 1 } }

/-- `rtw_mesh_path_timer`, when the timer has expired. -/
def meshPathTimer (malloc : Bool) (p : ℕ) (s : MeshInfo) : Option MeshInfo := do
  let path ← s.path p
  if path.flags.resolved || !path.flags.resolving then
    return s.setPath p .settled
  else if path.discoveryRetries < adapter.maxPreqRetries then
    (s.setPath p .retried).queuePreq adapter.toAdapter now malloc p { refresh := path.gateAsked }
  else
    let s := s.setPath p (.failed now)
    if !path.isGate && decide (0 < s.numGates) then
      (s.meshPathSendToGates meshFrameQueueLen p).map (·.2)
    else
      s.meshPathFlushPending p

end Hwmp

end Rtl8852cu.Mesh
