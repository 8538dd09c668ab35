import Mathlib.Algebra.Ring.Nat
import Mathlib.Data.List.Basic
import Mathlib.Logic.Function.Basic

/-!
# Stations of the PHL

The part of `phl_sta.c` behind `rtw_phl_cmd_alloc_stainfo`, `rtw_phl_free_stainfo_sw`, `rtw_phl_free_mld` and the searches, for one
interface.  Stations and MLDs are known by their numbers among the objects of the PHL; a link is known by `rlink->id`, its index.
What MACIDs, TX rings and the hardware answer comes with each call.
-/

namespace Rtl8852cu.Stainfo

/-- `u8[ETH_ALEN]` -/
abbrev Mac := List (BitVec 8)

def isMcast (da : Mac) : Bool := (da.headD 0).getLsbD 0

def isBroadcastMacAddr (addr : Mac) : Bool := addr = List.replicate 6 0xff

inductive RoleType
  | none | station | ap | vap | adhoc | adhocMaster | mesh | monitor | p2pDevice | p2pGc | p2pGo | tdls | nan
  deriving DecidableEq

/-- A role whose stations are all the one of the interface itself. -/
def RoleType.client : RoleType → Bool
  | station | p2pGc => true
  | _ => false

/-- The interface: `phl_role` with its links, `dev_cur_network.network.MacAddress` and `adapter_link_num`. -/
structure Iface where
  type : RoleType
  macAddr : Mac
  rlinkMac : ℕ → Mac
  bssid : Mac
  adapterLinkNum : ℕ

/-- `struct rtw_phl_stainfo_t` -/
structure PhlSta where
  macAddr : Mac
  rlink : ℕ
  active : Bool
  aid : ℕ
  mld : Option ℕ

/-- `struct rtw_phl_mld_t` -/
structure Mld where
  macAddr : Mac
  staNum : ℕ
  phlSta : ℕ → Option ℕ

/-- The PHL: its stations and MLDs, `assoc_sta_queue` of each link, `assoc_mld_queue` of the role and the queue of the free
stations. -/
structure Phl where
  sta : ℕ → PhlSta
  mld : ℕ → Mld
  assocStaQueue : ℕ → List ℕ
  assocMldQueue : List ℕ
  freeStaQueue : List ℕ

/-- What an allocation meets: whether the command is carried out, whether a MACID and a TX ring are there, whether the hardware
takes the station and the packet offload an entry for it, and the station that the PHL has for the broadcast address. -/
structure PhlOut where
  cmd : Bool
  sw : Bool
  hal : Bool
  ofld : Bool
  bmc : Option ℕ

namespace Phl

def modifySta (phl : Phl) (p : ℕ) (f : PhlSta → PhlSta) : Phl :=
  { phl with sta := Function.update phl.sta p (f (phl.sta p)) }

variable (iface : Iface) (phl : Phl)

/-- `rtw_phl_get_stainfo_self`: the first station of the queue. -/
def getStainfoSelf (rlink : ℕ) : Option ℕ := (phl.assocStaQueue rlink).head?

/-- `phl_stainfo_queue_search` -/
def queueSearch (rlink : ℕ) (addr : Mac) : Option ℕ :=
  (phl.assocStaQueue rlink).find? fun p =>
    (phl.sta p).macAddr = addr || (phl.sta p).mld.any fun m => (phl.mld m).macAddr = addr

def getStainfoByAddr (rlink : ℕ) (addr : Mac) (bmc : Option ℕ) : Option ℕ :=
  if isBroadcastMacAddr addr then bmc else phl.queueSearch rlink addr

def getMldByAddr (addr : Mac) : Option ℕ :=
  phl.assocMldQueue.find? fun m => (phl.mld m).macAddr = addr

def getStainfoByMld (mld : Mld) (lidx : ℕ) : Option ℕ :=
  ((List.range mld.staNum).filterMap mld.phlSta).find? fun p => (phl.sta p).rlink = lidx

/-- `_phl_self_stainfo_chk`: a client role gives its station the address of the link back. -/
def selfStainfoChk (p : ℕ) : Phl × Bool :=
  match iface.type with
  | .station | .p2pGc => (phl.modifySta p fun sta => { sta with macAddr := iface.rlinkMac sta.rlink }, true)
  | .ap | .vap | .mesh | .p2pGo | .tdls => (phl, (phl.sta p).macAddr = iface.rlinkMac (phl.sta p).rlink)
  | _ => (phl, false)

/-- The test of the functions that free a station: the broadcast station is never the one of the interface itself. -/
def freeSelfChk (p : ℕ) : Phl × Bool :=
  if isBroadcastMacAddr (phl.sta p).macAddr then (phl, false) else phl.selfStainfoChk iface p

def freeStainfoSw (p : ℕ) : Phl :=
  let (phl, self) := phl.freeSelfChk iface p
  if self then phl
  else
    let rlink := (phl.sta p).rlink
    { phl with
      assocStaQueue := Function.update phl.assocStaQueue rlink ((phl.assocStaQueue rlink).erase p)
      freeStaQueue := phl.freeStaQueue ++ [p] }

def freeStainfoHw (p : ℕ) : Phl :=
  let (phl, self) := phl.freeSelfChk iface p
  if self then phl else phl.modifySta p fun sta => { sta with active := false }

def freeStainfo (p : ℕ) : Phl := (phl.freeStainfoHw iface p).freeStainfoSw iface p

def allocStainfoSw (addr : Mac) (rlink : ℕ) (out : PhlOut) : Phl × Option ℕ :=
  match if iface.type.client ∧ ¬isBroadcastMacAddr addr then phl.getStainfoSelf rlink else none with
  | some p => (phl.modifySta p fun sta => { sta with macAddr := addr }, some p)
  | none =>
    match phl.getStainfoByAddr rlink addr out.bmc with
    | some p => (phl, some p)
    | none =>
      match phl.freeStaQueue with
      | [] => (phl, none)
      | p :: rest =>
        let phl := phl.modifySta p fun sta => { sta with macAddr := addr, rlink := rlink }
        if out.sw then
          ({ phl with
             assocStaQueue := Function.update phl.assocStaQueue rlink (phl.assocStaQueue rlink ++ [p])
             freeStaQueue := rest }, some p)
        else ({ phl with freeStaQueue := rest ++ [p] }, none)

def allocStainfo (addr : Mac) (rlink : ℕ) (out : PhlOut) : Phl × Option ℕ :=
  match phl.allocStainfoSw iface addr rlink out with
  | (phl, none) => (phl, none)
  | (phl, some p) =>
    if (phl.sta p).active then (phl, some p)
    else if !out.hal then (phl.freeStainfoSw iface p, none)
    else
      let phl := phl.modifySta p fun sta => { sta with active := true }
      if !out.ofld then (phl.freeStainfoSw iface p, none) else (phl, some p)

/-- `rtw_phl_cmd_alloc_stainfo` for an allocation: a command that is not carried out leaves the NULL pointer of the caller. -/
def cmdAllocStainfo (addr : Mac) (rlink : ℕ) (out : PhlOut) : Phl × Option ℕ :=
  if out.cmd then phl.allocStainfo iface addr rlink out else (phl, none)

/-- `_phl_self_mld_chk`: a client role gives its MLD the address of the role back. -/
def selfMldChk (m : ℕ) : Phl × Bool :=
  match iface.type with
  | .station | .p2pGc => ({ phl with mld := Function.update phl.mld m { phl.mld m with macAddr := iface.macAddr } }, true)
  | .ap | .mesh | .p2pGo | .tdls => (phl, iface.macAddr = (phl.mld m).macAddr)
  | _ => (phl, false)

def freeMld (m : ℕ) : Phl :=
  let (phl, self) := if isBroadcastMacAddr (phl.mld m).macAddr then (phl, false) else phl.selfMldChk iface m
  if self then phl else { phl with assocMldQueue := phl.assocMldQueue.erase m }

end Phl

end Rtl8852cu.Stainfo
