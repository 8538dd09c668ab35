import Rtl8852cu.Stainfo.Phl
import Mathlib.Algebra.Ring.Int.Defs

/-!
# The station pool of an interface

`rtw_alloc_stainfo`, `rtw_free_stainfo`, `rtw_free_stainfo_sw`, `rtw_free_all_stainfo`, `rtw_free_mld_stainfo` and
`rtw_get_stainfo` of `rtw_sta_mgt.c`.  A station is known by its offset in the pool.  A function that reads through a NULL pointer
has no next state.  The queues, timers and keys of a station are left out.
-/

namespace Rtl8852cu.Stainfo

def numSta : ℕ := 32

def wifiMacHash (mac : Mac) : ℕ :=
  let x : BitVec 32 := mac.foldl (fun x b => (x <<< 2) ^^^ b.setWidth 32) 0
  (x ^^^ (x >>> 8)).toNat % numSta

/-- `struct sta_priv` with the PHL, `phl_sta` of each station and `pmlmeinfo->state == _HW_STATE_AP_`; `preLink` are the
addresses of `pre_link_sta_ctl`, none where pre-link stations are not built in. -/
structure StaPriv where
  freeStaQueue : List ℕ
  staHash : List (List ℕ)
  asocStaCount : ℤ
  phlSta : ℕ → Option ℕ
  staAid : ℕ → Option ℕ
  timBitmap : ℕ → Bool
  staDzBitmap : ℕ → Bool
  preLink : Mac → Bool
  apState : Bool
  phl : Phl

namespace StaPriv

def linked (s : StaPriv) : List ℕ := s.staHash.flatten

/-- `&(pstapriv->sta_hash[index])` -/
def chain (s : StaPriv) (index : ℕ) : List ℕ := s.staHash.getD index []

/-- `rtw_tim_map_clear` on a bitmap, whose positions are `u8`. -/
def timMapClear (map : ℕ → Bool) (aid : ℕ) : ℕ → Bool := Function.update map (aid % 256) false

variable (iface : Iface) (s : StaPriv)

/-! ### Looking a station up -/

/-- The chain of `_rtw_alloc_core_stainfo`. -/
def allocIndex (hwaddr : Mac) : ℕ :=
  match iface.type with
  | .none | .station | .adhoc | .p2pDevice | .p2pGc => wifiMacHash iface.macAddr
  | _ => wifiMacHash hwaddr

/-- The chain of `rtw_get_stainfo` for an individual address. -/
def lookupIndex (linkAddr : Mac) : ℕ :=
  match iface.type with
  | .none | .station | .adhoc | .p2pDevice | .p2pGc => wifiMacHash iface.macAddr
  | .tdls => if linkAddr = iface.bssid then wifiMacHash iface.macAddr else wifiMacHash linkAddr
  | _ => wifiMacHash linkAddr

/-- `is_link_addr`: one of the links of the MLD has the address. -/
def isLinkAddr (mld : Mld) (addr : Mac) : Bool :=
  (List.range mld.staNum).any fun lidx =>
    (s.phl.getStainfoByMld mld lidx).any fun p => (s.phl.sta p).macAddr = addr

/-- `link_addr`: the address of an MLD becomes that of its primary link. -/
def linkAddr (hwaddr : Mac) : Mac :=
  match s.phl.getMldByAddr hwaddr with
  | none => hwaddr
  | some m =>
    if s.isLinkAddr (s.phl.mld m) hwaddr then hwaddr
    else ((s.phl.mld m).phlSta 0).elim hwaddr fun p => (s.phl.sta p).macAddr

def getStainfo (hwaddr : Mac) : Option ℕ :=
  let addr := s.linkAddr hwaddr
  if isMcast addr then
    (s.phl.getStainfoSelf 0).bind fun self =>
      (s.chain (wifiMacHash iface.macAddr)).find? fun x =>
        (s.phlSta x).any fun p => p = self || (s.phl.sta p).macAddr = addr
  else
    (s.chain (lookupIndex iface addr)).find? fun x => (s.phlSta x).any fun p => (s.phl.sta p).macAddr = addr

/-! ### Allocating a station -/

/-- `_rtw_alloc_core_stainfo` for the first station of the free queue -/
def allocCoreStainfo (hwaddr : Mac) (x : ℕ) (rest : List ℕ) : StaPriv :=
  { s with
    freeStaQueue := rest
    phlSta := Function.update s.phlSta x none
    staHash := s.staHash.modify (allocIndex iface hwaddr) fun chain => chain ++ [x]
    asocStaCount := s.asocStaCount + 1 }

/-- `_rtw_alloc_phl_stainfo`, where a failure is only logged. -/
def allocPhlStainfo (x : ℕ) (hwaddr : Mac) (linkIdx : ℕ) (out : PhlOut) : StaPriv :=
  { s with
    phl := (s.phl.cmdAllocStainfo iface hwaddr linkIdx out).1
    phlSta := Function.update s.phlSta x (s.phl.cmdAllocStainfo iface hwaddr linkIdx out).2 }

/-- `rtw_alloc_stainfo`: `sta->padapter_link` is written before the test for NULL. -/
def allocStainfo (hwaddr : Mac) (linkIdx : ℕ) (out : PhlOut) : Option StaPriv :=
  match s.freeStaQueue with
  | [] => none
  | x :: rest => some ((s.allocCoreStainfo iface hwaddr x rest).allocPhlStainfo iface x hwaddr linkIdx out)

/-! ### Freeing stations -/

/-- `rtw_list_delete(&psta->hash_list)` -/
def unlink (x : ℕ) : StaPriv :=
  { s with staHash := s.staHash.map fun chain => chain.filter fun y => y ≠ x }

/-- The entries of the AID of a station on an AP. -/
def clearAid (x p : ℕ) : StaPriv :=
  let aid := (s.phl.sta p).aid
  if s.apState then
    let s := { s with
      staDzBitmap := timMapClear s.staDzBitmap aid
      timBitmap := timMapClear s.timBitmap aid }
    if 0 < aid ∧ s.staAid (aid - 1) = some x then
      { s with
        staAid := Function.update s.staAid (aid - 1) none
        phl := s.phl.modifySta p fun sta => { sta with aid := 0 } }
    else s
  else s

/-- `_rtw_free_core_stainfo` for a station with the PHL station `p` -/
def freeCoreStainfo (x p : ℕ) : StaPriv :=
  if s.preLink (s.phl.sta p).macAddr then s.clearAid x p
  else
    let s := (({ s.unlink x with asocStaCount := s.asocStaCount - 1 } : StaPriv).clearAid x p)
    { s with freeStaQueue := s.freeStaQueue ++ [x] }

def freePhlStainfo (x p : ℕ) (onlyFreeSw : Bool) : StaPriv :=
  { s with
    phl := if onlyFreeSw then s.phl.freeStainfoSw iface p else s.phl.freeStainfo iface p
    phlSta := Function.update s.phlSta x none }

/-- `rtw_free_stainfo` and `rtw_free_stainfo_sw`; the first one reads the type of the MLD of the station. -/
def freeStainfo (x : ℕ) (onlyFreeSw : Bool) : Option StaPriv :=
  (s.phlSta x).bind fun p =>
    if onlyFreeSw = false ∧ (s.phl.sta p).mld = none then none
    else some ((s.freeCoreStainfo x p).freePhlStainfo iface x p onlyFreeSw)

def isSelfStainfo (x : ℕ) : Bool :=
  (List.range iface.adapterLinkNum).any fun lidx => s.phlSta x = s.phl.getStainfoSelf lidx

/-- `rtw_phl_free_mld` for the MLD of a station -/
def freeMldOf (p : ℕ) : StaPriv :=
  { s with phl := (s.phl.sta p).mld.elim s.phl fun m => s.phl.freeMld iface m }

/-- The first loop of `rtw_free_all_stainfo` leaves these in the chains. -/
def isPreLinkSta (x : ℕ) : Bool := (s.phlSta x).any fun p => s.preLink (s.phl.sta p).macAddr

/-- The stations that `rtw_free_all_stainfo` collects. -/
def freeStaList : List ℕ := s.linked.filter fun x => !s.isSelfStainfo iface x

/-- The first loop of `rtw_free_all_stainfo` -/
def unlinkAll : StaPriv :=
  { s with staHash := s.staHash.map fun chain => chain.filter fun x => s.isSelfStainfo iface x || s.isPreLinkSta x }

/-- The second loop of `rtw_free_all_stainfo` -/
def freeListed : List ℕ → StaPriv → Option StaPriv
  | [], s => some s
  | x :: xs, s => (s.phlSta x).bind fun p => ((s.freeMldOf iface p).freeStainfo iface x false).bind (freeListed xs)

def freeAllStainfo : Option StaPriv :=
  if s.asocStaCount = 1 then some s else (s.unlinkAll iface).freeListed iface (s.freeStaList iface)

/-- The station that the loop of `rtw_free_mld_stainfo` finds for a link. -/
def mldTarget (m lidx : ℕ) : Option ℕ :=
  ((s.phl.mld m).phlSta lidx).bind fun p => s.getStainfo iface (s.phl.sta p).macAddr

/-- A turn of the loop of `rtw_free_mld_stainfo` -/
def freeMldTurn (m lidx : ℕ) : Option StaPriv :=
  match s.mldTarget iface m lidx with
  | none => some s
  | some x => s.freeStainfo iface x false

/-- The loop of `rtw_free_mld_stainfo` -/
def freeMldLinks (m : ℕ) : List ℕ → StaPriv → Option StaPriv
  | [], s => some s
  | lidx :: ls, s => (s.freeMldTurn iface m lidx).bind (freeMldLinks m ls)

def freeMldStainfo (m : ℕ) : Option StaPriv :=
  (s.freeMldLinks iface m (List.range (s.phl.mld m).staNum)).map fun s => { s with phl := s.phl.freeMld iface m }

end StaPriv

end Rtl8852cu.Stainfo
