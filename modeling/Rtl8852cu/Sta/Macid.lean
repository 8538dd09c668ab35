import Rtl8852cu.Lib.WordMap

/-!
# MACIDs

The allocation of MACIDs in `phl/phl_sta.c`: `_phl_alloc_mld_macid`, `_phl_alloc_legacy_macid`,
`_phl_alloc_macid`, `_phl_release_macid` and the broadcast table.

A station is its number among the objects of the pool.  `phl_alloc_stainfo_sw` takes it from the queue
of free stations, sets its address, role and link and hands it to `_phl_alloc_macid`; it goes back
when it gets no MACID, or when its MACID was released.  Only a station that was handed over is
released.  `wrole` is never NULL there.  A link of an MLD is given the MACID of a link that is
allocated (`main_id`), the first one `max_num`.
-/

namespace Rtl8852cu.Sta

open Lib
open Function (update)

def bcAddr : List ℕ := [0xff, 0xff, 0xff, 0xff, 0xff, 0xff]

/-- What the allocation looks at: `max_num` of `struct macid_ctl_t`, `max_mld_num` and
`max_link_num` of `dev_cap`. -/
structure Cap where
  maxNum : ℕ
  maxMldNum : ℕ
  maxLinkNum : ℕ
  deriving DecidableEq

/-- `struct rtw_phl_stainfo_t`; `mld` is the MLD the station is a link of, `none` for a legacy
peer. -/
structure StaInfo where
  macid : ℕ
  macAddr : List ℕ
  wrole : ℕ
  rlink : ℕ
  mld : Option ℕ
  deriving DecidableEq

/-- `_os_mem_cmp(bc_addr, phl_sta->mac_addr, MAC_ALEN) == 0`. -/
def StaInfo.bmc (s : StaInfo) : Bool := s.macAddr = bcAddr

/-- `struct macid_ctl_t`, with the station objects, those in `free_sta_queue` and those that were handed
over once. -/
structure MacidCtl where
  usedMap : WordMap 32
  usedMldMap : WordMap 32
  usedLegacyMap : WordMap 32
  bmcMap : WordMap 32
  wifiRoleUsedmap : ℕ → WordMap 32
  wroleBmc : ℕ → ℕ → ℕ
  sta : ℕ → Option ℕ
  info : ℕ → StaInfo
  free : ℕ → Bool
  handed : ℕ → Bool

namespace MacidCtl

/-- `phl_macid_ctrl_init`. -/
def init (cap : Cap) (info : ℕ → StaInfo) : MacidCtl where
  usedMap := .empty
  usedMldMap := .empty
  usedLegacyMap := .empty
  bmcMap := .empty
  wifiRoleUsedmap _ := .empty
  wroleBmc _ _ := cap.maxNum
  sta _ := none
  info := info
  free _ := true
  handed _ := false

section Alloc

variable (cap : Cap) (mc : MacidCtl)

/-- The first MACID of a list that is not used. -/
def firstUnused (mids : List ℕ) : Option ℕ := mids.find? fun mid => !mc.usedMap.isUsed mid

/-- `{ mid + max_mld_num * lidx | lidx < max_link_num }`, in the order of the loops. -/
def group (mid : ℕ) : List ℕ := (List.range cap.maxLinkNum).map fun lidx => mid + cap.maxMldNum * lidx

def allocMldMacid (mainId : ℕ) : MacidCtl × ℕ :=
  if cap.maxNum = mainId then
    if cap.maxLinkNum = 1 then (mc, (mc.firstUnused (List.range cap.maxNum)).getD cap.maxNum)
    else
      match (List.range cap.maxMldNum).find? fun mid =>
          !mc.usedMldMap.isUsed mid && !mc.usedLegacyMap.isUsed mid with
      | some mid => ({ mc with usedMldMap := mc.usedMldMap.set mid }, mid)
      | none => (mc, cap.maxNum)
  else (mc, (mc.firstUnused (group cap (mainId % cap.maxMldNum))).getD cap.maxNum)

/-- The loop over the MLD groups in `_phl_alloc_legacy_macid`: a free MACID of a legacy group, or
`avail_macid` at the end. -/
def legacyLoop : List ℕ → ℕ → ℕ ⊕ ℕ
  | [], avail => .inr avail
  | mid :: mids, avail =>
    if mc.usedMldMap.isUsed mid then legacyLoop mids avail
    else if !mc.usedLegacyMap.isUsed mid then
      legacyLoop mids (if avail = cap.maxNum then mid else avail)
    else
      match mc.firstUnused (group cap mid) with
      | some another => .inl another
      | none => legacyLoop mids avail

def allocLegacyMacid : MacidCtl × ℕ :=
  if cap.maxLinkNum = 1 then
    match mc.firstUnused (List.range cap.maxNum) with
    | some mid => (mc, mid)
    | none => (mc, cap.maxNum)
  else
    let rsvd := cap.maxMldNum * cap.maxLinkNum
    let behind := if rsvd > 0 ∧ cap.maxNum > rsvd then
      mc.firstUnused (List.range' rsvd (cap.maxNum - rsvd)) else none
    match behind with
    | some mid => (mc, mid)
    | none =>
      match legacyLoop cap mc (List.range cap.maxMldNum) cap.maxNum with
      | .inl mid => (mc, mid)
      | .inr avail =>
        (if avail ≠ cap.maxNum then { mc with usedLegacyMap := mc.usedLegacyMap.set avail } else mc, avail)

/-- `_phl_alloc_macid` behind the search: the MACID is entered into the maps and the tables. -/
def enter (p mid : ℕ) : MacidCtl :=
  let s := mc.info p
  { mc with
    usedMap := mc.usedMap.set mid
    wifiRoleUsedmap := update mc.wifiRoleUsedmap s.wrole
      ((mc.wifiRoleUsedmap s.wrole).set mid)
    sta := update mc.sta mid (some p)
    bmcMap := if s.bmc then mc.bmcMap.set mid else mc.bmcMap
    wroleBmc := if s.bmc then
      update mc.wroleBmc s.wrole (update (mc.wroleBmc s.wrole) s.rlink mid)
      else mc.wroleBmc
    info := update mc.info p { s with macid := mid } }

/-- `_phl_alloc_macid`; `mld` says whether the device is an MLD. -/
def allocMacid (mainId p : ℕ) : MacidCtl :=
  let r := if (mc.info p).mld.isSome then mc.allocMldMacid cap mainId else mc.allocLegacyMacid cap
  if r.2 = cap.maxNum then
    { r.1 with info := update r.1.info p { r.1.info p with macid := cap.maxNum } }
  else r.1.enter p r.2

def releaseMacid (p : ℕ) : MacidCtl :=
  let s := mc.info p
  let invalidate (mc : MacidCtl) : MacidCtl :=
    { mc with info := update mc.info p { s with macid := cap.maxNum } }
  if s.macid ≥ cap.maxNum then invalidate mc
  else if !mc.usedMap.isUsed s.macid then invalidate mc
  else
    let usedMap := mc.usedMap.clr s.macid
    let mid := s.macid % cap.maxMldNum
    let unused := cap.maxMldNum ≠ 0 ∧ ∀ another ∈ group cap mid, usedMap.isUsed another = false
    invalidate { mc with
      usedMap := usedMap
      wifiRoleUsedmap := update mc.wifiRoleUsedmap s.wrole
        ((mc.wifiRoleUsedmap s.wrole).clr s.macid)
      sta := update mc.sta s.macid none
      bmcMap := if s.bmc then mc.bmcMap.clr s.macid else mc.bmcMap
      usedMldMap := if unused then mc.usedMldMap.clr mid else mc.usedMldMap
      usedLegacyMap := if unused then mc.usedLegacyMap.clr mid else mc.usedLegacyMap }

end Alloc

/-- `rtw_phl_wrole_bcmc_id_get`. -/
def bcmcIdGet (mc : MacidCtl) (wrole rlink : ℕ) : ℕ := mc.wroleBmc wrole rlink

end MacidCtl

/-- The calls.  `main` is a link of the MLD that is allocated, `none` for the first link. -/
inductive StaEv where
  | alloc (p : ℕ) (macAddr : List ℕ) (wrole rlink : ℕ) (mld : Option ℕ) (main : Option ℕ)
  | release (p : ℕ)
  deriving DecidableEq

namespace MacidCtl

/-- A call can be made: a station comes from the free queue, and another link of an MLD is given the
MACID of one of its links. -/
def Enabled (cap : Cap) (mc : MacidCtl) : StaEv → Prop
  | .alloc p _ _ _ mld main =>
    mc.free p = true ∧ ∀ q, main = some q → mld.isSome ∧ (mc.info q).mld = mld ∧
        (mc.info q).macid < cap.maxNum ∧ mc.sta (mc.info q).macid = some q
  | .release p => mc.handed p = true

/-- `phl_alloc_stainfo_sw` in front of `_phl_alloc_macid`. -/
def hand (mc : MacidCtl) (p : ℕ) (s : StaInfo) : MacidCtl :=
  { mc with
    info := update mc.info p { s with macid := (mc.info p).macid }
    handed := update mc.handed p true }

/-- The station is in the free queue or not. -/
def setFree (mc : MacidCtl) (p : ℕ) (free : Bool) : MacidCtl :=
  { mc with free := update mc.free p free }

/-- `main_id`: the MACID of the link, `max_num` without one. -/
def mainId (cap : Cap) (mc : MacidCtl) : Option ℕ → ℕ
  | some q => (mc.info q).macid
  | none => cap.maxNum

def step (cap : Cap) (mc : MacidCtl) : StaEv → MacidCtl
  | .alloc p macAddr wrole rlink mld main =>
    let mc' := (mc.hand p ⟨0, macAddr, wrole, rlink, mld⟩).allocMacid cap (mc.mainId cap main) p
    mc'.setFree p ((mc'.info p).macid = cap.maxNum)
  | .release p => (mc.releaseMacid cap p).setFree p true

end MacidCtl

end Rtl8852cu.Sta
