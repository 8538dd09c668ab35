import Mathlib.Algebra.Ring.Nat
import Rtl8852cu.Lib.Reach
import Mathlib.Logic.Function.Basic

/-!
# Packet offload

`phl/phl_pkt_ofld.c`: the packets that the firmware sends on its own.  A station has an entry with one
`pkt_info` for each type of packet, which has the requests for the packet and the id that the
firmware gave it.

What the HAL calls return is part of the calls here: `add` is the id of a packet that was added, `none`
if that failed, `updateIds` and `del` say whether `general_pkt_ids` and a deletion succeeded.
`fw` are the ids that were added and not deleted successfully; `mac_add_pkt_ofld` takes an id that
is not in use, and never `0xFF`.  What a packet is built of is left out, `construct` says whether
it was built; `req_cnt` does not reach 2^32, each request takes memory.
-/

namespace Rtl8852cu.Ofld

open Lib

def notUsed : ℕ := 0xFF

/-- The types below `PKT_OFLD_TYPE_MAX`. -/
inductive PktType where
  | probeRsp | psPoll | nullData | qosNull | cts2self | arpRsp | ndp | eapolKey | saQuery
  | realwowKapkt | realwowAck | realwowWp | probeReq
  deriving DecidableEq

/-- The types in the order of the loops. -/
def PktType.all : List PktType :=
  [.probeRsp, .psPoll, .nullData, .qosNull, .cts2self, .arpRsp, .ndp, .eapolKey, .saQuery,
    .realwowKapkt, .realwowAck, .realwowWp, .probeReq]

/-- `struct pkt_ofld_info`; a request is its token. -/
structure PktOfldInfo where
  reqQ : List ℕ
  reqCnt : ℕ
  id : ℕ
  deriving DecidableEq

structure PktOfldEntry where
  macid : ℕ
  pktInfo : PktType → PktOfldInfo

/-- `struct pkt_ofld_obj`, with the ids that the firmware holds. -/
structure PktOfldObj where
  entryQ : List PktOfldEntry
  entryCnt : ℕ
  curSeq : ℕ
  fw : ℕ → Bool

/-- `enum rtw_phl_status`, as far as it is returned here. -/
inductive PhlStatus where
  | success | failure | resource
  deriving DecidableEq

def pktOfldInit : PktOfldObj := ⟨[], 0, 0, fun _ => false⟩

/-- `_phl_pkt_ofld_init_entry`. -/
def initEntry (macid : ℕ) : PktOfldEntry := ⟨macid, fun _ => ⟨[], 0, notUsed⟩⟩

/-- `_phl_pkt_ofld_is_pkt_ofld`. -/
def PktOfldInfo.isPktOfld (info : PktOfldInfo) : Bool := info.id ≠ notUsed

/-- `_phl_pkt_ofld_add_req`. -/
def PktOfldInfo.addReq (info : PktOfldInfo) (token : ℕ) : PktOfldInfo :=
  { info with reqQ := token :: info.reqQ, reqCnt := info.reqCnt + 1 }

/-- `_phl_pkt_ofld_del_req` of the first request with the token. -/
def PktOfldInfo.delReq (info : PktOfldInfo) (token : ℕ) : PktOfldInfo :=
  { info with reqQ := info.reqQ.erase token, reqCnt := info.reqCnt - 1 }

/-- `_phl_pkt_ofld_del_all_req`. -/
def PktOfldInfo.delAllReq (info : PktOfldInfo) : PktOfldInfo :=
  info.reqQ.foldl PktOfldInfo.delReq info

/-- A change to one `pkt_info`. -/
def PktOfldEntry.modify (entry : PktOfldEntry) (type : PktType)
    (f : PktOfldInfo → PktOfldInfo) : PktOfldEntry :=
  { entry with pktInfo := Function.update entry.pktInfo type (f (entry.pktInfo type)) }

/-- `_phl_pkt_ofld_del_entry_req`. -/
def PktOfldEntry.delEntryReq (entry : PktOfldEntry) : PktOfldEntry :=
  { entry with pktInfo := fun idx => PktOfldInfo.delAllReq { entry.pktInfo idx with id := notUsed } }

namespace PktOfldObj

variable (obj : PktOfldObj)

/-- `_phl_pkt_ofld_get_entry`. -/
def getEntry (macid : ℕ) : Option PktOfldEntry := obj.entryQ.find? fun pos => pos.macid = macid

/-- The entry that `_phl_pkt_ofld_get_entry` finds is changed in its place. -/
def modifyEntry (macid : ℕ) (f : PktOfldEntry → PktOfldEntry) : PktOfldObj :=
  { obj with entryQ := obj.entryQ.modify (obj.entryQ.findIdx fun pos => pos.macid = macid) f }

/-- A change to one `pkt_info` of that entry. -/
def modifyInfo (macid : ℕ) (type : PktType) (f : PktOfldInfo → PktOfldInfo) : PktOfldObj :=
  obj.modifyEntry macid fun entry => entry.modify type f

/-- `HAL_PKT_OFLD_DEL` that returns `ok`. -/
def halDel (id : ℕ) (ok : Bool) : PktOfldObj :=
  if ok then { obj with fw := Function.update obj.fw id false } else obj

/-- `_phl_pkt_ofld_cancel_entry_pkt`. -/
def cancelEntryPkt (entry : PktOfldEntry) (del : PktType → Bool) : PktOfldObj :=
  PktType.all.foldl (fun obj idx =>
    if (entry.pktInfo idx).isPktOfld then obj.halDel (entry.pktInfo idx).id (del idx) else obj) obj

/-- `_phl_pkt_ofld_del_entry`. -/
def delEntryNode (macid : ℕ) : PktOfldObj :=
  { obj with
    entryQ := obj.entryQ.eraseP fun pos => pos.macid = macid
    entryCnt := obj.entryCnt - 1 }

/-- `phl_pkt_ofld_add_entry`; a failure of `rtw_hal_pkt_update_ids` is only logged. -/
def addEntry (macid : ℕ) (mem : Bool) : PhlStatus × PktOfldObj :=
  if (obj.getEntry macid).isSome then (.failure, obj)
  else if !mem then (.resource, obj)
  else (.success, { obj with
    entryQ := initEntry macid :: obj.entryQ
    entryCnt := obj.entryCnt + 1 })

/-- `phl_pkt_ofld_del_entry`. -/
def delEntry (macid : ℕ) (del : PktType → Bool) : PhlStatus × PktOfldObj :=
  match obj.getEntry macid with
  | none => (.failure, obj)
  | some entry => (.success,
    ((obj.cancelEntryPkt entry del).modifyEntry macid PktOfldEntry.delEntryReq).delEntryNode macid)

/-- `rtw_phl_pkt_ofld_reset_entry`. -/
def resetEntry (macid : ℕ) (del : PktType → Bool) : PhlStatus × PktOfldObj :=
  match obj.getEntry macid with
  | none => (.failure, obj)
  | some entry =>
    (.success, (obj.cancelEntryPkt entry del).modifyEntry macid PktOfldEntry.delEntryReq)

/-- The id of a `pkt_info` is written. -/
def setId (macid : ℕ) (type : PktType) (id : ℕ) : PktOfldObj :=
  obj.modifyInfo macid type fun info => { info with id := id }

/-- `_phl_pkt_ofld_add_pkt`. -/
def addPkt (entry : PktOfldEntry) (type : PktType) (construct : Bool) (add : Option ℕ)
    (updateIds : Bool) : PhlStatus × PktOfldObj :=
  if (entry.pktInfo type).isPktOfld then (.success, obj)
  else if !construct then (.failure, obj)
  else match add with
    | none => (.failure, obj.setId entry.macid type notUsed)
    | some id =>
      let obj := { obj.setId entry.macid type id with fw := Function.update obj.fw id true }
      if !updateIds then (.failure, obj.setId entry.macid type notUsed)
      else (.success, obj)

/-- `_phl_pkt_ofld_del_pkt`; `req_cnt - 1` is not 0 but for 1. -/
def delPkt (entry : PktOfldEntry) (type : PktType) (del : Bool) : PhlStatus × PktOfldObj :=
  if !(entry.pktInfo type).isPktOfld then (.failure, obj)
  else if (entry.pktInfo type).reqCnt ≠ 1 then (.success, obj)
  else if !del then (.failure, obj.halDel (entry.pktInfo type).id false)
  else (.success, (obj.halDel (entry.pktInfo type).id true).setId entry.macid type notUsed)

/-- `rtw_phl_pkt_ofld_request`; `memReq` and `memName` are the allocations of
`_phl_pkt_ofld_gen_req`. -/
def request (macid : ℕ) (type : PktType) (memReq memName construct : Bool) (add : Option ℕ)
    (updateIds : Bool) : PhlStatus × PktOfldObj :=
  match obj.getEntry macid with
  | none => (.failure, obj)
  | some entry =>
    if !memReq then (.resource, obj)
    else
      let token := obj.curSeq
      let obj := { obj with curSeq := (obj.curSeq + 1) % 2 ^ 32 }
      if !memName then (.resource, obj)
      else
        let obj := obj.modifyInfo macid type fun info => info.addReq token
        let entry := entry.modify type fun info => info.addReq token
        match obj.addPkt entry type construct add updateIds with
        | (.success, obj) => (.success, obj)
        | (_, obj) => (.failure, obj.modifyInfo macid type fun info => info.delReq token)

/-- `rtw_phl_pkt_ofld_cancel`. -/
def cancel (macid : ℕ) (type : PktType) (token : ℕ) (del : Bool) : PhlStatus × PktOfldObj :=
  match obj.getEntry macid with
  | none => (.failure, obj)
  | some entry =>
    if (entry.pktInfo type).id = notUsed then (.success, obj)
    else if token ∉ (entry.pktInfo type).reqQ then (.failure, obj)
    else match obj.delPkt entry type del with
      | (.success, obj) => (.success, obj.modifyInfo macid type fun info => info.delReq token)
      | (_, obj) => (.failure, obj)

end PktOfldObj

/-- The calls, with what the allocations and the HAL return. -/
inductive OfldEv where
  | addEntry (macid : ℕ) (mem : Bool)
  | delEntry (macid : ℕ) (del : PktType → Bool)
  | resetEntry (macid : ℕ) (del : PktType → Bool)
  | request (macid : ℕ) (type : PktType) (memReq memName construct : Bool) (add : Option ℕ)
      (updateIds : Bool)
  | cancel (macid : ℕ) (type : PktType) (token : ℕ) (del : Bool)

namespace PktOfldObj

/-- The id of a packet that is added is not in use. -/
def Enabled (obj : PktOfldObj) : OfldEv → Prop
  | .request _ _ _ _ _ (some id) _ => id < notUsed ∧ obj.fw id = false
  | _ => True

instance (obj : PktOfldObj) (e : OfldEv) : Decidable (obj.Enabled e) := by
  unfold Enabled
  split <;> infer_instance

/-- A call: what it returns, and the state. -/
def call (obj : PktOfldObj) : OfldEv → PhlStatus × PktOfldObj
  | .addEntry macid mem => obj.addEntry macid mem
  | .delEntry macid del => obj.delEntry macid del
  | .resetEntry macid del => obj.resetEntry macid del
  | .request macid type memReq memName construct add updateIds =>
    obj.request macid type memReq memName construct add updateIds
  | .cancel macid type token del => obj.cancel macid type token del

def step (obj : PktOfldObj) (e : OfldEv) : PktOfldObj := (obj.call e).2

end PktOfldObj

end Rtl8852cu.Ofld
