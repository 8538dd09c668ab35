import Mathlib.Algebra.Ring.Nat
import Mathlib.Logic.Function.Basic

/-!
# The receive filter of a band

`rtw_phl_mr_set_rxfltr_type_by_mode` of `phl_mr.c`, the setting of a filter in `hal_rx.c`, and the registers in
`rx_filter.c`: one word for each frame type, two bits for each subtype.

The roles, their links and the role map of a band do not change here, and the MAC of the band is enabled, so that the
HAL calls succeed.
-/

namespace Rtl8852cu.Mr

/-- `rtw_packet_type`, of those that are filtered. -/
inductive PktType
  | ctrl
  | mgnt
  | data
  deriving DecidableEq, Repr

/-- `RXFLTR_STYPE_CTRL_MAX`, `RXFLTR_STYPE_MGNT_MAX` and `RXFLTR_STYPE_DATA_MAX`. -/
abbrev stypeMax : ℕ := 16

abbrev Stype := Fin stypeMax

def stypeTrigger : Stype := ⟨2, by decide⟩
def stypeVhtHeNdpa : Stype := ⟨5, by decide⟩
def stypeBar : Stype := ⟨8, by decide⟩
def stypePsPoll : Stype := ⟨10, by decide⟩
def stypeAck : Stype := ⟨13, by decide⟩

/-- `rtw_rxfltr_target`. -/
inductive Target
  | drop
  | toHost
  | toWlcpu
  deriving DecidableEq, Repr

/-- `rtw_rxfltr_type_mode`. -/
inductive TypeMode
  | halInit
  | roleInit
  | staConn
  | staDisConn
  | staWowInitPre
  | staWowInitPost
  | apConn
  | apDisConn
  | chanInfoEn
  | chanInfoDis
  deriving DecidableEq, Repr

/-- `rxfltr_stype_cap_to_set`. -/
structure CapToSet where
  set : Bool
  target : Target
  deriving DecidableEq, Repr

/-- `rxfltr_type_cap`. -/
abbrev TypeCap := PktType → Stype → Target

/-- `rxfltr_type_cap_to_set`. -/
abbrev TypeCapToSet := PktType → Stype → CapToSet

def TypeCapToSet.zero : TypeCapToSet := fun _ _ => ⟨false, .drop⟩

/-- A link: the role, and its place in `rlink`. -/
abbrev Link := ℕ × ℕ

/-- The roles and their links. A role is in the role map of the band of each of its links, where
`_phl_alloc_rlink_hw_resource` puts it when it gives the link its band. -/
structure Roles where
  maxWifiRoleNumber : ℕ
  active : ℕ → Bool
  rlinkNum : ℕ → ℕ
  hwBand : Link → ℕ
  /-- `band_ctrl[band].role_map`. -/
  roleMap : ℕ → ℕ
  mapped : ∀ l : Link, l.1 < maxWifiRoleNumber → l.2 < rlinkNum l.1 → (roleMap (hwBand l)).testBit l.1 = true

/-- The records of the links, and the filter registers of the bands. -/
structure RxFltr where
  cap : Link → TypeCap
  reg : ℕ → PktType → BitVec 32

/-! ### The registers -/

def setClrWor2 (w v : BitVec 32) (sh : ℕ) (msk : BitVec 32) : BitVec 32 :=
  (w &&& ~~~(msk <<< sh)) ||| ((v &&& msk) <<< sh)

def getFiel2 (w : BitVec 32) (sh : ℕ) (msk : BitVec 32) : BitVec 32 := (w >>> sh) &&& msk

/-- The `mac_ax_fwd_target` of a target. -/
def fwdTarget : Target → BitVec 32
  | .drop => 0
  | .toHost => 1
  | .toWlcpu => 2

/-- `RX_FLTR_FRAME_DROP`, `RX_FLTR_FRAME_TO_HOST`, `RX_FLTR_FRAME_TO_WLCPU`. -/
def frame : Target → BitVec 32
  | .drop => 0x00000000
  | .toHost => 0x55555555
  | .toWlcpu => 0xAAAAAAAA

/-- `mac_set_typ_fltr_opt`: the frame type is filtered as a whole. -/
def macSetTypFltrOpt (_ : BitVec 32) (target : Target) : BitVec 32 := frame target

def macSetTypsbtypFltrOpt (val32 : BitVec 32) (subtype : Stype) (target : Target) : BitVec 32 :=
  setClrWor2 val32 (fwdTarget target) ((subtype.val &&& 0xf) * 2) 0x3

/-- What a register does with frames of a subtype. -/
def programmed (val32 : BitVec 32) (subtype : Stype) : BitVec 32 := getFiel2 val32 (subtype.val * 2) 0x3

/-! ### `hal_rx.c` -/

/-- The first loop of `rtw_hal_set_rxfltr_by_stype_*`: whether all subtypes are set to one target, and that target. -/
def typeSet (cap : Stype → CapToSet) : List Stype → Option Target → Bool × Option Target
  | [], trgtChk => (true, trgtChk)
  | i :: is, trgtChk =>
    if (cap i).set = false then (false, trgtChk)
    else if trgtChk ≠ none ∧ trgtChk ≠ some (cap i).target then (false, trgtChk)
    else typeSet cap is (some (cap i).target)

/-- The second one, which sets a subtype at a time. -/
def setBySubtype (cap : Stype → CapToSet) : List Stype → BitVec 32 → BitVec 32
  | [], val32 => val32
  | i :: is, val32 =>
    setBySubtype cap is (if (cap i).set = true then macSetTypsbtypFltrOpt val32 i (cap i).target else val32)

/-- `rtw_hal_set_rxfltr_by_stype_ctrl`, `_mgnt` and `_data`. -/
def halSetRxfltrByStype (cap : Stype → CapToSet) (val32 : BitVec 32) : BitVec 32 :=
  match typeSet cap (List.finRange stypeMax) none with
  | (true, some trgtChk) => macSetTypFltrOpt val32 trgtChk
  | _ => setBySubtype cap (List.finRange stypeMax) val32

def halSetRxfltrByStypeAll (s : RxFltr) (band : ℕ) (capAll : TypeCapToSet) : RxFltr :=
  { s with reg := Function.update s.reg band fun type => halSetRxfltrByStype (capAll type) (s.reg band type) }

/-! ### `phl_mr.c` -/

/-- `_phl_mr_rxfltr_target_dcsn`: the target that `trgt_cur` becomes. -/
def targetDcsn (trgtChk trgtCur : Target) : Target :=
  match trgtChk with
  | .drop => trgtCur
  | .toHost => if trgtCur = .drop then .toHost else trgtCur
  | .toWlcpu => .toWlcpu

/-- `_phl_mr_rxfltr_target_dcsn_ctrl`, `_mgnt` and `_data`. -/
def targetDcsnType (capChk : Stype → Target) (capCur : Stype → CapToSet) : Stype → CapToSet := fun i =>
  if (capCur i).set = false then capCur i else { capCur i with target := targetDcsn (capChk i) (capCur i).target }

def targetDcsnAll (capChk : TypeCap) (capCur : TypeCapToSet) : TypeCapToSet := fun type =>
  targetDcsnType (capChk type) (capCur type)

/-- The loop over the links of a role in `_phl_mr_rx_filter_type`. -/
def rxFilterRole (roles : Roles) (cap : Link → TypeCap) (rlink : Link) (capS : TypeCapToSet) (ridx : ℕ) :
    TypeCapToSet :=
  (List.range (roles.rlinkNum ridx)).foldl (fun capS lidx =>
    if roles.hwBand (ridx, lidx) ≠ roles.hwBand rlink then capS
    else if ridx = rlink.1 ∧ lidx = rlink.2 then capS
    else targetDcsnAll (cap (ridx, lidx)) capS) capS

def mrRxFilterType (roles : Roles) (cap : Link → TypeCap) (rlink : Link) (capS : TypeCapToSet) : TypeCapToSet :=
  (List.range roles.maxWifiRoleNumber).foldl (fun capS ridx =>
    if (roles.roleMap (roles.hwBand rlink)).testBit ridx = false then capS
    else if roles.active ridx = false then capS
    else rxFilterRole roles cap rlink capS ridx) capS

/-- `PHL_MR_SET_RXFLTR_STYPE_CTRL`, `_MGNT` and `_DATA`: the record of the link, and what is to be set. -/
def setStype (type : PktType) (s : Stype) (t : Target) (c : TypeCap × TypeCapToSet) : TypeCap × TypeCapToSet :=
  (Function.update c.1 type (Function.update (c.1 type) s t),
    Function.update c.2 type (Function.update (c.2 type) s ⟨true, t⟩))

/-- `_phl_mr_set_rxfltr_cap_by_type`. -/
def setCapByType (type : PktType) (target : Target) (c : TypeCap × TypeCapToSet) : TypeCap × TypeCapToSet :=
  (List.finRange stypeMax).foldl (fun c i => setStype type i target c) c

/-- A call: the link, the mode, and what the function reads of the link at that time. -/
structure Call where
  rlink : Link
  mode : TypeMode
  /-- `rlink->cap.wmode & WLAN_MD_11AX` -/
  wmode11ax : Bool
  /-- `rlink->assoc_sta_queue.cnt` -/
  assocStaCnt : ℕ

/-- The switch of `rtw_phl_mr_set_rxfltr_type_by_mode`; `none` for a mode it does not handle. -/
def setByMode (call : Call) (c : TypeCap × TypeCapToSet) : Option (TypeCap × TypeCapToSet) :=
  match call.mode with
  | .roleInit => some (setCapByType .data .toHost (setCapByType .mgnt .toHost (setCapByType .ctrl .drop c)))
  | .staConn =>
    let c := setStype .ctrl stypeBar .toHost (setStype .ctrl stypeVhtHeNdpa .toHost c)
    some (if call.wmode11ax = true then setStype .ctrl stypeTrigger .toHost c else c)
  | .staDisConn => some (setCapByType .ctrl .drop c)
  | .apConn =>
    some (setStype .ctrl stypePsPoll .toHost (setStype .ctrl stypeBar .toHost (setStype .ctrl stypeVhtHeNdpa .toHost c)))
  | .apDisConn => some (if call.assocStaCnt < 2 then setCapByType .ctrl .drop c else c)
  | .chanInfoEn => some (setStype .ctrl stypeAck .toHost c)
  | .chanInfoDis => some (setCapByType .ctrl .drop c)
  | .halInit | .staWowInitPre | .staWowInitPost => none

/-- `rtw_phl_mr_set_rxfltr_type_by_mode`, with whether it succeeds. -/
def mrSetRxfltrTypeByMode (roles : Roles) (s : RxFltr) (call : Call) : Bool × RxFltr :=
  match setByMode call (s.cap call.rlink, .zero) with
  | none => (false, s)
  | some (capRlink, capRlinkSet) =>
    let s := { s with cap := Function.update s.cap call.rlink capRlink }
    (true, halSetRxfltrByStypeAll s (roles.hwBand call.rlink) (mrRxFilterType roles s.cap call.rlink capRlinkSet))

end Rtl8852cu.Mr
