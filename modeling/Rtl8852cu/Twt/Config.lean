import Mathlib.Algebra.Ring.Nat
import Mathlib.Logic.Function.Basic

/-!
# The TWT configurations

The four entries of the ring, with the stations of each, and the operations of client roles on them.

A role is a number, and so is a station; `TwtEnv.wrole` is the role of a station. No operation writes the role of an
entry, other than `twtResetConfigInfo`, which has it be none.
-/

namespace Rtl8852cu.Twt

inductive NegoType where
  | indivTwt
  | wakeTbttInr
  | bcastTwt
  | manageBcastTwt
deriving DecidableEq, Repr

/-- `twt_config_state` -/
inductive ConfigState where
  | free
  | idle
  | enable
  | error
deriving DecidableEq, Repr

inductive PhlStatus where
  | success
  | failure
  | resource
deriving DecidableEq, Repr

/-- What the setup of `rtw_phl_twt_setup_info` has for an individual TWT. -/
structure TwtSetup where
  responderPmMode : ℕ
  negoType : NegoType
  wakeDurUnit : ℕ
  trigger : ℕ
  flowType : ℕ
  implicit : ℕ
  twtProtection : ℕ
  twtFlowId : ℕ
  twtWakeIntExp : ℕ
  twtWakeIntMantissa : ℕ
  nomMinTwtWakeDur : ℕ
  targetWakeTH : ℕ
  targetWakeTL : ℕ
deriving DecidableEq, Repr

structure TwtInfo where
  twtId : ℕ
  responderPmMode : ℕ
  negoType : NegoType
  wakeDurUnit : ℕ
  trigger : ℕ
  flowType : ℕ
  implicitLastbcast : ℕ
  twtProtection : ℕ
  twtWakeIntExp : ℕ
  twtWakeIntMantissa : ℕ
  nomMinTwtWakeDur : ℕ
  targetWakeTimeH : ℕ
  targetWakeTimeL : ℕ
deriving DecidableEq, Repr

def TwtInfo.zero : TwtInfo := ⟨0, 0, .indivTwt, 0, 0, 0, 0, 0, 0, 0, 0, 0, 0⟩

structure TwtStaInfo where
  phlSta : ℕ
  id : ℕ
deriving DecidableEq, Repr

structure TwtConfig where
  state : ConfigState
  role : Option ℕ
  rlink : Option ℕ
  twtInfo : TwtInfo
  twtStaQueue : List TwtStaInfo
deriving DecidableEq, Repr

def maxNumHwTwtConfig : ℕ := 4

def deleteAll : ℕ := 0xFF

/-- The ring, and what the device and the start have made of it. -/
structure TwtInfoState where
  twtSup : Bool
  twtInit : Bool
  cfg : ℕ → TwtConfig

/-- What an operation gets to hear: the firmware's answers, those for an entry by its id, and memory; and the roles and
links of the stations. -/
structure TwtEnv where
  infoEnable : Bool
  infoDisable : ℕ → Bool
  staAdd : Bool
  staDel : ℕ → Bool
  memAlloc : Bool
  wrole : ℕ → ℕ
  rlink : ℕ → ℕ

def TwtInfoState.setCfg (s : TwtInfoState) (i : ℕ) (c : TwtConfig) : TwtInfoState :=
  { s with cfg := Function.update s.cfg i c }

def twtFillConfigInfo (info : TwtInfo) (setup : TwtSetup) : TwtInfo :=
  let info := { info with
    responderPmMode := setup.responderPmMode
    negoType := setup.negoType
    wakeDurUnit := setup.wakeDurUnit }
  if setup.negoType = .indivTwt then
    { info with
      trigger := setup.trigger
      flowType := setup.flowType
      implicitLastbcast := setup.implicit
      twtProtection := setup.twtProtection
      twtWakeIntExp := setup.twtWakeIntExp
      twtWakeIntMantissa := setup.twtWakeIntMantissa
      nomMinTwtWakeDur := setup.nomMinTwtWakeDur
      targetWakeTimeH := setup.targetWakeTH
      targetWakeTimeL := setup.targetWakeTL }
  else info

def twtResetConfigInfo (c : TwtConfig) : TwtConfig := { c with role := none, twtInfo := .zero }

/-- The entries in the order of the ring, from its head. -/
def ring : List ℕ := List.range maxNumHwTwtConfig

/-! ### `_twt_operate_twt_config` -/

def getNewConfig (s : TwtInfoState) : Option (ℕ × TwtInfoState) :=
  (ring.find? fun i => (s.cfg i).state = .free).map fun i =>
    (i, s.setCfg i { twtResetConfigInfo (s.cfg i) with state := .idle, twtInfo := { TwtInfo.zero with twtId := i } })

def freeConfig (s : TwtInfoState) (id : ℕ) : PhlStatus × TwtInfoState :=
  if id ≥ maxNumHwTwtConfig then (.failure, s)
  else if (s.cfg id).state = .free then (.failure, s)
  else (.success, s.setCfg id { s.cfg id with state := .free })

def getConfigById (s : TwtInfoState) (id : ℕ) : Bool :=
  decide (id < maxNumHwTwtConfig) && decide ((s.cfg id).state ≠ .free)

def getConfigByRole (s : TwtInfoState) (role : ℕ) : Option ℕ :=
  ring.find? fun i => decide ((s.cfg i).state ≠ .free) && decide ((s.cfg i).role = some role)

/-! ### The stations of an entry -/

def twtGetStaInfo (q : List TwtStaInfo) (sta : ℕ) : Option TwtStaInfo := q.find? fun a => a.phlSta = sta

/-- The station and flow id that a lookup is for. -/
def TwtStaInfo.isFor (a : TwtStaInfo) (sta id : ℕ) : Bool :=
  decide (a.phlSta = sta) && (decide (id = deleteAll) || decide (a.id = id))

def twtStaExist (q : List TwtStaInfo) (sta id : ℕ) : Bool := q.any (·.isFor sta id)

/-- The loop of `_twt_delete_sta`: what was taken off the head is put behind the rest, until the head is the first
again. -/
def twtDeleteStaLoop (sta id : ℕ) : List TwtStaInfo → List TwtStaInfo → List TwtStaInfo × Bool
  | [], [] => ([], false)
  | first :: seen, [] => (seen ++ [first], false)
  | seen, a :: rest => if a.isFor sta id then (rest ++ seen, true) else twtDeleteStaLoop sta id (seen ++ [a]) rest

def twtDeleteSta (q : List TwtStaInfo) (sta id : ℕ) : List TwtStaInfo × Bool := twtDeleteStaLoop sta id [] q

/-- The loop of `_twt_delete_sta_info` over the ring, with the entries that have become empty and whether there was an
error. -/
def twtDeleteStaInfoLoop (env : TwtEnv) (sta : ℕ) (ignoreType : Bool) (type : NegoType) (id : ℕ) :
    List ℕ → TwtInfoState → BitVec 8 → Bool → TwtInfoState × BitVec 8 × Bool
  | [], s, bitmap, error => (s, bitmap, error)
  | i :: is, s, bitmap, error =>
    let config := s.cfg i
    if config.state = .free ∨ config.role ≠ some (env.wrole sta) ∨
        ignoreType = false ∧ config.twtInfo.negoType ≠ type ∨ twtStaExist config.twtStaQueue sta id = false then
      twtDeleteStaInfoLoop env sta ignoreType type id is s bitmap error
    else if env.staDel config.twtInfo.twtId = false then
      twtDeleteStaInfoLoop env sta ignoreType type id is s bitmap true
    else
      let (q, found) := twtDeleteSta config.twtStaQueue sta id
      let s := s.setCfg i { config with twtStaQueue := q }
      if found = false then twtDeleteStaInfoLoop env sta ignoreType type id is s bitmap true
      else
        let bitmap := if q.length = 0 then bitmap ||| 1#8 <<< config.twtInfo.twtId else bitmap
        if id ≠ deleteAll then (s, bitmap, error)
        else twtDeleteStaInfoLoop env sta ignoreType type id is s bitmap error

def twtDeleteStaInfo (env : TwtEnv) (s : TwtInfoState) (sta : ℕ) (ignoreType : Bool) (negoType : NegoType) (id : ℕ) :
    PhlStatus × TwtInfoState × BitVec 8 :=
  let type := if negoType = .manageBcastTwt then .bcastTwt else negoType
  let (s, bitmap, error) := twtDeleteStaInfoLoop env sta ignoreType type (if ignoreType then deleteAll else id) ring s 0 false
  (if error then .failure else .success, s, bitmap)

/-! ### Entries -/

/-- `_twt_info_update` with `PHL_TWT_ACTION_ENABLE` or `PHL_TWT_ACTION_DISABLE`: `target` is the state if the firmware
takes it. -/
def twtInfoUpdate (hal : Bool) (target : ConfigState) (c : TwtConfig) : PhlStatus × TwtConfig :=
  if hal then (.success, { c with state := target }) else (.failure, { c with state := .error })

def twtAllocTwtConfig (env : TwtEnv) (s : TwtInfoState) (rlink : ℕ) (setup : TwtSetup) (enable : Bool) :
    PhlStatus × ℕ × TwtInfoState :=
  if s.twtSup = false ∨ s.twtInit = false then (.failure, 0, s)
  else
    match getNewConfig s with
    | none => (.resource, 0, s)
    | some (i, s) =>
      let config := { s.cfg i with rlink := some rlink, twtInfo := twtFillConfigInfo (s.cfg i).twtInfo setup }
      if enable then
        let (ret, config) := twtInfoUpdate env.infoEnable .enable config
        (ret, (s.cfg i).twtInfo.twtId, s.setCfg i config)
      else (.success, (s.cfg i).twtInfo.twtId, s.setCfg i config)

/-- What `rtw_phl_twt_free_twt_config` and `rtw_phl_twt_free_all_twt_by_role` do with an entry. -/
def releaseConfig (env : TwtEnv) (s : TwtInfoState) (id : ℕ) : TwtInfoState :=
  (freeConfig (s.setCfg id
    { (twtInfoUpdate (env.infoDisable id) .idle (s.cfg id)).2 with twtStaQueue := [] }) id).2

def twtFreeTwtConfig (env : TwtEnv) (s : TwtInfoState) (id : ℕ) : PhlStatus × TwtInfoState :=
  if s.twtSup = false ∨ s.twtInit = false then (.failure, s)
  else if getConfigById s id then (.success, releaseConfig env s id) else (.failure, s)

def twtAddStaInfo (env : TwtEnv) (s : TwtInfoState) (sta configId id : ℕ) : PhlStatus × TwtInfoState :=
  if s.twtSup = false ∨ s.twtInit = false then (.failure, s)
  else if getConfigById s configId = false then (.failure, s)
  else if env.memAlloc = false then (.failure, s)
  else
    let q := (s.cfg configId).twtStaQueue ++ [⟨sta, id⟩]
    if env.staAdd then (.success, s.setCfg configId { s.cfg configId with twtStaQueue := q })
    else (.failure, s.setCfg configId { s.cfg configId with twtStaQueue := (twtDeleteSta q sta id).1 })

/-! ### The operations -/

def twtFlowIdExist (env : TwtEnv) (s : TwtInfoState) (sta id : ℕ) : Bool :=
  ring.any fun i => decide ((s.cfg i).state ≠ .free) && decide ((s.cfg i).role = some (env.wrole sta)) &&
    decide ((s.cfg i).twtInfo.negoType = .indivTwt) &&
    (twtGetStaInfo (s.cfg i).twtStaQueue sta).any fun a => decide (a.id = id)

/-- The lowest bit of a map that is set. -/
def lowestBit (map : BitVec 8) : Option ℕ := (List.range 8).find? fun i => map.getLsbD i

def twtAcceptIndivBySta (env : TwtEnv) (s : TwtInfoState) (setup : TwtSetup) (sta : ℕ) : PhlStatus × TwtInfoState :=
  let s :=
    if twtFlowIdExist env s sta setup.twtFlowId then
      let (ret, s, bitmap) := twtDeleteStaInfo env s sta false setup.negoType setup.twtFlowId
      match lowestBit bitmap with
      | some id => if ret = .success then (twtFreeTwtConfig env s id).2 else s
      | none => s
    else s
  match twtAllocTwtConfig env s (env.rlink sta) setup true with
  | (.success, id, s) =>
    match twtAddStaInfo env s sta id setup.twtFlowId with
    | (.success, s) => (.success, s)
    | (ret, s) => (ret, (twtFreeTwtConfig env s id).2)
  | (ret, _, s) => (ret, s)

def twtAcceptForStaMode (env : TwtEnv) (s : TwtInfoState) (setup : TwtSetup) (sta : ℕ) : PhlStatus × TwtInfoState :=
  if s.twtSup = false ∨ s.twtInit = false then (.failure, s)
  else if setup.negoType = .indivTwt then twtAcceptIndivBySta env s setup sta
  else (.failure, s)

/-- `rtw_phl_twt_teardown_sta`; `id` is the flow id of the field, or `DELETE_ALL`. -/
def twtTeardownSta (env : TwtEnv) (s : TwtInfoState) (sta : ℕ) (negoType : NegoType) (id : ℕ) :
    PhlStatus × TwtInfoState × BitVec 8 :=
  if s.twtSup = false ∨ s.twtInit = false then (.failure, s, 0)
  else if negoType = .bcastTwt then (.failure, s, 0)
  else twtDeleteStaInfo env s sta false negoType id

/-- `phl_twt_teardown_for_sta_mode`; the answer is that of the last entry that is freed. -/
def twtTeardownForStaMode (env : TwtEnv) (s : TwtInfoState) (sta : ℕ) (negoType : NegoType) (id : ℕ) :
    PhlStatus × TwtInfoState :=
  match twtTeardownSta env s sta negoType id with
  | (.success, s, bitmap) =>
    (List.range 8).foldl (fun r i => if bitmap.getLsbD i then twtFreeTwtConfig env r.2 i else r) (.success, s)
  | (ret, s, _) => (ret, s)

/-- The rounds of `rtw_phl_twt_free_all_twt_by_role`. -/
def freeAllLoop (env : TwtEnv) (role : ℕ) : ℕ → TwtInfoState → Bool → TwtInfoState × Bool
  | 0, s, free => (s, free)
  | n + 1, s, free =>
    match getConfigByRole s role with
    | none => (s, free)
    | some i => freeAllLoop env role n (releaseConfig env s (s.cfg i).twtInfo.twtId) true

def twtFreeAllTwtByRole (env : TwtEnv) (s : TwtInfoState) (role : ℕ) : PhlStatus × TwtInfoState :=
  if s.twtSup = false ∨ s.twtInit = false then (.failure, s)
  else
    let (s, free) := freeAllLoop env role (maxNumHwTwtConfig + 1) s false
    (if free then .success else .failure, s)

def twtNewConfigIsAvailable (s : TwtInfoState) : Bool × TwtInfoState :=
  match getNewConfig s with
  | none => (false, s)
  | some (i, s) => (true, (freeConfig s (s.cfg i).twtInfo.twtId).2)

/-- The flow ids of a station that `rtw_phl_twt_get_new_flow_id` finds in use. -/
def useMap (env : TwtEnv) (s : TwtInfoState) (sta : ℕ) : BitVec 8 :=
  ring.foldl (fun map i =>
    if (s.cfg i).state = .free ∨ (s.cfg i).role ≠ some (env.wrole sta) ∨ (s.cfg i).twtInfo.negoType ≠ .indivTwt then map
    else match twtGetStaInfo (s.cfg i).twtStaQueue sta with
      | some a => map ||| 1#8 <<< a.id
      | none => map) 0

def twtGetNewFlowId (env : TwtEnv) (s : TwtInfoState) (sta : ℕ) : PhlStatus × Option ℕ × TwtInfoState :=
  if s.twtSup = false ∨ s.twtInit = false then (.resource, none, s)
  else
    match twtNewConfigIsAvailable s with
    | (false, s) => (.resource, none, s)
    | (true, s) =>
      match lowestBit (~~~ useMap env s sta) with
      | some id => (.success, some id, s)
      | none => (.resource, none, s)

/-- `phl_twt_init` -/
def twtStart (twtSup twtInit : Bool) : TwtInfoState := ⟨twtSup, twtInit, fun _ => ⟨.free, none, none, .zero, []⟩⟩

/-- An operation, with what it gets to hear. -/
inductive TwtOp where
  | getNewFlowId (sta : ℕ) (env : TwtEnv)
  | accept (setup : TwtSetup) (sta : ℕ) (env : TwtEnv)
  | teardown (sta : ℕ) (negoType : NegoType) (id : ℕ) (env : TwtEnv)
  | freeAll (role : ℕ) (env : TwtEnv)

def TwtInfoState.step (s : TwtInfoState) : TwtOp → TwtInfoState
  | .getNewFlowId sta env => (twtGetNewFlowId env s sta).2.2
  | .accept setup sta env => (twtAcceptForStaMode env s setup sta).2
  | .teardown sta negoType id env => (twtTeardownForStaMode env s sta negoType id).2
  | .freeAll role env => (twtFreeAllTwtByRole env s role).2

end Rtl8852cu.Twt
