import Mathlib.Algebra.Ring.Nat
import Mathlib.Data.Finset.Card

/-!
# The NoA table of a role

One descriptor for each trigger, a counter of those the firmware has, and the pause flag. `fw` is what the HAL has
accepted and not taken back: the trigger and the id under which it has the descriptor.
-/

namespace Rtl8852cu.P2pps

/-- `p2pps_trig_tag`: who asks, and the place in the table. -/
inductive Trig where
  | go
  | gc
  | gc255
  | mcc
  | scc2gApStaBt
deriving DecidableEq, Repr

/-- The places, in the order of the loops over the table. -/
def Trig.all : List Trig := [.go, .gc, .gc255, .mcc, .scc2gApStaBt]

theorem Trig.mem_all (t : Trig) : t ∈ Trig.all := by cases t <;> decide

theorem Trig.nodup_all : Trig.all.Nodup := by decide

def noaidNone : ℕ := 0xFF

/-- `rtw_phl_noa_desc`, without its role and link. -/
structure NoaDesc where
  enable : Bool
  tag : Trig
  startTH : ℕ
  startTL : ℕ
  interval : ℕ
  duration : ℕ
  count : ℕ
  noaId : ℕ
deriving DecidableEq, Repr

def NoaDesc.zero : NoaDesc := ⟨false, .go, 0, 0, 0, 0, 0, 0⟩

/-- `rtw_hal_status` -/
inductive HalSts where
  | success
  | resource
  | failure
deriving DecidableEq, Repr

/-- `rtw_phl_status` -/
inductive PhlSts where
  | success
  | resource
  | failure
deriving DecidableEq, Repr

/-- `rtw_phl_noa_info`, with the descriptors that the firmware has and the state of the TSF32 toggle. -/
structure NoaInfo where
  enDescNum : ℕ
  paused : Bool
  noaDesc : Trig → NoaDesc
  fw : Finset (Trig × ℕ)
  tsf32Tog : Bool

/-- What the calls of one request get to hear: from the HAL, from the MR module, and whether the role is an AP. -/
structure NoaEnv where
  halEnable : Trig → HalSts
  halDisable : Trig → HalSts
  mccInprog : Trig → Bool
  noaDurLimChange : Trig → Bool
  apCategory : Bool
  upClients : PhlSts

/-- `_phl_p2pps_noa_should_activate` -/
def shouldActivate (env : NoaEnv) (inDesc : NoaDesc) : Bool :=
  if inDesc.tag = .mcc then false
  else if inDesc.count ≠ 255 then !env.mccInprog inDesc.tag
  else !env.noaDurLimChange inDesc.tag

/-- `_phl_p2pps_noa_is_all_disable` -/
def isAllDisable (info : NoaInfo) : Bool := Trig.all.all fun t => !(info.noaDesc t).enable

/-- The largest id of the places `ts`, those without one aside. -/
def maxNoaId (desc : Trig → NoaDesc) (ts : List Trig) : ℕ :=
  ts.foldl (fun m t => if (desc t).noaId = noaidNone then m else if (desc t).noaId > m then (desc t).noaId else m) 0

/-- `_phl_p2pps_noa_assign_noaid` -/
def assignNoaid (info : NoaInfo) : ℕ :=
  if info.enDescNum = 0 then 0
  else if maxNoaId info.noaDesc Trig.all ≠ 0 then (maxNoaId info.noaDesc Trig.all + 1) % 256 else 0

def NoaInfo.setDesc (info : NoaInfo) (t : Trig) (d : NoaDesc) : NoaInfo :=
  { info with noaDesc := Function.update info.noaDesc t d }

/-- `en_to_fw`: the descriptor is one that the firmware has been given. -/
def NoaDesc.enToFw (d : NoaDesc) : Bool := decide (d.noaId ≠ noaidNone) && d.enable

/-- `_phl_p2pps_noa_disable` -/
def noaDisable (env : NoaEnv) (info : NoaInfo) (t : Trig) (clearDesc : Bool) : PhlSts × NoaInfo :=
  if info.paused && clearDesc then (.success, info.setDesc t .zero)
  else if (info.noaDesc t).enToFw then
    if env.halDisable t ≠ .success then (.failure, info)
    else
      let off := { info with
        enDescNum := info.enDescNum - 1
        fw := info.fw.erase (t, (info.noaDesc t).noaId) }
      (.success, if clearDesc then off.setDesc t .zero else off)
  else (.success, if clearDesc then info.setDesc t .zero else info)

/-- `_phl_p2pps_noa_enable` -/
def noaEnable (env : NoaEnv) (info : NoaInfo) (t : Trig) (inDesc : NoaDesc) : PhlSts × NoaInfo :=
  let info := info.setDesc t inDesc
  if info.paused then (.success, info)
  else if shouldActivate env inDesc then
    let id := assignNoaid info
    match env.halEnable t with
    | .success =>
      (if env.apCategory then env.upClients else .success, { info.setDesc t { inDesc with noaId := id } with
          enDescNum := (info.enDescNum + 1) % 256
          fw := insert (t, id) info.fw })
    | .resource => (.resource, info.setDesc t { inDesc with noaId := noaidNone })
    | .failure => (.failure, info.setDesc t { inDesc with noaId := noaidNone })
  else (.success, info.setDesc t { inDesc with noaId := noaidNone })

def noaUpdate (env : NoaEnv) (info : NoaInfo) (inDesc : NoaDesc) : PhlSts × NoaInfo :=
  if inDesc.enable then
    let info := if isAllDisable info then { info with tsf32Tog := true } else info
    noaEnable env (noaDisable env info inDesc.tag true).2 inDesc.tag inDesc
  else
    let (ret, info) := noaDisable env info inDesc.tag true
    (ret, if isAllDisable info then { info with tsf32Tog := false } else info)

/-- A pass of the loop of `_phl_p2pps_noa_disable_all`. -/
def disableDesc (env : NoaEnv) (s : NoaInfo) (t : Trig) : NoaInfo :=
  if (s.noaDesc t).enable then (noaDisable env s t true).2 else s

/-- `phl_p2pps_noa_disable_all` -/
def noaDisableAll (env : NoaEnv) (info : NoaInfo) : NoaInfo :=
  { Trig.all.foldl (disableDesc env) info with paused := false, tsf32Tog := false }

/-- `phl_p2pps_noa_pause_all` -/
def noaPauseAll (env : NoaEnv) (info : NoaInfo) : NoaInfo :=
  if info.paused then info
  else Trig.all.foldl (fun s t => (noaDisable env s t false).2) { info with paused := true }

/-- A pass of the loop of `phl_p2pps_noa_resume_all`. -/
def resumeDesc (env : NoaEnv) (s : NoaInfo) (t : Trig) : NoaInfo :=
  if (s.noaDesc t).enable then (noaEnable env s t (s.noaDesc t)).2 else s

/-- `phl_p2pps_noa_resume_all` -/
def noaResumeAll (env : NoaEnv) (info : NoaInfo) : NoaInfo :=
  if !info.paused then info else Trig.all.foldl (resumeDesc env) { info with paused := false }

def noaInit : NoaInfo := ⟨0, false, fun _ => .zero, ∅, false⟩

/-- A call on the role, with what it gets to hear. -/
inductive NoaCall where
  | update (inDesc : NoaDesc) (env : NoaEnv)
  | disableAll (env : NoaEnv)
  | pauseAll (env : NoaEnv)
  | resumeAll (env : NoaEnv)

def NoaInfo.step (info : NoaInfo) : NoaCall → NoaInfo
  | .update inDesc env => (noaUpdate env info inDesc).2
  | .disableAll env => noaDisableAll env info
  | .pauseAll env => noaPauseAll env info
  | .resumeAll env => noaResumeAll env info

end Rtl8852cu.P2pps
