import Rtl8852cu.Trx.Ring

/-!
# The order in which the transmit rings are served

`_phl_check_tring_list`, `_phl_sort_ring_by_tid` and `phl_tx_flow_ctrl` of `phl/phl_tx.c`: a round
takes a status object for every ring with requests, sorts those of a station, and links them into
`t_fctrl_result`.  A status object is known by its slot in the pool, a ring by the place of its
station in `t_ring_list` and its category; an intrusive list is the list of what is linked, and
`tid_entry` the slot of the object it points to.
-/

namespace Rtl8852cu.Trx

abbrev maxPhlRingStatusNumber : ℕ := 256

inductive RingCat where
  | tid0
  | tid1
  | tid2
  | tid3
  | tid4
  | tid5
  | tid6
  | tid7
  | mgnt
  | hiq
  deriving DecidableEq, Repr

/-- The index of the ring in `phl_ring`. -/
def RingCat.idx : RingCat → ℕ
  | .tid0 => 0
  | .tid1 => 1
  | .tid2 => 2
  | .tid3 => 3
  | .tid4 => 4
  | .tid5 => 5
  | .tid6 => 6
  | .tid7 => 7
  | .mgnt => 8
  | .hiq => 9

/-- The rings of a station, in the order in which they are looked at. -/
def RingCat.all : List RingCat :=
  [.tid0, .tid1, .tid2, .tid3, .tid4, .tid5, .tid6, .tid7, .mgnt, .hiq]

def cvtCatToTid : RingCat → ℕ
  | .mgnt | .hiq => 0
  | cat => cat.idx

def RingCat.IsHigh (cat : RingCat) : Prop := cat = .mgnt ∨ cat = .hiq

instance (cat : RingCat) : Decidable cat.IsHigh := inferInstanceAs (Decidable (_ ∨ _))

/-- `struct phl_ring_status`. -/
structure RingSts where
  slot : ℕ
  band : ℕ
  wmm : ℕ
  port : ℕ
  reqBusy : ℕ
  ringPtr : ℕ × RingCat
  deriving DecidableEq

/-- `ring_ptr->cat`. -/
def RingSts.cat (sts : RingSts) : RingCat := sts.ringPtr.2

structure TxPlan where
  sleep : Bool
  hasMgnt : Bool
  hasHiq : Bool
  sortedRing : List RingSts
  deriving DecidableEq

/-- `_phl_init_tx_plan`. -/
def TxPlan.init : TxPlan := ⟨false, false, false, []⟩

structure TringList (Req : Type*) where
  macid : ℕ
  band : ℕ
  wmm : ℕ
  port : ℕ
  phlRing : RingCat → TxRing Req
  txPlan : TxPlan

/-! ### The check -/

section Check

variable {Req : Type*}

/-- `phl_calc_avail_rptr` on a transmit ring. -/
def TxRing.avail (ring : TxRing Req) : ℕ :=
  phlCalcAvailRptr ring.phlIdx ring.coreIdx maxPhlTxRingEntryNum

/-- `_phl_check_ring_status`: the idle status objects left, the ring as it is then, and the status
taken for it. -/
def checkRingStatus (idle : List ℕ) (i : ℕ) (l : TringList Req) (cat : RingCat) :
    List ℕ × TringList Req × Option RingSts :=
  let avail := (l.phlRing cat).avail
  if avail = 0 then (idle, l, none)
  else
    match idle with
    | [] => ([], l, none)
    | slot :: idle =>
      (idle, { l with phlRing := Function.update l.phlRing cat (l.phlRing cat).phlCheckRing.1 },
        some ⟨slot, l.band, l.wmm, l.port, avail, (i, cat)⟩)

def sortRingByTid (sts : RingSts) (plan : TxPlan) (cat : RingCat) : TxPlan :=
  if sts.cat = .tid1 then { plan with sortedRing := plan.sortedRing ++ [sts] }
  else if sts.cat = .tid2 then
    match plan.sortedRing.getLast? with
    | none => { plan with sortedRing := [sts] }
    | some last =>
      if last.cat = .tid1 then
        { plan with sortedRing := plan.sortedRing.dropLast ++ [sts, last] }
      else { plan with sortedRing := plan.sortedRing ++ [sts] }
  else
    { plan with
      sortedRing := sts :: plan.sortedRing
      hasMgnt := if cat = .mgnt then true else plan.hasMgnt
      hasHiq := if cat = .hiq then true else plan.hasHiq }

/-- One iteration of `_phl_check_tring_list`. -/
def checkRing (i : ℕ) (s : List ℕ × TringList Req) (cat : RingCat) : List ℕ × TringList Req :=
  match checkRingStatus s.1 i s.2 cat with
  | (idle, l, none) => (idle, l)
  | (idle, l, some sts) => (idle, { l with txPlan := sortRingByTid sts l.txPlan cat })

def checkTringList (idle : List ℕ) (i : ℕ) (l : TringList Req) : List ℕ × TringList Req :=
  RingCat.all.foldl (checkRing i) (idle, l)

/-- The loop of `phl_check_xmit_ring_resource`, from the station at `i` on. -/
def checkTringLists (idle : List ℕ) (i : ℕ) : List (TringList Req) → List ℕ × List (TringList Req)
  | [] => (idle, [])
  | l :: ls =>
    let s := checkTringList idle i l
    let t := checkTringLists s.1 (i + 1) ls
    (t.1, s.2 :: t.2)

end Check

/-! ### The flow control -/

/-- The idle status objects, `t_fctrl_result` and `tid_entry`. -/
structure FctrlSt where
  idle : List ℕ
  result : List RingSts
  tidEntry : ℕ → Option ℕ

/-- `__list_add` behind the object in a slot. -/
def insertAfter (slot : ℕ) (sts : RingSts) : List RingSts → List RingSts
  | [] => []
  | y :: l => if y.slot = slot then y :: sts :: l else y :: insertAfter slot sts l

/-- The first ring of the plan goes to the front of the result. -/
def takeFirst (s : FctrlSt × TxPlan) : FctrlSt × TxPlan :=
  match s.2.sortedRing with
  | [] => s
  | sts :: rest => ({ s.1 with result := sts :: s.1.result }, { s.2 with sortedRing := rest })

/-- A data ring goes behind the last one of its TID, or to the end. -/
def placeTid (s : FctrlSt) (sts : RingSts) : FctrlSt :=
  let tid := cvtCatToTid sts.cat
  { s with
    result := match s.tidEntry tid with
      | none => s.result ++ [sts]
      | some slot => insertAfter slot sts s.result
    tidEntry := Function.update s.tidEntry tid (some sts.slot) }

theorem placeTid_of_none {s : FctrlSt} {sts : RingSts} (h : s.tidEntry (cvtCatToTid sts.cat) = none) :
    (placeTid s sts).result = s.result ++ [sts] := by
  unfold placeTid
  simp only [h]

theorem placeTid_of_some {s : FctrlSt} {sts : RingSts} {slot : ℕ} (h : s.tidEntry (cvtCatToTid sts.cat) = some slot) :
    (placeTid s sts).result = insertAfter slot sts s.result := by
  unfold placeTid
  simp only [h]

/-- One iteration of `phl_tx_flow_ctrl`; what it leaves in the plan is released and the plan is
reset. -/
def flowPlan (s : FctrlSt) (plan : TxPlan) : FctrlSt :=
  if plan.sleep then { s with idle := s.idle ++ plan.sortedRing.map (·.slot) }
  else
    let t := if plan.hasHiq then takeFirst (s, plan) else (s, plan)
    let t := if plan.hasMgnt then takeFirst t else t
    t.2.sortedRing.foldl placeTid t.1

def phlTxFlowCtrl (s : FctrlSt) (staList : List TxPlan) : FctrlSt := staList.foldl flowPlan s

/-! ### A round -/

section Round

variable {Req : Type*}

structure TxRound (Req : Type*) where
  idle : List ℕ
  result : List RingSts
  tRingList : List (TringList Req)

/-- The stations `phl_check_xmit_ring_resource` walks over. -/
def walked (useOnetxring : Bool) (ls : List (TringList Req)) : List (TringList Req) :=
  if useOnetxring then ls.take 1 else ls

/-- `phl_check_xmit_ring_resource` and `phl_tx_flow_ctrl`: the plans with a ring are on `sta_list`,
and are reset. -/
def txRound (useOnetxring : Bool) (idle : List ℕ) (ls : List (TringList Req)) : TxRound Req :=
  let t := checkTringLists idle 0 (walked useOnetxring ls)
  let staList := (t.2.map (·.txPlan)).filter fun plan => plan.sortedRing ≠ []
  let s := phlTxFlowCtrl ⟨t.1, [], fun _ => none⟩ staList
  { idle := s.idle
    result := s.result
    tRingList := (t.2.map fun l =>
        if l.txPlan.sortedRing ≠ [] then { l with txPlan := .init } else l) ++
      ls.drop (walked useOnetxring ls).length }

end Round

end Rtl8852cu.Trx
