import Rtl8852cu.Mcc.Pattern

/-!
# The other ways to a pattern

`phl/phl_mcc.c`: the negotiated patterns, in which a role gives way to the limit of the other; the pattern with
a BT slot, of which the offset of the beacons decides the form; the pattern of two clients without
limits, in their beacon interval or in the longer one of the worst case; and the default.

A role that has no time before or behind its beacon is helped by the other one (`courtesy_i`).
-/

namespace Rtl8852cu.Mcc

/-! ### Negotiation -/

/-- A slot halved around its beacon, and moved inside its limits. -/
def negoLimited (i : DurInfo) : Option (ℤ × ℤ) :=
  let tob := s16 (i.dur / 2)
  let toa := s16 (i.dur - tob)
  let (tob, toa) :=
    if tob > i.durLimit.maxTob then (s16 i.durLimit.maxTob, s16 (i.dur - s16 i.durLimit.maxTob))
    else (tob, toa)
  let (tob, toa) :=
    if toa > i.durLimit.maxToa then (s16 (i.dur - s16 i.durLimit.maxToa), s16 i.durLimit.maxToa)
    else (tob, toa)
  if tob > i.durLimit.maxTob ∨ toa > i.durLimit.maxToa then none else some (tob, toa)

/-- The times of a slot, and the courtesy of `src` to `tgt` when the other one has none. -/
def Pattern.courtesy (m : Pattern) (tob toa : ℤ) (src tgt : Option (Fin 2)) : Pattern :=
  if tob ≤ 0 ∨ toa ≤ 0 then { m with courtesyI := ⟨true, true, src, tgt⟩ } else m

/-- The times of the three negotiations, with `gap` between the two slots. -/
def negoTimes (ref ano : DurInfo) (offset gap : ℤ) (m : Pattern) : Option Pattern :=
  let fromRef (tobR toaR : ℤ) : Pattern :=
    let tobA := s16 (offset - toaR - gap)
    let toaA := s16 (ano.dur - tobA)
    { m.courtesy tobA toaA m.roleRef m.roleAno with
      tobR := tobR, toaR := toaR, tobA := tobA, toaA := toaA }
  if ref.durLimit.enable ∧ ano.durLimit.enable then none
  else if ref.durLimit.enable then (negoLimited ref).map fun (tobR, toaR) => fromRef tobR toaR
  else if ano.durLimit.enable then
    (negoLimited ano).map fun (tobA, toaA) =>
      let toaR := s16 (offset - tobA - gap)
      let tobR := s16 (ref.dur - toaR)
      { m.courtesy toaR tobR m.roleAno m.roleRef with
        tobR := tobR, toaR := toaR, tobA := tobA, toaA := toaA }
  else some (fromRef (s16 (ref.dur / 2)) (s16 (ref.dur - s16 (ref.dur / 2))))

/-- `_mcc_calc_2_wrole_nego_pattern`. -/
def calc2WroleNegoPattern (ref ano : DurInfo) (offset : ℤ) (m : Pattern) : Option Pattern :=
  if ¬ ref.durLimit.enable ∧ ¬ ano.durLimit.enable then none
  else (negoTimes ref ano offset 0 m).map fun m' =>
    (m'.fillSlotInfo false ref.dur m.roleRef).fillSlotInfo false ano.dur m.roleAno

/-- `_mcc_calc_2wslot_1btslot_nego_p1`. -/
def calc2Wslot1BtslotNegoP1 (ref ano : DurInfo) (offset btDur : ℤ) (m : Pattern) : Option Pattern :=
  (negoTimes ref ano offset 0 m).map fun m' =>
    ((m'.fillSlotInfo false ref.dur m.roleRef).fillSlotInfo false ano.dur m.roleAno).fillSlotInfo
      true (u16 btDur) none

/-- `_mcc_calc_2wslot_1btslot_nego_p2`. -/
def calc2Wslot1BtslotNegoP2 (ref ano : DurInfo) (btDur offset : ℤ) (m : Pattern) : Option Pattern :=
  (negoTimes ref ano offset btDur m).map fun m' =>
    ((m'.fillSlotInfo false ref.dur m.roleRef).fillSlotInfo true (u16 btDur) none).fillSlotInfo
      false ano.dur m.roleAno

/-- `_mcc_calculate_2_wrole_pattern`. -/
def calculate2WrolePattern (ref ano : DurInfo) (offset : ℕ) (m : Pattern) : Option Pattern :=
  match search2Wrole ref ano offset m with
  | some m' => some m'
  | none => calc2WroleNegoPattern ref ano (s16 offset) m

/-! ### The BT slot -/

/-- `_mcc_get_offset_for_2_wslot_1_btslot_p1`. -/
def offsetP1 (durR tobR tobA : ℤ) : ℤ := s16 (durR - tobR + tobA)

/-- `_mcc_get_offset_for_2_wslot_1_btslot_p2`. -/
def offsetP2 (durR btDur tobR tobA : ℤ) : ℤ := s16 (durR - tobR + btDur + tobA)

/-- `_mcc_get_offset_range_for_2wslot_1btslot_p1`. -/
def offsetRangeP1 (ref ano : ℤ) : ℤ × ℤ :=
  let bcnMin := offsetP1 ref earlyRxBcnT earlyRxBcnT
  let bcnMax := offsetP1 ref earlyRxBcnT (s16 (ano - minRxBcnT))
  let min1 := offsetP1 ref (s16 (ref - minRxBcnT)) earlyRxBcnT
  let max1 := offsetP1 ref (s16 (ref - minRxBcnT)) (s16 (ano - minRxBcnT))
  (if min1 < bcnMin then min1 else bcnMin, if max1 > bcnMax then max1 else bcnMax)

/-- `_mcc_get_offset_range_for_2wslot_1btslot_p2`: `min1` is written twice, and `max1` stays 0. -/
def offsetRangeP2 (ref ano btDur : ℤ) : ℤ × ℤ :=
  let bcnMin := offsetP2 ref btDur earlyRxBcnT earlyRxBcnT
  let bcnMax := offsetP2 ref btDur earlyRxBcnT (s16 (ano - minRxBcnT))
  let min1 := offsetP2 ref btDur (s16 (ref - minRxBcnT)) (s16 (ano - minRxBcnT))
  (if min1 < bcnMin then min1 else bcnMin, if 0 > bcnMax then 0 else bcnMax)

/-- `_mcc_calculate_2wslot_1btslot_pattern`; the second negotiation is given the offset as its BT duration
and the other way round. -/
def calculate2Wslot1BtslotPattern (ref ano : DurInfo) (btDur : ℤ) (m : Pattern) : Option Pattern :=
  let offset := m.bcnsOffset
  let nego :=
    match calc2Wslot1BtslotNegoP1 ref ano (s16 offset) btDur m with
    | some m' => some m'
    | none => calc2Wslot1BtslotNegoP2 ref ano (s16 offset) btDur m
  let p1 := offsetRangeP1 (s16 ref.dur) (s16 ano.dur)
  let p2 := offsetRangeP2 (s16 ref.dur) (s16 ano.dur) btDur
  if p1.1 ≤ offset ∧ offset ≤ p1.2 then
    match calculate2Wslot1BtslotPattern1 ref ano offset btDur m with
    | some m' => some m'
    | none => nego
  else if p2.1 ≤ offset ∧ offset ≤ p2.2 then
    match calculate2Wslot1BtslotPattern2 ref ano offset btDur m with
    | some m' => some m'
    | none => nego
  else nego

/-! ### Two clients without limits -/

/-- The loop of `_mcc_calculate_2_clients_pattern` and of the worst case, with `n` values of `tob_r` left:
`tob_r` behind it.  The beacons of the second slot are `offset - toa_r` behind its start. -/
def clientsLoop (dR dA offset : ℤ) : ℕ → ℤ → ℤ → ℤ
  | 0, tobR, _ => tobR
  | n + 1, tobR, sumLast =>
    let toaR := s16 (dR - tobR)
    let tobA := s16 (offset - toaR)
    let toaA := s16 (dA - tobA)
    let sum := s16 ((tobR - toaR) * (tobR - toaR) + (tobR - tobA) * (tobR - tobA) +
      (tobR - toaA) * (tobR - toaA) + (toaR - tobA) * (toaR - tobA) +
      (toaR - toaA) * (toaR - toaA) + (tobA - toaA) * (tobA - toaA))
    if toaR < minRxBcnT then tobR
    else if tobA < earlyRxBcnT then clientsLoop dR dA offset n (tobR + 1) sumLast
    else if toaA < minRxBcnT then tobR
    else if sumLast ≠ 0 ∧ sum > sumLast then tobR
    else clientsLoop dR dA offset n (tobR + 1) sum

/-- What is stored behind the loop: the value before the last, in bytes. -/
def clientsTimes (refDur anoDur : ℕ) (offset : ℤ) (m : Pattern) : Pattern :=
  let intvl := (refDur + anoDur) % 65536
  let tobR := s16 (clientsLoop (s16 refDur) (s16 anoDur) offset (intvl - 5) earlyRxBcnT 0 - 1)
  let toaR := s16 (s16 refDur - tobR)
  let tobA := s16 (offset - toaR)
  let toaA := s16 (s16 anoDur - tobA)
  { m with tobR := tobR % 256, toaR := toaR % 256, tobA := tobA % 256, toaA := toaA % 256 }

/-- `_mcc_calculate_2_clients_pattern`. -/
def calculate2ClientsPattern (refDur anoDur offset : ℕ) (m : Pattern) : Pattern :=
  ((clientsTimes refDur anoDur (s16 offset) m).fillSlotInfo false refDur m.roleRef).fillSlotInfo
    false anoDur m.roleAno

/-- `_mcc_get_offset_for_2_clients_worsecase`. -/
def offsetWorsecase (ref ano bcnIntvl toaRef tobAno : ℤ) : ℤ :=
  s16 (toaRef + tobAno + ref + ano - 2 * bcnIntvl)

/-- `_mcc_get_offset_range_for_2_clients_worsecase`. -/
def offsetRangeWorsecase (ref ano bcnIntvl : ℤ) : ℤ × ℤ :=
  let min1 := offsetWorsecase ref ano bcnIntvl minRxBcnT earlyRxBcnT
  let max1 := offsetWorsecase ref ano bcnIntvl minRxBcnT (s16 (ano - minRxBcnT))
  let min2 := offsetWorsecase ref ano bcnIntvl (s16 (ref - earlyRxBcnT)) earlyRxBcnT
  let max2 := offsetWorsecase ref ano bcnIntvl (s16 (ref - earlyRxBcnT)) (s16 (ano - minRxBcnT))
  (if min1 < min2 then min1 else min2, if max1 > max2 then max1 else max2)

/-- `_mcc_calc_2_clients_worsecase_pattern`; the second test compares the range with itself. -/
def calc2ClientsWorsecasePattern (refDur anoDur offset refBcnIntvl : ℕ) (m : Pattern) : Bool × Pattern :=
  let intvl := (refDur + anoDur) % 65536
  let range := offsetRangeWorsecase (s16 refDur) (s16 anoDur) refBcnIntvl
  let found (bcnsOffset : ℤ) : Bool × Pattern :=
    (true, ((clientsTimes refDur anoDur (bcnsOffset + 2 * refBcnIntvl - intvl) m).fillSlotInfo
      false refDur m.roleRef).fillSlotInfo false anoDur m.roleAno)
  if refBcnIntvl ≠ 100 then (false, { m with calcFail := true })
  else if range.1 ≤ s16 offset ∧ s16 offset ≤ range.2 then found (s16 offset)
  else if range.1 ≤ s16 (refBcnIntvl - s16 offset) ∧ range.1 ≤ range.2 then
    found (s16 (refBcnIntvl - s16 offset))
  else (false, { m with calcFail := true })

/-- `_mcc_set_2_clients_worsecase_default_pattern`; the slots are what the two roles have. -/
def set2ClientsWorsecaseDefaultPattern (durRef refDur anoDur : ℕ) (m : Pattern) : Pattern :=
  let m' := { m with toaR := 30, tobR := s16 (durRef - 30) }
  (m'.fillSlotInfo false refDur m.roleRef).fillSlotInfo false anoDur m.roleAno

end Rtl8852cu.Mcc
