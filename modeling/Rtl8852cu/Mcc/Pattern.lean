import Mathlib.Algebra.Ring.Nat
import Mathlib.Data.Int.Notation

/-!
# The slots of multi-channel concurrency

`phl/phl_mcc.c`: the two roles share a period, each has a slot with its beacon in it, and BT may have a
slot of its own.  A pattern says where the beacons are: the reference role's is `tob_r` behind the
start of its slot and `toa_r` before its end, the other's likewise.

The searches for a pattern are `_mcc_calculate_2_wrole_pattern` up to `calc_nego_pattern`,
`_mcc_calculate_2wslot_1btslot_pattern1` and `_mcc_calculate_2wslot_1btslot_pattern2`; their loops are
one loop with parameters.  A role is its index in `mcc_role`.
-/

namespace Rtl8852cu.Mcc

/-- The roles are literals of `Fin 2`, all with this one proof. -/
instance neZeroTwo : NeZero 2 := ⟨by decide⟩

def earlyRxBcnT : ℤ := 5

def minRxBcnT : ℤ := 10

/-- `SLOT_NUM`. -/
def maxSlots : ℕ := 4

/-- The conversion to `s16`. -/
@[irreducible]
def s16 (x : ℤ) : ℤ := x.bmod 65536

/-- The conversion to `u16`. -/
def u16 (x : ℤ) : ℕ := (x % 65536).toNat

/-- `struct rtw_phl_mcc_dur_lim_info`. -/
structure DurLimInfo where
  enable : Bool
  maxTob : ℕ
  maxToa : ℕ
  maxDur : ℕ
  deriving DecidableEq

/-- `struct rtw_phl_mcc_dur_info`. -/
structure DurInfo where
  dur : ℕ
  durLimit : DurLimInfo
  deriving DecidableEq

/-- `struct rtw_phl_mcc_slot_info`. -/
structure SlotInfo where
  slot : ℕ
  btRole : Bool
  mrole : Option (Fin 2)
  deriving DecidableEq

/-- `struct rtw_phl_mcc_courtesy`; `c_num` is a `bool`. -/
structure Courtesy where
  cEn : Bool
  cNum : Bool
  srcRole : Option (Fin 2)
  tgtRole : Option (Fin 2)
  deriving DecidableEq

/-- `struct rtw_phl_mcc_pattern`; `slotOrder` are the first `slot_num` slots. -/
structure Pattern where
  btSlotNum : ℕ
  roleRef : Option (Fin 2)
  roleAno : Option (Fin 2)
  tobR : ℤ
  toaR : ℤ
  tobA : ℤ
  toaA : ℤ
  bcnsOffset : ℕ
  calcFail : Bool
  spacingMax : ℕ
  courtesyI : Courtesy
  slotOrder : List SlotInfo
  deriving DecidableEq

/-- The pattern behind `MINFO_RESET_PATTERN_INFO`. -/
def Pattern.zero : Pattern :=
  ⟨0, none, none, 0, 0, 0, 0, 0, false, 0, ⟨false, false, none, none⟩, []⟩

/-- `_mcc_fill_slot_info`. -/
def Pattern.fillSlotInfo (m : Pattern) (btRole : Bool) (dur : ℕ) (mrole : Option (Fin 2)) : Pattern :=
  if m.slotOrder.length ≥ maxSlots then m
  else if btRole then
    { m with
      slotOrder := m.slotOrder ++ [⟨dur, true, none⟩]
      btSlotNum := m.btSlotNum + 1 }
  else { m with slotOrder := m.slotOrder ++ [⟨dur, false, mrole⟩] }

/-- What a search is given: `tobStops` says whether `max_tob` ends the loop, `gap` is what lies between
the two slots. -/
structure Search where
  tobStops : Bool
  ref : DurInfo
  ano : DurInfo
  offset : ℤ
  gap : ℤ

namespace Search

variable (s : Search)

def toaR (tobR : ℤ) : ℤ := s16 (s16 s.ref.dur - tobR)

/-- `tob_a` in the loop. -/
def tobA (tobR : ℤ) : ℤ := s16 (s.offset - s.toaR tobR - s.gap)

/-- `toa_a` in the loop. -/
def toaA (tobR : ℤ) : ℤ := s16 (s16 s.ano.dur - s.tobA tobR)

def sum (tobR : ℤ) : ℤ :=
  let toaR := s.toaR tobR
  let tobA := s.tobA tobR
  let toaA := s.toaA tobR
  s16 ((tobR - toaR) * (tobR - toaR) + (tobR - tobA) * (tobR - tobA) +
    (tobR - toaA) * (tobR - toaA) + (toaR - tobA) * (toaR - tobA) +
    (toaR - toaA) * (toaR - toaA) + (tobA - toaA) * (tobA - toaA))

/-- The loop, with `n` values of `tob_r` left; `cand` is `tob_r_cand`.  `tob_r` does not reach 2^15, the
first test ends the loop before. -/
def loop : ℕ → ℤ → ℤ → ℤ → ℤ
  | 0, _, _, cand => cand
  | n + 1, tobR, sumLast, cand =>
    if s.toaR tobR < minRxBcnT then cand
    else if s.ref.durLimit.enable ∧ tobR > s16 s.ref.durLimit.maxTob then
      if s.tobStops then cand else loop n (tobR + 1) sumLast cand
    else if s.ref.durLimit.enable ∧ s.toaR tobR > s16 s.ref.durLimit.maxToa then
      loop n (tobR + 1) sumLast cand
    else if s.tobA tobR < earlyRxBcnT then loop n (tobR + 1) sumLast cand
    else if s.toaA tobR < minRxBcnT then cand
    else if s.ano.durLimit.enable ∧ (s.tobA tobR > s16 s.ano.durLimit.maxTob ∨
        s.toaA tobR > s16 s.ano.durLimit.maxToa) then
      loop n (tobR + 1) sumLast cand
    -- the candidate is taken before it is compared
    else if sumLast ≠ 0 ∧ s.sum tobR > sumLast then tobR
    else loop n (tobR + 1) (s.sum tobR) tobR

def mccIntvl : ℕ := (s.ref.dur + s.ano.dur) % 65536

/-- `tob_r_cand` behind the loop. -/
def cand : ℤ := s.loop (s.mccIntvl - 5) earlyRxBcnT 0 0

/-- The times that are stored for a candidate: all searches leave out the gap here. -/
def store (m : Pattern) (tobR : ℤ) : Pattern :=
  let tobA := s16 (s.offset - s.toaR tobR)
  { m with
    tobR := tobR
    toaR := s.toaR tobR
    tobA := tobA
    toaA := s16 (s16 s.ano.dur - tobA) }

end Search

/-- `_mcc_calculate_2_wrole_pattern` up to `calc_nego_pattern`, where it is `none`. -/
def search2Wrole (ref ano : DurInfo) (offset : ℕ) (m : Pattern) : Option Pattern :=
  let s : Search := ⟨false, ref, ano, s16 offset, 0⟩
  if s.cand = 0 then none
  else some (((s.store m s.cand).fillSlotInfo false ref.dur m.roleRef).fillSlotInfo false ano.dur
    m.roleAno)

/-- `_mcc_calculate_2wslot_1btslot_pattern1`. -/
def calculate2Wslot1BtslotPattern1 (ref ano : DurInfo) (offset : ℕ) (btDur : ℤ) (m : Pattern) : Option Pattern :=
  let s : Search := ⟨true, ref, ano, s16 offset, 0⟩
  if s.cand = 0 then none
  else some ((((s.store m s.cand).fillSlotInfo false ref.dur m.roleRef).fillSlotInfo false ano.dur
    m.roleAno).fillSlotInfo true (u16 btDur) none)

/-- `_mcc_calculate_2wslot_1btslot_pattern2`. -/
def calculate2Wslot1BtslotPattern2 (ref ano : DurInfo) (offset : ℕ) (btDur : ℤ) (m : Pattern) : Option Pattern :=
  let s : Search := ⟨true, ref, ano, s16 offset, btDur⟩
  if s.cand = 0 then none
  else some ((((s.store m s.cand).fillSlotInfo false ref.dur m.roleRef).fillSlotInfo true (u16 btDur)
    none).fillSlotInfo false ano.dur m.roleAno)

end Rtl8852cu.Mcc
