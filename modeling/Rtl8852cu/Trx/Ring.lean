import Mathlib.Algebra.Ring.Nat
import Rtl8852cu.Lib.IndexRing

/-!
# The rings between the core and the PHL

`phl_calc_avail_rptr` and `phl_calc_avail_wptr` of `phl/phl_tx.c`, the receive ring with its two
ends (`_phl_add_rx_pkt`, `rtw_phl_query_rx_pkt` of `phl/phl_rx.c`) and the transmit ring with the
end of the core (`rtw_phl_add_tx_req`).  The indices name the entry used last.
-/

namespace Rtl8852cu.Trx

open Lib

abbrev maxPhlRxRingEntryNum : ℕ := 4096

abbrev maxPhlTxRingEntryNum : ℕ := 4096

/-- The range of a `u16`. -/
abbrev u16 : ℕ := 2 ^ 16

def phlCalcAvailRptr (rptr wptr bndy : ℕ) : ℕ :=
  if wptr ≥ rptr then wptr - rptr else (wptr + (bndy - rptr)) % u16

def phlCalcAvailWptr (rptr wptr bndy : ℕ) : ℕ :=
  if rptr > wptr then rptr - wptr - 1 else (rptr + (bndy - wptr) - 1) % u16

theorem phlCalcAvailRptr_eq {rptr wptr bndy : ℕ} (hr : rptr < bndy) (hb : bndy ≤ u16) :
    phlCalcAvailRptr rptr wptr bndy = IndexRing.used bndy rptr wptr := by
  unfold phlCalcAvailRptr IndexRing.used
  split_ifs with h
  · rfl
  · rw [Nat.mod_eq_of_lt (by omega)]

theorem phlCalcAvailWptr_eq {rptr wptr bndy : ℕ} (hr : rptr < bndy) (hw : wptr < bndy) (hb : bndy ≤ u16) :
    phlCalcAvailWptr rptr wptr bndy = bndy - 1 - IndexRing.used bndy rptr wptr := by
  unfold phlCalcAvailWptr IndexRing.used
  split_ifs with h h' h'
  · omega
  · omega
  · rw [Nat.mod_eq_of_lt (by omega)]; omega
  · omega

/-- The statuses the two ends of a ring give. -/
inductive RingStatus where
  | success
  | resource
  deriving DecidableEq, Repr

/-! ### The receive ring -/

/-- `struct rtw_phl_rx_ring`; a packet is what its pointer says it is. -/
structure RxRing (Pkt : Type*) where
  coreIdx : ℕ
  phlIdx : ℕ
  entry : ℕ → Option Pkt

namespace RxRing

variable {Pkt : Type*}

/-- The ring as `phl_info` is allocated. -/
def init : RxRing Pkt := ⟨0, 0, fun _ => none⟩

def phlAddRxPkt (ring : RxRing Pkt) (recvpkt : Pkt) : RxRing Pkt × RingStatus :=
  let ringRes := phlCalcAvailWptr ring.coreIdx ring.phlIdx maxPhlRxRingEntryNum
  if ringRes ≤ 0 then (ring, .resource)
  else
    let wptr := if ring.phlIdx + 1 ≥ maxPhlRxRingEntryNum then 0 else ring.phlIdx + 1
    ({ ring with
        entry := Function.update ring.entry wptr (some recvpkt)
        phlIdx := if wptr ≠ 0 then ring.phlIdx + 1 else 0 }, .success)

def queryNewRxNum (ring : RxRing Pkt) : ℕ :=
  phlCalcAvailRptr ring.coreIdx ring.phlIdx maxPhlRxRingEntryNum

def queryRxPkt (ring : RxRing Pkt) : RxRing Pkt × Option Pkt :=
  let ringRes := phlCalcAvailRptr ring.coreIdx ring.phlIdx maxPhlRxRingEntryNum
  if ringRes > 0 then
    if ring.coreIdx + 1 ≥ maxPhlRxRingEntryNum then
      ({ ring with entry := Function.update ring.entry 0 none, coreIdx := 0 }, ring.entry 0)
    else
      ({ ring with
          entry := Function.update ring.entry (ring.coreIdx + 1) none
          coreIdx := ring.coreIdx + 1 }, ring.entry (ring.coreIdx + 1))
  else (ring, none)

end RxRing

/-! ### The transmit ring -/

/-- `struct rtw_phl_tx_ring` without what its owner sets once. -/
structure TxRing (Req : Type*) where
  coreIdx : ℕ
  phlIdx : ℕ
  phlNextIdx : ℕ
  entry : ℕ → Option Req

namespace TxRing

variable {Req : Type*}

/-- The ring as `_phl_allocate_phl_tring_list` leaves it. -/
def init : TxRing Req := ⟨0, 0, 0, fun _ => none⟩

/-- `rtw_phl_add_tx_req` behind the selection of the ring. -/
def phlAddTxReq (ring : TxRing Req) (txReq : Req) : TxRing Req × RingStatus :=
  let ringRes := phlCalcAvailWptr ring.phlIdx ring.coreIdx maxPhlTxRingEntryNum
  if ringRes > 0 then
    let coreIdx := (ring.coreIdx + 1) % maxPhlTxRingEntryNum
    ({ ring with coreIdx := coreIdx, entry := Function.update ring.entry coreIdx (some txReq) }, .success)
  else (ring, .resource)

/-- What `_phl_check_ring_status` does to the ring: the requests that wait, and the index of the
first one. -/
def phlCheckRing (ring : TxRing Req) : TxRing Req × ℕ :=
  let avail := phlCalcAvailRptr ring.phlIdx ring.coreIdx maxPhlTxRingEntryNum
  if avail = 0 then (ring, 0)
  else
    let rptr := ring.phlIdx + 1
    ({ ring with phlNextIdx := if rptr ≥ maxPhlTxRingEntryNum then 0 else rptr }, avail)

/-- The requests `q` wait on the ring, oldest first. -/
def Waits (ring : TxRing Req) (q : List Req) : Prop :=
  IndexRing.Holds maxPhlTxRingEntryNum ring.entry ring.phlIdx ring.coreIdx q

theorem waits_init : (init : TxRing Req).Waits [] := IndexRing.Holds.empty (show 0 < maxPhlTxRingEntryNum by decide)

variable {ring : TxRing Req} {q : List Req}

theorem Waits.avail (h : ring.Waits q) :
    phlCalcAvailRptr ring.phlIdx ring.coreIdx maxPhlTxRingEntryNum = q.length := by
  rw [phlCalcAvailRptr_eq h.rd (by decide), h.len]

theorem Waits.room (h : ring.Waits q) : phlCalcAvailWptr ring.phlIdx ring.coreIdx maxPhlTxRingEntryNum =
      maxPhlTxRingEntryNum - 1 - q.length := by
  rw [phlCalcAvailWptr_eq h.rd h.wr (by decide), h.len]

theorem Waits.add (h : ring.Waits q) (hroom : q.length < maxPhlTxRingEntryNum - 1) (t : Req) :
    (ring.phlAddTxReq t).2 = .success ∧ (ring.phlAddTxReq t).1.Waits (q ++ [t]) := by
  have hres : phlCalcAvailWptr ring.phlIdx ring.coreIdx maxPhlTxRingEntryNum > 0 := by
    rw [h.room]; omega
  have hnext := IndexRing.next_eq_mod h.wr
  simp only [phlAddTxReq, if_pos hres, true_and]
  rw [← hnext]; exact h.push (by omega) t

theorem Waits.full (h : ring.Waits q) (hroom : ¬ q.length < maxPhlTxRingEntryNum - 1) (t : Req) :
    ring.phlAddTxReq t = (ring, .resource) := by
  have hres : ¬ phlCalcAvailWptr ring.phlIdx ring.coreIdx maxPhlTxRingEntryNum > 0 := by
    rw [h.room]; omega
  simp only [phlAddTxReq, if_neg hres]

theorem Waits.check (h : ring.Waits q) : ring.phlCheckRing.2 = q.length ∧ ring.phlCheckRing.1.Waits q ∧
      (q ≠ [] → ring.phlCheckRing.1.phlNextIdx = IndexRing.next maxPhlTxRingEntryNum ring.phlIdx) := by
  unfold phlCheckRing
  rw [h.avail]
  by_cases hq : q.length = 0
  · rw [if_pos hq]; exact ⟨hq.symm, h, fun hne => absurd (List.length_eq_zero_iff.mp hq) hne⟩
  · rw [if_neg hq]
    refine ⟨rfl, h, fun _ => ?_⟩
    simp only [IndexRing.next]
    split_ifs <;> omega

end TxRing

end Rtl8852cu.Trx
