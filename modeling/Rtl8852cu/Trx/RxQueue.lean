import Rtl8852cu.Lib.Fifo
import Rtl8852cu.Trx.Ring

/-!
# The receive ring is a bounded queue

`_phl_add_rx_pkt` and `rtw_phl_query_rx_pkt` advance their index before they use the entry and wrap
it each in its own way, and one entry stays free.
-/

namespace Rtl8852cu.Trx.RxRing

open Lib Lib.Fifo

variable {Pkt : Type*} {ring : RxRing Pkt} {q : List Pkt}

def step (ring : RxRing Pkt) : Op Pkt → RxRing Pkt × Out Pkt
  | .put p => ((ring.phlAddRxPkt p).1, .put ((ring.phlAddRxPkt p).2 = .success))
  | .take => (ring.queryRxPkt.1, .took ring.queryRxPkt.2)
  | .count => (ring, .count ring.queryNewRxNum)

abbrev capacity : ℕ := maxPhlRxRingEntryNum - 1

/-- The packets `q` are stored, oldest first. -/
def Stores (ring : RxRing Pkt) (q : List Pkt) : Prop :=
  IndexRing.Holds maxPhlRxRingEntryNum ring.entry ring.coreIdx ring.phlIdx q

theorem stores_init : (init : RxRing Pkt).Stores [] := IndexRing.Holds.empty (show 0 < maxPhlRxRingEntryNum by decide)

theorem Stores.num (h : ring.Stores q) : ring.queryNewRxNum = q.length := by
  rw [queryNewRxNum, phlCalcAvailRptr_eq h.rd (by decide), h.len]

theorem Stores.add (h : ring.Stores q) (hroom : q.length < capacity) (p : Pkt) :
    (ring.phlAddRxPkt p).2 = .success ∧ (ring.phlAddRxPkt p).1.Stores (q ++ [p]) ∧
      ∀ i < q.length, (ring.phlAddRxPkt p).1.entry
        (IndexRing.slot maxPhlRxRingEntryNum ring.coreIdx i) =
          ring.entry (IndexRing.slot maxPhlRxRingEntryNum ring.coreIdx i) := by
  have hcap : capacity = maxPhlRxRingEntryNum - 1 := rfl
  have hres : ¬ phlCalcAvailWptr ring.coreIdx ring.phlIdx maxPhlRxRingEntryNum ≤ 0 := by
    rw [phlCalcAvailWptr_eq h.rd h.wr (by decide), ← h.len]; omega
  have hwptr : (if ring.phlIdx + 1 ≥ maxPhlRxRingEntryNum then 0 else ring.phlIdx + 1) =
      IndexRing.next maxPhlRxRingEntryNum ring.phlIdx := by
    unfold IndexRing.next
    split_ifs <;> omega
  have hphl : (if IndexRing.next maxPhlRxRingEntryNum ring.phlIdx ≠ 0 then ring.phlIdx + 1 else 0) =
      IndexRing.next maxPhlRxRingEntryNum ring.phlIdx := by
    unfold IndexRing.next
    split_ifs <;> omega
  simp only [phlAddRxPkt, if_neg hres, hwptr, hphl, true_and]
  have hpush := h.push (by omega) p
  refine ⟨hpush, fun i hi => ?_⟩
  rw [h.cells i hi, hpush.cells i (by rw [List.length_append]; omega), List.getElem_append_left hi]

theorem Stores.add_full (h : ring.Stores q) (hroom : ¬ q.length < capacity) (p : Pkt) :
    ring.phlAddRxPkt p = (ring, .resource) := by
  have hcap : capacity = maxPhlRxRingEntryNum - 1 := rfl
  have hres : phlCalcAvailWptr ring.coreIdx ring.phlIdx maxPhlRxRingEntryNum ≤ 0 := by
    rw [phlCalcAvailWptr_eq h.rd h.wr (by decide), ← h.len]; omega
  simp only [phlAddRxPkt, if_pos hres]

theorem queryRxPkt_eq (h : 0 < ring.queryNewRxNum) : ring.queryRxPkt = ({ ring with
          entry := Function.update ring.entry
            (IndexRing.next maxPhlRxRingEntryNum ring.coreIdx) none
          coreIdx := IndexRing.next maxPhlRxRingEntryNum ring.coreIdx },
        ring.entry (IndexRing.next maxPhlRxRingEntryNum ring.coreIdx)) := by
  have hres : phlCalcAvailRptr ring.coreIdx ring.phlIdx maxPhlRxRingEntryNum > 0 := h
  unfold queryRxPkt IndexRing.next
  simp only [if_pos hres]
  by_cases hw : ring.coreIdx + 1 ≥ maxPhlRxRingEntryNum
  · rw [if_pos hw, if_neg (by omega)]
  · rw [if_neg hw, if_pos (by omega)]

theorem Stores.query {p : Pkt} (h : ring.Stores (p :: q)) :
    ring.queryRxPkt.2 = some p ∧ ring.queryRxPkt.1.Stores q := by
  rw [queryRxPkt_eq (by rw [h.num]; exact Nat.succ_pos _)]
  exact ⟨h.head, h.pop.write h.pop.slot_ne_rd none⟩

theorem Stores.query_empty (h : ring.Stores []) : ring.queryRxPkt = (ring, none) := by
  have hres : ¬ phlCalcAvailRptr ring.coreIdx ring.phlIdx maxPhlRxRingEntryNum > 0 := by
    rw [show phlCalcAvailRptr _ _ _ = 0 from h.num]; omega
  simp only [queryRxPkt, if_neg hres]

theorem Stores.step (h : ring.Stores q) (op : Op Pkt) : (ring.step op).1.Stores (Fifo.step capacity q op).1 := by
  cases op with
  | put p =>
    by_cases hroom : q.length < capacity
    · rw [step_put_room hroom]; exact (h.add hroom p).2.1
    · rw [step_put_full hroom]
      show (ring.phlAddRxPkt p).1.Stores q
      rwa [h.add_full hroom]
  | take =>
    cases q with
    | nil =>
      show ring.queryRxPkt.1.Stores []
      rwa [h.query_empty]
    | cons p q => exact h.query.2
  | count => exact h

theorem Stores.step_out (h : ring.Stores q) (op : Op Pkt) : (ring.step op).2 = (Fifo.step capacity q op).2 := by
  cases op with
  | put p =>
    by_cases hroom : q.length < capacity
    · rw [step_put_room hroom]; simp [RxRing.step, (h.add hroom p).1]
    · rw [step_put_full hroom]; simp [RxRing.step, h.add_full hroom]
  | take =>
    cases q with
    | nil => simp [RxRing.step, Fifo.step, h.query_empty]
    | cons p q => simp [RxRing.step, Fifo.step, h.query.1]
  | count => simp [RxRing.step, Fifo.step, h.num]

theorem stores_run (ops : List (Op Pkt)) : (run step init ops).Stores (run (Fifo.step capacity) [] ops) :=
  run_simulates (fun _ _ op h => h.step op) stores_init ops

theorem trace_run {s : RxRing Pkt} (h : s.Stores q) (ops : List (Op Pkt)) :
    trace step s ops = trace (Fifo.step capacity) q ops :=
  trace_eq_of_simulates (fun _ _ op h => h.step op) (fun _ _ op h => h.step_out op) h ops

/-- **The receive ring is a bounded queue.**  Every sequence of calls gets the answers of the queue;
what was accepted is what was returned, in that order, and what is stored; what is stored comes out
next; the number reported is the number stored; and a producer at a full ring fails and changes
nothing, while one at a ring with room overwrites no unread entry. -/
theorem rxRing_fifo (ops : List (Op Pkt)) : trace step (init : RxRing Pkt) ops = trace (Fifo.step capacity) [] ops ∧
      ∃ q : List Pkt, q.length ≤ capacity ∧ (run step init ops).Stores q ∧
        accepted (trace step init ops) = taken (trace step init ops) ++ q ∧
        taken (trace step (run step init ops) (List.replicate q.length .take)) = q ∧
        (run step init ops).queryNewRxNum = q.length ∧
        (∀ p, q.length = capacity → (run step init ops).phlAddRxPkt p = (run step init ops, .resource)) ∧
        (∀ p, q.length < capacity → ((run step init ops).phlAddRxPkt p).2 = .success ∧
          ∀ i < q.length, ((run step init ops).phlAddRxPkt p).1.entry
              (IndexRing.slot maxPhlRxRingEntryNum (run step init ops).coreIdx i) =
            (run step init ops).entry
              (IndexRing.slot maxPhlRxRingEntryNum (run step init ops).coreIdx i)) := by
  have htrace := trace_run (stores_init : (init : RxRing Pkt).Stores []) ops
  have hrun := stores_run ops
  refine ⟨htrace, run (Fifo.step capacity) [] ops, run_length_le (Nat.zero_le _) ops, hrun, ?_, ?_,
    hrun.num, fun p hp => hrun.add_full (by omega) p, fun p hp => ?_⟩
  · rw [htrace, ← accepted_eq, List.nil_append]
  · rw [trace_run hrun]; exact taken_drain _ _
  · exact ⟨(hrun.add hp p).1, (hrun.add hp p).2.2⟩

end Rtl8852cu.Trx.RxRing
