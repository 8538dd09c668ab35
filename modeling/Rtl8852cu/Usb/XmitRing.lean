import Rtl8852cu.Trx.Ring
import Rtl8852cu.Usb.Placement

/-!
# The transmit requests of a ring on their way to the bus

`_phl_handle_xmit_ring_usb` with the ring it works on: the requests it takes (`phl_idx` moves behind
them), the ones `_phl_prepare_tx_usb` hands back to the core, the buffer they are copied into, and
what becomes of that buffer.  `xmitLoop` has the ring in its indices; its lengths and counters are
those of `aggLoop`, which reads the same requests off a list (`xmitLoop_spec`).

A request carries the number of its ring and its place among the requests added to that ring, so
that two of them are never confused.
-/

namespace Rtl8852cu.Usb

open Lib Trx

inductive TreqType where
  | normal
  | testPattern
  | coreTxsc
  | phlAddTxsc
  | phlUpdateTxsc
  deriving DecidableEq, Repr

structure Treq where
  ring : ℕ
  seq : ℕ
  treqType : TreqType
  req : XmitReq
  deriving DecidableEq

def Treq.key (t : Treq) : ℕ × ℕ := (t.ring, t.seq)

/-- The recycle callbacks of `struct rtw_phl_evt_ops` that are set. -/
structure EvtOps where
  txRecycle : Bool
  txTestRecycle : Bool
  deriving DecidableEq

/-- `_phl_prepare_tx_usb` calls a recycle callback, whatever `rtw_hal_fill_wd` has given. -/
def EvtOps.recycles (ops : EvtOps) (t : Treq) : Bool :=
  match t.treqType with
  | .testPattern => ops.txTestRecycle
  | .normal => ops.txRecycle
  | _ => false

/-- `_phl_handle_xmit_ring_usb` in its loop: the counters, the ring, the requests copied into the
buffer, those behind which `phl_idx` was moved and those recycled. -/
structure HdlSt where
  agg : AggSt
  ring : TxRing Treq
  buf : List Treq
  taken : List Treq
  recycled : List Treq

section Loop

variable (cfg : UsbCfg) (ops : EvtOps) (lastIdx : Option ℕ) (isDummy : Bool)

/-- A request is handed to `_phl_prepare_tx_usb`. -/
def passes (s : AggSt) (r : XmitReq) : Bool :=
  hasSpace cfg lastIdx isDummy s r ∧ ¬ atBulkEnd cfg lastIdx isDummy s r

/-- The request with what the loop has written into it. -/
def marked (s : AggSt) (t : Treq) : Treq := { t with req := prepared lastIdx isDummy s t.req }

/-- What the loop writes into the request at `phl_next_idx`. -/
def HdlSt.mark (s : HdlSt) (t : Treq) : HdlSt :=
  { s with ring := { s.ring with
      entry := Function.update s.ring.entry s.ring.phlNextIdx
        (some (marked lastIdx isDummy s.agg t)) } }

/-- `_phl_prepare_tx_usb` was called on the request at `phl_next_idx`, and `phl_idx` follows. -/
def HdlSt.take (s : HdlSt) (t : Treq) : HdlSt :=
  { s with
    ring := { s.ring with phlIdx := s.ring.phlNextIdx }
    taken := s.taken ++ [t]
    recycled := if ops.recycles t then s.recycled ++ [t] else s.recycled }

/-- A copy of the request is in the buffer. -/
def HdlSt.copy (s : HdlSt) (t : Treq) : HdlSt :=
  { s with
    agg := copied cfg lastIdx isDummy s.agg t.req
    buf := s.buf ++ [marked lastIdx isDummy s.agg t] }

/-- `phl_next_idx` moves on. -/
def HdlSt.advance (s : HdlSt) : HdlSt :=
  let nextIdx := s.ring.phlNextIdx + 1
  { s with ring := { s.ring with
      phlNextIdx := if nextIdx ≥ maxPhlTxRingEntryNum then 0 else s.ring.phlNextIdx + 1 } }

/-- The loop of `_phl_handle_xmit_ring_usb` on its ring; the number is `req_busy`. -/
def xmitLoop : ℕ → HdlSt → HdlSt
  | 0, s => s
  | busy + 1, s =>
    match s.ring.entry s.ring.phlNextIdx with
    | none => s
    | some t =>
      let s₁ := s.mark lastIdx isDummy t
      if passes cfg lastIdx isDummy s.agg t.req then
        let s₂ := s₁.take ops (marked lastIdx isDummy s.agg t)
        if t.req.fillWd then
          let s₃ := s₂.copy cfg lastIdx isDummy t
          if goesOn cfg s₃.agg t.req then
            xmitLoop busy (if busy ≠ 0 then s₃.advance else s₃)
          else s₃
        else { s₂ with agg := { s₂.agg with pstatus := .failure } }
      else s₁

/-- The requests handed to `_phl_prepare_tx_usb`. -/
def reached (s : AggSt) : List (Option XmitReq) → List XmitReq
  | some r :: rest =>
    if passes cfg lastIdx isDummy s r then
      r :: if r.fillWd ∧ goesOn cfg (copied cfg lastIdx isDummy s r) r then
        reached (copied cfg lastIdx isDummy s r) rest else []
    else []
  | _ => []

end Loop

/-- The entries `_usb_tx_agg_preprocess` looks at. -/
def busyEntries (ring : TxRing Treq) (busy : ℕ) : List (Option XmitReq) :=
  (List.range busy).map fun cnt =>
    (ring.entry ((ring.phlNextIdx + cnt) % maxPhlTxRingEntryNum)).map (·.req)

/-- The requests one call of `_phl_handle_xmit_ring_usb` hands to `_phl_prepare_tx_usb`. -/
def reachedOf (cfg : UsbCfg) (ring : TxRing Treq) (busy : ℕ) : List XmitReq :=
  let pre := prediction cfg (busyEntries ring busy)
  reached cfg pre.1 pre.2 .init (busyEntries ring busy)

/-- `_phl_handle_xmit_ring_usb` up to the end of its loop. -/
def handleXmitRing (cfg : UsbCfg) (ops : EvtOps) (ring : TxRing Treq) (busy : ℕ) : HdlSt :=
  let pre := prediction cfg (busyEntries ring busy)
  xmitLoop cfg ops pre.1 pre.2 busy ⟨.init, ring, [], [], []⟩

section Spec

variable {cfg : UsbCfg} {ops : EvtOps} {lastIdx : Option ℕ} {isDummy : Bool}

/-! ### The counters and the status -/

theorem copies_eq (s : AggSt) (r : XmitReq) :
    copies cfg lastIdx isDummy s r = (passes cfg lastIdx isDummy s r && r.fillWd) := by
  simp [copies, passes, Bool.and_assoc]

theorem aggLoop_cons (s : AggSt) (r : XmitReq) (rest : List (Option XmitReq)) :
    aggLoop cfg lastIdx isDummy s (some r :: rest) = if passes cfg lastIdx isDummy s r then
        if r.fillWd then
          if goesOn cfg (copied cfg lastIdx isDummy s r) r then
            aggLoop cfg lastIdx isDummy (copied cfg lastIdx isDummy s r) rest
          else copied cfg lastIdx isDummy s r
        else { s with pstatus := .failure }
      else s := by
  rw [aggLoop, copies_eq]
  have hp : (hasSpace cfg lastIdx isDummy s r = true ∧
      ¬ atBulkEnd cfg lastIdx isDummy s r = true) ↔ passes cfg lastIdx isDummy s r = true := by
    simp [passes]
  rw [if_congr hp rfl rfl]; cases passes cfg lastIdx isDummy s r <;> cases r.fillWd <;> rfl

theorem aggLoop_of_reached_nil {s : AggSt} {L : List (Option XmitReq)}
    (h : reached cfg lastIdx isDummy s L = []) : aggLoop cfg lastIdx isDummy s L = s := by
  match L with
  | [] => rfl
  | none :: _ => rfl
  | some r :: rest =>
    rw [aggLoop_cons]
    rw [reached] at h
    split at h
    · cases h
    · rw [if_neg ‹_›]

theorem aggLoop_pstatus {s : AggSt} {L : List (Option XmitReq)} (h : reached cfg lastIdx isDummy s L ≠ []) :
    (aggLoop cfg lastIdx isDummy s L).pstatus = .success ↔
      ∀ r ∈ reached cfg lastIdx isDummy s L, r.fillWd = true := by
  induction L generalizing s with
  | nil => exact absurd rfl h
  | cons e rest ih =>
    cases e with
    | none => exact absurd rfl h
    | some r =>
      rw [reached] at h ⊢
      rw [aggLoop_cons]
      by_cases hp : passes cfg lastIdx isDummy s r = true
      · rw [if_pos hp, if_pos hp]
        by_cases hf : r.fillWd = true
        · rw [if_pos hf]
          by_cases hg : goesOn cfg (copied cfg lastIdx isDummy s r) r = true
          · rw [if_pos hg, if_pos ⟨hf, hg⟩, List.forall_mem_cons]
            by_cases hr : reached cfg lastIdx isDummy (copied cfg lastIdx isDummy s r) rest = []
            · rw [aggLoop_of_reached_nil hr, hr]; simp [hf, copied]
            · rw [ih hr]; simp [hf]
          · rw [if_neg hg, if_neg fun hh => hg hh.2]; simp [hf, copied]
        · rw [if_neg hf, if_neg fun hh => hf hh.1]; simp [hf]
      · rw [if_neg hp] at h; exact absurd rfl h

/-! ### The ring -/

theorem HdlSt.advance_phlNextIdx (s : HdlSt) :
    s.advance.ring.phlNextIdx = IndexRing.next maxPhlTxRingEntryNum s.ring.phlNextIdx := by
  simp only [HdlSt.advance, IndexRing.next]
  by_cases h : s.ring.phlNextIdx + 1 ≥ maxPhlTxRingEntryNum
  · rw [if_pos h, if_neg (by omega)]
  · rw [if_neg h, if_pos (by omega)]

theorem xmitLoop_spec (cfg : UsbCfg) (ops : EvtOps) (lastIdx : Option ℕ) (isDummy : Bool) {busy : ℕ} {s : HdlSt} {q : List Treq} (hq : s.ring.Waits q)
    (hb : busy ≤ q.length)
    (hn : busy ≠ 0 → s.ring.phlNextIdx = IndexRing.next maxPhlTxRingEntryNum s.ring.phlIdx) :
    (xmitLoop cfg ops lastIdx isDummy busy s).agg =
        aggLoop cfg lastIdx isDummy s.agg ((q.take busy).map fun t => some t.req) ∧
      ∃ T q' B, (xmitLoop cfg ops lastIdx isDummy busy s).taken = s.taken ++ T ∧
        (xmitLoop cfg ops lastIdx isDummy busy s).ring.Waits q' ∧
        T.map Treq.key ++ q'.map Treq.key = q.map Treq.key ∧
        T.length = (reached cfg lastIdx isDummy s.agg ((q.take busy).map fun t => some t.req)).length ∧
        (xmitLoop cfg ops lastIdx isDummy busy s).buf = s.buf ++ B ∧ B <+: T ∧
        ((∀ r ∈ reached cfg lastIdx isDummy s.agg ((q.take busy).map fun t => some t.req),
          r.fillWd = true) → B = T) := by
  induction busy generalizing s q with
  | zero =>
    refine ⟨rfl, [], q, [], (List.append_nil _).symm, hq, rfl, rfl, (List.append_nil _).symm,
      List.prefix_rfl, fun _ => rfl⟩
  | succ busy ih =>
    obtain ⟨t, q, rfl⟩ := List.exists_cons_of_length_pos (Nat.lt_of_lt_of_le (Nat.succ_pos _) hb)
    have hnext := hn (Nat.succ_ne_zero _)
    have hhead : s.ring.entry s.ring.phlNextIdx = some t := hnext ▸ hq.head
    have hkey : (marked lastIdx isDummy s.agg t).key = t.key := rfl
    -- the ring with the request written back, and the ring behind it
    have hmark : IndexRing.Holds maxPhlTxRingEntryNum (Function.update s.ring.entry
        s.ring.phlNextIdx (some (marked lastIdx isDummy s.agg t))) s.ring.phlIdx s.ring.coreIdx
        (marked lastIdx isDummy s.agg t :: q) := hnext ▸ hq.setHead
    have hpop := hmark.pop
    rw [← hnext] at hpop
    rw [xmitLoop, hhead]
    have hagg₃ : (((s.mark lastIdx isDummy t).take ops (marked lastIdx isDummy s.agg t)).copy
        cfg lastIdx isDummy t).agg = copied cfg lastIdx isDummy s.agg t.req := rfl
    simp only [List.take_succ_cons, List.map_cons, aggLoop_cons, reached, hagg₃]
    by_cases hp : passes cfg lastIdx isDummy s.agg t.req = true
    · simp only [if_pos hp]
      by_cases hf : t.req.fillWd = true
      · simp only [if_pos hf]
        by_cases hg : goesOn cfg (copied cfg lastIdx isDummy s.agg t.req) t.req = true
        · simp only [if_pos hg, if_pos (And.intro hf hg)]
          rw [List.length_cons] at hb
          by_cases hbusy : busy = 0
          · subst hbusy
            exact ⟨rfl, [marked lastIdx isDummy s.agg t], q, [marked lastIdx isDummy s.agg t], rfl,
              hpop, rfl, rfl, rfl, List.prefix_rfl, fun _ => rfl⟩
          · simp only [if_pos hbusy]
            obtain ⟨hagg, T, q', B, hT, hq', hkeys, hlen, hB, hpre, hall⟩ := ih
              (s := ((((s.mark lastIdx isDummy t).take ops (marked lastIdx isDummy s.agg t)).copy
                cfg lastIdx isDummy t).advance)) hpop (by omega) fun _ =>
                  HdlSt.advance_phlNextIdx _
            refine ⟨hagg, marked lastIdx isDummy s.agg t :: T, q',
              marked lastIdx isDummy s.agg t :: B, ?_, hq', ?_, ?_, ?_, ?_, ?_⟩
            · exact hT.trans (List.append_assoc _ _ _)
            · rw [List.map_cons, List.cons_append, hkeys, hkey]
            · rw [List.length_cons, hlen, List.length_cons]; rfl
            · exact hB.trans (List.append_assoc _ _ _)
            · exact List.cons_prefix_cons.mpr ⟨rfl, hpre⟩
            · intro h
              rw [List.forall_mem_cons] at h
              rw [hall h.2]
        · simp only [if_neg hg, if_neg fun hh : t.req.fillWd = true ∧ _ => hg hh.2]
          exact ⟨rfl, [marked lastIdx isDummy s.agg t], q, [marked lastIdx isDummy s.agg t], rfl,
            hpop, rfl, rfl, rfl, List.prefix_rfl, fun _ => rfl⟩
      · simp only [if_neg hf, if_neg fun hh : t.req.fillWd = true ∧ _ => hf hh.1]
        refine ⟨rfl, [marked lastIdx isDummy s.agg t], q, [], rfl, hpop, rfl, rfl,
          (List.append_nil _).symm, List.nil_prefix, fun h => ?_⟩
        exact absurd (h t.req List.mem_cons_self) hf
    · simp only [if_neg hp]
      exact ⟨rfl, [], marked lastIdx isDummy s.agg t :: q, [], (List.append_nil _).symm, hmark, rfl,
        rfl, (List.append_nil _).symm, List.prefix_rfl, fun _ => rfl⟩

theorem busyEntries_eq {ring : TxRing Treq} {q : List Treq} {busy : ℕ} (hq : ring.Waits q) (hb : busy ≤ q.length)
    (hn : busy ≠ 0 → ring.phlNextIdx = IndexRing.next maxPhlTxRingEntryNum ring.phlIdx) :
    busyEntries ring busy = (q.take busy).map fun t => some t.req := by
  have hlt := hq.length_lt
  refine List.ext_getElem (by simp [busyEntries, hb]) fun i h₁ h₂ => ?_
  have hi : i < busy := by simpa [busyEntries] using h₁
  have hslot : (ring.phlNextIdx + i) % maxPhlTxRingEntryNum = IndexRing.slot maxPhlTxRingEntryNum ring.phlIdx i := by
    rw [hn (by omega), IndexRing.next_eq_mod hq.rd, Nat.mod_add_mod, IndexRing.slot_eq_mod hq.rd (by omega)]
  simp only [busyEntries, List.getElem_map, List.getElem_range, List.getElem_take]
  rw [hslot, hq.cells i (by omega)]; rfl

end Spec

end Rtl8852cu.Usb
