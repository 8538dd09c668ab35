import Rtl8852cu.Usb.XmitRing

/-!
# What becomes of the transmit requests

Runs of the transmit path: the core adds requests to the rings, `_phl_check_ring_status` looks at a
ring, and its status is handled with a buffer or released without one.  `rtw_hal_fill_wd` may fail
on any request and `os_usb_tx` at any buffer.  A recycle callback is given no status, so nothing
here reports a request as failed.
-/

namespace Rtl8852cu.Usb

open Lib Trx
open Function (update update_self update_of_ne)

/-- The transmit path: the rings, the statuses that wait to be handled, how many requests each ring
was given, and what was done with those taken. -/
structure Path where
  ring : ℕ → TxRing Treq
  sts : ℕ → Option ℕ
  added : ℕ → ℕ
  taken : List Treq
  recycled : List Treq
  submitted : List (List Treq)
  thrown : List (List Treq)

inductive Ev where
  | addTxReq (i : ℕ) (type : TreqType) (r : XmitReq)
  | checkRing (i : ℕ)
  | releaseSts (i : ℕ)
  | handleRing (i : ℕ) (submits : Bool)
  deriving DecidableEq

namespace Path

def init : Path := ⟨fun _ => .init, fun _ => none, fun _ => 0, [], [], [], []⟩

def addTxReq (p : Path) (i : ℕ) (type : TreqType) (r : XmitReq) : Path :=
  let res := (p.ring i).phlAddTxReq ⟨i, p.added i, type, r⟩
  { p with
    ring := update p.ring i res.1
    added := if res.2 = .success then update p.added i (p.added i + 1) else p.added }

/-- `_phl_check_ring_status` on a ring without a status. -/
def checkRing (p : Path) (i : ℕ) : Path :=
  match p.sts i with
  | some _ => p
  | none =>
    let res := (p.ring i).phlCheckRing
    { p with
      ring := update p.ring i res.1
      sts := if res.2 = 0 then p.sts else update p.sts i (some res.2) }

/-- `_phl_handle_xmit_ring_usb`; `submits` says whether `os_usb_tx` takes the buffer. -/
def handleRing (cfg : UsbCfg) (ops : EvtOps) (p : Path) (i : ℕ) (submits : Bool) : Path :=
  match p.sts i with
  | none => p
  | some busy =>
    let s := handleXmitRing cfg ops (p.ring i) busy
    let p' := { p with
      ring := update p.ring i s.ring
      sts := update p.sts i none
      taken := p.taken ++ s.taken
      recycled := p.recycled ++ s.recycled }
    if s.agg.pstatus = .success ∧ submits then { p' with submitted := p.submitted ++ [s.buf] }
    -- the buffer goes back to its pool
    else { p' with thrown := p.thrown ++ [s.buf] }

def step (cfg : UsbCfg) (ops : EvtOps) (p : Path) : Ev → Path
  | .addTxReq i type r => p.addTxReq i type r
  | .checkRing i => p.checkRing i
  | .releaseSts i => { p with sts := update p.sts i none }
  | .handleRing i submits => p.handleRing cfg ops i submits

def run (cfg : UsbCfg) (ops : EvtOps) (p : Path) (evs : List Ev) : Path :=
  evs.foldl (step cfg ops) p

def OnRing (p : Path) (t : Treq) : Prop :=
  ∃ q, (p.ring t.ring).Waits q ∧ t.key ∈ q.map Treq.key

/-- Every request taken was submitted, or waits again; and none was recycled whose copy was thrown
away. -/
def Accounted (p : Path) : Prop :=
  (∀ t ∈ p.taken, (∃ b ∈ p.submitted, t ∈ b) ∨ p.OnRing t) ∧ ∀ b ∈ p.thrown, ∀ t ∈ b, t ∉ p.recycled

/-- What a step needs: `rtw_hal_fill_wd` succeeds on every request it is called on, and `os_usb_tx`
succeeds unless no request is put into the buffer. -/
def StepOk (cfg : UsbCfg) (p : Path) : Ev → Prop
  | .handleRing i submits => ∀ busy, p.sts i = some busy → (∀ r ∈ reachedOf cfg (p.ring i) busy, r.fillWd = true) ∧
        (submits = true ∨ reachedOf cfg (p.ring i) busy = [])
  | _ => True

def RunOk (cfg : UsbCfg) (ops : EvtOps) (p : Path) : List Ev → Prop
  | [] => True
  | ev :: evs => StepOk cfg p ev ∧ RunOk cfg ops (p.step cfg ops ev) evs

/-! ### The rings -/

/-- The ring `i` holds `q`: the requests from the `a`-th on; those taken come before. -/
structure RingOk (p : Path) (i a : ℕ) (q : List Treq) : Prop where
  waits : (p.ring i).Waits q
  keys : q.map Treq.key = (List.range' a q.length).map fun k => (i, k)
  added : a + q.length = p.added i
  sts : ∀ busy, p.sts i = some busy → busy ≤ q.length ∧ (busy ≠ 0 →
    (p.ring i).phlNextIdx = IndexRing.next maxPhlTxRingEntryNum (p.ring i).phlIdx)
  taken : ∀ t ∈ p.taken, t.ring = i → t.seq < a

/-- The rings are in order, and what was submitted was taken. -/
structure Inv (p : Path) : Prop where
  rings : ∀ i, ∃ a q, p.RingOk i a q
  submitted : ∀ b ∈ p.submitted, ∀ t ∈ b, t ∈ p.taken

theorem inv_init : init.Inv where
  rings _ := ⟨0, [], ⟨TxRing.waits_init, rfl, rfl, fun _ h => (nomatch h), fun _ h => nomatch h⟩⟩
  submitted _ h := nomatch h

variable {cfg : UsbCfg} {ops : EvtOps} {p : Path} {i a : ℕ} {q : List Treq}

variable {t : Treq}

theorem RingOk.not_mem (h : p.RingOk i a q) (ht : t ∈ p.taken) : t.key ∉ q.map Treq.key := by
  intro hmem
  rw [h.keys] at hmem
  obtain ⟨k, hk, hkey⟩ := List.mem_map.mp hmem
  have hring : t.ring = i := (congrArg Prod.fst hkey).symm
  have hseq : t.seq = k := (congrArg Prod.snd hkey).symm
  have hlt := h.taken t ht hring
  have hle := (List.mem_range'_1.mp hk).1
  omega

theorem RingOk.frame (h : p.RingOk i a q) {p' : Path} (hring : p'.ring i = p.ring i)
    (hsts : p'.sts i = p.sts i) (hadded : p'.added i = p.added i)
    (htaken : ∀ t ∈ p'.taken, t ∉ p.taken → t.ring ≠ i) : p'.RingOk i a q where
  waits := hring ▸ h.waits
  keys := h.keys
  added := hadded ▸ h.added
  sts := by rw [hring, hsts]; exact h.sts
  taken t ht hi := by
    by_cases hmem : t ∈ p.taken
    · exact h.taken t hmem hi
    · exact absurd hi (htaken t ht hmem)

theorem RingOk.addTxReq (h : p.RingOk i a q) (type : TreqType) (r : XmitReq) :
    ∃ a q, (p.addTxReq i type r).RingOk i a q := by
  by_cases hroom : q.length < maxPhlTxRingEntryNum - 1
  · obtain ⟨hok, hw⟩ := h.waits.add hroom ⟨i, p.added i, type, r⟩
    have hidx : ((p.ring i).phlAddTxReq ⟨i, p.added i, type, r⟩).1.phlNextIdx = (p.ring i).phlNextIdx ∧
        ((p.ring i).phlAddTxReq ⟨i, p.added i, type, r⟩).1.phlIdx = (p.ring i).phlIdx := by
      unfold TxRing.phlAddTxReq
      simp only
      split_ifs <;> exact ⟨rfl, rfl⟩
    refine ⟨a, q ++ [⟨i, p.added i, type, r⟩], ?_, ?_, ?_, ?_, h.taken⟩
    · simpa [Path.addTxReq] using hw
    · rw [List.map_append, h.keys, List.length_append, List.length_singleton, List.range'_1_concat,
        List.map_append, h.added]
      rfl
    · simp only [Path.addTxReq, hok, if_true, update_self, List.length_append, List.length_singleton]
      rw [← h.added]; omega
    · intro busy hbusy
      simp only [Path.addTxReq, update_self, hidx.1, hidx.2]
      obtain ⟨hle, hnext⟩ := h.sts busy hbusy
      exact ⟨by rw [List.length_append]; omega, hnext⟩
  · have hfull := h.waits.full hroom ⟨i, p.added i, type, r⟩
    refine ⟨a, q, h.frame ?_ rfl ?_ fun t ht hne => absurd ht hne⟩
    · simp [Path.addTxReq, hfull]
    · simp [Path.addTxReq, hfull]

theorem RingOk.checkRing (h : p.RingOk i a q) : (p.checkRing i).RingOk i a q := by
  unfold Path.checkRing
  split
  · exact h
  · rename_i hnone
    obtain ⟨hnum, hw, hnext⟩ := h.waits.check
    refine ⟨?_, h.keys, h.added, ?_, h.taken⟩
    · simpa using hw
    · intro busy hbusy
      simp only [update_self]
      by_cases hz : (p.ring i).phlCheckRing.2 = 0
      · simp only [hz, if_true] at hbusy; exact nomatch hnone.symm.trans hbusy
      · simp only [hz, if_false, update_self, Option.some.injEq] at hbusy
        subst hbusy
        have hidx : (p.ring i).phlCheckRing.1.phlIdx = (p.ring i).phlIdx := by
          unfold TxRing.phlCheckRing
          simp only
          split_ifs <;> rfl
        rw [hidx]
        refine ⟨by omega, fun _ => hnext ?_⟩
        rintro rfl
        exact hz hnum

theorem checkRing_other {j : ℕ} (hij : j ≠ i) : (p.checkRing i).ring j = p.ring j ∧ (p.checkRing i).sts j = p.sts j ∧
      (p.checkRing i).added = p.added ∧ (p.checkRing i).taken = p.taken := by
  unfold Path.checkRing
  split
  · exact ⟨rfl, rfl, rfl, rfl⟩
  · refine ⟨update_of_ne hij _ _, ?_, rfl, rfl⟩
    simp only
    split
    · rfl
    · exact update_of_ne hij _ _

/-! ### One call -/

theorem handleXmitRing_spec (cfg : UsbCfg) (ops : EvtOps) {busy : ℕ} {ring : TxRing Treq} (hq : ring.Waits q)
    (hb : busy ≤ q.length)
    (hn : busy ≠ 0 → ring.phlNextIdx = IndexRing.next maxPhlTxRingEntryNum ring.phlIdx) :
    ∃ q', (handleXmitRing cfg ops ring busy).ring.Waits q' ∧
      (handleXmitRing cfg ops ring busy).taken.map Treq.key ++ q'.map Treq.key = q.map Treq.key ∧
      (handleXmitRing cfg ops ring busy).taken.length = (reachedOf cfg ring busy).length ∧
      (handleXmitRing cfg ops ring busy).buf <+: (handleXmitRing cfg ops ring busy).taken ∧
      ((∀ r ∈ reachedOf cfg ring busy, r.fillWd = true) →
        (handleXmitRing cfg ops ring busy).buf = (handleXmitRing cfg ops ring busy).taken) ∧
      (reachedOf cfg ring busy ≠ [] → ((handleXmitRing cfg ops ring busy).agg.pstatus = .success ↔
          ∀ r ∈ reachedOf cfg ring busy, r.fillWd = true)) := by
  have hentries := busyEntries_eq hq hb hn
  obtain ⟨hagg, T, q', B, hT, hq', hkeys, hlen, hB, hpre, hall⟩ :=
    xmitLoop_spec cfg ops (prediction cfg (busyEntries ring busy)).1
      (prediction cfg (busyEntries ring busy)).2
      (s := ⟨.init, ring, [], [], []⟩) hq hb hn
  rw [← hentries] at hagg hlen hall
  rw [List.nil_append] at hT hB
  refine ⟨q', hq', ?_, ?_, ?_, ?_, fun hne => ?_⟩
  · rw [← hkeys, ← hT]; rfl
  · rw [reachedOf, ← hlen, ← hT]; rfl
  · rw [← hT, ← hB] at hpre; exact hpre
  · intro hfill
    have hBT := hall hfill
    rw [← hT, ← hB] at hBT; exact hBT
  · rw [reachedOf, ← aggLoop_pstatus hne]
    exact iff_of_eq (congrArg (fun s => s.pstatus = .success) hagg)

theorem RingOk.handleRing (h : p.RingOk i a q) (submits : Bool) :
    ∃ a q, (p.handleRing cfg ops i submits).RingOk i a q := by
  unfold Path.handleRing
  split
  · exact ⟨a, q, h⟩
  · rename_i busy hbusy
    obtain ⟨hle, hnext⟩ := h.sts busy hbusy
    obtain ⟨q', hq', hkeys, -⟩ := handleXmitRing_spec cfg ops h.waits hle hnext
    have hlen : (handleXmitRing cfg ops (p.ring i) busy).taken.length + q'.length = q.length := by
      simpa using congrArg List.length hkeys
    -- the keys taken are the first ones, those left the rest
    have hsplit : (handleXmitRing cfg ops (p.ring i) busy).taken.map Treq.key ++ q'.map Treq.key =
          (List.range' a (handleXmitRing cfg ops (p.ring i) busy).taken.length).map
              (fun k => (i, k)) ++
            (List.range' (a + (handleXmitRing cfg ops (p.ring i) busy).taken.length)
              q'.length).map (fun k => (i, k)) := by
      rw [hkeys, h.keys, ← hlen, ← List.map_append, List.range'_append_1]
    obtain ⟨htaken, hrest⟩ := List.append_inj hsplit (by simp)
    refine ⟨a + (handleXmitRing cfg ops (p.ring i) busy).taken.length, q', ?_⟩
    simp only
    split
    all_goals
      refine ⟨?_, hrest, ?_, ?_, ?_⟩
      · simpa using hq'
      · show a + _ + q'.length = p.added i
        rw [← h.added]; omega
      · intro b hb
        simp at hb
      · intro t ht hti
        rcases List.mem_append.mp ht with ht | ht
        · exact Nat.lt_of_lt_of_le (h.taken t ht hti) (Nat.le_add_right _ _)
        · have hmem := List.mem_map_of_mem (f := Treq.key) ht
          rw [htaken] at hmem
          obtain ⟨k, hk, hkey⟩ := List.mem_map.mp hmem
          have hseq : t.seq = k := (congrArg Prod.snd hkey).symm
          have hlt := (List.mem_range'_1.mp hk).2
          omega

theorem handleXmitRing_ring {busy : ℕ} (h : p.RingOk i a q) (hbusy : p.sts i = some busy) :
    ∀ t ∈ (handleXmitRing cfg ops (p.ring i) busy).taken, t.key ∈ q.map Treq.key := by
  intro t ht
  obtain ⟨hle, hnext⟩ := h.sts busy hbusy
  obtain ⟨q', -, hkeys, -⟩ := handleXmitRing_spec cfg ops h.waits hle hnext
  rw [← hkeys]; exact List.mem_append_left _ (List.mem_map_of_mem ht)

theorem RingOk.ring_eq (h : p.RingOk i a q) (ht : t.key ∈ q.map Treq.key) : t.ring = i := by
  rw [h.keys] at ht
  obtain ⟨k, -, hkey⟩ := List.mem_map.mp ht
  exact (congrArg Prod.fst hkey).symm

theorem RingOk.step (h : ∀ i, ∃ a q, p.RingOk i a q) (ev : Ev) (j : ℕ) : ∃ a q, (p.step cfg ops ev).RingOk j a q := by
  obtain ⟨a, q, hj⟩ := h j
  cases ev with
  | addTxReq i type r =>
    by_cases hij : j = i
    · subst hij; exact hj.addTxReq type r
    · refine ⟨a, q, hj.frame ?_ rfl ?_ fun t ht hne => absurd ht hne⟩
      · simp [Path.step, Path.addTxReq, hij]
      · simp only [Path.step, Path.addTxReq]
        split <;> simp [hij]
  | checkRing i =>
    by_cases hij : j = i
    · subst hij; exact ⟨a, q, hj.checkRing⟩
    · obtain ⟨hring, hsts, hadded, htaken⟩ := checkRing_other (p := p) hij
      exact ⟨a, q, hj.frame hring hsts (congrFun hadded j)
        fun t ht hne => absurd (htaken ▸ ht : t ∈ p.taken) hne⟩
  | releaseSts i =>
    by_cases hij : j = i
    · subst hij
      refine ⟨a, q, hj.waits, hj.keys, hj.added, fun b hb => ?_, hj.taken⟩
      simp [Path.step] at hb
    · refine ⟨a, q, hj.frame rfl ?_ rfl fun t ht hne => absurd ht hne⟩; simp [Path.step, hij]
  | handleRing i submits =>
    by_cases hij : j = i
    · subst hij; exact hj.handleRing submits
    · obtain ⟨ai, qi, hi⟩ := h i
      simp only [Path.step, Path.handleRing]
      split
      · exact ⟨a, q, hj⟩
      · rename_i busy hbusy
        have hother : ∀ t ∈ p.taken ++ (handleXmitRing cfg ops (p.ring i) busy).taken, t ∉ p.taken → t.ring ≠ j := by
          intro t ht hne htj
          rcases List.mem_append.mp ht with ht | ht
          · exact hne ht
          · exact hij (htj.symm.trans (hi.ring_eq (handleXmitRing_ring hi hbusy t ht)))
        refine ⟨a, q, ?_⟩
        split
        all_goals exact hj.frame (by simp [hij]) (by simp [hij]) rfl hother

theorem handleRing_logs (cfg : UsbCfg) (ops : EvtOps) {busy : ℕ} (hbusy : p.sts i = some busy) (submits : Bool) :
    (p.handleRing cfg ops i submits).taken = p.taken ++ (handleXmitRing cfg ops (p.ring i) busy).taken ∧
      (p.handleRing cfg ops i submits).recycled = p.recycled ++ (handleXmitRing cfg ops (p.ring i) busy).recycled ∧
      (if (handleXmitRing cfg ops (p.ring i) busy).agg.pstatus = .success ∧ submits = true then
        (p.handleRing cfg ops i submits).submitted = p.submitted ++ [(handleXmitRing cfg ops (p.ring i) busy).buf] ∧
          (p.handleRing cfg ops i submits).thrown = p.thrown
      else
        (p.handleRing cfg ops i submits).submitted = p.submitted ∧ (p.handleRing cfg ops i submits).thrown =
            p.thrown ++ [(handleXmitRing cfg ops (p.ring i) busy).buf]) := by
  unfold Path.handleRing
  rw [hbusy]
  simp only
  split <;> exact ⟨rfl, rfl, rfl, rfl⟩

theorem Inv.step (h : p.Inv) (ev : Ev) : (p.step cfg ops ev).Inv := by
  refine ⟨RingOk.step h.rings ev, ?_⟩
  cases ev with
  | addTxReq i type r => exact h.submitted
  | releaseSts i => exact h.submitted
  | checkRing i =>
    simp only [Path.step, Path.checkRing]
    split <;> exact h.submitted
  | handleRing i submits =>
    show ∀ b ∈ (p.handleRing cfg ops i submits).submitted, ∀ t ∈ b, t ∈ (p.handleRing cfg ops i submits).taken
    cases hbusy : p.sts i with
    | none =>
      simp only [Path.handleRing, hbusy]; exact h.submitted
    | some busy =>
      obtain ⟨a, q, hi⟩ := h.rings i
      obtain ⟨hle, hnext⟩ := hi.sts busy hbusy
      obtain ⟨q', -, -, -, hpre, -⟩ :=
        handleXmitRing_spec cfg ops hi.waits hle hnext
      obtain ⟨htaken, -, hlog⟩ := handleRing_logs cfg ops hbusy submits
      have hold : ∀ b ∈ p.submitted, ∀ t ∈ b, t ∈ (p.handleRing cfg ops i submits).taken :=
        fun b hb t ht => htaken ▸ List.mem_append_left _ (h.submitted b hb t ht)
      split at hlog
      · intro b hb t ht
        rcases List.mem_append.mp (hlog.1 ▸ hb) with hb | hb
        · exact hold b hb t ht
        · rw [List.mem_singleton.mp hb] at ht
          exact htaken ▸ List.mem_append_right _ (hpre.subset ht)
      · exact fun b hb => hold b (hlog.1 ▸ hb)

/-! ### Requests that are lost -/

/-- The request was taken, and is in no buffer that was submitted. -/
def Lost (p : Path) (t : Treq) : Prop := t ∈ p.taken ∧ ∀ b ∈ p.submitted, t ∉ b

theorem lost_step (h : p.Inv) (ht : p.Lost t) (ev : Ev) : (p.step cfg ops ev).Lost t := by
  cases ev with
  | addTxReq i type r => exact ht
  | releaseSts i => exact ht
  | checkRing i =>
    simp only [Path.step, Path.checkRing]
    split <;> exact ht
  | handleRing i submits =>
    cases hbusy : p.sts i with
    | none =>
      simp only [Path.step, Path.handleRing, hbusy]; exact ht
    | some busy =>
      obtain ⟨a, q, hi⟩ := h.rings i
      obtain ⟨htaken, -, hbuf⟩ := handleRing_logs cfg ops hbusy submits
      refine ⟨htaken ▸ List.mem_append_left _ ht.1, ?_⟩
      split at hbuf
      · intro b hb hmem
        rw [show (p.step cfg ops (.handleRing i submits)).submitted = _ from hbuf.1] at hb
        rcases List.mem_append.mp hb with hb | hb
        · exact ht.2 b hb hmem
        · obtain ⟨hle, hnext⟩ := hi.sts busy hbusy
          obtain ⟨q', -, -, -, hpre, -⟩ :=
            handleXmitRing_spec cfg ops hi.waits hle hnext
          rw [List.mem_singleton] at hb
          exact hi.not_mem ht.1 (handleXmitRing_ring hi hbusy t (hpre.subset (hb ▸ hmem)))
      · intro b hb
        rw [show (p.step cfg ops (.handleRing i submits)).submitted = _ from hbuf.1] at hb
        exact ht.2 b hb

theorem lost_run (h : p.Inv) (ht : p.Lost t) (evs : List Ev) : (p.run cfg ops evs).Lost t := by
  induction evs generalizing p with
  | nil => exact ht
  | cons ev evs ih => exact ih (h.step ev) (lost_step h ht ev)

theorem Inv.run (h : p.Inv) (evs : List Ev) : (p.run cfg ops evs).Inv := by
  induction evs generalizing p with
  | nil => exact h
  | cons ev evs ih => exact ih (h.step ev)

theorem Lost.not_accounted (h : p.Inv) (ht : p.Lost t) : ¬ p.Accounted := by
  intro hacc
  rcases hacc.1 t ht.1 with ⟨b, hb, hmem⟩ | ⟨q, hq, hmem⟩
  · exact ht.2 b hb hmem
  · obtain ⟨a, q', hi⟩ := h.rings t.ring
    have hqq : q = q' := hq.unique hi.waits
    exact hi.not_mem ht.1 (hqq ▸ hmem)

/-! ### Which steps lose none -/

/-- Nothing taken is missing from the submitted buffers, and what was thrown away is empty. -/
def NoneLost (p : Path) : Prop :=
  (∀ t ∈ p.taken, ∃ b ∈ p.submitted, t ∈ b) ∧ ∀ b ∈ p.thrown, b = []

theorem NoneLost.accounted (h : p.NoneLost) : p.Accounted := by
  refine ⟨fun t ht => .inl (h.1 t ht), fun b hb t ht => ?_⟩
  rw [h.2 b hb] at ht; cases ht

theorem NoneLost.step (hinv : p.Inv) (h : p.NoneLost) {ev : Ev} (hok : StepOk cfg p ev) :
    (p.step cfg ops ev).NoneLost := by
  cases ev with
  | addTxReq i type r => exact h
  | releaseSts i => exact h
  | checkRing i =>
    simp only [Path.step, Path.checkRing]
    split <;> exact h
  | handleRing i submits =>
    cases hbusy : p.sts i with
    | none =>
      simp only [Path.step, Path.handleRing, hbusy]; exact h
    | some busy =>
      obtain ⟨hfill, hsub⟩ := hok busy hbusy
      obtain ⟨a, q, hi⟩ := hinv.rings i
      obtain ⟨hle, hnext⟩ := hi.sts busy hbusy
      obtain ⟨q', -, -, hlen, hpre, hbuf, hst⟩ :=
        handleXmitRing_spec cfg ops hi.waits hle hnext
      obtain ⟨htaken, -, hlog⟩ := handleRing_logs cfg ops hbusy submits
      show (p.handleRing cfg ops i submits).NoneLost
      have hcopied := hbuf hfill
      by_cases hr : reachedOf cfg (p.ring i) busy = []
      · -- nothing was taken, and the buffer is empty
        have htnil : (handleXmitRing cfg ops (p.ring i) busy).taken = [] := by
          rw [← List.length_eq_zero_iff, hlen, hr, List.length_nil]
        rw [htnil, List.append_nil] at htaken
        rw [htnil] at hcopied
        rw [hcopied] at hlog
        refine ⟨fun t ht => ?_, fun b hb => ?_⟩
        · obtain ⟨b, hb, hmem⟩ := h.1 t (htaken ▸ ht)
          refine ⟨b, ?_, hmem⟩
          split at hlog
          · exact hlog.1 ▸ List.mem_append_left _ hb
          · exact hlog.1 ▸ hb
        · split at hlog
          · exact h.2 b (hlog.2 ▸ hb)
          · rw [hlog.2] at hb
            rcases List.mem_append.mp hb with hb | hb
            · exact h.2 b hb
            · exact List.mem_singleton.mp hb
      · -- the buffer holds all that was taken, and is submitted
        have hs : submits = true := hsub.resolve_right hr
        rw [if_pos ⟨(hst hr).mpr hfill, hs⟩] at hlog
        refine ⟨fun t ht => ?_, fun b hb => h.2 b (hlog.2 ▸ hb)⟩
        rw [htaken] at ht
        rcases List.mem_append.mp ht with ht | ht
        · obtain ⟨b, hb, hmem⟩ := h.1 t ht; exact ⟨b, hlog.1 ▸ List.mem_append_left _ hb, hmem⟩
        · exact ⟨_, hlog.1 ▸ List.mem_append_right _ (List.mem_singleton_self _), hcopied.symm ▸ ht⟩

theorem lost_of_not_stepOk (ops : EvtOps) (hinv : p.Inv) {ev : Ev} (hok : ¬ StepOk cfg p ev) :
    ∃ t, (p.step cfg ops ev).Lost t := by
  cases ev with
  | addTxReq i type r => exact absurd trivial hok
  | releaseSts i => exact absurd trivial hok
  | checkRing i => exact absurd trivial hok
  | handleRing i submits =>
    unfold StepOk at hok
    push Not at hok
    obtain ⟨busy, hbusy, hbad⟩ := hok
    obtain ⟨a, q, hi⟩ := hinv.rings i
    obtain ⟨hle, hnext⟩ := hi.sts busy hbusy
    obtain ⟨q', -, -, hlen, hpre, hbuf, hst⟩ :=
      handleXmitRing_spec cfg ops hi.waits hle hnext
    obtain ⟨htaken, -, hlog⟩ := handleRing_logs cfg ops hbusy submits
    -- something was taken, and no buffer was submitted
    have hr : reachedOf cfg (p.ring i) busy ≠ [] := by
      intro hr
      rw [hr] at hbad; exact (hbad fun r hr => absurd hr List.not_mem_nil).2 rfl
    have hnot : ¬ ((handleXmitRing cfg ops (p.ring i) busy).agg.pstatus = .success ∧ submits = true) := by
      intro hh
      have hb := hbad ((hst hr).mp hh.1)
      exact hb.1 hh.2
    rw [if_neg hnot] at hlog
    have hne : (handleXmitRing cfg ops (p.ring i) busy).taken ≠ [] := by
      intro hnil
      rw [hnil, List.length_nil] at hlen; exact hr (List.length_eq_zero_iff.mp hlen.symm)
    obtain ⟨t, ht⟩ := List.exists_mem_of_ne_nil _ hne
    refine ⟨t, ?_, fun b hb hmem => ?_⟩
    · show t ∈ (p.handleRing cfg ops i submits).taken
      rw [htaken]; exact List.mem_append_right _ ht
    · rw [show (p.step cfg ops (.handleRing i submits)).submitted = _ from hlog.1] at hb
      exact hi.not_mem (hinv.submitted b hb t hmem) (handleXmitRing_ring hi hbusy t ht)

/-! ### Runs -/

theorem NoneLost.run (hinv : p.Inv) (h : p.NoneLost) {evs : List Ev} (hok : RunOk cfg ops p evs) :
    (p.run cfg ops evs).NoneLost := by
  induction evs generalizing p with
  | nil => exact h
  | cons ev evs ih => exact ih (hinv.step ev) (h.step hinv hok.1) hok.2

theorem lost_of_not_runOk (hinv : p.Inv) {evs : List Ev} (hok : ¬ RunOk cfg ops p evs) :
    ∃ t, (p.run cfg ops evs).Lost t := by
  induction evs generalizing p with
  | nil => exact absurd trivial hok
  | cons ev evs ih =>
    by_cases hstep : StepOk cfg p ev
    · exact ih (hinv.step ev) fun hrest => hok ⟨hstep, hrest⟩
    · obtain ⟨t, ht⟩ := lost_of_not_stepOk ops hinv hstep; exact ⟨t, lost_run (hinv.step ev) ht evs⟩

/-- **Every request taken is accounted for exactly when no call of `_phl_handle_xmit_ring_usb`
fails behind a request it has taken**: in every run, `rtw_hal_fill_wd` succeeds whenever it is
called, and `os_usb_tx` whenever the buffer holds a request. -/
theorem accounted_iff (cfg : UsbCfg) (ops : EvtOps) (evs : List Ev) :
    (run cfg ops init evs).Accounted ↔ RunOk cfg ops init evs := by
  constructor
  · intro h
    by_contra hok
    obtain ⟨t, ht⟩ := lost_of_not_runOk inv_init hok
    exact ht.not_accounted (inv_init.run evs) h
  · intro hok
    have hinit : init.NoneLost := ⟨fun _ h => (nomatch h), fun _ h => nomatch h⟩
    exact (hinit.run inv_init hok).accounted

def dataReq (fillWd : Bool) : XmitReq :=
  { type := .data, pktlen := 100, wdinfoEn := true, usbPktOfst := 0, pktList := [100],
    totalLen := 100, totalLen_eq := rfl, fillWd := fillWd }

/-- The second descriptor of a buffer cannot be built: the first request is recycled, and the buffer
with its copy goes back to the pool. -/
theorem not_accounted_fillWd : ¬ ∀ evs, (run ⟨20480, 512, 8, 255, true, true⟩ ⟨true, true⟩ init evs).Accounted := by
  intro h
  have hacc := h [.addTxReq 0 .normal (dataReq true), .addTxReq 0 .normal (dataReq false),
    .checkRing 0, .handleRing 0 true]
  have hthrown := hacc.2 [⟨0, 0, .normal, dataReq true⟩] (by decide)
    ⟨0, 0, .normal, dataReq true⟩ (by decide)
  exact hthrown (by decide)

end Path

end Rtl8852cu.Usb
