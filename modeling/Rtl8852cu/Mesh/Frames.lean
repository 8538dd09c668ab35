import Rtl8852cu.Mesh.Gates
import Rtl8852cu.Lib.Custody

/-!
# The frames that wait for a path

`rtw_mesh_path_send_to_gates`, `rtw_mesh_path_tx_pending` and `rtw_mesh_path_flush_pending` move frames between the queues
of the paths, the transmit queue and `rtw_mesh_path_discard_frame`.  `FrameBook` is that every frame is in one of these
places, once, and that the lengths are kept.  Without `copy`, `rtw_mesh_path_move_to_queue` does not put back what the gate
had no room for, and these frames are nowhere: `frames_conserved_iff` says when.
-/

namespace Rtl8852cu.Mesh

open Lib

open scoped List

namespace MeshInfo

variable {s s' : MeshInfo} {p q limit gate frm : ℕ} {a b g : MeshPath} {f f' : MeshPath → MeshPath} {store : Set ℕ}

/-- The frames of a path's queue, by their numbers. -/
def queueIds (s : MeshInfo) (p : ℕ) : List ℕ := ((s.path p).map fun path => path.frameQueue.map XmitFrame.id).getD []

/-- Every frame is in one queue, or handed to the transmit path, or freed, and that once; the lengths are those of the
queues, and no queue is longer than the limit. -/
structure FrameBook (limit : ℕ) (store : Set ℕ) (s : MeshInfo) : Prop where
  custody : Custody store (s.discarded.map XmitFrame.id) (s.mpathTxQueue.map XmitFrame.id) s.queueIds
  lens : ∀ p a, s.path p = some a → a.frameQueueLen = a.frameQueue.length ∧ a.frameQueueLen ≤ limit
  txLen : s.mpathTxQueueLen = s.mpathTxQueue.length

structure SamePaths (s s' : MeshInfo) : Prop where
  live : ∀ p, (s'.path p).isSome = (s.path p).isSome
  gates : s'.knownGates = s.knownGates

theorem SamePaths.refl (s : MeshInfo) : SamePaths s s := ⟨fun _ => rfl, rfl⟩

theorem SamePaths.trans {s'' : MeshInfo} (h : SamePaths s s') (h' : SamePaths s' s'') : SamePaths s s'' :=
  ⟨fun p => (h'.live p).trans (h.live p), h'.gates.trans h.gates⟩

theorem samePaths_setPath (p : ℕ) (f : MeshPath → MeshPath) (s : MeshInfo) : SamePaths s (s.setPath p f) := by
  refine ⟨fun q => ?_, rfl⟩
  by_cases hq : q = p
  · subst hq
    show ((s.heap.modify q f).cell q).isSome = _
    rw [Heap.modify_cell_self, Option.isSome_map]; rfl
  · rw [path_setPath_ne hq]

theorem queueIds_of (ha : s.path p = some a) : s.queueIds p = a.frameQueue.map XmitFrame.id := by
  unfold queueIds
  rw [ha]; rfl

theorem queueIds_setPath (ha : s.path p = some a) :
    (s.setPath p f).queueIds = Function.update s.queueIds p ((f a).frameQueue.map XmitFrame.id) := by
  funext q
  by_cases hq : q = p
  · subst hq; rw [Function.update_self, queueIds_of (path_setPath_self ha)]
  · rw [Function.update_of_ne hq]
    unfold queueIds
    rw [path_setPath_ne hq]

theorem setPath_setPath : (s.setPath p f).setPath p f' = s.setPath p fun path => f' (f path) := by
  unfold setPath
  simp only
  rw [Heap.modify_modify]

theorem setPath_eq_self (ha : s.path p = some a) (hf : f a = a) : s.setPath p f = s := by
  unfold setPath
  rw [Heap.modify_eq_self ha hf]

/-! ### A move from queue to queue -/

/-- What a gate gets of the frames: as many as there is room for. -/
def gateFrames (limit : ℕ) (g : MeshPath) (hop : Sta) (failq : List XmitFrame) (path : MeshPath) : MeshPath :=
  path.withFrames (path.frameQueue ++ (failq.take (limit - g.frameQueueLen)).map (prepareForGate · g.dst hop.macAddr))
    (path.frameQueueLen + min (limit - g.frameQueueLen) failq.length)

theorem moveFailq_spec {hop : Sta} (failq : List XmitFrame) (n : ℕ) (hg : s.path gate = some g) (hhop : g.nextHop = some hop) :
    moveFailq limit gate failq n s = some (failq.drop (limit - g.frameQueueLen),
      n - min (limit - g.frameQueueLen) failq.length, s.setPath gate (gateFrames limit g hop failq)) := by
  induction failq generalizing s g n with
  | nil =>
    have hsame : s.setPath gate (gateFrames limit g hop []) = s := setPath_eq_self hg (by simp [gateFrames, MeshPath.withFrames])
    rw [hsame, List.drop_nil, List.length_nil, Nat.min_zero, Nat.sub_zero]; rfl
  | cons fskb failq ih =>
    rw [moveFailq, hg, Option.bind_eq_bind, Option.bind_some]
    by_cases hfull : limit ≤ g.frameQueueLen
    · have hroom : limit - g.frameQueueLen = 0 := by omega
      have hsame : s.setPath gate (gateFrames limit g hop (fskb :: failq)) = s :=
        setPath_eq_self hg (by simp [gateFrames, MeshPath.withFrames, hroom])
      rw [if_pos hfull, hsame, hroom, Nat.zero_min, Nat.sub_zero]; rfl
    · have hroom : limit - g.frameQueueLen = limit - (g.frameQueueLen + 1) + 1 := by omega
      rw [if_neg hfull, hhop, Option.bind_eq_bind, Option.bind_some,
        ih (n - 1) (path_setPath_self hg) (by exact hhop), setPath_setPath]
      have hlen : (g.withFrames (g.frameQueue ++ [prepareForGate fskb g.dst hop.macAddr]) (g.frameQueueLen + 1)).frameQueueLen =
          g.frameQueueLen + 1 := rfl
      rw [hlen, hroom, List.drop_succ_cons, List.length_cons, Nat.succ_min_succ]
      refine congrArg some (Prod.ext rfl (Prod.ext (by simp only; omega) (congrArg (s.setPath gate) ?_)))
      funext path
      simp only [gateFrames, MeshPath.withFrames, hroom, List.take_succ_cons, List.map_cons, List.length_cons,
        Nat.succ_min_succ, List.append_assoc, List.singleton_append, Nat.add_assoc, Nat.add_comm 1]

theorem lens_setPath (h : ∀ p a, s.path p = some a → a.frameQueueLen = a.frameQueue.length ∧ a.frameQueueLen ≤ limit)
    (hf : ∀ a, s.path p = some a → (f a).frameQueueLen = (f a).frameQueue.length ∧ (f a).frameQueueLen ≤ limit) :
    ∀ q b, (s.setPath p f).path q = some b → b.frameQueueLen = b.frameQueue.length ∧ b.frameQueueLen ≤ limit := by
  intro q b hb
  obtain ⟨a, ha, rfl⟩ := of_path_setPath hb
  by_cases hq : q = p
  · rw [if_pos hq]; exact hf a (hq ▸ ha)
  · rw [if_neg hq]; exact h q a ha

theorem ids_prepare (frames : List XmitFrame) (dstAddr nextHop : MacAddr) :
    (frames.map (prepareForGate · dstAddr nextHop)).map XmitFrame.id = frames.map XmitFrame.id := by
  rw [List.map_map]; rfl

/-- The state of a move before the rest is put back: the gate has what it has room for, and the rest is with nobody. -/
def halfMoved (limit gate frm : ℕ) (g : MeshPath) (hop : Sta) (b : MeshPath) (s : MeshInfo) : MeshInfo :=
  (s.setPath frm .noFrames).setPath gate (gateFrames limit g hop b.frameQueue)

theorem meshPathMoveToQueue_eq {hop : Sta} {copy : Bool} (hne : gate ≠ frm) (hg : s.path gate = some g) (hhop : g.nextHop = some hop)
    (hb : s.path frm = some b) :
    s.meshPathMoveToQueue limit gate frm copy = some (if copy then
      (halfMoved limit gate frm g hop b s).setPath frm fun path =>
        path.withFrames (b.frameQueue.drop (limit - g.frameQueueLen) ++ path.frameQueue)
          (path.frameQueueLen + (b.frameQueueLen - min (limit - g.frameQueueLen) b.frameQueue.length))
      else halfMoved limit gate frm g hop b s) := by
  have hg' : (s.setPath frm .noFrames).path gate = some g := by
    rw [path_setPath_ne hne]; exact hg
  unfold meshPathMoveToQueue
  rw [if_neg hne, hg, Option.bind_eq_bind, Option.bind_some, if_neg (by rw [hhop]; exact nofun), hb, Option.bind_eq_bind,
    Option.bind_some]
  simp only
  rw [moveFailq_spec b.frameQueue b.frameQueueLen hg' hhop]; cases copy <;> rfl

theorem FrameBook.halfMoved (hop : Sta) (h : s.FrameBook limit store) (hne : gate ≠ frm) (hg : s.path gate = some g)
    (hb : s.path frm = some b) :
    Custody store (s.discarded.map XmitFrame.id)
      ((b.frameQueue.drop (limit - g.frameQueueLen)).map XmitFrame.id ++ s.mpathTxQueue.map XmitFrame.id)
      (halfMoved limit gate frm g hop b s).queueIds ∧
    (∀ p a, (MeshInfo.halfMoved limit gate frm g hop b s).path p = some a →
      a.frameQueueLen = a.frameQueue.length ∧ a.frameQueueLen ≤ limit) := by
  have hg' : (s.setPath frm .noFrames).path gate = some g := by
    rw [path_setPath_ne hne]; exact hg
  have hlens := lens_setPath h.lens (p := frm) (f := .noFrames) fun a _ => ⟨rfl, Nat.zero_le limit⟩
  constructor
  · -- all frames of the path to the holder, then those the gate takes to its queue
    have hout : Custody store (s.discarded.map XmitFrame.id) (b.frameQueue.map XmitFrame.id ++ s.mpathTxQueue.map XmitFrame.id)
        (Function.update s.queueIds frm []) := h.custody.exchange (by rw [queueIds_of hb]; rfl)
    have hq : (s.setPath frm .noFrames).queueIds = Function.update s.queueIds frm [] := queueIds_setPath hb
    rw [← hq] at hout
    unfold MeshInfo.halfMoved
    rw [queueIds_setPath hg']
    refine hout.exchange ?_
    rw [queueIds_of hg']
    show _ ~ (List.map XmitFrame.id (g.frameQueue ++ _)) ++ _
    have hsplit : (b.frameQueue.take (limit - g.frameQueueLen)).map XmitFrame.id ++
        (b.frameQueue.drop (limit - g.frameQueueLen)).map XmitFrame.id = b.frameQueue.map XmitFrame.id := by
      rw [← List.map_append, List.take_append_drop]
    rw [List.map_append, ids_prepare, List.append_assoc, ← List.append_assoc (List.map XmitFrame.id (List.take _ _)), hsplit]
  · refine lens_setPath hlens fun a ha => ?_
    obtain rfl := Option.some.inj (hg'.symm.trans ha)
    obtain ⟨hl, hle⟩ := hlens gate g hg'
    show g.frameQueueLen + _ = (g.frameQueue ++ _).length ∧ g.frameQueueLen + _ ≤ limit
    rw [List.length_append, List.length_map, List.length_take]; omega

theorem FrameBook.move (h : s.FrameBook limit store) (hg : s.path gate = some g) (hb : s.path frm = some b) {copy : Bool}
    (hkeep : copy = true ∨ gate = frm ∨ g.nextHop = none ∨ g.frameQueueLen + b.frameQueueLen ≤ limit) :
    ∃ s', s.meshPathMoveToQueue limit gate frm copy = some s' ∧ s'.FrameBook limit store ∧ SamePaths s s' := by
  by_cases hne : gate = frm
  · refine ⟨s, ?_, h, .refl s⟩
    unfold meshPathMoveToQueue; exact if_pos hne
  cases hhop : g.nextHop with
  | none =>
    refine ⟨s, ?_, h, .refl s⟩
    unfold meshPathMoveToQueue
    rw [if_neg hne, hg, Option.bind_eq_bind, Option.bind_some, if_pos hhop]; rfl
  | some hop =>
    obtain ⟨hcust, hlens⟩ := h.halfMoved hop hne hg hb
    have hsame : SamePaths s (MeshInfo.halfMoved limit gate frm g hop b s) :=
      (samePaths_setPath ..).trans (samePaths_setPath ..)
    obtain ⟨hbl, hble⟩ := h.lens frm b hb
    refine ⟨_, meshPathMoveToQueue_eq hne hg hhop hb, ?_, ?_⟩
    · cases copy with
      | false =>
        -- the gate has taken all
        have hroom : b.frameQueue.length ≤ limit - g.frameQueueLen := by
          rcases hkeep with hk | hk | hk | hk
          · exact nomatch hk
          · exact absurd hk hne
          · exact nomatch hhop.symm.trans hk
          · omega
        rw [List.drop_of_length_le hroom] at hcust; exact ⟨hcust, hlens, h.txLen⟩
      | true =>
        have hb' : (MeshInfo.halfMoved limit gate frm g hop b s).path frm = some b.noFrames := by
          unfold MeshInfo.halfMoved
          rw [path_setPath_ne (Ne.symm hne), path_setPath_self hb]
        refine ⟨?_, lens_setPath hlens fun a ha => ?_, h.txLen⟩
        · show Custody store (s.discarded.map XmitFrame.id) (s.mpathTxQueue.map XmitFrame.id) (queueIds (setPath ..))
          rw [queueIds_setPath hb']
          refine hcust.exchange ?_
          rw [queueIds_of hb']
          show [] ++ _ ~ List.map XmitFrame.id (_ ++ []) ++ _
          rw [List.append_nil]; exact List.Perm.refl _
        · obtain rfl := Option.some.inj (hb'.symm.trans ha)
          show 0 + _ = (_ ++ ([] : List XmitFrame)).length ∧ 0 + _ ≤ limit
          rw [List.append_nil, List.length_drop]; omega
    · cases copy with
      | false => exact hsame
      | true => exact hsame.trans (samePaths_setPath ..)

theorem FrameBook.move_lose {hop : Sta} (h : s.FrameBook limit store) (hne : gate ≠ frm) (hg : s.path gate = some g)
    (hhop : g.nextHop = some hop) (hb : s.path frm = some b) (hfull : limit < g.frameQueueLen + b.frameQueueLen) :
    ∃ s' x, s.meshPathMoveToQueue limit gate frm false = some s' ∧ x ∈ store ∧
      s'.FrameBook limit { a | a ∈ store ∧ a ∉ (b.frameQueue.drop (limit - g.frameQueueLen)).map XmitFrame.id } ∧
      x ∈ (b.frameQueue.drop (limit - g.frameQueueLen)).map XmitFrame.id ∧ SamePaths s s' := by
  obtain ⟨hcust, hlens⟩ := h.halfMoved hop hne hg hb
  have hrest : b.frameQueue.drop (limit - g.frameQueueLen) ≠ [] := by
    intro hnil
    have hlen := List.drop_eq_nil_iff.mp hnil
    obtain ⟨hgl, hgle⟩ := h.lens gate g hg
    obtain ⟨hbl, -⟩ := h.lens frm b hb
    omega
  obtain ⟨x, hx⟩ := List.exists_mem_of_ne_nil _ fun hnil => hrest (List.map_eq_nil_iff.mp hnil)
  refine ⟨_, x, meshPathMoveToQueue_eq hne hg hhop hb, ?_, ⟨hcust.forget, hlens, h.txLen⟩, hx, ?_⟩
  · exact (hcust.mem_iff x).mpr (Or.inl (List.mem_append_right _ (List.mem_append_left _ hx)))
  · exact (samePaths_setPath ..).trans (samePaths_setPath ..)

/-! ### The calls -/

theorem FrameBook.empty_queue (h : s.FrameBook limit store) (ha : s.path p = some a) :
    Custody store (s.discarded.map XmitFrame.id) (a.frameQueue.map XmitFrame.id ++ s.mpathTxQueue.map XmitFrame.id)
      (s.setPath p .noFrames).queueIds ∧
    ∀ q b, (s.setPath p .noFrames).path q = some b → b.frameQueueLen = b.frameQueue.length ∧ b.frameQueueLen ≤ limit := by
  refine ⟨?_, lens_setPath h.lens fun a _ => ⟨rfl, Nat.zero_le limit⟩⟩
  rw [queueIds_setPath ha]
  refine h.custody.exchange ?_
  rw [queueIds_of ha]; exact List.Perm.refl _

theorem FrameBook.txPending (h : s.FrameBook limit store) (hp : (s.path p).isSome) :
    ∃ s', s.meshPathTxPending p = some s' ∧ s'.FrameBook limit store ∧ SamePaths s s' := by
  obtain ⟨a, ha⟩ := Option.isSome_iff_exists.mp hp
  unfold meshPathTxPending
  rw [ha, Option.bind_eq_bind, Option.bind_some]
  by_cases hact : (!a.flags.active) = true
  · rw [if_pos hact]; exact ⟨s, rfl, h, .refl s⟩
  rw [if_neg hact]
  by_cases hlen : a.frameQueueLen = 0
  · rw [if_pos hlen]; exact ⟨s, rfl, h, .refl s⟩
  rw [if_neg hlen]
  obtain ⟨hcust, hlens⟩ := h.empty_queue ha
  refine ⟨_, rfl, ⟨?_, hlens, ?_⟩, (samePaths_setPath p .noFrames s).trans ⟨fun _ => rfl, rfl⟩⟩
  · refine hcust.move ?_
    show _ ~ _ ++ List.map XmitFrame.id (s.mpathTxQueue ++ a.frameQueue)
    rw [List.map_append]; exact List.perm_append_comm.append_left _
  · show s.mpathTxQueueLen + a.frameQueueLen = (s.mpathTxQueue ++ a.frameQueue).length
    rw [List.length_append, h.txLen, (h.lens p a ha).1]

theorem FrameBook.flushPending (h : s.FrameBook limit store) (hp : (s.path p).isSome) :
    ∃ s', s.meshPathFlushPending p = some s' ∧ s'.FrameBook limit store := by
  obtain ⟨a, ha⟩ := Option.isSome_iff_exists.mp hp
  unfold meshPathFlushPending
  rw [ha, Option.bind_eq_bind, Option.bind_some]
  obtain ⟨hcust, hlens⟩ := h.empty_queue ha
  refine ⟨_, rfl, ?_, hlens, h.txLen⟩
  refine hcust.move ?_
  show _ ~ List.map XmitFrame.id (s.discarded ++ a.frameQueue) ++ _
  rw [List.map_append, List.append_assoc]; exact List.Perm.refl _

theorem FrameBook.txGates (gates : List ℕ) (h : s.FrameBook limit store) (hlive : ∀ p ∈ gates, (s.path p).isSome) :
    ∃ s', MeshInfo.txGates gates s = some s' ∧ s'.FrameBook limit store := by
  induction gates generalizing s with
  | nil => exact ⟨s, rfl, h⟩
  | cons gate gates ih =>
    obtain ⟨s', hs', h', hsame⟩ := h.txPending (hlive gate List.mem_cons_self)
    rw [MeshInfo.txGates, hs', Option.bind_eq_bind, Option.bind_some]
    refine ih h' fun p hp => ?_
    rw [hsame.live]; exact hlive p (List.mem_cons_of_mem gate hp)

theorem FrameBook.moveToGates_copy (gates : List ℕ) (h : s.FrameBook limit store) (hlive : ∀ p ∈ gates, (s.path p).isSome)
    (hfrm : (s.path frm).isSome) :
    ∃ frm' s', moveToGates limit gates frm true s = some (frm', s') ∧ s'.FrameBook limit store ∧ SamePaths s s' := by
  induction gates generalizing s frm with
  | nil => exact ⟨frm, s, rfl, h, .refl s⟩
  | cons gate gates ih =>
    obtain ⟨g, hg⟩ := Option.isSome_iff_exists.mp (hlive gate List.mem_cons_self)
    obtain ⟨b, hb⟩ := Option.isSome_iff_exists.mp hfrm
    rw [moveToGates, hg, Option.bind_eq_bind, Option.bind_some]
    by_cases hact : g.flags.active = true
    · rw [if_pos hact]
      obtain ⟨s', hs', h', hsame⟩ := h.move hg hb (Or.inl rfl)
      rw [hs', Option.bind_eq_bind, Option.bind_some]
      have hlive' : ∀ p ∈ gate :: gates, (s'.path p).isSome := fun p hp => by
        rw [hsame.live]; exact hlive p hp
      obtain ⟨frm', s'', hs'', h'', hsame'⟩ := ih h' (fun p hp => hlive' p (List.mem_cons_of_mem gate hp))
        (hlive' gate List.mem_cons_self)
      exact ⟨frm', s'', hs'', h'', hsame.trans hsame'⟩
    · rw [if_neg hact]; exact ih h (fun p hp => hlive p (List.mem_cons_of_mem gate hp)) hfrm

/-- The gate that the frames of a path are moved to first. -/
def firstActive (s : MeshInfo) (gates : List ℕ) : Option ℕ := gates.find? fun gate => (s.path gate).any (·.flags.active)

/-- The frames of `p` do not all fit into the first active gate. -/
def GateFull (limit p : ℕ) (s : MeshInfo) : Prop :=
  ∃ gate g b, s.firstActive s.knownGates = some gate ∧ gate ≠ p ∧ s.path gate = some g ∧ g.nextHop ≠ none ∧
    s.path p = some b ∧ limit < g.frameQueueLen + b.frameQueueLen

theorem firstActive_cons {gates : List ℕ} (hg : s.path gate = some g) :
    s.firstActive (gate :: gates) = if g.flags.active then some gate else s.firstActive gates := by
  have hany : (s.path gate).any (·.flags.active) = g.flags.active := by rw [hg]; rfl
  unfold firstActive
  rw [List.find?_cons, hany]; cases g.flags.active <;> rfl

theorem moveToGates_inactive {gates : List ℕ} (hg : s.path gate = some g) (hact : g.flags.active = false) (copy : Bool) :
    moveToGates limit (gate :: gates) frm copy s = moveToGates limit gates frm copy s := by
  rw [moveToGates, hg, Option.bind_eq_bind, Option.bind_some, if_neg (by rw [hact]; exact nofun)]

theorem moveToGates_active {gates : List ℕ} {copy : Bool} (hg : s.path gate = some g) (hact : g.flags.active = true)
    (hs' : s.meshPathMoveToQueue limit gate frm copy = some s') :
    moveToGates limit (gate :: gates) frm copy s = moveToGates limit gates gate true s' := by
  rw [moveToGates, hg, Option.bind_eq_bind, Option.bind_some, if_pos hact, hs']; rfl

theorem FrameBook.moveToGates (gates : List ℕ) (h : s.FrameBook limit store) (hlive : ∀ q ∈ gates, (s.path q).isSome)
    (hb : s.path p = some b)
    (hroom : ∀ gate g, s.firstActive gates = some gate → gate ≠ p → s.path gate = some g → g.nextHop ≠ none →
      g.frameQueueLen + b.frameQueueLen ≤ limit) :
    ∃ frm' s', MeshInfo.moveToGates limit gates p false s = some (frm', s') ∧ s'.FrameBook limit store ∧ SamePaths s s' := by
  induction gates with
  | nil => exact ⟨p, s, rfl, h, .refl s⟩
  | cons gate gates ih =>
    have hrest : ∀ q ∈ gates, (s.path q).isSome := fun q hq => hlive q (List.mem_cons_of_mem gate hq)
    obtain ⟨g, hg⟩ := Option.isSome_iff_exists.mp (hlive gate List.mem_cons_self)
    rw [firstActive_cons hg] at hroom
    cases hact : g.flags.active with
    | false =>
      rw [hact] at hroom
      rw [moveToGates_inactive hg hact]; exact ih hrest hroom
    | true =>
      rw [hact] at hroom
      have hkeep : false = true ∨ gate = p ∨ g.nextHop = none ∨ g.frameQueueLen + b.frameQueueLen ≤ limit := by
        by_cases hne : gate = p
        · exact Or.inr (Or.inl hne)
        by_cases hhop : g.nextHop = none
        · exact Or.inr (Or.inr (Or.inl hhop))
        · exact Or.inr (Or.inr (Or.inr (hroom gate g rfl hne hg hhop)))
      obtain ⟨s', hs', h', hsame⟩ := h.move hg hb hkeep
      rw [moveToGates_active hg hact hs']
      have hlive' : ∀ q ∈ gate :: gates, (s'.path q).isSome := fun q hq => by
        rw [hsame.live]; exact hlive q hq
      obtain ⟨frm', s'', hs'', h'', hsame'⟩ := h'.moveToGates_copy gates (fun q hq => hlive' q (List.mem_cons_of_mem gate hq))
        (hlive' gate List.mem_cons_self)
      exact ⟨frm', s'', hs'', h'', hsame.trans hsame'⟩

theorem FrameBook.moveToGates_lose (gates : List ℕ) (h : s.FrameBook limit store) (hlive : ∀ q ∈ gates, (s.path q).isSome)
    (hfirst : s.firstActive gates = some gate) (hne : gate ≠ p) (hg : s.path gate = some g) (hhop : g.nextHop ≠ none)
    (hb : s.path p = some b) (hfull : limit < g.frameQueueLen + b.frameQueueLen) :
    ∃ frm' s' store' x, MeshInfo.moveToGates limit gates p false s = some (frm', s') ∧ s'.FrameBook limit store' ∧
      x ∈ store ∧ x ∉ store' ∧ SamePaths s s' := by
  induction gates with
  | nil => exact nomatch hfirst
  | cons gate' gates ih =>
    obtain ⟨g', hg'⟩ := Option.isSome_iff_exists.mp (hlive gate' List.mem_cons_self)
    rw [firstActive_cons hg'] at hfirst
    cases hact : g'.flags.active with
    | false =>
      rw [hact] at hfirst
      rw [moveToGates_inactive hg' hact]
      exact ih (fun q hq => hlive q (List.mem_cons_of_mem gate' hq)) hfirst
    | true =>
      rw [hact] at hfirst
      obtain rfl : gate' = gate := Option.some.inj hfirst
      obtain rfl : g' = g := Option.some.inj (hg'.symm.trans hg)
      obtain ⟨hop, hhop⟩ := Option.ne_none_iff_exists'.mp hhop
      obtain ⟨s', x, hs', hx, h', hlost, hsame⟩ := h.move_lose hne hg hhop hb hfull
      rw [moveToGates_active hg hact hs']
      have hlive' : ∀ q ∈ gate' :: gates, (s'.path q).isSome := fun q hq => by
        rw [hsame.live]; exact hlive q hq
      obtain ⟨frm', s'', hs'', h'', hsame'⟩ := h'.moveToGates_copy gates
        (fun q hq => hlive' q (List.mem_cons_of_mem gate' hq)) (hlive' gate' List.mem_cons_self)
      exact ⟨frm', s'', _, x, hs'', h'', hx, fun hm => hm.2 hlost, hsame.trans hsame'⟩

end MeshInfo

/-- The calls that empty the queue of a path. -/
inductive FrameCall
  | sendToGates (p : ℕ)
  | txPending (p : ℕ)
  | flushPending (p : ℕ)

namespace FrameCall

def path : FrameCall → ℕ
  | sendToGates p => p
  | txPending p => p
  | flushPending p => p

def run (limit : ℕ) (s : MeshInfo) : FrameCall → Option MeshInfo
  | sendToGates p => (s.meshPathSendToGates limit p).map (·.2)
  | txPending p => s.meshPathTxPending p
  | flushPending p => s.meshPathFlushPending p

/-- Frames are moved to gates of which the first that is active has not the room. -/
def Loses (limit : ℕ) (s : MeshInfo) : FrameCall → Prop
  | sendToGates p => s.GateFull limit p
  | _ => False

variable {limit : ℕ} {s : MeshInfo} {store : Set ℕ} {call : FrameCall}

/-- The paths that a call reads are there. -/
def Live (s : MeshInfo) (call : FrameCall) : Prop := ∀ q ∈ call.path :: s.knownGates, (s.path q).isSome

theorem keeps (h : s.FrameBook limit store) (hlive : call.Live s) (hroom : ¬ call.Loses limit s) :
    ∃ s', call.run limit s = some s' ∧ s'.FrameBook limit store := by
  have hpath : (s.path call.path).isSome := hlive _ List.mem_cons_self
  cases call with
  | txPending p =>
    obtain ⟨s', hs', h', -⟩ := h.txPending hpath
    exact ⟨s', hs', h'⟩
  | flushPending p => exact h.flushPending hpath
  | sendToGates p =>
    obtain ⟨b, hb⟩ := Option.isSome_iff_exists.mp hpath
    have hb : s.path p = some b := hb
    have hgates : ∀ q ∈ s.knownGates, (s.path q).isSome := fun q hq => hlive q (List.mem_cons_of_mem p hq)
    obtain ⟨frm', s', hs', h', hsame⟩ := h.moveToGates s.knownGates hgates hb fun gate g hfirst hne hg hhop =>
      not_lt.mp fun hfull => hroom ⟨gate, g, b, hfirst, hne, hg, hhop, hb, hfull⟩
    have hgates' : ∀ q ∈ s'.knownGates, (s'.path q).isSome := fun q hq => by
      rw [hsame.live]; exact hgates q (hsame.gates ▸ hq)
    obtain ⟨s'', hs'', h''⟩ := h'.txGates s'.knownGates hgates'
    refine ⟨s'', ?_, h''⟩
    unfold run MeshInfo.meshPathSendToGates
    simp only
    rw [hs', Option.bind_eq_bind, Option.bind_some]
    simp only
    rw [hs'']; rfl

theorem loses (h : s.FrameBook limit store) (hlive : call.Live s) (hfull : call.Loses limit s) :
    ¬ ∃ s', call.run limit s = some s' ∧ s'.FrameBook limit store := by
  cases call with
  | txPending p => exact hfull.elim
  | flushPending p => exact hfull.elim
  | sendToGates p =>
    obtain ⟨gate, g, b, hfirst, hne, hg, hhop, hb, hfull⟩ := hfull
    have hgates : ∀ q ∈ s.knownGates, (s.path q).isSome := fun q hq => hlive q (List.mem_cons_of_mem p hq)
    obtain ⟨frm', s', store', x, hs', h', hx, hx', hsame⟩ := h.moveToGates_lose s.knownGates hgates hfirst hne hg hhop hb hfull
    have hgates' : ∀ q ∈ s'.knownGates, (s'.path q).isSome := fun q hq => by
      rw [hsame.live]; exact hgates q (hsame.gates ▸ hq)
    obtain ⟨s'', hs'', h''⟩ := h'.txGates s'.knownGates hgates'
    rintro ⟨t, ht, hbook⟩
    have hrun : run limit s (sendToGates p) = some s'' := by
      unfold run MeshInfo.meshPathSendToGates
      simp only
      rw [hs', Option.bind_eq_bind, Option.bind_some]
      simp only
      rw [hs'']; rfl
    obtain rfl := Option.some.inj (hrun.symm.trans ht)
    exact hx' (hbook.custody.mem_store h''.custody hx)

end FrameCall

/-- **The balance of the frames**: from any state in which every frame is in one place and no queue exceeds the limit, a call
keeps that exactly when it does not move frames to gates of which the first that is active has no room for all of them. -/
theorem frames_conserved_iff (limit : ℕ) (store : Set ℕ) (s : MeshInfo) (call : FrameCall) (h : s.FrameBook limit store)
    (hlive : call.Live s) :
    (∃ s', call.run limit s = some s' ∧ s'.FrameBook limit store) ↔ ¬ call.Loses limit s :=
  ⟨fun hs' hfull => FrameCall.loses h hlive hfull hs', FrameCall.keeps h hlive⟩

def pathWith (nextHop : Option Sta) (active : Bool) (ids : List ℕ) : MeshPath :=
  { MeshPath.new zeroAddr 0 with
    nextHop := nextHop
    frameQueue := ids.map fun id => ⟨id, .ucastData, zeroAddr, zeroAddr⟩
    frameQueueLen := ids.length
    flags := { active := active } }

/-- A path at 0 and a gate at 1, with frames. -/
def oneGate (ids gateIds : List ℕ) : MeshInfo :=
  { MeshInfo.init with
    heap := ⟨fun p => if p = 0 then some (pathWith none false ids)
      else if p = 1 then some (pathWith (some ⟨0, bcastAddr⟩) true gateIds) else none, 2⟩
    knownGates := [1] }

def allFrames (s : MeshInfo) : Set ℕ :=
  { x | x ∈ s.discarded.map XmitFrame.id ++ s.mpathTxQueue.map XmitFrame.id ∨ ∃ p, x ∈ s.queueIds p }

theorem oneGate_queueIds (ids gateIds : List ℕ) (p : ℕ) :
    (oneGate ids gateIds).queueIds p = if p = 0 then ids else if p = 1 then gateIds else [] := by
  have hids : ∀ ids : List ℕ, (ids.map fun id => (⟨id, .ucastData, zeroAddr, zeroAddr⟩ : XmitFrame)).map XmitFrame.id = ids :=
    fun ids => by rw [List.map_map]; exact List.map_id ids
  rcases p with _ | _ | p
  · exact hids ids
  · exact hids gateIds
  · rfl

theorem oneGate_book {ids gateIds : List ℕ} (hids : (ids ++ gateIds).Nodup) (hlen : ids.length ≤ meshFrameQueueLen)
    (hgate : gateIds.length ≤ meshFrameQueueLen) :
    (oneGate ids gateIds).FrameBook meshFrameQueueLen (allFrames (oneGate ids gateIds)) := by
  obtain ⟨hnd, hndg, hdisj⟩ := List.nodup_append'.mp hids
  refine ⟨⟨List.nodup_nil, fun p => ?_, fun _ _ _ => List.not_mem_nil, fun p q x hp hq => ?_, fun _ => Iff.rfl⟩, ?_, rfl⟩
  · rw [oneGate_queueIds]
    split_ifs
    · exact hnd
    · exact hndg
    · exact List.nodup_nil
  · rw [oneGate_queueIds] at hp hq
    rcases p with _ | _ | p <;> rcases q with _ | _ | q
    · rfl
    · exact (hdisj hp hq).elim
    · exact nomatch hq
    · exact (hdisj hq hp).elim
    · rfl
    · exact nomatch hq
    all_goals exact nomatch hp
  · intro p a ha
    rcases p with _ | _ | p
    · obtain rfl := Option.some.inj ha; exact ⟨(List.length_map _).symm, hlen⟩
    · obtain rfl := Option.some.inj ha; exact ⟨(List.length_map _).symm, hgate⟩
    · exact nomatch ha

theorem oneGate_live (ids gateIds : List ℕ) : (FrameCall.sendToGates 0).Live (oneGate ids gateIds) := by
  intro q hq
  rcases List.mem_cons.mp hq with rfl | hq
  · rfl
  · rw [List.mem_singleton.mp hq]; rfl

/-- Nine frames to a gate with one. -/
theorem frames_conserved_nine :
    ∃ s', (FrameCall.sendToGates 0).run meshFrameQueueLen (oneGate [1, 2, 3, 4, 5, 6, 7, 8, 9] [10]) = some s' ∧
      s'.FrameBook meshFrameQueueLen (allFrames (oneGate [1, 2, 3, 4, 5, 6, 7, 8, 9] [10])) := by
  refine (frames_conserved_iff meshFrameQueueLen _ _ _ (oneGate_book (by decide) (by decide) (by decide))
    (oneGate_live _ _)).mpr ?_
  rintro ⟨gate, g, b, hfirst, -, hg, -, hb, hfull⟩
  obtain rfl : 1 = gate := Option.some.inj hfirst
  obtain rfl := Option.some.inj hg
  obtain rfl := Option.some.inj hb
  exact absurd hfull (by decide)

/-- Of ten frames one finds no room beside a frame of the gate. -/
theorem tenth_frame_lost :
    ¬ ∃ s', (FrameCall.sendToGates 0).run meshFrameQueueLen (oneGate [1, 2, 3, 4, 5, 6, 7, 8, 9, 10] [11]) = some s' ∧
      s'.FrameBook meshFrameQueueLen (allFrames (oneGate [1, 2, 3, 4, 5, 6, 7, 8, 9, 10] [11])) :=
  FrameCall.loses (oneGate_book (by decide) (by decide) (by decide)) (oneGate_live _ _)
    ⟨1, _, _, rfl, by decide, rfl, nofun, rfl, by decide⟩

end Rtl8852cu.Mesh
