import Rtl8852cu.Lib.Custody
import Rtl8852cu.Recv.Fragments
import Rtl8852cu.Recv.Pool

/-!
# Every receive frame in one place

Between two packets a receive frame is in the free queue or in one `defrag_q`; what is shown to the OS
is its buffer, and the frame goes back to the free queue.
-/

namespace Rtl8852cu.Recv

open Function (update update_self update_of_ne)

/-- The frames in `held` have a packet, those in `bare` need not; all of them are in the hands of
`rtw_core_rx_process`, every other frame is in the free queue or in one `defrag_q`, and none has been
given back twice. -/
structure Owned (n : ℕ) (bare held : List FrameId) (st : Pool) : Prop where
  custody : Lib.Custody {f | f < n} st.free (bare ++ held) st.defragQ
  pkt : ∀ f, f ∈ held ∨ (∃ s, f ∈ st.defragQ s) → st.pkt f = true
  once : st.again = []

section

variable {n : ℕ} {bare held : List FrameId} {f : FrameId} {st : Pool}

/-! ### The moves of a frame -/

theorem Owned.init (n : ℕ) (hdr : FrameId → RecvFrame) : Owned n [] [] (.init n hdr) where
  custody := ⟨by simpa [Pool.init] using List.nodup_range, fun _ => List.nodup_nil, nofun, nofun,
    fun a => by simp [Pool.init]⟩
  pkt := fun f h => by simp [Pool.init] at h
  once := rfl

theorem Owned.lt (h : Owned n bare held st) (hf : f ∈ bare ++ held) : f < n :=
  (h.custody.mem_iff f).2 (.inl (List.mem_append_right _ hf))

theorem Owned.not_free (h : Owned n bare held st) (hf : f ∈ bare ++ held) : f ∉ st.free :=
  fun hm => (List.nodup_append'.1 h.custody.nodup).2.2 hm hf

variable {s : StaId}

theorem Owned.queue_lt (h : Owned n bare held st) (hf : f ∈ st.defragQ s) : f < n :=
  (h.custody.mem_iff f).2 (.inr ⟨s, hf⟩)

theorem Owned.queue_not_free (h : Owned n bare held st) (hf : f ∈ st.defragQ s) :
    f ∉ st.free := fun hm => h.custody.disjoint s f hf (List.mem_append_left _ hm)

theorem Owned.setHdr (h : Owned n bare held st) (r : RecvFrame) :
    Owned n bare held (st.setHdr f r) := ⟨h.custody, h.pkt, h.once⟩

theorem Owned.alloc {st' : Pool} (h : Owned n [] held st)
    (ha : rtwAllocRecvframe st = some (f, st')) : Owned n [f] held st' := by
  unfold rtwAllocRecvframe at ha
  have hc := h.custody
  cases hfree : st.free with
  | nil => simp [hfree] at ha
  | cons g rest =>
    rw [hfree] at ha hc
    cases ha
    exact ⟨hc.take, h.pkt, h.once⟩

theorem Owned.setPkt (h : Owned n [f] held st) : Owned n [] (f :: held) (st.setPkt f) := by
  refine ⟨h.custody, fun g hg => ?_, h.once⟩
  by_cases hgf : g = f
  · simp [Pool.setPkt, hgf]
  · have hg' : g ∈ held ∨ ∃ s, g ∈ st.defragQ s := by
      rcases hg with hg | hg
      · exact .inl ((List.mem_cons.1 hg).resolve_left hgf)
      · exact .inr hg
    change update st.pkt f true g = true
    rw [update_of_ne hgf]; exact h.pkt g hg'

theorem Owned.release (h : Owned n bare held st) (hlt : f < n) (hnf : f ∉ st.free) :
    Lib.Custody {f | f < n} (rtwFreeRecvframe f st).free ((bare ++ held).erase f)
        (rtwFreeRecvframe f st).defragQ ∧
      (rtwFreeRecvframe f st).again = [] := by
  refine ⟨?_, ?_⟩
  · have hc := h.custody.release (a := f) hlt hnf
    change Lib.Custody _ (st.free.erase f ++ [f]) _ _
    rwa [List.erase_of_not_mem hnf]
  · change (if f ∈ st.free then f :: st.again else st.again) = []
    rw [if_neg hnf]; exact h.once

theorem Owned.release_pkt (h : Owned n bare held st) {held' : List FrameId} (hsub : ∀ g ∈ held', g ∈ held ∧ g ≠ f) :
    ∀ g, g ∈ held' ∨ (∃ s, g ∈ (rtwFreeRecvframe f st).defragQ s) → (rtwFreeRecvframe f st).pkt g = true := by
  intro g hg
  have hne : g ≠ f ∧ (g ∈ held ∨ ∃ s, g ∈ st.defragQ s) := by
    rcases hg with hg | ⟨s, hs⟩
    · exact ⟨(hsub g hg).2, .inl (hsub g hg).1⟩
    · have hs' : g ∈ (st.defragQ s).erase f := hs
      refine ⟨fun he => ?_, .inr ⟨s, List.mem_of_mem_erase hs'⟩⟩
      rw [he] at hs'; exact (h.custody.queue_nodup s).not_mem_erase hs'
  change update st.pkt f false g = true
  rw [update_of_ne hne.1]; exact h.pkt g hne.2

theorem Owned.freeBare (h : Owned n [f] held st) : Owned n [] held (rtwFreeRecvframe f st) := by
  have hf : f ∈ [f] ++ held := by simp
  obtain ⟨hc, ho⟩ := h.release (h.lt hf) (h.not_free hf)
  have hnd : ([f] ++ held).Nodup := h.custody.nodup.of_append_right
  refine ⟨by simpa using hc, h.release_pkt fun g hg => ⟨hg, ?_⟩, ho⟩
  rintro rfl
  exact (List.nodup_cons.1 hnd).1 hg

theorem Owned.freeHeld (h : Owned n [] (f :: held) st) : Owned n [] held (rtwFreeRecvframe f st) := by
  have hf : f ∈ [] ++ f :: held := by simp
  obtain ⟨hc, ho⟩ := h.release (h.lt hf) (h.not_free hf)
  have hnd : (f :: held).Nodup := h.custody.nodup.of_append_right
  refine ⟨by simpa using hc, h.release_pkt fun g hg => ⟨List.mem_cons_of_mem _ hg, ?_⟩, ho⟩
  rintro rfl
  exact (List.nodup_cons.1 hnd).1 hg

theorem Owned.freeQueued (h : Owned n [] held st) (hf : f ∈ st.defragQ s) :
    Owned n [] held (rtwFreeRecvframe f st) := by
  obtain ⟨hc, ho⟩ := h.release (h.queue_lt hf) (h.queue_not_free hf)
  have hnot : f ∉ held := fun hm =>
    h.custody.disjoint s f hf (List.mem_append_right _ (List.mem_append_right _ hm))
  refine ⟨?_, h.release_pkt fun g hg => ⟨hg, fun he => hnot (he ▸ hg)⟩, ho⟩
  rwa [List.nil_append, List.erase_of_not_mem hnot] at hc

variable {fs : List FrameId}

theorem Owned.freeAll (h : Owned n [] (fs ++ held) st) : Owned n [] held (rtwFreeRecvframes fs st) := by
  induction fs generalizing st with
  | nil => exact h
  | cons f fs ih => exact ih (Owned.freeHeld h)

theorem Owned.freeAllQueued (h : Owned n [] held st) (hnd : fs.Nodup) (hq : ∀ f ∈ fs, f ∈ st.defragQ s) :
    Owned n [] held (rtwFreeRecvframes fs st) := by
  induction fs generalizing st with
  | nil => exact h
  | cons f fs ih =>
    obtain ⟨hf, hnd⟩ := List.nodup_cons.1 hnd
    refine ih (h.freeQueued (hq f (List.mem_cons_self ..))) hnd fun g hg => ?_
    have hne : g ≠ f := by
      rintro rfl
      exact hf hg
    exact (List.mem_erase_of_ne hne).2 (hq g (List.mem_cons_of_mem _ hg))

theorem Owned.freeStainfo (stas : List StaId) (h : Owned n [] held st) :
    Owned n [] held (rtwFreeStainfo stas st) := by
  induction stas generalizing st with
  | nil => exact h
  | cons s stas ih => exact ih (h.freeAllQueued (h.custody.queue_nodup s) fun f hf => hf)

/-! ### A frame that has been given back stays in the free queue -/

variable {g : FrameId}

theorem mem_free_rtwFreeRecvframe (h : g ∈ st.free ∨ g = f) : g ∈ (rtwFreeRecvframe f st).free := by
  change g ∈ st.free.erase f ++ [f]
  by_cases hg : g = f
  · simp [hg]
  · have := h.resolve_right hg; simp [List.mem_erase_of_ne hg, this]

theorem mem_free_rtwFreeRecvframes (h : g ∈ st.free ∨ g ∈ fs) : g ∈ (rtwFreeRecvframes fs st).free := by
  induction fs generalizing st with
  | nil =>
    rcases h with h | h
    · exact h
    · cases h
  | cons f fs ih =>
    refine ih ?_
    rcases h with h | h
    · exact .inl (mem_free_rtwFreeRecvframe (.inl h))
    · rcases List.mem_cons.1 h with rfl | h
      · exact .inl (mem_free_rtwFreeRecvframe (.inr rfl))
      · exact .inr h

theorem mem_free_rtwFreeStainfo (stas : List StaId) (h : g ∈ st.free) : g ∈ (rtwFreeStainfo stas st).free := by
  induction stas generalizing st with
  | nil => exact h
  | cons s stas ih => exact ih (mem_free_rtwFreeRecvframes (.inl h))

theorem again_rtwFreeRecvframe (h : f ∈ st.free) : (rtwFreeRecvframe f st).again ≠ [] := by
  change (if f ∈ st.free then f :: st.again else st.again) ≠ []
  rw [if_pos h]; exact List.cons_ne_nil _ _

/-! ### Reassembly -/

/-- The frame `recvframe_chk_defrag` leaves to its caller. -/
def left (ret : CoreRxState) (frame : Option FrameId) : List FrameId :=
  if ret = .defrag then [] else frame.toList

theorem chkDefrag_perm (hdr : FrameId → RecvFrame) (q : Option (List FrameId)) (f : FrameId) :
    let out := recvframeChkDefrag hdr q f
    (q.getD [] ++ [f]).Perm (out.queue ++ (out.freed ++ left out.ret out.frame)) := by
  have hq : ∀ ret, ret ≠ .defrag → let out := chkDefragQueue hdr q f ret
      (q.getD [] ++ [f]).Perm (out.queue ++ (out.freed ++ left out.ret out.frame)) := by
    intro ret hret
    unfold chkDefragQueue
    by_cases hm : (hdr f).attrib.mfrag = true
    · cases q with
      | none => simp [hm, left]
      | some q =>
        by_cases h0 : (hdr f).attrib.fragNum = 0
        · simp [hm, h0, left]
        · simp [hm, h0, left]
    · by_cases h0 : (hdr f).attrib.fragNum = 0
      · simp [hm, h0, left, hret]
      · cases q with
        | none => simp [hm, h0, left]
        | some q =>
          cases hd : recvframeDefrag ((q ++ [f]).map hdr) with
          | none => simp_all [left]
          | some r =>
            -- the head of the queue is returned, the others are freed
            obtain ⟨g, rest, hgr⟩ : ∃ g rest, q ++ [f] = g :: rest :=
              List.exists_cons_of_ne_nil (by simp)
            have hperm := (List.perm_append_singleton g rest).symm
            simp_all [left]
  unfold recvframeChkDefrag
  simp only
  split
  · exact hq _ (by simp)
  · split
    · exact hq _ (by simp)
    · exact hq _ (by simp)

theorem chkDefrag_no_queue (hdr : FrameId → RecvFrame) (f : FrameId) :
    (recvframeChkDefrag hdr none f).queue = [] := by
  have hqueue : ∀ ret, (chkDefragQueue hdr none f ret).queue = [] := by
    intro ret
    unfold chkDefragQueue
    by_cases hm : (hdr f).attrib.mfrag = true
    · simp [hm]
    · by_cases h0 : (hdr f).attrib.fragNum = 0 <;> simp [hm, h0]
  unfold recvframeChkDefrag
  simp only
  split
  · exact hqueue _
  · split
    · exact hqueue _
    · exact hqueue _

/-- A last fragment: not `more_frag`, a fragment number other than 0, and a queue to put it in. -/
def LastFragment (r : RecvFrame) (hasQueue : Bool) : Prop :=
  r.attrib.mfrag = false ∧ r.attrib.fragNum ≠ 0 ∧ hasQueue = true

variable {hdr : FrameId → RecvFrame}

theorem chkDefrag_last {q : Option (List FrameId)}
    (h : LastFragment (hdr f) q.isSome) : f ∈ (recvframeChkDefrag hdr q f).freed := by
  obtain ⟨hm, h0, hq⟩ := h
  obtain ⟨q, rfl⟩ := Option.isSome_iff_exists.1 hq
  have hqueue : ∀ ret, f ∈ (chkDefragQueue hdr (some q) f ret).freed := by
    intro ret
    unfold chkDefragQueue
    simp only [hm, Bool.false_eq_true, if_false, if_pos h0]
    cases hd : recvframeDefrag ((q ++ [f]).map hdr) with
    | none => simp
    | some r =>
      cases q with
      | nil => simp [recvframeDefrag, h0] at hd
      | cons g q => simp
  unfold recvframeChkDefrag
  simp only
  split
  · exact hqueue _
  · split
    · exact hqueue _
    · exact hqueue _

theorem chkDefrag_not_last {q : Option (List FrameId)}
    (h : ¬ LastFragment (hdr f) q.isSome) : (recvframeChkDefrag hdr q f).frame = some f := by
  have hqueue : ∀ ret, (chkDefragQueue hdr q f ret).frame = some f := by
    intro ret
    unfold chkDefragQueue
    by_cases hm : (hdr f).attrib.mfrag = true
    · cases q with
      | none => simp [hm]
      | some q => by_cases h0 : (hdr f).attrib.fragNum = 0 <;> simp [hm, h0]
    · by_cases h0 : (hdr f).attrib.fragNum = 0
      · simp [hm, h0]
      · cases q with
        | none => simp [hm, h0]
        | some q => exact absurd ⟨by simpa using hm, h0, rfl⟩ h
  unfold recvframeChkDefrag
  simp only
  split
  · exact hqueue _
  · split
    · exact hqueue _
    · exact hqueue _

theorem chkDefrag_defrag {q : Option (List FrameId)} (h : (recvframeChkDefrag hdr q f).ret = .defrag) :
    f ∈ (recvframeChkDefrag hdr q f).queue ∧ q.isSome = true := by
  have hqueue : ∀ ret, ret ≠ .defrag → (chkDefragQueue hdr q f ret).ret = .defrag →
      f ∈ (chkDefragQueue hdr q f ret).queue ∧ q.isSome = true := by
    intro ret hret hr
    unfold chkDefragQueue at hr ⊢
    by_cases hm : (hdr f).attrib.mfrag = true
    · cases q with
      | none => simp [hm] at hr
      | some q => by_cases h0 : (hdr f).attrib.fragNum = 0 <;> simp [hm, h0]
    · by_cases h0 : (hdr f).attrib.fragNum = 0
      · simp [hm, h0, hret] at hr
      · cases q with
        | none => simp [hm, h0] at hr
        | some q =>
          cases hd : recvframeDefrag ((q ++ [f]).map hdr) with
          | none => simp_all
          | some r => simp_all
  unfold recvframeChkDefrag at h ⊢
  simp only at h ⊢
  split at h
  · rename_i hc
    rw [if_pos hc]; exact hqueue _ (by simp) h
  · rename_i hc
    rw [if_neg hc]
    split at h
    · rename_i hc
      rw [if_pos hc]; exact hqueue _ (by simp) h
    · rename_i hc
      rw [if_neg hc]; exact hqueue _ (by simp) h

variable {q : Option StaId} {k : Int}

theorem Owned.setQueue {held' : List FrameId} (h : Owned n [] held st)
    (hp : ((q.map st.defragQ).getD [] ++ held).Perm (fs ++ held')) (hq : q = none → fs = []) :
    Owned n [] held' (st.setQueue q fs) := by
  have hpkt : ∀ g, g ∈ fs ++ held' → st.pkt g = true := by
    intro g hg
    rcases List.mem_append.1 (hp.mem_iff.2 hg) with hg | hg
    · cases q with
      | none => cases hg
      | some s => exact h.pkt g (.inr ⟨s, hg⟩)
    · exact h.pkt g (.inl hg)
  cases q with
  | none =>
    rw [hq rfl] at hp hpkt
    exact ⟨h.custody.move (hp.append_left _), fun g hg => hg.elim (hpkt g) fun hg => h.pkt g (.inr hg), h.once⟩
  | some s =>
    refine ⟨h.custody.exchange hp, fun g hg => ?_, h.once⟩
    rcases hg with hg | ⟨t, hg⟩
    · exact hpkt g (List.mem_append_right _ hg)
    · change g ∈ update st.defragQ s fs t at hg
      by_cases ht : t = s
      · rw [ht, update_self] at hg; exact hpkt g (List.mem_append_left _ hg)
      · rw [update_of_ne ht] at hg; exact h.pkt g (.inr ⟨t, hg⟩)

theorem Owned.setWhole (h : Owned n [] held st) (g : Option FrameId) (r : Option RecvFrame) :
    Owned n [] held (st.setWhole g r) := by
  unfold Pool.setWhole
  split
  · exact h.setHdr _
  · exact h

/-- The frame as `recvframe_chk_defrag` looks at it. -/
abbrev marked (q : Option StaId) (k : Int) (f : FrameId) (st : Pool) : Pool :=
  st.setHdr f (markKeytrack q.isSome k (st.hdr f))

theorem poolChkDefrag_owned (h : Owned n [] (f :: held) st) :
    Owned n [] (left (poolChkDefrag q k f st).1 (poolChkDefrag q k f st).2.1 ++ held)
      (poolChkDefrag q k f st).2.2 := by
  have h1 : Owned n [] (f :: held) (marked q k f st) := h.setHdr _
  have hperm := chkDefrag_perm (marked q k f st).hdr (q.map st.defragQ) f
  refine Owned.freeAll (Owned.setWhole (Owned.setQueue h1 ?_ ?_) _ _)
  · have := hperm.append_right held
    rw [List.append_assoc, List.append_assoc, List.append_assoc] at this; exact this
  · rintro rfl; exact chkDefrag_no_queue _ _

theorem mem_queue_rtwFreeRecvframes
    (h : g ∈ st.defragQ s) (hg : g ∉ fs) : g ∈ (rtwFreeRecvframes fs st).defragQ s := by
  induction fs generalizing st with
  | nil => exact h
  | cons f fs ih =>
    rw [List.mem_cons, not_or] at hg; exact ih ((List.mem_erase_of_ne hg.1).2 h) hg.2

theorem poolChkDefrag_defrag (ho : Owned n [] (f :: held) st) (h : (poolChkDefrag q k f st).1 = .defrag) :
    ∃ s, f ∈ (poolChkDefrag q k f st).2.2.defragQ s := by
  have hperm := chkDefrag_perm (marked q k f st).hdr (q.map st.defragQ) f
  obtain ⟨hmem, hq⟩ := chkDefrag_defrag (q := q.map st.defragQ) h
  obtain ⟨s, rfl⟩ := Option.isSome_iff_exists.1 (by simpa using hq)
  -- the frame is in the queue, so it is not among the frames given back
  have hnd : (st.defragQ s ++ [f]).Nodup := by
    rw [List.nodup_append']
    refine ⟨ho.custody.queue_nodup s, List.nodup_singleton f, fun g hg hf => ?_⟩
    rw [List.mem_singleton] at hf
    subst hf; exact ho.custody.disjoint s g hg (by simp)
  have hdisj := (List.nodup_append'.1 (hperm.nodup_iff.1 hnd)).2.2
  refine ⟨s, mem_queue_rtwFreeRecvframes ?_ fun hf => hdisj hmem (List.mem_append_left _ hf)⟩
  have hset : ((marked (some s) k f st).setQueue (some s)
      (recvframeChkDefrag (marked (some s) k f st).hdr ((some s).map st.defragQ) f).queue).defragQ s =
      (recvframeChkDefrag (marked (some s) k f st).hdr ((some s).map st.defragQ) f).queue :=
    update_self ..
  rw [← hset] at hmem
  unfold Pool.setWhole
  split
  · exact hmem
  · exact hmem

@[simp] theorem markKeytrack_attrib (b : Bool) (k : Int) (r : RecvFrame) :
    (markKeytrack b k r).attrib = r.attrib := by
  unfold markKeytrack
  split <;> rfl

theorem lastFragment_marked : LastFragment ((marked q k f st).hdr f) (q.map st.defragQ).isSome ↔
      LastFragment (st.hdr f) q.isSome := by
  have : (marked q k f st).hdr f = markKeytrack q.isSome k (st.hdr f) := update_self ..
  unfold LastFragment
  rw [this, markKeytrack_attrib, Option.isSome_map]

theorem poolChkDefrag_last (h : LastFragment (st.hdr f) q.isSome) : f ∈ (poolChkDefrag q k f st).2.2.free :=
  mem_free_rtwFreeRecvframes (.inr (chkDefrag_last (lastFragment_marked.2 h)))

theorem poolChkDefrag_not_last (h : ¬ LastFragment (st.hdr f) q.isSome) : (poolChkDefrag q k f st).2.1 = some f :=
  chkDefrag_not_last fun hl => h (lastFragment_marked.1 hl)

/-! ### validate_recv_frame -/

/-- A management frame that gets to `recvframe_chk_defrag` as the last fragment of a queue. -/
def IfaceRx.LastMgntFragment (v : IfaceRx) : Prop :=
  v.version0 = true ∧ v.type = .mgt ∧ ∃ r, v.mgmtProtect = some r ∧ LastFragment r v.sta.isSome

theorem validate_owned {v : IfaceRx} (hv : ¬ v.LastMgntFragment) (h : Owned n [] (f :: held) st) :
    if (validateRecvFrame v f st).1 then Owned n [] (f :: held) (validateRecvFrame v f st).2
    else Owned n [] held (rtwFreeRecvframe f (validateRecvFrame v f st).2) := by
  unfold validateRecvFrame
  split
  · exact h.freeHeld
  · rename_i hver
    cases ht : v.type with
    | ctrl => exact h.freeHeld
    | other => exact h.freeHeld
    | data =>
      cases hd : v.data with
      | none => exact h.freeHeld
      | some r => exact h.setHdr r
    | mgt =>
      change Owned n [] held (rtwFreeRecvframe f (validateRecvMgntFrame v f st))
      unfold validateRecvMgntFrame
      cases hp : v.mgmtProtect with
      | none => exact h.freeHeld
      | some r =>
        have h1 : Owned n [] (f :: held) (st.setHdr f r) := h.setHdr r
        have hr : (st.setHdr f r).hdr f = r := update_self ..
        have hnl : ¬ LastFragment ((st.setHdr f r).hdr f) v.sta.isSome := fun hl =>
          hv ⟨by simpa using hver, ht, r, hp, hr ▸ hl⟩
        have howned := poolChkDefrag_owned (q := v.sta) (k := v.keytrack) h1
        have hframe := poolChkDefrag_not_last (k := v.keytrack) hnl
        have hdefrag := poolChkDefrag_defrag (q := v.sta) (k := v.keytrack) h1
        simp only
        generalize poolChkDefrag v.sta v.keytrack f (st.setHdr f r) = out at *
        obtain ⟨ret, frame, st'⟩ := out
        simp only at howned hframe hdefrag ⊢
        subst hframe
        cases ret with
        | defrag =>
          obtain ⟨s, hs⟩ := hdefrag rfl
          exact Owned.freeQueued howned hs
        | cont => exact (howned.freeStainfo v.removed).freeHeld
        | done | drop | fail | goShortcut => exact howned.freeHeld

theorem validate_last {v : IfaceRx} (hv : v.LastMgntFragment) : (validateRecvFrame v f st).1 = false ∧
      (rtwFreeRecvframe f (validateRecvFrame v f st).2).again ≠ [] := by
  obtain ⟨hver, ht, r, hp, hl⟩ := hv
  unfold validateRecvFrame
  rw [if_neg (by simp [hver]), ht]
  refine ⟨rfl, again_rtwFreeRecvframe ?_⟩
  change f ∈ (validateRecvMgntFrame v f st).free
  unfold validateRecvMgntFrame
  rw [hp]
  have hr : (st.setHdr f r).hdr f = r := update_self ..
  have hfree := poolChkDefrag_last (k := v.keytrack) (hr.symm ▸ hl)
  simp only
  generalize poolChkDefrag v.sta v.keytrack f (st.setHdr f r) = out at *
  obtain ⟨ret, frame, st'⟩ := out
  cases ret with
  | cont => exact mem_free_rtwFreeStainfo _ hfree
  | defrag | done | drop | fail | goShortcut => exact hfree

/-! ### One packet -/

theorem Owned.rtwFree {r : Option FrameId} (h : Owned n [] (r.toList ++ held) st) :
    Owned n [] held (rtwFree r st) := by
  cases r with
  | none => exact h
  | some f => exact Owned.freeHeld h

theorem postProcess_owned (p : RxPkt) (h : Owned n [] (f :: held) st) : if (rtwCoreRxDataPostProcess p f st).1 then
      Owned n [] held (rtwCoreRxDataPostProcess p f st).2
    else Owned n [] (f :: held) (rtwCoreRxDataPostProcess p f st).2 := by
  unfold rtwCoreRxDataPostProcess
  split
  · exact h.freeHeld
  · cases p.msdu with
    | noAct | ethhdrFails | checkFails => exact h
    | forwardOnly => exact h.freeHeld
    | indicate =>
      -- a frame that is held has its packet, so `rtw_recv_indicatepkt` does not fail
      have hpkt := h.pkt f (.inl (List.mem_cons_self ..))
      simp only [rtwRecvIndicatepkt, hpkt, if_true]; exact h.freeHeld

theorem preProcess_owned (p : RxPkt) (h : Owned n [] (f :: held) st) :
    Owned n [] (left (rtwCoreRxDataPreProcess p f st).1 (rtwCoreRxDataPreProcess p f st).2.1 ++ held)
      (rtwCoreRxDataPreProcess p f st).2.2 := by
  unfold rtwCoreRxDataPreProcess
  cases p.decrypted with
  | none => exact h
  | some r =>
    have howned := poolChkDefrag_owned (q := p.rx.sta) (k := p.rx.keytrack) (h.setHdr (f := f) r)
    simp only
    generalize poolChkDefrag p.rx.sta p.rx.keytrack f (st.setHdr f r) = out at *
    obtain ⟨ret, frame, st'⟩ := out
    cases ret with
    | defrag | done | drop | fail | goShortcut => exact howned
    | cont =>
      cases frame with
      | none => exact howned
      | some g =>
        simp only
        split
        · exact howned
        · split
          · exact howned
          · exact howned

theorem rxUpdated_owned {p : RxPkt} (h : Owned n [] (f :: held) st)
    (hv : ¬ (p.err ∨ ¬ p.adapterUp ∨ p.shortcut) → ¬ p.rx.LastMgntFragment) :
    Owned n [] held (rxUpdated p f st) := by
  unfold rxUpdated
  split
  · exact h.freeHeld
  · rename_i hgo
    have hval := validate_owned (hv hgo) h
    generalize validateRecvFrame p.rx f st = out at *
    obtain ⟨ok, st'⟩ := out
    cases ok with
    | false => exact hval
    | true =>
      have hpre := preProcess_owned p (if_pos rfl ▸ hval)
      simp only
      generalize rtwCoreRxDataPreProcess p f st' = out at *
      obtain ⟨ret, frame, st''⟩ := out
      simp only at hpre ⊢
      cases ret with
      | defrag => exact hpre
      | done | drop | fail | goShortcut => exact hpre.rtwFree
      | cont =>
        cases frame with
        | none => exact hpre
        | some g =>
          have hpost := postProcess_owned p hpre
          simp only
          generalize rtwCoreRxDataPostProcess p g st'' = out at *
          obtain ⟨done, st3⟩ := out
          cases done with
          | true => exact hpost
          | false => exact Owned.freeHeld hpost

theorem rxUpdated_last {p : RxPkt} (hgo : ¬ (p.err ∨ ¬ p.adapterUp ∨ p.shortcut))
    (hv : p.rx.LastMgntFragment) : (rxUpdated p f st).again ≠ [] := by
  obtain ⟨hfalse, hagain⟩ := validate_last (f := f) hv
  unfold rxUpdated
  rw [if_neg hgo]
  generalize validateRecvFrame p.rx f st = out at *
  obtain ⟨ok, st'⟩ := out
  simp only at hfalse hagain ⊢
  subst hfalse; exact hagain

/-! ### Frames that have been given back twice -/

theorem again_ne_free (f : FrameId) (h : st.again ≠ []) : (rtwFreeRecvframe f st).again ≠ [] := by
  change (if f ∈ st.free then f :: st.again else st.again) ≠ []
  split
  · exact List.cons_ne_nil _ _
  · exact h

theorem again_ne_alloc {st' : Pool} (ha : rtwAllocRecvframe st = some (f, st'))
    (h : st.again ≠ []) : st'.again ≠ [] := by
  unfold rtwAllocRecvframe at ha
  split at ha
  · cases ha; exact h
  · cases ha

theorem again_ne_freeAll (fs : List FrameId) (h : st.again ≠ []) : (rtwFreeRecvframes fs st).again ≠ [] := by
  induction fs generalizing st with
  | nil => exact h
  | cons f fs ih => exact ih (again_ne_free f h)

theorem again_ne_freeStainfo (stas : List StaId) (h : st.again ≠ []) : (rtwFreeStainfo stas st).again ≠ [] := by
  induction stas generalizing st with
  | nil => exact h
  | cons s stas ih => exact ih (again_ne_freeAll _ h)

theorem again_ne_poolChkDefrag (q : Option StaId) (k : Int) (f : FrameId) (h : st.again ≠ []) :
    (poolChkDefrag q k f st).2.2.again ≠ [] := by
  refine again_ne_freeAll _ ?_
  unfold Pool.setWhole Pool.setQueue
  split <;> cases q <;> exact h

theorem again_ne_validate (v : IfaceRx) (f : FrameId) (h : st.again ≠ []) :
    (validateRecvFrame v f st).2.again ≠ [] := by
  unfold validateRecvFrame
  split
  · exact h
  · cases v.type with
    | ctrl | other => exact h
    | data =>
      cases hd : v.data with
      | none => exact h
      | some r => exact h
    | mgt =>
      change (validateRecvMgntFrame v f st).again ≠ []
      unfold validateRecvMgntFrame
      cases v.mgmtProtect with
      | none => exact h
      | some r =>
        have hchk := again_ne_poolChkDefrag v.sta v.keytrack f (show (st.setHdr f r).again ≠ [] from h)
        simp only
        generalize poolChkDefrag v.sta v.keytrack f (st.setHdr f r) = out at *
        obtain ⟨ret, frame, st'⟩ := out
        cases ret with
        | cont => exact again_ne_freeStainfo _ hchk
        | defrag | done | drop | fail | goShortcut => exact hchk

theorem again_ne_preProcess (p : RxPkt) (f : FrameId) (h : st.again ≠ []) :
    (rtwCoreRxDataPreProcess p f st).2.2.again ≠ [] := by
  unfold rtwCoreRxDataPreProcess
  cases p.decrypted with
  | none => exact h
  | some r =>
    have hchk := again_ne_poolChkDefrag p.rx.sta p.rx.keytrack f
      (show (st.setHdr f r).again ≠ [] from h)
    simp only
    generalize poolChkDefrag p.rx.sta p.rx.keytrack f (st.setHdr f r) = out at *
    obtain ⟨ret, frame, st'⟩ := out
    cases ret with
    | defrag | done | drop | fail | goShortcut => exact hchk
    | cont =>
      cases frame with
      | none => exact hchk
      | some g =>
        simp only
        split
        · exact hchk
        · split
          · exact hchk
          · exact hchk

theorem again_ne_postProcess (p : RxPkt) (f : FrameId) (h : st.again ≠ []) :
    (rtwCoreRxDataPostProcess p f st).2.again ≠ [] := by
  unfold rtwCoreRxDataPostProcess
  split
  · exact again_ne_free f h
  · cases p.msdu with
    | noAct | ethhdrFails | checkFails => exact h
    | forwardOnly | indicate => exact again_ne_free f h

theorem again_ne_rtwFree (f : Option FrameId) (h : st.again ≠ []) : (rtwFree f st).again ≠ [] := by
  cases f with
  | none => exact h
  | some f => exact again_ne_free f h

theorem again_ne_rxUpdated (p : RxPkt) (f : FrameId) (h : st.again ≠ []) : (rxUpdated p f st).again ≠ [] := by
  unfold rxUpdated
  split
  · exact again_ne_free f h
  · have hval := again_ne_validate p.rx f h
    generalize validateRecvFrame p.rx f st = out at *
    obtain ⟨ok, st'⟩ := out
    cases ok with
    | false => exact again_ne_free f hval
    | true =>
      have hpre := again_ne_preProcess p f hval
      simp only at hpre ⊢
      generalize rtwCoreRxDataPreProcess p f st' = out at *
      obtain ⟨ret, frame, st''⟩ := out
      simp only at hpre ⊢
      cases ret with
      | defrag => exact hpre
      | done | drop | fail | goShortcut => exact again_ne_rtwFree _ hpre
      | cont =>
        cases frame with
        | none => exact hpre
        | some g =>
          have hpost := again_ne_postProcess p g hpre
          simp only
          generalize rtwCoreRxDataPostProcess p g st'' = out at *
          obtain ⟨done, st3⟩ := out
          cases done with
          | true => exact hpost
          | false => exact again_ne_free g hpost

/-! ### The clones of a group-addressed packet -/

/-- The interfaces on which `rtw_mi_buddy_clone_bcmc_packet` calls `validate_recv_frame`. -/
def cloneValidations : List (Bool × IfaceRx) → Pool → List IfaceRx
  | [], _ => []
  | c :: rest, st =>
    match rtwAllocRecvframe st with
    | some (f, st) =>
      (if c.1 then [c.2] else []) ++ cloneValidations rest (cloneBcmcPacket c f st)
    | none => cloneValidations rest st

theorem clone_owned {c : Bool × IfaceRx} (h : Owned n [f] held st)
    (hv : c.1 = true → ¬ c.2.LastMgntFragment) : Owned n [] held (cloneBcmcPacket c f st) := by
  unfold cloneBcmcPacket
  split
  · rename_i hc
    have hval := validate_owned (hv hc) h.setPkt
    split at hval
    · exact hval.freeHeld
    · exact hval
  · exact h.freeBare

theorem clones_owned {cs : List (Bool × IfaceRx)} (h : Owned n [] held st)
    (hv : ∀ v ∈ cloneValidations cs st, ¬ v.LastMgntFragment) :
    Owned n [] held (rtwMiBuddyCloneBcmcPacket cs st) := by
  induction cs generalizing st with
  | nil => exact h
  | cons c cs ih =>
    unfold rtwMiBuddyCloneBcmcPacket
    unfold cloneValidations at hv
    cases ha : rtwAllocRecvframe st with
    | none =>
      rw [ha] at hv; exact ih h hv
    | some fs =>
      obtain ⟨f, st'⟩ := fs
      rw [ha] at hv
      simp only [List.forall_mem_append] at hv
      exact ih (clone_owned (h.alloc ha) fun hc => by simpa [hc] using hv.1) hv.2

theorem again_ne_clones (cs : List (Bool × IfaceRx)) (h : st.again ≠ []) :
    (rtwMiBuddyCloneBcmcPacket cs st).again ≠ [] := by
  induction cs generalizing st with
  | nil => exact h
  | cons c cs ih =>
    unfold rtwMiBuddyCloneBcmcPacket
    cases ha : rtwAllocRecvframe st with
    | none => exact ih h
    | some fs =>
      obtain ⟨f, st'⟩ := fs
      have h' : st'.again ≠ [] := again_ne_alloc ha h
      refine ih (again_ne_free f ?_)
      split
      · exact again_ne_validate _ _ h'
      · exact h'

theorem clones_last {cs : List (Bool × IfaceRx)} (hv : ∃ v ∈ cloneValidations cs st, v.LastMgntFragment) :
    (rtwMiBuddyCloneBcmcPacket cs st).again ≠ [] := by
  induction cs generalizing st with
  | nil =>
    obtain ⟨v, hm, -⟩ := hv
    cases hm
  | cons c cs ih =>
    unfold rtwMiBuddyCloneBcmcPacket
    unfold cloneValidations at hv
    cases ha : rtwAllocRecvframe st with
    | none =>
      rw [ha] at hv; exact ih hv
    | some fs =>
      obtain ⟨f, st'⟩ := fs
      rw [ha] at hv
      obtain ⟨v, hm, hl⟩ := hv
      rcases List.mem_append.1 hm with hm | hm
      · by_cases hc : c.1 = true
        · rw [if_pos hc, List.mem_singleton] at hm
          subst hm
          refine again_ne_clones cs ?_
          unfold cloneBcmcPacket
          rw [if_pos hc]; exact (validate_last hl).2
        · rw [if_neg hc] at hm; cases hm
      · exact ih ⟨v, hm, hl⟩

/-! ### A pass of the loop -/

/-- The interfaces on which a pass calls `validate_recv_frame`. -/
def validations (p : Option RxPkt) (st : Pool) : List IfaceRx :=
  match rtwAllocRecvframe st, p with
  | some (f, st), some p =>
    (if p.hasPkt ∧ p.bmc then cloneValidations p.clones (st.setPkt f) else []) ++
      (if (rtwCoreUpdateRecvframe p f st).1 ∧ ¬ (p.err ∨ ¬ p.adapterUp ∨ p.shortcut) then [p.rx]
        else [])
  | _, _ => []

theorem update_owned {p : RxPkt} (h : Owned n [f] held st)
    (hv : p.hasPkt ∧ p.bmc → ∀ v ∈ cloneValidations p.clones (st.setPkt f), ¬ v.LastMgntFragment) :
    if (rtwCoreUpdateRecvframe p f st).1 then
      Owned n [] (f :: held) (rtwCoreUpdateRecvframe p f st).2
    else Owned n [] held (rtwFreeRecvframe f (rtwCoreUpdateRecvframe p f st).2) := by
  unfold rtwCoreUpdateRecvframe
  split
  · exact h.freeBare
  · rename_i hp
    rw [not_not] at hp
    split
    · rename_i hb
      have hcl := clones_owned h.setPkt (hv ⟨hp, hb⟩)
      split
      · exact hcl
      · exact hcl.freeHeld
    · split
      · exact h.setPkt
      · exact h.setPkt.freeHeld

theorem rxPass_owned {p : Option RxPkt} (h : Owned n [] [] st)
    (hv : ∀ v ∈ validations p st, ¬ v.LastMgntFragment) : Owned n [] [] (rxPass p st).1 := by
  unfold rxPass
  unfold validations at hv
  cases ha : rtwAllocRecvframe st with
  | none => exact h
  | some fs =>
    obtain ⟨f, st'⟩ := fs
    have h' := h.alloc ha
    cases p with
    | none => exact h'.freeBare
    | some p =>
      rw [ha] at hv
      simp only [List.forall_mem_append] at hv
      have hup := update_owned (p := p) h' fun hb => by simpa [hb] using hv.1
      have hrx := hv.2
      simp only
      generalize rtwCoreUpdateRecvframe p f st' = out at *
      obtain ⟨ok, st2⟩ := out
      cases ok with
      | false => exact hup
      | true =>
        refine rxUpdated_owned hup fun hgo => ?_
        exact hrx _ (by rw [if_pos ⟨rfl, hgo⟩]; exact List.mem_singleton_self _)

theorem rxPass_last {p : Option RxPkt} (hv : ∃ v ∈ validations p st, v.LastMgntFragment) :
    (rxPass p st).1.again ≠ [] := by
  unfold rxPass
  obtain ⟨v, hm, hl⟩ := hv
  unfold validations at hm
  cases ha : rtwAllocRecvframe st with
  | none =>
    rw [ha] at hm; cases hm
  | some fs =>
    obtain ⟨f, st'⟩ := fs
    cases p with
    | none =>
      rw [ha] at hm; cases hm
    | some p =>
      rw [ha] at hm
      rcases List.mem_append.1 hm with hm | hm
      · -- one of the clones
        by_cases hb : p.hasPkt = true ∧ p.bmc = true
        · rw [if_pos hb] at hm
          have hup : (rtwCoreUpdateRecvframe p f st').2.again ≠ [] := by
            unfold rtwCoreUpdateRecvframe
            rw [if_neg (by simp [hb.1]), if_pos hb.2]; exact clones_last ⟨v, hm, hl⟩
          simp only
          generalize rtwCoreUpdateRecvframe p f st' = out at *
          obtain ⟨ok, st2⟩ := out
          cases ok with
          | false => exact again_ne_free f hup
          | true => exact again_ne_rxUpdated p f hup
        · rw [if_neg hb] at hm; cases hm
      · simp only
        generalize rtwCoreUpdateRecvframe p f st' = out at *
        obtain ⟨ok, st2⟩ := out
        split at hm
        · rename_i hgo
          obtain ⟨hok, hgo⟩ := hgo
          rw [List.mem_singleton] at hm
          subst hm
          simp only at hok
          subst hok; exact rxUpdated_last hgo hl
        · cases hm

/-! ### Runs -/

/-- The pool after a number of passes, from the start. -/
def passes (n : ℕ) (hdr : FrameId → RecvFrame) (ps : List (Option RxPkt)) : Pool :=
  ps.foldl (fun st p => (rxPass p st).1) (.init n hdr)


/-- Every frame is in the free queue or in one `defrag_q`, once, and none has been given back while it
was free. -/
structure Balanced (n : ℕ) (st : Pool) : Prop where
  place : ∀ f, f < n → (st.free.count f = 1 ∧ ∀ s, f ∉ st.defragQ s) ∨
      (f ∉ st.free ∧ ∃ s, (st.defragQ s).count f = 1 ∧ ∀ t, f ∈ st.defragQ t → t = s)
  once : st.again = []

theorem Owned.balanced (h : Owned n [] [] st) : Balanced n st := by
  refine ⟨fun f hf => ?_, h.once⟩
  have hfree : st.free.Nodup := h.custody.nodup.of_append_left
  rcases (h.custody.mem_iff f).1 hf with hm | ⟨s, hs⟩
  · have hm' : f ∈ st.free := by simpa using hm
    exact .inl ⟨List.count_eq_one_of_mem hfree hm', fun s hs => h.custody.disjoint s f hs hm⟩
  · refine .inr ⟨h.queue_not_free hs, s, ?_, fun t ht => h.custody.unique t s f ht hs⟩
    exact List.count_eq_one_of_mem (h.custody.queue_nodup s) hs

end

/-- **Balance.**  Between any two packets every receive frame is in the free queue or in one `defrag_q`
and no frame has been given back twice, exactly when no management frame that gets to
`recvframe_chk_defrag` is the last fragment of a queue. -/
theorem balanced_iff (n : ℕ) (hdr : FrameId → RecvFrame) (ps : List (Option RxPkt)) :
    (∀ k, Balanced n (passes n hdr (ps.take k))) ↔
      ∀ k p, ps[k]? = some p → ∀ v ∈ validations p (passes n hdr (ps.take k)), ¬ v.LastMgntFragment := by
  have hsucc : ∀ k p, ps[k]? = some p → passes n hdr (ps.take (k + 1)) = (rxPass p (passes n hdr (ps.take k))).1 := by
    intro k p hp
    unfold passes
    rw [List.take_add_one, hp]; simp
  constructor
  · intro hbal k p hp v hv hl
    have hagain := rxPass_last ⟨v, hv, hl⟩
    rw [← hsucc k p hp] at hagain; exact hagain (hbal (k + 1)).once
  · intro hv k
    refine Owned.balanced ?_
    induction k with
    | zero => exact Owned.init n hdr
    | succ k ih =>
      cases hp : ps[k]? with
      | none =>
        have hlen : ps.length ≤ k := List.getElem?_eq_none_iff.1 hp
        rwa [List.take_of_length_le (by omega), ← List.take_of_length_le hlen]
      | some p =>
        rw [hsucc k p hp]; exact rxPass_owned ih (hv k p hp)

/-- A management frame from station 0, without protection. -/
def mgntFrame (fragNum : ℕ) (mfrag : Bool) : RxPkt :=
  let f := plainFragment [2, 0, 0, 0, 0, 1] 5 fragNum mfrag [1]
  { hasPkt := true, bmc := false, clones := [], iface := true, monitor := false, err := false,
    adapterUp := true, shortcut := false,
    rx := ⟨true, .mgt, some 0, 0, some f, [], none⟩,
    decrypted := none, chkmic := true, portctrl := true, msdu := .indicate }

/-- A management frame with fragment number 1 and without `more_frag` is freed by `recvframe_defrag` and
once more by `rtw_core_rx_process`. -/
theorem not_balanced : ¬ ∀ n hdr ps k, Balanced n (passes n hdr (List.take k ps)) := by
  intro h
  have hb := h 4 (fun _ => plainFragment [] 0 0 false []) [some (mgntFrame 1 false)] 1
  exact absurd hb.once (by decide)

end Rtl8852cu.Recv
