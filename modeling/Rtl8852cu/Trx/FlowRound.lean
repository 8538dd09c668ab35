import Mathlib.Data.List.Nodup
import Rtl8852cu.Lib.Grouping
import Rtl8852cu.Trx.FlowCtrl

/-!
# What a round of the transmit flow control serves

* `planOf`: the plan of a station from the status objects it got; `sort_concat`: what
  `_phl_sort_ring_by_tid` keeps; `checkTringLists_spec`: the objects go to the rings with requests
  in the order of the walk, until the pool is empty;
* `FlowInv`: the result is the management and high-queue rings, and behind them the data rings
  grouped by TID; `flowPlan_spec`: a station keeps it;
* `txRound_spec`: which rings are on the result, in which order, and where the status objects are.
-/

namespace Rtl8852cu.Trx

open Lib

variable {Req : Type*}

/-! ### The plan of a station -/

/-- The order of `sorted_ring`. -/
def RingCat.served : List RingCat :=
  [.hiq, .mgnt, .tid7, .tid6, .tid5, .tid4, .tid3, .tid0, .tid2, .tid1]

def ofCat (g : List RingSts) (cat : RingCat) : List RingSts := g.filter fun sts => sts.cat = cat

/-- `sorted_ring` when the status objects `g` were taken. -/
def sortedOf (g : List RingSts) : List RingSts := RingCat.served.flatMap (ofCat g)

/-- The plan when the status objects `g` were taken. -/
def planOf (sleep : Bool) (g : List RingSts) : TxPlan :=
  ⟨sleep, ofCat g .mgnt ≠ [], ofCat g .hiq ≠ [], sortedOf g⟩

def TxPlan.Clear (plan : TxPlan) : Prop := plan = planOf plan.sleep []

instance (plan : TxPlan) : Decidable plan.Clear := inferInstanceAs (Decidable (_ = _))

/-- In the order of the categories, one at most of each. -/
def Ascending (cats : List RingCat) : Prop := cats.Pairwise fun c d => c.idx < d.idx

theorem ascending_all : Ascending RingCat.all := by
  unfold Ascending; decide

theorem ofCat_concat (g : List RingSts) (x : RingSts) (cat : RingCat) :
    ofCat (g ++ [x]) cat = ofCat g cat ++ if x.cat = cat then [x] else [] := by
  unfold ofCat
  rw [List.filter_append]
  by_cases h : x.cat = cat <;> simp [h]

section Sorting

variable {g : List RingSts} {x : RingSts} {cat : RingCat}

theorem ofCat_eq_nil (h : Ascending ((g ++ [x]).map RingSts.cat)) (hcat : x.cat.idx ≤ cat.idx) :
    ofCat g cat = [] := by
  unfold ofCat
  rw [List.filter_eq_nil_iff]
  intro y hy heq
  rw [Ascending, List.map_append, List.pairwise_append] at h
  have hlt := h.2.2 y.cat (List.mem_map_of_mem hy) x.cat (by simp)
  have hyc : y.cat = cat := by simpa using heq
  rw [hyc] at hlt; omega

theorem ofCat_length_le (h : Ascending (g.map RingSts.cat)) (cat : RingCat) : (ofCat g cat).length ≤ 1 := by
  have hnd : (g.map RingSts.cat).Nodup := h.imp fun hlt heq => by
    rw [heq] at hlt; omega
  have hcount : (ofCat g cat).length = (g.map RingSts.cat).count cat := by
    unfold ofCat
    rw [List.count, List.countP_map, List.countP_eq_length_filter]; rfl
  rw [hcount]; exact List.nodup_iff_count.mp hnd cat

theorem sort_concat (sleep : Bool) (h : Ascending ((g ++ [x]).map RingSts.cat)) :
    sortRingByTid x (planOf sleep g) x.cat = planOf sleep (g ++ [x]) := by
  have hnil : ∀ cat, x.cat.idx ≤ cat.idx → ofCat g cat = [] := fun cat => ofCat_eq_nil h
  have hasc : Ascending (g.map RingSts.cat) :=
    (List.pairwise_append.mp (List.map_append ▸ h : Ascending _)).1
  unfold sortRingByTid planOf sortedOf
  simp only [RingCat.served, List.flatMap_cons, List.flatMap_nil, List.append_nil, ofCat_concat]
  generalize hc : x.cat = c at *
  cases c with
  | tid1 =>
    simp (disch := decide) [hnil]
  | tid2 =>
    -- the one case that looks at the ring before it
    simp only [hnil .hiq (by decide), hnil .mgnt (by decide), hnil .tid7 (by decide),
      hnil .tid6 (by decide), hnil .tid5 (by decide), hnil .tid4 (by decide),
      hnil .tid3 (by decide), hnil .tid2 (by decide)]
    have h1 := ofCat_length_le hasc .tid1
    have hcat0 : ∀ y ∈ ofCat g .tid0, y.cat = .tid0 := fun y hy => by
      simpa using (List.mem_filter.mp hy).2
    have hcat1 : ∀ y ∈ ofCat g .tid1, y.cat = .tid1 := fun y hy => by
      simpa using (List.mem_filter.mp hy).2
    generalize ofCat g .tid1 = g1 at h1 hcat1
    generalize ofCat g .tid0 = g0 at hcat0
    match g1, h1 with
    | [], _ =>
      rcases List.eq_nil_or_concat g0 with rfl | ⟨g0, y, rfl⟩
      · simp
      · have hy : y.cat = .tid0 := hcat0 y (by simp); simp [hy]
    | [y], _ =>
      have hy : y.cat = .tid1 := hcat1 y (by simp)
      simp [hy]
  | _ => simp (disch := decide) [hnil]

end Sorting

/-! ### The check -/

/-- What the check leaves of a station: all but `phl_next_idx` of its rings and the plan. -/
structure Alike (l l' : TringList Req) : Prop where
  macid : l'.macid = l.macid
  band : l'.band = l.band
  wmm : l'.wmm = l.wmm
  port : l'.port = l.port
  avail : ∀ cat, (l'.phlRing cat).avail = (l.phlRing cat).avail

theorem Alike.refl (l : TringList Req) : Alike l l := ⟨rfl, rfl, rfl, rfl, fun _ => rfl⟩

theorem Alike.trans {l l' l'' : TringList Req} (h : Alike l l') (h' : Alike l' l'') : Alike l l'' where
  macid := h'.macid.trans h.macid
  band := h'.band.trans h.band
  wmm := h'.wmm.trans h.wmm
  port := h'.port.trans h.port
  avail cat := (h'.avail cat).trans (h.avail cat)

/-- The rings with requests among some. -/
def busyOf (l : TringList Req) (cats : List RingCat) : List RingCat :=
  cats.filter fun cat => (l.phlRing cat).avail ≠ 0

/-- The status of a ring in the object of a slot. -/
def stsOf (l : TringList Req) (i slot : ℕ) (cat : RingCat) : RingSts :=
  ⟨slot, l.band, l.wmm, l.port, (l.phlRing cat).avail, (i, cat)⟩

section Check

variable {l l' : TringList Req} {i : ℕ} {idle : List ℕ} {g : List RingSts} {sleep : Bool}
  {cat : RingCat} {cats : List RingCat}

theorem Alike.busyOf (h : Alike l l') : busyOf l' cats = Trx.busyOf l cats := by
  unfold Trx.busyOf
  simp only [h.avail]

theorem Alike.stsOf (h : Alike l l') : stsOf l' i = Trx.stsOf l i := by
  unfold Trx.stsOf
  simp only [h.avail, h.band, h.wmm, h.port]

theorem avail_phlCheckRing (ring : TxRing Req) : ring.phlCheckRing.1.avail = ring.avail := by
  unfold TxRing.phlCheckRing
  simp only
  split <;> rfl

theorem checkRing_none (h : (l.phlRing cat).avail = 0 ∨ idle = []) : checkRing i (idle, l) cat = (idle, l) := by
  unfold checkRing checkRingStatus
  by_cases hz : (l.phlRing cat).avail = 0
  · simp only [if_pos hz]
  · obtain rfl := h.resolve_left hz
    simp only [if_neg hz]

theorem checkRing_some (i : ℕ) (idle : List ℕ) (slot : ℕ) (h : (l.phlRing cat).avail ≠ 0) :
    ∃ l', checkRing i (slot :: idle, l) cat =
        (idle, { l' with txPlan := sortRingByTid (stsOf l i slot cat) l.txPlan cat }) ∧
      Alike l l' := by
  refine ⟨{ l with phlRing := Function.update l.phlRing cat (l.phlRing cat).phlCheckRing.1 }, ?_,
    ⟨rfl, rfl, rfl, rfl, fun c => ?_⟩⟩
  · unfold checkRing checkRingStatus
    simp only [if_neg h]; rfl
  · by_cases hc : c = cat
    · subst hc; simp [avail_phlCheckRing]
    · simp [hc]

theorem foldl_checkRing (i : ℕ) (idle : List ℕ) (cats : List RingCat) (hasc : Ascending (g.map RingSts.cat ++ cats))
    (hplan : l.txPlan = planOf sleep g) :
    (cats.foldl (checkRing i) (idle, l)).1 = idle.drop (busyOf l cats).length ∧
      Alike l (cats.foldl (checkRing i) (idle, l)).2 ∧
      (cats.foldl (checkRing i) (idle, l)).2.txPlan =
        planOf sleep (g ++ List.zipWith (stsOf l i) idle (busyOf l cats)) := by
  induction cats generalizing idle l g with
  | nil => exact ⟨rfl, Alike.refl l, by simpa [busyOf] using hplan⟩
  | cons cat cats ih =>
    have hrest : Ascending (g.map RingSts.cat ++ cats) :=
      hasc.sublist ((List.sublist_cons_self cat cats).append_left _)
    rw [List.foldl_cons]
    by_cases hz : (l.phlRing cat).avail = 0
    · have hbusy : busyOf l (cat :: cats) = busyOf l cats := by simp [busyOf, hz]
      rw [checkRing_none (.inl hz), hbusy]; exact ih idle hrest hplan
    · have hbusy : busyOf l (cat :: cats) = cat :: busyOf l cats := by simp [busyOf, hz]
      cases idle with
      | nil =>
        rw [checkRing_none (.inr rfl), hbusy, List.drop_nil, List.zipWith_nil_left]
        have h := ih [] hrest hplan
        rwa [List.drop_nil, List.zipWith_nil_left] at h
      | cons slot idle =>
        obtain ⟨l', hl', halike⟩ := checkRing_some i idle slot hz
        have hcat : (stsOf l i slot cat).cat = cat := rfl
        have hasc' : Ascending ((g ++ [stsOf l i slot cat]).map RingSts.cat ++ cats) := by
          rwa [List.map_append, List.append_assoc]
        have hsort := sort_concat sleep (List.pairwise_append.mp hasc').1
        rw [hcat, ← hplan] at hsort
        have halike' : Alike l { l' with txPlan := sortRingByTid (stsOf l i slot cat) l.txPlan cat } :=
          ⟨halike.macid, halike.band, halike.wmm, halike.port, halike.avail⟩
        obtain ⟨h1, h2, h3⟩ := ih idle
          (l := { l' with txPlan := sortRingByTid (stsOf l i slot cat) l.txPlan cat }) hasc' hsort
        rw [hl', hbusy, List.length_cons, List.drop_succ_cons, List.zipWith_cons_cons]
        rw [halike'.busyOf] at h1 h3
        rw [halike'.stsOf, List.append_assoc] at h3; exact ⟨h1, halike'.trans h2, h3⟩

/-- The rings of a station with requests. -/
def busyRings (i : ℕ) (l : TringList Req) : List (ℕ × RingCat) :=
  (busyOf l RingCat.all).map fun cat => (i, cat)

def got (idle : List ℕ) (i : ℕ) (l : TringList Req) : List RingSts :=
  List.zipWith (stsOf l i) idle (busyOf l RingCat.all)

theorem checkTringList_spec (idle : List ℕ) (i : ℕ) (hclear : l.txPlan.Clear) :
    (checkTringList idle i l).1 = idle.drop (busyRings i l).length ∧
      (checkTringList idle i l).2.txPlan = planOf l.txPlan.sleep (got idle i l) := by
  obtain ⟨h1, -, h3⟩ := foldl_checkRing i idle RingCat.all (g := []) ascending_all hclear
  rw [List.nil_append] at h3
  unfold checkTringList got
  rw [busyRings, List.length_map]; exact ⟨h1, h3⟩

/-- The status objects all stations get. -/
def gots (idle : List ℕ) (i : ℕ) : List (TringList Req) → List (List RingSts)
  | [] => []
  | l :: ls => got idle i l :: gots (idle.drop (busyRings i l).length) (i + 1) ls

/-- The rings with requests, in the order of the walk. -/
def allBusyRings (i : ℕ) : List (TringList Req) → List (ℕ × RingCat)
  | [] => []
  | l :: ls => busyRings i l ++ allBusyRings (i + 1) ls

theorem checkTringLists_spec (idle : List ℕ) (i : ℕ) {ls : List (TringList Req)} (hclear : ∀ l ∈ ls, l.txPlan.Clear) :
    (checkTringLists idle i ls).1 = idle.drop (allBusyRings i ls).length ∧
      (checkTringLists idle i ls).2.map (·.txPlan) =
        List.zipWith (fun l g => planOf l.txPlan.sleep g) ls (gots idle i ls) := by
  induction ls generalizing idle i with
  | nil => exact ⟨rfl, rfl⟩
  | cons l ls ih =>
    rw [List.forall_mem_cons] at hclear
    obtain ⟨h1, h2⟩ := checkTringList_spec idle i hclear.1
    obtain ⟨h3, h4⟩ := ih (checkTringList idle i l).1 (i + 1) hclear.2
    rw [h1] at h3 h4
    refine ⟨?_, ?_⟩
    · rw [checkTringLists, h1, allBusyRings, List.length_append, ← List.drop_drop]; exact h3
    · rw [checkTringLists, h1, gots, List.zipWith_cons_cons, List.map_cons, h2, h4]

theorem map_ringPtr_got : (got idle i l).map (·.ringPtr) = (busyRings i l).take idle.length := by
  unfold got busyRings
  generalize busyOf l RingCat.all = cats
  induction cats generalizing idle with
  | nil => simp
  | cons cat cats ih => cases idle <;> simp_all [stsOf]

theorem map_slot_got : (got idle i l).map (·.slot) = idle.take (busyRings i l).length := by
  unfold got busyRings
  generalize busyOf l RingCat.all = cats
  induction cats generalizing idle with
  | nil => simp
  | cons cat cats ih => cases idle <;> simp_all [stsOf]

theorem map_slot_gots (ls : List (TringList Req)) :
    (gots idle i ls).flatten.map (·.slot) = idle.take (allBusyRings i ls).length := by
  induction ls generalizing idle i with
  | nil => simp [gots, allBusyRings]
  | cons l ls ih =>
    rw [gots, allBusyRings, List.flatten_cons, List.map_append, map_slot_got, ih, List.length_append, List.take_add]

end Check

/-! ### The flow control -/

def tidOf (sts : RingSts) : ℕ := cvtCatToTid sts.cat

/-- The management and high-queue rings of a station, as they stand on the result. -/
def highOf (g : List RingSts) : List RingSts := ofCat g .mgnt ++ ofCat g .hiq

/-- The data rings of a station, in the order in which they are placed. -/
def dataOf (g : List RingSts) : List RingSts :=
  [.tid7, .tid6, .tid5, .tid4, .tid3, .tid0, .tid2, .tid1].flatMap (ofCat g)

theorem sortedOf_eq (g : List RingSts) : sortedOf g = ofCat g .hiq ++ (ofCat g .mgnt ++ dataOf g) := rfl

variable {g : List RingSts} {sts : RingSts}

theorem cat_of_mem_ofCat {cat : RingCat} (h : sts ∈ ofCat g cat) : sts.cat = cat := by
  simpa using (List.mem_filter.mp h).2

theorem isHigh_of_mem_highOf (h : sts ∈ highOf g) : sts.cat.IsHigh := by
  rcases List.mem_append.mp h with h | h
  · exact .inl (cat_of_mem_ofCat h)
  · exact .inr (cat_of_mem_ofCat h)

theorem not_isHigh_of_mem_dataOf (h : sts ∈ dataOf g) : ¬ sts.cat.IsHigh := by
  obtain ⟨cat, hcat, hmem⟩ := List.mem_flatMap.mp h
  rw [cat_of_mem_ofCat hmem]
  revert hcat
  cases cat <;> decide

theorem sortedOf_perm (g : List RingSts) : (sortedOf g).Perm g := by
  induction g with
  | nil => exact List.Perm.refl _
  | cons x g ih =>
    have hmem : x.cat ∈ RingCat.served := by cases x.cat <;> decide
    obtain ⟨u, v, huv⟩ := List.append_of_mem hmem
    have hnd : (u ++ x.cat :: v).Nodup := huv ▸ (by decide : RingCat.served.Nodup)
    have hother : ∀ cat, x.cat ≠ cat → ofCat (x :: g) cat = ofCat g cat := fun cat hne =>
      List.filter_cons_of_neg (by simpa using hne)
    have hself : ofCat (x :: g) x.cat = x :: ofCat g x.cat :=
      List.filter_cons_of_pos (by simp)
    have hu : u.flatMap (ofCat (x :: g)) = u.flatMap (ofCat g) :=
      List.flatMap_congr fun cat hcat => hother cat fun heq =>
        (List.disjoint_of_nodup_append hnd) hcat (heq ▸ List.mem_cons_self)
    have hv : v.flatMap (ofCat (x :: g)) = v.flatMap (ofCat g) :=
      List.flatMap_congr fun cat hcat => hother cat fun heq =>
        (List.nodup_cons.mp (List.nodup_append.mp hnd).2.1).1 (heq ▸ hcat)
    have hstep : sortedOf (x :: g) = u.flatMap (ofCat g) ++ x :: (ofCat g x.cat ++ v.flatMap (ofCat g)) := by
      rw [sortedOf, huv, List.flatMap_append, List.flatMap_cons, hu, hv, hself, List.cons_append]
    have hold : sortedOf g = u.flatMap (ofCat g) ++ (ofCat g x.cat ++ v.flatMap (ofCat g)) := by
      rw [sortedOf, huv, List.flatMap_append, List.flatMap_cons]
    rw [hstep]; exact List.perm_middle.trans ((hold ▸ ih).cons x)

theorem high_data_perm (g : List RingSts) : (highOf g ++ dataOf g).Perm g := by
  refine List.Perm.trans ?_ (sortedOf_perm g)
  rw [sortedOf_eq, highOf, ← List.append_assoc]; exact List.perm_append_comm.append_right _

section Flow

variable {s : FctrlSt} {g : List RingSts} {x : RingSts} {F D : List RingSts}

theorem insertAfter_eq {u v : List RingSts} {y : RingSts} (h : y.slot ∉ u.map (·.slot)) :
    insertAfter y.slot x (u ++ y :: v) = u ++ y :: x :: v := by
  induction u with
  | nil => simp [insertAfter]
  | cons w u ih =>
    rw [List.map_cons, List.mem_cons, not_or] at h
    rw [List.cons_append, insertAfter, if_neg (Ne.symm h.1), ih h.2]; rfl

/-- The result, and where `tid_entry` points. -/
structure FlowInv (s : FctrlSt) (F D : List RingSts) : Prop where
  result : s.result = F ++ Grouping.grouped tidOf D
  tidEntry : ∀ tid, s.tidEntry tid = (D.filter fun sts => tidOf sts = tid).getLast?.map (·.slot)
  slots : ((F ++ D).map (·.slot)).Nodup

theorem FlowInv.placeTid (h : FlowInv s F D) (hx : x.slot ∉ (F ++ D).map (·.slot)) :
    FlowInv (placeTid s x) F (D ++ [x]) := by
  have hgrouped : (Grouping.grouped tidOf D).Perm D := Grouping.grouped_perm D
  have hperm := hgrouped.map (·.slot)
  have hfilter : (Grouping.grouped tidOf D).filter (fun z => tidOf z = tidOf x) =
      D.filter fun z => tidOf z = tidOf x := Grouping.filter_grouped D (tidOf x)
  refine ⟨?_, fun tid => ?_, ?_⟩
  · have hentry := h.tidEntry (tidOf x)
    rw [← hfilter] at hentry
    by_cases hnew : ∃ z ∈ Grouping.grouped tidOf D, tidOf z = tidOf x
    · obtain ⟨u, y, v, hl, hy, hv⟩ := Grouping.exists_last hnew
      have hfilter : (Grouping.grouped tidOf D).filter (fun z => tidOf z = tidOf x) =
          u.filter (fun z => tidOf z = tidOf x) ++ [y] := by
        rw [hl, List.filter_append, List.filter_cons_of_pos (by simpa using hy), Grouping.filter_eq_nil_of hv]
      have hslot : y.slot ∉ (F ++ u).map (·.slot) := by
        have hnd : ((F ++ u ++ y :: v).map (·.slot)).Nodup := by
          rw [List.append_assoc, ← hl, List.map_append]
          exact ((List.map_append ▸ (List.Perm.append_left _ hperm.symm)).nodup_iff).mp
            (List.map_append ▸ h.slots)
        rw [List.map_append, List.map_cons] at hnd
        exact fun hmem => (List.disjoint_of_nodup_append hnd) hmem List.mem_cons_self
      rw [hfilter, List.getLast?_append, List.getLast?_singleton] at hentry
      rw [placeTid_of_some hentry, h.result, Grouping.grouped_concat, hl, ← List.append_assoc, insertAfter_eq hslot, Grouping.place_behind hy hv,
        List.append_assoc]
    · have hz : ∀ z ∈ Grouping.grouped tidOf D, tidOf z ≠ tidOf x :=
        fun z hz hk => hnew ⟨z, hz, hk⟩
      rw [Grouping.filter_eq_nil_of hz] at hentry
      rw [placeTid_of_none hentry, h.result, Grouping.grouped_concat, Grouping.place_of_new hz]
      exact List.append_assoc _ _ _
  · show Function.update s.tidEntry (tidOf x) (some x.slot) tid = _
    rw [List.filter_append]
    by_cases ht : tidOf x = tid
    · subst ht; simp
    · rw [Function.update_of_ne (Ne.symm ht), h.tidEntry]; simp [ht]
  · rw [← List.append_assoc, List.map_append]
    exact List.nodup_append.mpr ⟨h.slots, by simp, fun a ha b hb => by
      rw [List.map_singleton, List.mem_singleton] at hb; exact fun heq => hx (hb ▸ heq ▸ ha)⟩

theorem FlowInv.foldl_placeTid {xs : List RingSts} (h : FlowInv s F D)
    (hnd : ((F ++ D ++ xs).map (·.slot)).Nodup) : FlowInv (xs.foldl Trx.placeTid s) F (D ++ xs) := by
  induction xs generalizing s D with
  | nil => simpa using h
  | cons x xs ih =>
    have hx : x.slot ∉ (F ++ D).map (·.slot) := by
      rw [List.map_append, List.map_cons] at hnd
      exact fun hmem => (List.disjoint_of_nodup_append hnd) hmem List.mem_cons_self
    have hstep := ih (h.placeTid hx) (by simpa using hnd)
    simpa using hstep

theorem flowPlan_awake (h : Ascending (g.map RingSts.cat)) : flowPlan s (planOf false g) =
      (dataOf g).foldl placeTid { s with result := highOf g ++ s.result } := by
  have hh := ofCat_length_le h .hiq
  have hm := ofCat_length_le h .mgnt
  unfold flowPlan planOf highOf
  rw [sortedOf_eq]
  generalize ofCat g .hiq = hs at hh
  generalize ofCat g .mgnt = ms at hm
  match hs, hh, ms, hm with
  | [], _, [], _ => simp
  | [], _, [m], _ => simp [takeFirst]
  | [y], _, [], _ => simp [takeFirst]
  | [y], _, [m], _ => simp [takeFirst]

theorem flowPlan_asleep : flowPlan s (planOf true g) = { s with idle := s.idle ++ (sortedOf g).map (·.slot) } := rfl

theorem foldl_placeTid_idle (xs : List RingSts) (s : FctrlSt) : (xs.foldl placeTid s).idle = s.idle := by
  induction xs generalizing s with
  | nil => rfl
  | cons x xs ih => exact ih (placeTid s x)

/-- The stations on `sta_list`, each with its `sleep` flag and the status objects it got. -/
abbrev Stations := List (Bool × List RingSts)

/-- The status objects of the stations that are awake. -/
def awakeOf (ps : Stations) : List (List RingSts) := (ps.filter fun p => !p.1).map (·.2)

def asleepOf (ps : Stations) : List (List RingSts) := (ps.filter (·.1)).map (·.2)

def frontOf (ps : Stations) : List RingSts := (awakeOf ps).reverse.flatMap highOf

/-- The data rings, in the order in which they are placed. -/
def placedOf (ps : Stations) : List RingSts := (awakeOf ps).flatMap dataOf

theorem front_placed_perm (ps : Stations) : (frontOf ps ++ placedOf ps).Perm (awakeOf ps).flatten := by
  unfold frontOf placedOf
  generalize awakeOf ps = gs
  induction gs with
  | nil => exact List.Perm.refl _
  | cons g gs ih =>
    rw [List.reverse_cons, List.flatMap_append, List.flatMap_singleton, List.flatMap_cons, List.flatten_cons]
    have hmid : (gs.reverse.flatMap highOf ++ highOf g ++ (dataOf g ++ gs.flatMap dataOf)).Perm
        (highOf g ++ dataOf g ++ (gs.reverse.flatMap highOf ++ gs.flatMap dataOf)) := by
      rw [List.append_assoc, ← List.append_assoc (highOf g)]
      exact List.perm_append_comm_assoc _ _ _
    exact hmid.trans ((high_data_perm g).append ih)

theorem awake_asleep_perm (ps : Stations) :
    ((awakeOf ps).flatten ++ (asleepOf ps).flatten).Perm (ps.flatMap (·.2)) := by
  induction ps with
  | nil => exact List.Perm.refl _
  | cons p ps ih =>
    obtain ⟨sleep, g⟩ := p
    rw [List.flatMap_cons]
    cases sleep with
    | false =>
      show (g ++ (awakeOf ps).flatten ++ (asleepOf ps).flatten).Perm _
      rw [List.append_assoc]; exact ih.append_left g
    | true =>
      show ((awakeOf ps).flatten ++ (g ++ (asleepOf ps).flatten)).Perm _
      exact (List.perm_append_comm_assoc _ _ _).trans (ih.append_left g)

theorem phlTxFlowCtrl_spec (idle : List ℕ) (ps : Stations) (hasc : ∀ p ∈ ps, Ascending (p.2.map RingSts.cat))
    (hnd : ((ps.flatMap (·.2)).map (·.slot)).Nodup) :
    FlowInv (phlTxFlowCtrl ⟨idle, [], fun _ => none⟩ (ps.map fun p => planOf p.1 p.2))
        (frontOf ps) (placedOf ps) ∧
      (phlTxFlowCtrl ⟨idle, [], fun _ => none⟩ (ps.map fun p => planOf p.1 p.2)).idle =
        idle ++ ((asleepOf ps).flatMap sortedOf).map (·.slot) := by
  induction ps using List.reverseRecOn with
  | nil => exact ⟨⟨rfl, fun _ => rfl, List.nodup_nil⟩, (List.append_nil _).symm⟩
  | append_singleton ps p ih =>
    obtain ⟨sleep, g⟩ := p
    have hsub : ((ps.flatMap (·.2)).map (·.slot)).Nodup := by
      rw [List.flatMap_append, List.map_append] at hnd; exact (List.nodup_append.mp hnd).1
    obtain ⟨hinv, hidle⟩ := ih (fun p hp => hasc p (List.mem_append_left _ hp)) hsub
    rw [List.map_append, phlTxFlowCtrl, List.foldl_append]
    generalize hs : (ps.map fun p => planOf p.1 p.2).foldl flowPlan ⟨idle, [], fun _ => none⟩ = s
    rw [phlTxFlowCtrl, hs] at hinv hidle
    show FlowInv (flowPlan s (planOf sleep g)) _ _ ∧ (flowPlan s (planOf sleep g)).idle = _
    cases sleep with
    | true =>
      have hawake : awakeOf (ps ++ [(true, g)]) = awakeOf ps := by simp [awakeOf]
      have hasleep : asleepOf (ps ++ [(true, g)]) = asleepOf ps ++ [g] := by simp [asleepOf]
      rw [flowPlan_asleep, frontOf, placedOf, hawake, hasleep, List.flatMap_append,
        List.flatMap_singleton, List.map_append, ← List.append_assoc, ← hidle]
      exact ⟨⟨hinv.result, hinv.tidEntry, hinv.slots⟩, rfl⟩
    | false =>
      have hawake : awakeOf (ps ++ [(false, g)]) = awakeOf ps ++ [g] := by simp [awakeOf]
      have hasleep : asleepOf (ps ++ [(false, g)]) = asleepOf ps := by simp [asleepOf]
      have hfront : frontOf (ps ++ [(false, g)]) = highOf g ++ frontOf ps := by
        rw [frontOf, hawake, List.reverse_append, List.flatMap_append, List.reverse_singleton,
          List.flatMap_singleton, frontOf]
      have hplaced : placedOf (ps ++ [(false, g)]) = placedOf ps ++ dataOf g := by
        rw [placedOf, hawake, List.flatMap_append, List.flatMap_singleton, placedOf]
      -- all the status objects in play are different
      have hslots : ((frontOf (ps ++ [(false, g)]) ++ placedOf (ps ++ [(false, g)])).map
          (·.slot)).Nodup := by
        have hall := ((awake_asleep_perm (ps ++ [(false, g)])).map (·.slot)).nodup_iff.mpr hnd
        rw [List.map_append] at hall
        exact ((front_placed_perm _).map _).nodup_iff.mpr (List.nodup_append.mp hall).1
      have hg := hasc (false, g) (by simp)
      rw [flowPlan_awake hg, hfront, hplaced, foldl_placeTid_idle, hasleep]
      rw [hfront, hplaced, ← List.append_assoc] at hslots
      refine ⟨FlowInv.foldl_placeTid ⟨?_, hinv.tidEntry, ?_⟩ hslots, hidle⟩
      · rw [List.append_assoc, ← hinv.result]
      · rw [List.map_append] at hslots ⊢
        rw [List.map_append] at hslots; exact (List.nodup_append.mp hslots).1

end Flow

/-! ### A round -/

section Round

variable {ls : List (TringList Req)} {idle : List ℕ} {i : ℕ}

def stationsOf (idle : List ℕ) (i : ℕ) (ls : List (TringList Req)) : Stations :=
  List.zipWith (fun l g => (l.txPlan.sleep, g)) ls (gots idle i ls)

/-- The station at a place of the list is awake. -/
def awakeAt (ls : List (TringList Req)) (j : ℕ) : Bool := (ls[j]?).any fun l => !l.txPlan.sleep

theorem ascending_got (idle : List ℕ) (i : ℕ) (l : TringList Req) : Ascending ((got idle i l).map RingSts.cat) := by
  have hmap : (got idle i l).map RingSts.cat = ((got idle i l).map (·.ringPtr)).map (·.2) := by
    rw [List.map_map]; rfl
  rw [hmap, map_ringPtr_got, busyRings, ← List.map_take, List.map_map]
  have hid : (fun p : ℕ × RingCat => p.2) ∘ (fun cat => (i, cat)) = id := rfl
  rw [hid, List.map_id]
  exact ascending_all.sublist ((List.take_sublist _ _).trans List.filter_sublist)

theorem ascending_stationsOf (idle : List ℕ) (i : ℕ) (ls : List (TringList Req)) :
    ∀ p ∈ stationsOf idle i ls, Ascending (p.2.map RingSts.cat) := by
  induction ls generalizing idle i with
  | nil => exact fun _ h => nomatch h
  | cons l ls ih =>
    rw [stationsOf, gots, List.zipWith_cons_cons, List.forall_mem_cons]
    exact ⟨ascending_got idle i l, ih _ _⟩

theorem flatMap_stationsOf (idle : List ℕ) (i : ℕ) (ls : List (TringList Req)) :
    (stationsOf idle i ls).flatMap (·.2) = (gots idle i ls).flatten := by
  induction ls generalizing idle i with
  | nil => rfl
  | cons l ls ih =>
    rw [stationsOf, gots, List.zipWith_cons_cons, List.flatMap_cons, List.flatten_cons]
    exact congrArg (got idle i l ++ ·) (ih _ _)

theorem fst_of_mem_busyRings {l : TringList Req} {p : ℕ × RingCat} (h : p ∈ busyRings i l) : p.1 = i := by
  obtain ⟨cat, -, rfl⟩ := List.mem_map.mp h
  rfl

theorem le_of_mem_allBusyRings {p : ℕ × RingCat} (h : p ∈ allBusyRings i ls) : i ≤ p.1 := by
  induction ls generalizing i with
  | nil => cases h
  | cons l ls ih =>
    rcases List.mem_append.mp h with h | h
    · exact Nat.le_of_eq (fst_of_mem_busyRings h).symm
    · exact Nat.le_of_succ_le (ih h)

theorem allBusyRings_nodup (i : ℕ) (ls : List (TringList Req)) : (allBusyRings i ls).Nodup := by
  induction ls generalizing i with
  | nil => exact List.nodup_nil
  | cons l ls ih =>
    refine List.nodup_append.mpr ⟨?_, ih (i + 1), fun p hp q hq heq => ?_⟩
    · have hall : RingCat.all.Nodup := by decide
      exact (hall.filter _).map fun c d h => (congrArg Prod.snd h : c = d)
    · have hle := le_of_mem_allBusyRings hq
      rw [← heq, fst_of_mem_busyRings hp] at hle; omega

theorem map_ringPtr_awakeOf (idle : List ℕ) (i : ℕ) (ls : List (TringList Req)) :
    (awakeOf (stationsOf idle i ls)).flatten.map (·.ringPtr) =
      ((allBusyRings i ls).take idle.length).filter fun p => awakeAt ls (p.1 - i) := by
  induction ls generalizing idle i with
  | nil => simp [stationsOf, gots, awakeOf, allBusyRings]
  | cons l ls ih =>
    have hih := ih (idle.drop (busyRings i l).length) (i + 1)
    have hhead : ((busyRings i l).take idle.length).filter
          (fun p => awakeAt (l :: ls) (p.1 - i)) =
        if l.txPlan.sleep then [] else (busyRings i l).take idle.length := by
      have hmem : ∀ p ∈ (busyRings i l).take idle.length,
          awakeAt (l :: ls) (p.1 - i) = !l.txPlan.sleep := fun p hp => by
        rw [fst_of_mem_busyRings (List.mem_of_mem_take hp), Nat.sub_self]; rfl
      rw [List.filter_congr hmem]; cases l.txPlan.sleep <;> simp
    have htail : ((allBusyRings (i + 1) ls).take (idle.length - (busyRings i l).length)).filter
          (fun p => awakeAt (l :: ls) (p.1 - i)) =
        ((allBusyRings (i + 1) ls).take (idle.length - (busyRings i l).length)).filter
          (fun p => awakeAt ls (p.1 - (i + 1))) := by
      refine List.filter_congr fun p hp => ?_
      have hle := le_of_mem_allBusyRings (List.mem_of_mem_take hp)
      rw [show p.1 - i = p.1 - (i + 1) + 1 by omega]; rfl
    rw [List.length_drop] at hih
    rw [allBusyRings, List.take_append, List.filter_append, hhead, htail, ← hih, stationsOf, gots,
      List.zipWith_cons_cons]
    cases hsl : l.txPlan.sleep with
    | true => rfl
    | false =>
      show ((got idle i l) ++ (awakeOf _).flatten).map _ = _
      rw [List.map_append, map_ringPtr_got]; rfl

theorem foldl_flowPlan_filter (ps : Stations) (s : FctrlSt) :
    ((ps.map fun p => planOf p.1 p.2).filter fun plan => plan.sortedRing ≠ []).foldl flowPlan s =
      (ps.map fun p => planOf p.1 p.2).foldl flowPlan s := by
  induction ps generalizing s with
  | nil => rfl
  | cons p ps ih =>
    obtain ⟨sleep, g⟩ := p
    rw [List.map_cons, List.foldl_cons]
    by_cases hg : sortedOf g = []
    · have hnil : g = [] := (hg ▸ sortedOf_perm g).symm.eq_nil
      subst hnil
      have hskip : flowPlan s (planOf sleep []) = s := by
        cases sleep
        · rfl
        · exact congrArg (fun l => FctrlSt.mk l s.result s.tidEntry) (List.append_nil _)
      rw [List.filter_cons_of_neg (by simpa [planOf] using hg), ih, hskip]
    · rw [List.filter_cons_of_pos (by simpa [planOf] using hg), List.foldl_cons, ih]

theorem zipWith_planOf (idle : List ℕ) (i : ℕ) (ls : List (TringList Req)) :
    List.zipWith (fun l g => planOf l.txPlan.sleep g) ls (gots idle i ls) =
      (stationsOf idle i ls).map fun p => planOf p.1 p.2 := by
  rw [stationsOf, List.map_zipWith]

theorem txRound_eq (useOnetxring : Bool) (idle : List ℕ) (hidle : idle.Nodup) (hclear : ∀ l ∈ ls, l.txPlan.Clear) :
    let ps := stationsOf idle 0 (walked useOnetxring ls)
    let r := txRound useOnetxring idle ls
    r.result = frontOf ps ++ Grouping.grouped tidOf (placedOf ps) ∧
      r.idle = idle.drop (allBusyRings 0 (walked useOnetxring ls)).length ++
        ((asleepOf ps).flatMap sortedOf).map (·.slot) ∧
      ∀ l ∈ r.tRingList, l.txPlan.Clear := by
  intro ps r
  have hwalked : ∀ l ∈ walked useOnetxring ls, l.txPlan.Clear := fun l hl => by
    refine hclear l ?_
    unfold walked at hl
    split at hl
    · exact List.mem_of_mem_take hl
    · exact hl
  obtain ⟨h1, h2⟩ := checkTringLists_spec idle 0 hwalked
  rw [zipWith_planOf] at h2
  have hnd : ((ps.flatMap (·.2)).map (·.slot)).Nodup := by
    rw [flatMap_stationsOf, map_slot_gots]; exact hidle.sublist (List.take_sublist _ _)
  obtain ⟨hinv, hret⟩ := phlTxFlowCtrl_spec
    (checkTringLists idle 0 (walked useOnetxring ls)).1 ps (ascending_stationsOf _ _ _) hnd
  rw [phlTxFlowCtrl, ← foldl_flowPlan_filter, ← h2] at hinv hret
  refine ⟨hinv.result, h1 ▸ hret, fun l hl => ?_⟩
  rcases List.mem_append.mp hl with hl | hl
  · obtain ⟨l', hl', rfl⟩ := List.mem_map.mp hl
    have hplan := List.mem_map_of_mem (f := fun l : TringList Req => l.txPlan) hl'
    rw [h2] at hplan
    obtain ⟨p, -, hp⟩ := List.mem_map.mp hplan
    split
    · exact rfl
    · rename_i hempty
      rw [not_not, ← hp] at hempty
      have hnil : p.2 = [] := (hempty ▸ sortedOf_perm p.2 : List.Perm [] p.2).symm.eq_nil
      rw [TxPlan.Clear, ← hp, hnil]; rfl
  · exact hclear l (List.mem_of_mem_drop hl)

theorem highs_frontOf (ps : Stations) : ∀ sts ∈ frontOf ps, sts.cat.IsHigh := by
  intro sts h
  obtain ⟨g, -, hg⟩ := List.mem_flatMap.mp h
  exact isHigh_of_mem_highOf hg

theorem data_placedOf (ps : Stations) : ∀ sts ∈ placedOf ps, ¬ sts.cat.IsHigh := by
  intro sts h
  obtain ⟨g, -, hg⟩ := List.mem_flatMap.mp h
  exact not_isHigh_of_mem_dataOf hg

/-- A station with one request on each of some rings. -/
def stationWith (cats : List RingCat) : TringList ℕ :=
  { macid := 0, band := 0, wmm := 0, port := 0,
    phlRing := fun cat => { TxRing.init with coreIdx := if cat ∈ cats then 1 else 0 },
    txPlan := .init }

end Round

end Rtl8852cu.Trx
