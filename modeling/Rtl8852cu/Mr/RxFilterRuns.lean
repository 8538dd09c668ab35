import Mathlib.Data.List.Basic
import Mathlib.Order.Basic
import Mathlib.Order.MinMax
import Rtl8852cu.Lib.Poll
import Rtl8852cu.Mr.RxFilter

/-!
# What the receive filter is after a run of calls

* `Call.asks`, `wanted`: the targets that a mode asks for, and those that a link wants after some calls;
* `Roles.ActiveLink`: the links of the active roles of a band;
* `typeMode_run`: after a run of calls for such links the filter has the join of what they want.

A call is a ballot of `Lib.Poll` on the subtypes its mode is about; the registers are read as the outcome.
-/

namespace Rtl8852cu.Mr

open Lib

variable {roles : Roles} {s : RxFltr} {call : Call} {band : ℕ} {type : PktType} {i : Stype}

/-! ### What is to hold -/

def Target.rank : Target → ℕ
  | .drop => 0
  | .toHost => 1
  | .toWlcpu => 2

theorem Target.rank_injective : Function.Injective Target.rank := by
  intro a b h
  cases a <;> cases b <;> first | rfl | cases h

/-- Dropped frames are the least, frames to the firmware the most. -/
instance : LinearOrder Target := LinearOrder.lift' Target.rank Target.rank_injective

def Call.asks (call : Call) : PktType × Stype → Option Target
  | (.ctrl, i) =>
    match call.mode with
    | .roleInit | .staDisConn | .chanInfoDis => some .drop
    | .apDisConn => if call.assocStaCnt < 2 then some .drop else none
    | .staConn =>
      if i = stypeVhtHeNdpa ∨ i = stypeBar ∨ (call.wmode11ax = true ∧ i = stypeTrigger) then some .toHost else none
    | .apConn => if i = stypeVhtHeNdpa ∨ i = stypeBar ∨ i = stypePsPoll then some .toHost else none
    | .chanInfoEn => if i = stypeAck then some .toHost else none
    | .halInit | .staWowInitPre | .staWowInitPost => none
  | (.mgnt, _) | (.data, _) => if call.mode = .roleInit then some .toHost else none

/-- The target that a link wants for a subtype: the last one it asked for. -/
def wanted (s : RxFltr) (calls : List Call) (l : Link) (k : PktType × Stype) : Target :=
  lastVote (fun l k => s.cap l k.1 k.2) (calls.map fun call => (call.rlink, call.asks)) l k

/-- A link on the band of an active role. -/
def Roles.ActiveLink (roles : Roles) (band : ℕ) (l : Link) : Prop :=
  l.1 < roles.maxWifiRoleNumber ∧ roles.active l.1 = true ∧ l.2 < roles.rlinkNum l.1 ∧ roles.hwBand l = band

instance (roles : Roles) (band : ℕ) (l : Link) : Decidable (roles.ActiveLink band l) :=
  inferInstanceAs (Decidable (_ ∧ _ ∧ _ ∧ _))

def runCalls (roles : Roles) (s : RxFltr) (calls : List Call) : RxFltr :=
  calls.foldl (fun s call => (mrSetRxfltrTypeByMode roles s call).2) s

/-! ### The registers -/

theorem getLsbD_three (n : ℕ) : (0x3 : BitVec 32).getLsbD n = decide (n < 2) := by
  rw [show (0x3 : BitVec 32) = BitVec.ofNat 32 (2 ^ 2 - 1) from rfl, BitVec.getLsbD_ofNat, Nat.testBit_two_pow_sub_one,
    Bool.and_eq_right_iff_imp]
  exact fun h => decide_eq_true (by have := of_decide_eq_true h; omega)

theorem getLsbD_programmed (w : BitVec 32) (j : Stype) (n : ℕ) :
    (programmed w j).getLsbD n = (decide (n < 2) && w.getLsbD (j.val * 2 + n)) := by
  unfold programmed getFiel2
  rw [BitVec.getLsbD_and, BitVec.getLsbD_ushiftRight, getLsbD_three, Bool.and_comm]

theorem setClrWor2_bit (w v : BitVec 32) (i : Stype) {n : ℕ} (hn : n < 32) :
    (setClrWor2 w v (i.val * 2) 0x3).getLsbD n =
      if i.val * 2 ≤ n ∧ n < i.val * 2 + 2 then v.getLsbD (n - i.val * 2) else w.getLsbD n := by
  unfold setClrWor2
  simp only [BitVec.getLsbD_or, BitVec.getLsbD_and, BitVec.getLsbD_not, BitVec.getLsbD_shiftLeft, getLsbD_three, hn,
    decide_true, Bool.true_and]
  by_cases hle : i.val * 2 ≤ n
  · by_cases hlt : n < i.val * 2 + 2
    · have h2 : n - i.val * 2 < 2 := by omega
      rw [if_pos ⟨hle, hlt⟩]
      have hge : ¬ n < i.val * 2 := by omega
      simp [hge, h2]
    · have h2 : ¬ n - i.val * 2 < 2 := by omega
      rw [if_neg fun h => hlt h.2]
      simp [h2]
  · have hlt : n < i.val * 2 := by omega
    rw [if_neg fun h => hle h.1]
    simp [hlt]

theorem and_fifteen (i : Stype) : i.val &&& 0xf = i.val := by
  revert i
  decide

theorem fwdTarget_bit (t : Target) {n : ℕ} (hn : 2 ≤ n) : (fwdTarget t).getLsbD n = false := by
  have hlt : (fwdTarget t).toNat < 2 ^ n := by
    have h4 : (fwdTarget t).toNat < 2 ^ 2 := by cases t <;> decide
    exact h4.trans_le (Nat.pow_le_pow_right (by omega) hn)
  exact Nat.testBit_lt_two_pow hlt

theorem programmed_set (w : BitVec 32) (i j : Stype) (t : Target) :
    programmed (macSetTypsbtypFltrOpt w i t) j = if j = i then fwdTarget t else programmed w j := by
  have hj := j.isLt
  refine BitVec.eq_of_getLsbD_eq fun n hn => ?_
  rw [getLsbD_programmed]
  unfold macSetTypsbtypFltrOpt
  rw [and_fifteen]
  by_cases hn2 : n < 2
  · rw [setClrWor2_bit w _ i (by unfold stypeMax at hj; omega)]
    by_cases hji : j = i
    · rw [if_pos hji, hji, if_pos ⟨by omega, by omega⟩, Nat.add_sub_cancel_left, decide_eq_true hn2, Bool.true_and]
    · have hne : j.val ≠ i.val := fun h => hji (Fin.ext h)
      rw [if_neg hji, if_neg (by omega), getLsbD_programmed]
  · rw [decide_eq_false hn2, Bool.false_and]
    split
    · exact (fwdTarget_bit t (by omega)).symm
    · rw [getLsbD_programmed, decide_eq_false hn2, Bool.false_and]

theorem programmed_frame (t : Target) (j : Stype) : programmed (frame t) j = fwdTarget t := by
  revert j
  cases t <;> decide

/-! ### What is set -/

theorem typeSet_true {cap : Stype → CapToSet} {chk t : Option Target} (is : List Stype) (h : typeSet cap is chk = (true, t)) :
    (∀ i ∈ is, (cap i).set = true ∧ some (cap i).target = t) ∧ ∀ c, chk = some c → t = some c := by
  induction is generalizing chk with
  | nil =>
    have ht : chk = t := congrArg Prod.snd h
    exact ⟨fun i hi => absurd hi List.not_mem_nil, fun c hc => ht.symm.trans hc⟩
  | cons i is ih =>
    unfold typeSet at h
    by_cases hset : (cap i).set = false
    · rw [if_pos hset] at h; cases h
    · rw [if_neg hset] at h
      by_cases hchk : chk ≠ none ∧ chk ≠ some (cap i).target
      · rw [if_pos hchk] at h; cases h
      · rw [if_neg hchk] at h
        obtain ⟨hall, hfirst⟩ := ih h
        have hself : t = some (cap i).target := hfirst _ rfl
        refine ⟨fun j hj => ?_, fun c hc => ?_⟩
        · rcases List.mem_cons.mp hj with rfl | hj
          · exact ⟨(Bool.not_eq_false _).mp hset, hself.symm⟩
          · exact hall j hj
        · subst hc
          have hc : some c = some (cap i).target := Classical.not_not.mp fun hne => hchk ⟨nofun, hne⟩
          rw [hself, hc]

theorem programmed_setBySubtype (cap : Stype → CapToSet) {is : List Stype} (hnodup : is.Nodup) (w : BitVec 32) (j : Stype) :
    (j ∈ is → (cap j).set = true → programmed (setBySubtype cap is w) j = fwdTarget (cap j).target) ∧
    (¬ (j ∈ is ∧ (cap j).set = true) → programmed (setBySubtype cap is w) j = programmed w j) := by
  induction is generalizing w with
  | nil => exact ⟨fun h => absurd h List.not_mem_nil, fun _ => rfl⟩
  | cons i is ih =>
    obtain ⟨hi, hrest⟩ := List.nodup_cons.mp hnodup
    unfold setBySubtype
    by_cases hji : j = i
    · subst hji
      rw [(ih hrest _).2 fun h => hi h.1]
      by_cases hset : (cap j).set = true
      · rw [if_pos hset, programmed_set, if_pos rfl]
        exact ⟨fun _ _ => rfl, fun hno => absurd ⟨List.mem_cons_self, hset⟩ hno⟩
      · rw [if_neg hset]; exact ⟨fun _ h => absurd h hset, fun _ => rfl⟩
    · have hstep : programmed (if (cap i).set = true then macSetTypsbtypFltrOpt w i (cap i).target else w) j =
          programmed w j := by
        split
        · rw [programmed_set, if_neg hji]
        · rfl
      obtain ⟨hin, hout⟩ := ih hrest (if (cap i).set = true then macSetTypsbtypFltrOpt w i (cap i).target else w)
      refine ⟨fun h => hin ((List.mem_cons.mp h).resolve_left hji), fun hno => ?_⟩
      exact (hout fun h => hno ⟨List.mem_cons_of_mem i h.1, h.2⟩).trans hstep

theorem programmed_halSet (cap : Stype → CapToSet) (w : BitVec 32) (j : Stype) :
    programmed (halSetRxfltrByStype cap w) j =
      if (cap j).set = true then fwdTarget (cap j).target else programmed w j := by
  have hslow : programmed (setBySubtype cap (List.finRange stypeMax) w) j =
      if (cap j).set = true then fwdTarget (cap j).target else programmed w j := by
    obtain ⟨hin, hout⟩ := programmed_setBySubtype cap (List.nodup_finRange _) w j
    split
    · next hset => exact hin (List.mem_finRange j) hset
    · next hset => exact hout fun h => hset h.2
  unfold halSetRxfltrByStype
  split
  · next t ht =>
    obtain ⟨hset, htarget⟩ := (typeSet_true _ ht).1 j (List.mem_finRange j)
    rw [if_pos hset, Option.some.inj htarget]; exact programmed_frame t j
  · exact hslow

/-! ### The other links -/

theorem targetDcsn_eq (chk cur : Target) : targetDcsn chk cur = cur ⊔ chk := by
  cases chk <;> cases cur <;> decide

/-- What is to be set, joined with the records of some links. -/
def joinAll (cap : Link → TypeCap) (ls : List Link) (capS : TypeCapToSet) : TypeCapToSet := fun type i =>
  { capS type i with
    target :=
      if (capS type i).set = true then ls.foldl (fun acc l => acc ⊔ cap l type i) (capS type i).target
      else (capS type i).target }

theorem foldl_targetDcsnAll (cap : Link → TypeCap) (ls : List Link) (capS : TypeCapToSet) :
    ls.foldl (fun capS l => targetDcsnAll (cap l) capS) capS = joinAll cap ls capS := by
  induction ls generalizing capS with
  | nil =>
    funext type i
    unfold joinAll
    rw [List.foldl_nil, List.foldl_nil, ite_self]
  | cons l ls ih =>
    rw [List.foldl_cons, ih]
    funext type i
    unfold joinAll targetDcsnAll targetDcsnType
    cases hset : (capS type i).set with
    | false => simp only [hset, if_true, Bool.false_eq_true, if_false]
    | true => simp only [hset, Bool.true_eq_false, if_false, if_true, List.foldl_cons, targetDcsn_eq]

/-- The links on the band of the active roles. -/
def Roles.activeLinks (roles : Roles) (band : ℕ) : List Link :=
  (List.range roles.maxWifiRoleNumber).flatMap fun r =>
    if roles.active r = true then
      ((List.range (roles.rlinkNum r)).map fun l => (r, l)).filter fun l => roles.hwBand l = band
    else []

theorem mem_activeLinks {l : Link} : l ∈ roles.activeLinks band ↔ roles.ActiveLink band l := by
  obtain ⟨r, j⟩ := l
  unfold Roles.activeLinks Roles.ActiveLink
  rw [List.mem_flatMap]
  constructor
  · rintro ⟨r', hr', hl⟩
    split at hl
    · next hact =>
      obtain ⟨hmem, hb⟩ := List.mem_filter.mp hl
      obtain ⟨j', hj', heq⟩ := List.mem_map.mp hmem
      cases heq
      exact ⟨List.mem_range.mp hr', hact, List.mem_range.mp hj', of_decide_eq_true hb⟩
    · cases hl
  · rintro ⟨hr, hact, hj, hb⟩
    refine ⟨r, List.mem_range.mpr hr, ?_⟩
    rw [if_pos hact]
    exact List.mem_filter.mpr ⟨List.mem_map.mpr ⟨j, List.mem_range.mpr hj, rfl⟩, decide_eq_true hb⟩

theorem rxFilterRole_eq (cap : Link → TypeCap) (rlink : Link) (capS : TypeCapToSet) (r : ℕ) :
    rxFilterRole roles cap rlink capS r =
      ((((List.range (roles.rlinkNum r)).map fun l => (r, l)).filter fun l => roles.hwBand l = roles.hwBand rlink).filter
        fun l => l ≠ rlink).foldl (fun capS l => targetDcsnAll (cap l) capS) capS := by
  unfold rxFilterRole
  rw [List.foldl_filter, List.foldl_filter, List.foldl_map]
  congr 1
  funext c l
  have hself : (r = rlink.1 ∧ l = rlink.2) ↔ (r, l) = rlink :=
    ⟨fun h => Prod.ext h.1 h.2, fun h => by rw [← h]; exact ⟨rfl, rfl⟩⟩
  by_cases hb : roles.hwBand (r, l) = roles.hwBand rlink
  · by_cases hs : (r, l) = rlink
    · rw [if_neg (not_not_intro hb), if_pos (hself.mpr hs), if_pos (decide_eq_true hb), if_neg]
      exact fun h => of_decide_eq_true h hs
    · rw [if_neg (not_not_intro hb), if_neg (fun h => hs (hself.mp h)), if_pos (decide_eq_true hb),
        if_pos (decide_eq_true hs)]
  · rw [if_pos hb, if_neg fun h => hb (of_decide_eq_true h)]

theorem mrRxFilterType_eq (cap : Link → TypeCap) (rlink : Link) (capS : TypeCapToSet) :
    mrRxFilterType roles cap rlink capS =
      joinAll cap ((roles.activeLinks (roles.hwBand rlink)).filter fun l => l ≠ rlink) capS := by
  rw [← foldl_targetDcsnAll]
  unfold mrRxFilterType Roles.activeLinks
  rw [List.filter_flatMap, List.foldl_flatMap]
  refine List.foldl_ext _ _ _ fun c r hr => ?_
  rw [List.mem_range] at hr
  by_cases hmap : (roles.roleMap (roles.hwBand rlink)).testBit r = false
  · have hnone : ((List.range (roles.rlinkNum r)).map fun l => (r, l)).filter
        (fun l => roles.hwBand l = roles.hwBand rlink) = [] := by
      refine List.filter_eq_nil_iff.mpr fun l hl hb => ?_
      obtain ⟨j, hj, rfl⟩ := List.mem_map.mp hl
      have hset := roles.mapped (r, j) hr (List.mem_range.mp hj)
      rw [of_decide_eq_true hb, hmap] at hset; cases hset
    rw [if_pos hmap, hnone, ite_self]; rfl
  · rw [if_neg hmap]
    by_cases hact : roles.active r = true
    · rw [if_neg (fun h => absurd (h.symm.trans hact) nofun), if_pos hact]
      exact rxFilterRole_eq cap rlink c r
    · rw [if_pos ((Bool.not_eq_true _).mp hact), if_neg hact]; rfl

/-! ### A call -/

/-- The record and what is to be set after some targets are asked for. -/
def put (new : PktType × Stype → Option Target) (c : TypeCap × TypeCapToSet) : TypeCap × TypeCapToSet :=
  (fun type i => (new (type, i)).getD (c.1 type i),
    fun type i => ((new (type, i)).map fun t => ⟨true, t⟩).getD (c.2 type i))

theorem put_set (new : PktType × Stype → Option Target) (c : TypeCap × TypeCapToSet) (k : PktType × Stype) :
    (put new c).2 k.1 k.2 = ((new k).map fun t => ⟨true, t⟩).getD (c.2 k.1 k.2) := rfl

theorem put_put (new new' : PktType × Stype → Option Target) (c : TypeCap × TypeCapToSet) :
    put new' (put new c) = put (fun k => (new' k).or (new k)) c := by
  unfold put
  refine Prod.ext ?_ ?_
  · funext type i
    simp only
    cases new' (type, i) <;> rfl
  · funext type i
    simp only
    cases new' (type, i) <;> rfl

theorem setStype_put (type : PktType) (i : Stype) (t : Target) (c : TypeCap × TypeCapToSet) :
    setStype type i t c = put (fun k => if k = (type, i) then some t else none) c := by
  unfold setStype put
  refine Prod.ext ?_ ?_
  · funext type' j
    by_cases ht : type' = type
    · subst ht
      by_cases hj : j = i
      · subst hj; simp
      · simp [hj]
    · simp [ht]
  · funext type' j
    by_cases ht : type' = type
    · subst ht
      by_cases hj : j = i
      · subst hj; simp
      · simp [hj]
    · simp [ht]

theorem setCapByType_put (type : PktType) (t : Target) (c : TypeCap × TypeCapToSet) :
    setCapByType type t c = put (fun k => if k.1 = type then some t else none) c := by
  have hloop : ∀ is c, (is : List Stype).foldl (fun c i => setStype type i t c) c =
      put (fun k => if k.1 = type ∧ k.2 ∈ is then some t else none) c := by
    intro is c
    induction is generalizing c with
    | nil =>
      rw [List.foldl_nil]
      unfold put
      simp only [List.not_mem_nil, and_false, if_false, Option.getD_none, Option.map_none]
    | cons i is ih =>
      rw [List.foldl_cons, ih, setStype_put, put_put]
      congr 1
      funext k
      obtain ⟨type', j⟩ := k
      by_cases ht : type' = type
      · by_cases hj : j ∈ is
        · simp [ht, hj]
        · simp [ht, hj]
      · simp [ht]
  unfold setCapByType
  rw [hloop]
  simp only [List.mem_finRange, and_true]

theorem or_ite {p q : Prop} [Decidable p] [Decidable q] (t : Target) :
    (if p then some t else none).or (if q then some t else none) = if p ∨ q then some t else none := by
  by_cases hp : p
  · rw [if_pos hp, if_pos (Or.inl hp)]; rfl
  · by_cases hq : q
    · rw [if_neg hp, if_pos hq, if_pos (Or.inr hq)]; rfl
    · rw [if_neg hp, if_neg hq, if_neg fun h => h.elim hp hq]; rfl

theorem setByMode_eq (call : Call) (c : TypeCap × TypeCapToSet) :
    (setByMode call c = none ∧ ∀ k, call.asks k = none) ∨ setByMode call c = some (put call.asks c) := by
  have hnone : (call.mode = .halInit ∨ call.mode = .staWowInitPre ∨ call.mode = .staWowInitPost) →
      ∀ k, call.asks k = none := by
    rintro h ⟨type, i⟩
    cases type <;> rcases h with hm | hm | hm <;> simp [Call.asks, hm]
  have hdrop : (call.mode = .staDisConn ∨ call.mode = .chanInfoDis ∨ call.mode = .apDisConn ∧ call.assocStaCnt < 2) →
      (fun k : PktType × Stype => if k.1 = .ctrl then some Target.drop else none) = call.asks := by
    intro h
    funext ⟨type, i⟩
    cases type <;> rcases h with hm | hm | ⟨hm, hcnt⟩ <;> simp [Call.asks, *]
  unfold setByMode
  cases hm : call.mode with
  | halInit => exact .inl ⟨rfl, hnone (.inl hm)⟩
  | staWowInitPre => exact .inl ⟨rfl, hnone (.inr (.inl hm))⟩
  | staWowInitPost => exact .inl ⟨rfl, hnone (.inr (.inr hm))⟩
  | roleInit =>
    refine .inr (congrArg some ?_)
    simp only [setCapByType_put, put_put]
    congr 1
    funext ⟨type, i⟩
    cases type <;> simp [Call.asks, hm]
  | staConn =>
    refine .inr (congrArg some ?_)
    have hasks : call.asks = fun k => if k.1 = .ctrl ∧ (k.2 = stypeVhtHeNdpa ∨ k.2 = stypeBar ∨
        (call.wmode11ax = true ∧ k.2 = stypeTrigger)) then some .toHost else none := by
      funext ⟨type, i⟩
      cases type <;> simp [Call.asks, hm]
    rw [hasks]
    simp only [setStype_put, put_put, or_ite]
    by_cases hax : call.wmode11ax = true
    · rw [if_pos hax]
      congr 1
      funext ⟨type, i⟩
      refine if_congr ?_ rfl rfl
      simp only [Prod.mk.injEq, hax, true_and]
      tauto
    · rw [if_neg hax]
      congr 1
      funext ⟨type, i⟩
      refine if_congr ?_ rfl rfl
      simp only [Prod.mk.injEq, hax]
      tauto
  | apConn =>
    refine .inr (congrArg some ?_)
    have hasks : call.asks = fun k => if k.1 = .ctrl ∧ (k.2 = stypeVhtHeNdpa ∨ k.2 = stypeBar ∨ k.2 = stypePsPoll)
        then some .toHost else none := by
      funext ⟨type, i⟩
      cases type <;> simp [Call.asks, hm]
    rw [hasks]
    simp only [setStype_put, put_put, or_ite]
    congr 1
    funext ⟨type, i⟩
    refine if_congr ?_ rfl rfl
    simp only [Prod.mk.injEq]
    tauto
  | staDisConn => exact .inr (congrArg some ((setCapByType_put _ _ c).trans (by rw [hdrop (.inl hm)])))
  | chanInfoDis => exact .inr (congrArg some ((setCapByType_put _ _ c).trans (by rw [hdrop (.inr (.inl hm))])))
  | apDisConn =>
    refine .inr (congrArg some ?_)
    by_cases hcnt : call.assocStaCnt < 2
    · rw [if_pos hcnt, setCapByType_put, hdrop (.inr (.inr ⟨hm, hcnt⟩))]
    · have hasks : call.asks = fun _ => none := by
        funext ⟨type, i⟩
        cases type <;> simp [Call.asks, hm, hcnt]
      rw [if_neg hcnt, hasks]; rfl
  | chanInfoEn =>
    refine .inr (congrArg some ?_)
    rw [setStype_put]
    congr 1
    funext ⟨type, i⟩
    cases type <;> simp [Call.asks, hm]

section Ballot

variable {p : Poll Link (PktType × Stype) Target}

def ballot (roles : Roles) (p : Poll Link (PktType × Stype) Target) (call : Call) :
    Poll Link (PktType × Stype) Target :=
  p.cast (roles.activeLinks (roles.hwBand call.rlink)) (call.rlink, call.asks)

theorem cap_call (hvote : ∀ l k, p.vote l k = s.cap l k.1 k.2) (l : Link) (k : PktType × Stype) :
    (ballot roles p call).vote l k = (mrSetRxfltrTypeByMode roles s call).2.cap l k.1 k.2 := by
  show (if l = call.rlink then (call.asks k).getD (p.vote l k) else p.vote l k) = _
  unfold mrSetRxfltrTypeByMode
  rcases setByMode_eq call (s.cap call.rlink, .zero) with ⟨hnone, hasks⟩ | hsome
  · rw [hnone, hasks k]; exact (ite_self _).trans (hvote l k)
  · rw [hsome]
    show _ = Function.update s.cap call.rlink _ l k.1 k.2
    by_cases hl : l = call.rlink
    · rw [if_pos hl, hl, Function.update_self, hvote]
    · rw [if_neg hl, Function.update_of_ne hl, hvote]

theorem programmed_call (hvote : ∀ l k, p.vote l k = s.cap l k.1 k.2) (k : PktType × Stype)
    (hout : call.asks k ≠ none ∨ programmed (s.reg (roles.hwBand call.rlink) k.1) k.2 = fwdTarget (p.out k)) :
    programmed ((mrSetRxfltrTypeByMode roles s call).2.reg (roles.hwBand call.rlink) k.1) k.2 =
      fwdTarget ((ballot roles p call).out k) := by
  show _ = fwdTarget (((call.asks k).map fun own => p.tally _ call.rlink own k).getD (p.out k))
  unfold mrSetRxfltrTypeByMode
  rcases setByMode_eq call (s.cap call.rlink, .zero) with ⟨hnone, hasks⟩ | hsome
  · rw [hnone, hasks k]; exact hout.resolve_left fun hne => hne (hasks k)
  · rw [hsome]
    simp only [halSetRxfltrByStypeAll, Function.update_self]
    rw [programmed_halSet, mrRxFilterType_eq]
    cases hk : call.asks k with
    | none =>
      have hset : ((put call.asks (s.cap call.rlink, TypeCapToSet.zero)).2 k.1 k.2).set = false := by
        rw [put_set, hk]; rfl
      rw [if_neg]
      · exact hout.resolve_left fun hne => hne hk
      · exact fun h => absurd (hset.symm.trans h) nofun
    | some own =>
      have hset : (put call.asks (s.cap call.rlink, TypeCapToSet.zero)).2 k.1 k.2 = ⟨true, own⟩ := by
        rw [put_set, hk]; rfl
      unfold joinAll
      simp only [hset, if_true]
      refine congrArg fwdTarget (List.foldl_ext _ _ _ fun acc l hl => ?_)
      have hne : l ≠ call.rlink := of_decide_eq_true (List.mem_filter.mp hl).2
      rw [Function.update_of_ne hne, hvote]

theorem programmed_run {calls : List Call} (hband : ∀ call ∈ calls, roles.hwBand call.rlink = band)
    (hvote : ∀ l k, p.vote l k = s.cap l k.1 k.2) (k : PktType × Stype)
    (hout : (∃ call ∈ calls, call.asks k ≠ none) ∨ programmed (s.reg band k.1) k.2 = fwdTarget (p.out k)) :
    programmed ((runCalls roles s calls).reg band k.1) k.2 =
      fwdTarget (((calls.map fun call => (call.rlink, call.asks)).foldl (Poll.cast (roles.activeLinks band)) p).out k) := by
  induction calls generalizing s p with
  | nil =>
    rcases hout with ⟨call, hcall, -⟩ | hout
    · exact absurd hcall List.not_mem_nil
    · exact hout
  | cons call calls ih =>
    have hb := hband call List.mem_cons_self
    subst hb
    refine ih (fun c hc => hband c (List.mem_cons_of_mem call hc)) (fun l k => cap_call hvote l k) ?_
    rcases hout with ⟨c, hc, hne⟩ | hout
    · rcases List.mem_cons.mp hc with rfl | hc
      · exact .inr (programmed_call hvote k (.inl hne))
      · exact .inl ⟨c, hc, hne⟩
    · exact .inr (programmed_call hvote k (.inr hout))

end Ballot

/-! ### A run -/

def pollOf (s : RxFltr) : Poll Link (PktType × Stype) Target := ⟨fun l k => s.cap l k.1 k.2, fun _ => .drop⟩

/-- **A filter that has been set is the join of what the active links of its band want.** -/
theorem typeMode_run (roles : Roles) (s : RxFltr) (band : ℕ) (calls : List Call)
    (hlinks : ∀ call ∈ calls, roles.ActiveLink band call.rlink) (k : PktType × Stype)
    (hset : ∃ call ∈ calls, call.asks k ≠ none) :
    ∃ target, programmed ((runCalls roles s calls).reg band k.1) k.2 = fwdTarget target ∧
      IsLUB {t | ∃ l, roles.ActiveLink band l ∧ wanted s calls l k = t} target := by
  have hvote : ∀ l k, (pollOf s).vote l k = s.cap l k.1 k.2 := fun _ _ => rfl
  have hrun := programmed_run (fun call hcall => (hlinks call hcall).2.2.2) hvote k (.inl hset)
  obtain ⟨c, hc, hne⟩ := hset
  have hjoined : ((calls.map fun call => (call.rlink, call.asks)).foldl (Poll.cast (roles.activeLinks band))
      (pollOf s)).Joined (roles.activeLinks band) k := by
    refine Poll.joined_run (fun b hb => ?_) (.inl ⟨_, List.mem_map.mpr ⟨c, hc, rfl⟩, hne⟩)
    obtain ⟨call, hcall, rfl⟩ := List.mem_map.mp hb
    exact mem_activeLinks.mpr (hlinks call hcall)
  refine ⟨_, hrun, ?_⟩
  unfold Poll.Joined at hjoined
  rw [Poll.vote_run] at hjoined
  simp only [mem_activeLinks] at hjoined; exact hjoined

/-- A station and an access point on band 0, and a station on band 1. -/
def threeRoles : Roles where
  maxWifiRoleNumber := 5
  active r := r < 3
  rlinkNum _ := 1
  hwBand l := if l.1 = 2 then 1 else 0
  roleMap band := if band = 0 then 0b11011 else 0b00100
  mapped l hr _ := by
    have hmap : ∀ r < 5, (if (if r = 2 then 1 else 0) = 0 then 0b11011 else 0b00100 : ℕ).testBit r = true := by decide
    exact hmap l.1 hr

/-- The access point goes on with PS-Poll when the station disconnects. -/
theorem typeMode_run_some : ∃ target, programmed ((runCalls threeRoles ⟨fun _ _ _ => .drop, fun _ _ => 0⟩
        [⟨(1, 0), .apConn, false, 0⟩, ⟨(0, 0), .staConn, true, 0⟩, ⟨(0, 0), .staDisConn, true, 0⟩]).reg 0 .ctrl)
          stypePsPoll = fwdTarget target ∧
      IsLUB {t | ∃ l, threeRoles.ActiveLink 0 l ∧ wanted ⟨fun _ _ _ => .drop, fun _ _ => 0⟩
        [⟨(1, 0), .apConn, false, 0⟩, ⟨(0, 0), .staConn, true, 0⟩, ⟨(0, 0), .staDisConn, true, 0⟩] l
          (.ctrl, stypePsPoll) = t} target :=
  typeMode_run threeRoles _ 0 _ (by decide) (.ctrl, stypePsPoll) ⟨_, List.mem_cons_self, by decide⟩

end Rtl8852cu.Mr
