import Rtl8852cu.Lib.Reach
import Rtl8852cu.Sta.Macid

/-!
# The maps of the MACIDs and the groups of the MLDs

The MACIDs below `max_mld_num * max_link_num` are cut into the groups
`{ g + max_mld_num * k | k < max_link_num }`, one for an MLD or for legacy peers; those behind are
for legacy peers alone.  With one link only there are no flags, and a group is one MACID.
-/

namespace Rtl8852cu.Sta

open Lib
open Function (update update_self update_of_ne)

def Cap.InGroup (cap : Cap) (g m : ℕ) : Prop := ∃ k < cap.maxLinkNum, m = g + cap.maxMldNum * k

namespace Cap

variable {cap : Cap} {g g' m : ℕ}

theorem InGroup.mod (h : cap.InGroup g m) (hg : g < cap.maxMldNum) : m % cap.maxMldNum = g := by
  obtain ⟨k, -, rfl⟩ := h
  rw [Nat.add_mul_mod_self_left, Nat.mod_eq_of_lt hg]

theorem InGroup.lt (h : cap.InGroup g m) (hg : g < cap.maxMldNum) : m < cap.maxMldNum * cap.maxLinkNum := by
  obtain ⟨k, hk, rfl⟩ := h
  calc g + cap.maxMldNum * k < cap.maxMldNum + cap.maxMldNum * k := by omega
    _ = cap.maxMldNum * (k + 1) := by rw [Nat.mul_succ, Nat.add_comm]
    _ ≤ cap.maxMldNum * cap.maxLinkNum := Nat.mul_le_mul_left _ hk

theorem InGroup.unique (h : cap.InGroup g m) (h' : cap.InGroup g' m) (hg : g < cap.maxMldNum)
    (hg' : g' < cap.maxMldNum) : g = g' := (h.mod hg).symm.trans (h'.mod hg')

theorem inGroup_mod (h : m < cap.maxMldNum * cap.maxLinkNum) : cap.InGroup (m % cap.maxMldNum) m := by
  refine ⟨m / cap.maxMldNum, ?_, (Nat.mod_add_div m _).symm⟩
  exact Nat.div_lt_of_lt_mul h

theorem inGroup_self (hL : 0 < cap.maxLinkNum) (g : ℕ) : cap.InGroup g g := ⟨0, hL, by simp⟩

theorem mem_group : m ∈ MacidCtl.group cap g ↔ cap.InGroup g m := by
  simp [MacidCtl.group, InGroup, eq_comm]

theorem InGroup.eq_of_one (h : cap.InGroup g m) (hL : cap.maxLinkNum = 1) : m = g := by
  obtain ⟨k, hk, rfl⟩ := h
  have hk0 : k = 0 := by omega
  rw [hk0, Nat.mul_zero, Nat.add_zero]

end Cap

namespace MacidCtl

def Flag (mc : MacidCtl) (g : ℕ) : Prop :=
  mc.usedMldMap.isUsed g = true ∨ mc.usedLegacyMap.isUsed g = true

/-- The flag that a station needs on its group. -/
def FlagFor (mc : MacidCtl) (mld : Option ℕ) (g : ℕ) : Prop :=
  if mld.isSome then mc.usedMldMap.isUsed g = true else mc.usedLegacyMap.isUsed g = true

/-- What the maps, the flags and the station table say of one another. -/
structure Maps (cap : Cap) (mc : MacidCtl) : Prop where
  used : ∀ m, mc.usedMap.isUsed m = true ↔ ∃ p, mc.sta m = some p
  held : ∀ m p, mc.sta m = some p → m < cap.maxNum ∧ (mc.info p).macid = m
  excl : ∀ g, mc.usedMldMap.isUsed g = true → mc.usedLegacyMap.isUsed g = false
  one : cap.maxLinkNum = 1 → ∀ g, ¬ mc.Flag g
  flag : cap.maxLinkNum ≠ 1 → ∀ m p g, mc.sta m = some p → g < cap.maxMldNum → cap.InGroup g m →
    mc.FlagFor (mc.info p).mld g
  behind : cap.maxLinkNum ≠ 1 → ∀ m p, mc.sta m = some p → cap.maxMldNum * cap.maxLinkNum ≤ m → (mc.info p).mld = none
  same : cap.maxLinkNum ≠ 1 → ∀ g m m' p q, g < cap.maxMldNum → cap.InGroup g m →
    cap.InGroup g m' → mc.sta m = some p → mc.sta m' = some q → (mc.info p).mld = (mc.info q).mld

def Occupied (cap : Cap) (mc : MacidCtl) (g : ℕ) : Prop :=
  ∃ m p, cap.InGroup g m ∧ mc.sta m = some p

/-- `Maps`, and no flag stands on an empty group. -/
structure Inv (cap : Cap) (mc : MacidCtl) : Prop extends Maps cap mc where
  flagged : ∀ g, mc.Flag g → g < cap.maxMldNum ∧ mc.Occupied cap g

theorem inv_init (cap : Cap) (info : ℕ → StaInfo) : (init cap info).Inv cap where
  used m := by simp [init]
  held _ _ h := nomatch h
  excl g h := by simp [init] at h
  one _ g h := by simp [init, Flag] at h
  flag _ _ _ _ h := nomatch h
  behind _ _ _ h := nomatch h
  same _ _ _ _ _ _ _ _ _ h := nomatch h
  flagged g h := by simp [init, Flag] at h

variable {cap : Cap} {mc mc' : MacidCtl} {p mid : ℕ}

theorem Inv.congr (h : mc.Inv cap) (hu : mc'.usedMap = mc.usedMap)
    (hm : mc'.usedMldMap = mc.usedMldMap) (hl : mc'.usedLegacyMap = mc.usedLegacyMap)
    (hs : mc'.sta = mc.sta)
    (hi : ∀ m q, mc.sta m = some q → (mc'.info q).macid = (mc.info q).macid ∧
      (mc'.info q).mld = (mc.info q).mld) : mc'.Inv cap := by
  obtain ⟨⟨used, held, excl, one, flag, behind, same⟩, flagged⟩ := h
  refine ⟨⟨?_, ?_, ?_, ?_, ?_, ?_, ?_⟩, ?_⟩
  · rw [hu, hs]; exact used
  · rw [hs]
    intro m q hq
    rw [(hi m q hq).1]; exact held m q hq
  · rw [hm, hl]; exact excl
  · unfold Flag
    rw [hm, hl]; exact one
  · unfold FlagFor
    rw [hm, hl, hs]
    intro hL m q g hq
    rw [(hi m q hq).2]; exact flag hL m q g hq
  · rw [hs]
    intro hL m q hq
    rw [(hi m q hq).2]; exact behind hL m q hq
  · rw [hs]
    intro hL g m m' q q' hg hm hm' hq hq'
    rw [(hi m q hq).2, (hi m' q' hq').2]; exact same hL g m m' q q' hg hm hm' hq hq'
  · unfold Flag Occupied
    rw [hm, hl, hs]; exact flagged

theorem Maps.sta_none (h : mc.Maps cap) {m : ℕ} (hm : mc.usedMap.isUsed m = false) : mc.sta m = none := by
  rw [Option.eq_none_iff_forall_ne_some]
  intro q hq
  have hused := (h.used m).mpr ⟨q, hq⟩
  rw [hm] at hused; cases hused

/-! ### Finding a MACID -/

/-- The flag of an empty group is set for the first station of the group. -/
def setFlag (mc : MacidCtl) (mld : Option ℕ) (g : ℕ) : MacidCtl :=
  if mld.isSome then { mc with usedMldMap := mc.usedMldMap.set g }
  else { mc with usedLegacyMap := mc.usedLegacyMap.set g }

/-- How a MACID for a station with this `mld` is found. -/
inductive Grant (cap : Cap) (mc : MacidCtl) (mld : Option ℕ) : MacidCtl × ℕ → Prop
  /-- With one link any free MACID is as good. -/
  | one {mid : ℕ} (hL : cap.maxLinkNum = 1) (hmid : mid < cap.maxNum) (hfree : mc.sta mid = none) :
    Grant cap mc mld (mc, mid)
  /-- A legacy peer behind the groups. -/
  | behind {mid : ℕ} (hmid : mid < cap.maxNum) (hfree : mc.sta mid = none) (hmld : mld = none)
    (hle : cap.maxMldNum * cap.maxLinkNum ≤ mid) : Grant cap mc mld (mc, mid)
  /-- In a group of its own kind. -/
  | join {mid g : ℕ} (hfree : mc.sta mid = none) (hg : g < cap.maxMldNum) (hin : cap.InGroup g mid)
    (hflag : mc.FlagFor mld g)
    (hsame : ∀ m q, cap.InGroup g m → mc.sta m = some q → (mc.info q).mld = mld) :
    Grant cap mc mld (mc, mid)
  /-- In a group without a flag. -/
  | fresh {g : ℕ} (hL : cap.maxLinkNum ≠ 1) (hg : g < cap.maxMldNum) (hflag : ¬ mc.Flag g)
    (hempty : ∀ m, cap.InGroup g m → mc.sta m = none) :
    Grant cap mc mld (mc.setFlag mld g, g)

variable {g : ℕ}

theorem Inv.empty_of_not_flag (h : mc.Inv cap) (hL : cap.maxLinkNum ≠ 1)
    (hg : g < cap.maxMldNum) (hflag : ¬ mc.Flag g) : ∀ m, cap.InGroup g m → mc.sta m = none := by
  intro m hm
  rw [Option.eq_none_iff_forall_ne_some]
  intro q hq
  have hf := h.flag hL m q g hq hg hm
  unfold FlagFor at hf
  split at hf
  · exact hflag (.inl hf)
  · exact hflag (.inr hf)

theorem firstUnused_some {mids : List ℕ} (h : mc.firstUnused mids = some mid) :
    mid ∈ mids ∧ mc.usedMap.isUsed mid = false := by
  refine ⟨List.mem_of_find?_eq_some h, ?_⟩
  simpa using List.find?_some h

theorem noFlag_some {mids : List ℕ} (h : mids.find? (fun mid =>
    !mc.usedMldMap.isUsed mid && !mc.usedLegacyMap.isUsed mid) = some mid) :
    mid ∈ mids ∧ ¬ mc.Flag mid := by
  have hflags := List.find?_some h
  rw [Bool.and_eq_true, Bool.not_eq_true', Bool.not_eq_true'] at hflags
  refine ⟨List.mem_of_find?_eq_some h, ?_⟩
  rintro (hm | hl)
  · exact absurd (hflags.1.symm.trans hm) (by decide)
  · exact absurd (hflags.2.symm.trans hl) (by decide)

variable {mld : Option ℕ}

theorem grant_mld (h : mc.Inv cap) (hcap : cap.maxMldNum * cap.maxLinkNum ≤ cap.maxNum)
    (hM : 0 < cap.maxMldNum) (hmld : mld.isSome) {mainId : ℕ}
    (hmain : mainId = cap.maxNum ∨ ∃ q, mc.sta mainId = some q ∧ (mc.info q).mld = mld) :
    mc.allocMldMacid cap mainId = (mc, cap.maxNum) ∨ Grant cap mc mld (mc.allocMldMacid cap mainId) := by
  unfold allocMldMacid
  by_cases hid : cap.maxNum = mainId
  · rw [if_pos hid]
    by_cases hL : cap.maxLinkNum = 1
    · rw [if_pos hL]
      cases hf : mc.firstUnused (List.range cap.maxNum) with
      | none => exact .inl rfl
      | some mid =>
        obtain ⟨hmem, hun⟩ := firstUnused_some hf
        exact .inr (.one hL (List.mem_range.mp hmem) (h.sta_none hun))
    · rw [if_neg hL]
      split
      · rename_i mid hf
        obtain ⟨hmem, hnot⟩ := noFlag_some hf
        rw [List.mem_range] at hmem
        have hgrant : Grant cap mc mld (mc.setFlag mld mid, mid) :=
          .fresh hL hmem hnot (h.empty_of_not_flag hL hmem hnot)
        rw [setFlag, if_pos hmld] at hgrant; exact .inr hgrant
      · exact .inl rfl
  · rw [if_neg hid]
    cases hf : mc.firstUnused (group cap (mainId % cap.maxMldNum)) with
    | none => exact .inl rfl
    | some mid =>
      obtain ⟨hmem, hun⟩ := firstUnused_some hf
      have hin := Cap.mem_group.mp hmem
      have hg : mainId % cap.maxMldNum < cap.maxMldNum := Nat.mod_lt _ hM
      refine .inr ?_
      by_cases hL : cap.maxLinkNum = 1
      · exact .one hL (Nat.lt_of_lt_of_le (hin.lt hg) hcap) (h.sta_none hun)
      · -- the main link is in the group, so the group is that of its MLD
        obtain ⟨q, hq, hqm⟩ := hmain.resolve_left fun heq => hid heq.symm
        have hlt : mainId < cap.maxMldNum * cap.maxLinkNum := by
          by_contra hle
          have hnone := h.behind hL mainId q hq (Nat.le_of_not_lt hle)
          rw [← hqm, hnone] at hmld; cases hmld
        have hmain' := Cap.inGroup_mod hlt
        refine .join (h.sta_none hun) hg hin ?_ fun m r hm hr => ?_
        · exact hqm ▸ h.flag hL mainId q _ hq hg hmain'
        · rw [h.same hL _ m mainId r q hg hm hmain' hr hq, hqm]

/-- What the loop over the groups finds: a MACID of a legacy group, or a group without a flag. -/
def LoopFinds (cap : Cap) (mc : MacidCtl) (gs : List ℕ) (avail : ℕ) : ℕ ⊕ ℕ → Prop
  | .inl mid => ∃ g ∈ gs, mc.usedMldMap.isUsed g = false ∧ mc.usedLegacyMap.isUsed g = true ∧
      cap.InGroup g mid ∧ mc.usedMap.isUsed mid = false
  | .inr avail' => avail' = avail ∨ avail' ∈ gs ∧ ¬ mc.Flag avail'

theorem LoopFinds.cons {gs : List ℕ} {avail : ℕ} {r : ℕ ⊕ ℕ} (h : LoopFinds cap mc gs avail r)
    (g : ℕ) : LoopFinds cap mc (g :: gs) avail r := by
  cases r with
  | inl mid =>
    obtain ⟨g', hmem, hrest⟩ := h
    exact ⟨g', List.mem_cons_of_mem g hmem, hrest⟩
  | inr avail' => exact h.imp id fun h => ⟨List.mem_cons_of_mem g h.1, h.2⟩

theorem legacyLoop_finds (cap : Cap) (mc : MacidCtl) (gs : List ℕ) (avail : ℕ) :
    LoopFinds cap mc gs avail (legacyLoop cap mc gs avail) := by
  induction gs generalizing avail with
  | nil => exact .inl rfl
  | cons g gs ih =>
    rw [legacyLoop]
    by_cases hm : mc.usedMldMap.isUsed g = true
    · rw [if_pos hm]; exact (ih avail).cons g
    · rw [if_neg hm]
      by_cases hl : mc.usedLegacyMap.isUsed g = true
      · rw [if_neg (by rw [hl]; decide)]
        cases hf : mc.firstUnused (group cap g) with
        | none => exact (ih avail).cons g
        | some mid =>
          obtain ⟨hmem, hun⟩ := firstUnused_some hf
          exact ⟨g, List.mem_cons_self, eq_false_of_ne_true hm, hl, Cap.mem_group.mp hmem, hun⟩
      · rw [if_pos (by simpa using hl)]
        have hnot : ¬ mc.Flag g := fun hf => hf.elim hm hl
        by_cases ha : avail = cap.maxNum
        · rw [if_pos ha]
          have hrest := ih g
          generalize legacyLoop cap mc gs g = r at hrest ⊢
          cases r with
          | inl mid => exact hrest.cons g
          | inr avail' =>
            refine .inr (hrest.elim (fun heq => ?_) fun h => ⟨List.mem_cons_of_mem g h.1, h.2⟩)
            rw [heq]; exact ⟨List.mem_cons_self, hnot⟩
        · rw [if_neg ha]; exact (ih avail).cons g

theorem grant_loop (h : mc.Inv cap) (hL : cap.maxLinkNum ≠ 1) (hg : g < cap.maxMldNum)
    (hm : mc.usedMldMap.isUsed g = false) (hl : mc.usedLegacyMap.isUsed g = true)
    (hin : cap.InGroup g mid) (hun : mc.usedMap.isUsed mid = false) :
    Grant cap mc none (mc, mid) := by
  refine .join (h.sta_none hun) hg hin hl fun m q hin' hq => ?_
  -- the group has the flag of the legacy peers
  have hflag := h.flag hL m q g hq hg hin'
  unfold FlagFor at hflag
  split at hflag
  · rw [hm] at hflag; cases hflag
  · exact Option.not_isSome_iff_eq_none.mp ‹_›

theorem grant_legacy (h : mc.Inv cap) :
    mc.allocLegacyMacid cap = (mc, cap.maxNum) ∨ Grant cap mc none (mc.allocLegacyMacid cap) := by
  unfold allocLegacyMacid
  by_cases hL : cap.maxLinkNum = 1
  · rw [if_pos hL]
    cases hf : mc.firstUnused (List.range cap.maxNum) with
    | none => exact .inl rfl
    | some mid =>
      obtain ⟨hmem, hun⟩ := firstUnused_some hf
      exact .inr (.one hL (List.mem_range.mp hmem) (h.sta_none hun))
  · rw [if_neg hL]
    simp only
    cases hb : (if cap.maxMldNum * cap.maxLinkNum > 0 ∧ cap.maxNum > cap.maxMldNum * cap.maxLinkNum then
        mc.firstUnused (List.range' (cap.maxMldNum * cap.maxLinkNum)
          (cap.maxNum - cap.maxMldNum * cap.maxLinkNum)) else none) with
    | some mid =>
      split at hb
      · obtain ⟨hmem, hun⟩ := firstUnused_some hb
        obtain ⟨hle, hlt⟩ := List.mem_range'_1.mp hmem
        exact .inr (.behind (by omega) (h.sta_none hun) rfl hle)
      · cases hb
    | none =>
      have hloop := legacyLoop_finds cap mc (List.range cap.maxMldNum) cap.maxNum
      simp only
      cases hr : legacyLoop cap mc (List.range cap.maxMldNum) cap.maxNum with
      | inl mid =>
        rw [hr] at hloop
        obtain ⟨g, hmem, hm, hl, hin, hun⟩ := hloop
        exact .inr (grant_loop h hL (List.mem_range.mp hmem) hm hl hin hun)
      | inr avail =>
        rw [hr] at hloop
        simp only
        by_cases ha : avail = cap.maxNum
        · rw [if_neg (not_not.mpr ha), ha]; exact .inl rfl
        · rw [if_pos ha]
          obtain ⟨hmem, hnot⟩ := hloop.resolve_left ha
          have hg := List.mem_range.mp hmem
          have hgrant : Grant cap mc none (mc.setFlag none avail, avail) :=
            .fresh hL hg hnot (h.empty_of_not_flag hL hg hnot)
          exact .inr hgrant

/-! ### Entering it -/

@[simp] theorem enter_sta (mc : MacidCtl) (p mid : ℕ) :
    (mc.enter p mid).sta = update mc.sta mid (some p) := rfl

@[simp] theorem enter_usedMap (mc : MacidCtl) (p mid : ℕ) : (mc.enter p mid).usedMap = mc.usedMap.set mid := rfl

@[simp] theorem enter_info (mc : MacidCtl) (p mid : ℕ) :
    (mc.enter p mid).info = update mc.info p { mc.info p with macid := mid } := rfl

theorem enter_mld (mc : MacidCtl) (p mid q : ℕ) : ((mc.enter p mid).info q).mld = (mc.info q).mld := by
  rw [enter_info]
  by_cases hq : q = p
  · subst hq; rw [update_self]
  · rw [update_of_ne hq]

theorem enter_sta_iff {p mid m q : ℕ} :
    (mc.enter p mid).sta m = some q ↔ m = mid ∧ q = p ∨ m ≠ mid ∧ mc.sta m = some q := by
  rw [enter_sta]
  by_cases hm : m = mid
  · subst hm; simp [eq_comm]
  · simp [hm]

theorem Maps.enter (h : mc.Maps cap) (hfree : mc.sta mid = none) (hmid : mid < cap.maxNum)
    (hp : ∀ m, mc.sta m ≠ some p)
    (hflag : cap.maxLinkNum ≠ 1 → ∀ g, g < cap.maxMldNum → cap.InGroup g mid → mc.FlagFor (mc.info p).mld g)
    (hbehind : cap.maxLinkNum ≠ 1 → cap.maxMldNum * cap.maxLinkNum ≤ mid → (mc.info p).mld = none)
    (hsame : cap.maxLinkNum ≠ 1 → ∀ g m q, g < cap.maxMldNum → cap.InGroup g mid →
      cap.InGroup g m → mc.sta m = some q → (mc.info q).mld = (mc.info p).mld) :
    (mc.enter p mid).Maps cap where
  used m := by
    rw [enter_usedMap, WordMap.isUsed_set (by decide), Bool.or_eq_true, decide_eq_true_iff, h.used m]
    constructor
    · rintro (rfl | ⟨q, hq⟩)
      · exact ⟨p, enter_sta_iff.mpr (.inl ⟨rfl, rfl⟩)⟩
      · have hne : m ≠ mid := fun heq => by
          rw [heq, hfree] at hq; cases hq
        exact ⟨q, enter_sta_iff.mpr (.inr ⟨hne, hq⟩)⟩
    · rintro ⟨q, hq⟩
      rcases enter_sta_iff.mp hq with ⟨rfl, -⟩ | ⟨-, hq⟩
      · exact .inl rfl
      · exact .inr ⟨q, hq⟩
  held m q hq := by
    rcases enter_sta_iff.mp hq with ⟨rfl, rfl⟩ | ⟨-, hq⟩
    · simp [hmid]
    · have hqp : q ≠ p := fun heq => hp m (heq ▸ hq)
      rw [enter_info, update_of_ne hqp]; exact h.held m q hq
  excl := h.excl
  one := h.one
  flag hL m q g hq hg hin := by
    show mc.FlagFor _ g
    rw [enter_mld]
    rcases enter_sta_iff.mp hq with ⟨rfl, rfl⟩ | ⟨-, hq⟩
    · exact hflag hL g hg hin
    · exact h.flag hL m q g hq hg hin
  behind hL m q hq hle := by
    rw [enter_mld]
    rcases enter_sta_iff.mp hq with ⟨rfl, rfl⟩ | ⟨-, hq⟩
    · exact hbehind hL hle
    · exact h.behind hL m q hq hle
  same hL g m m' q q' hg hin hin' hq hq' := by
    rw [enter_mld, enter_mld]
    rcases enter_sta_iff.mp hq with ⟨rfl, rfl⟩ | ⟨-, hold⟩
    · rcases enter_sta_iff.mp hq' with ⟨-, rfl⟩ | ⟨-, hold'⟩
      · rfl
      · exact (hsame hL g m' q' hg hin hin' hold').symm
    · rcases enter_sta_iff.mp hq' with ⟨rfl, rfl⟩ | ⟨-, hold'⟩
      · exact hsame hL g m q hg hin' hin hold
      · exact h.same hL g m m' q q' hg hin hin' hold hold'

theorem Occupied.enter (h : mc.Occupied cap g) (hfree : mc.sta mid = none) : (mc.enter p mid).Occupied cap g := by
  obtain ⟨m, q, hin, hq⟩ := h
  have hne : m ≠ mid := fun heq => by
    rw [heq, hfree] at hq; cases hq
  exact ⟨m, q, hin, enter_sta_iff.mpr (.inr ⟨hne, hq⟩)⟩

theorem setFlag_mld (mc : MacidCtl) (mld : Option ℕ) (g g' : ℕ) : (mc.setFlag mld g).usedMldMap.isUsed g' = true ↔
      (mld.isSome ∧ g' = g) ∨ mc.usedMldMap.isUsed g' = true := by
  unfold setFlag
  split <;> rename_i hmld
  · rw [WordMap.isUsed_set (by decide), Bool.or_eq_true, decide_eq_true_iff]; simp [hmld]
  · simp [hmld]

theorem setFlag_legacy (mc : MacidCtl) (mld : Option ℕ) (g g' : ℕ) :
    (mc.setFlag mld g).usedLegacyMap.isUsed g' = true ↔
      (¬ mld.isSome ∧ g' = g) ∨ mc.usedLegacyMap.isUsed g' = true := by
  unfold setFlag
  split <;> rename_i hmld
  · simp [hmld]
  · rw [WordMap.isUsed_set (by decide), Bool.or_eq_true, decide_eq_true_iff]; simp [hmld]

theorem setFlag_flag {mc : MacidCtl} {g' : ℕ} (h : (mc.setFlag mld g).Flag g') : g' = g ∨ mc.Flag g' := by
  rcases h with h | h
  · exact ((setFlag_mld mc mld g g').mp h).imp And.right .inl
  · exact ((setFlag_legacy mc mld g g').mp h).imp And.right .inr

theorem setFlag_flagFor (mc : MacidCtl) (mld : Option ℕ) (g : ℕ) : (mc.setFlag mld g).FlagFor mld g := by
  unfold FlagFor
  split <;> rename_i hmld
  · exact (setFlag_mld mc mld g g).mpr (.inl ⟨hmld, rfl⟩)
  · exact (setFlag_legacy mc mld g g).mpr (.inl ⟨hmld, rfl⟩)

theorem FlagFor.setFlag {mld' : Option ℕ} {g' : ℕ} (h : mc.FlagFor mld' g') (mld : Option ℕ)
    (g : ℕ) : (mc.setFlag mld g).FlagFor mld' g' := by
  unfold FlagFor at *
  split at h <;> rename_i hmld'
  · rw [if_pos hmld']; exact (setFlag_mld mc mld g g').mpr (.inr h)
  · rw [if_neg hmld']; exact (setFlag_legacy mc mld g g').mpr (.inr h)

@[simp] theorem setFlag_usedMap (mc : MacidCtl) (mld : Option ℕ) (g : ℕ) :
    (mc.setFlag mld g).usedMap = mc.usedMap := by
  unfold setFlag
  split <;> rfl

@[simp] theorem setFlag_sta (mc : MacidCtl) (mld : Option ℕ) (g : ℕ) : (mc.setFlag mld g).sta = mc.sta := by
  unfold setFlag
  split <;> rfl

@[simp] theorem setFlag_info (mc : MacidCtl) (mld : Option ℕ) (g : ℕ) : (mc.setFlag mld g).info = mc.info := by
  unfold setFlag
  split <;> rfl

theorem setFlag_handed (mc : MacidCtl) (mld : Option ℕ) (g : ℕ) : (mc.setFlag mld g).handed = mc.handed := by
  unfold setFlag
  split <;> rfl

theorem setFlag_free (mc : MacidCtl) (mld : Option ℕ) (g : ℕ) : (mc.setFlag mld g).free = mc.free := by
  unfold setFlag
  split <;> rfl

theorem Maps.setFlag (h : mc.Maps cap) (hL : cap.maxLinkNum ≠ 1) (mld : Option ℕ)
    (hflag : ¬ mc.Flag g) : (mc.setFlag mld g).Maps cap where
  used := by
    rw [setFlag_usedMap, setFlag_sta]; exact h.used
  held := by
    rw [setFlag_sta, setFlag_info]; exact h.held
  excl g' hg' := by
    rw [← Bool.not_eq_true, setFlag_legacy]
    rintro (⟨hmld, rfl⟩ | hold)
    · rcases (setFlag_mld mc mld g' g').mp hg' with ⟨hmld', -⟩ | hold'
      · exact hmld hmld'
      · exact hflag (.inl hold')
    · rcases (setFlag_mld mc mld g g').mp hg' with ⟨-, rfl⟩ | hold'
      · exact hflag (.inr hold)
      · exact absurd ((h.excl g' hold').symm.trans hold) (by decide)
  one hone := absurd hone hL
  flag _ m p g' hp hg' hin := by
    rw [setFlag_sta] at hp
    rw [setFlag_info]; exact (h.flag hL m p g' hp hg' hin).setFlag mld g
  behind := by
    rw [setFlag_sta, setFlag_info]; exact h.behind
  same := by
    rw [setFlag_sta, setFlag_info]; exact h.same

variable {r : MacidCtl × ℕ}

theorem Grant.enter (hr : Grant cap mc (mc.info p).mld r) (h : mc.Inv cap)
    (hcap : cap.maxMldNum * cap.maxLinkNum ≤ cap.maxNum) (hL0 : 0 < cap.maxLinkNum)
    (hp : ∀ m, mc.sta m ≠ some p) : (r.1.enter p r.2).Inv cap := by
  cases hr with
  | one hL hmid hfree =>
    refine ⟨h.toMaps.enter hfree hmid hp ?_ ?_ ?_, fun g hg => absurd hg (h.one hL g)⟩
    all_goals exact fun hne => absurd hL hne
  | behind hmid hfree hmld hle =>
    -- no group has it
    have hout : ∀ g, g < cap.maxMldNum → ¬ cap.InGroup g _ := fun g hg hin =>
      absurd (hin.lt hg) (Nat.not_lt.mpr hle)
    refine ⟨h.toMaps.enter hfree hmid hp ?_ (fun _ _ => hmld) ?_, fun g hg => ?_⟩
    · exact fun _ g hg hin => absurd hin (hout g hg)
    · exact fun _ g _ _ hg hin => absurd hin (hout g hg)
    · obtain ⟨hlt, hocc⟩ := h.flagged g hg; exact ⟨hlt, hocc.enter hfree⟩
  | join hfree hg hin hflag hsame =>
    have hlt := hin.lt hg
    refine ⟨h.toMaps.enter hfree (Nat.lt_of_lt_of_le hlt hcap) hp ?_ ?_ ?_, fun g' hg' => ?_⟩
    · intro _ g' hg' hin'
      rw [hin'.unique hin hg' hg]; exact hflag
    · exact fun _ hle => absurd hlt (Nat.not_lt.mpr hle)
    · intro _ g' m q hg' hin' hm hq
      rw [hin'.unique hin hg' hg] at hm; exact hsame m q hm hq
    · obtain ⟨hlt', hocc⟩ := h.flagged g' hg'; exact ⟨hlt', hocc.enter hfree⟩
  | fresh hL hg hflag hempty =>
    rename_i g
    have hself := cap.inGroup_self hL0 g
    have hlt := hself.lt hg
    have hfree : (mc.setFlag (mc.info p).mld g).sta g = none := by
      rw [setFlag_sta]; exact hempty g hself
    refine ⟨(h.toMaps.setFlag hL (mc.info p).mld hflag).enter hfree
      (Nat.lt_of_lt_of_le hlt hcap) ?_ ?_ ?_ ?_, fun g' hg' => ?_⟩
    · rw [setFlag_sta]; exact hp
    · intro _ g' hg' hin'
      rw [hin'.unique hself hg' hg, setFlag_info]; exact setFlag_flagFor mc _ g
    · exact fun _ hle => absurd hlt (Nat.not_lt.mpr hle)
    · intro _ g' m q hg' hin' hm hq
      rw [hin'.unique hself hg' hg] at hm
      rw [setFlag_sta, hempty m hm] at hq; cases hq
    · -- the group has its first MACID now
      rcases setFlag_flag hg' with rfl | hold
      · exact ⟨hg, g', p, hself, enter_sta_iff.mpr (.inl ⟨rfl, rfl⟩)⟩
      · obtain ⟨hlt', m, q, hin, hq⟩ := h.flagged g' hold
        have hocc : (mc.setFlag (mc.info p).mld g).Occupied cap g' := by
          refine ⟨m, q, hin, ?_⟩
          rw [setFlag_sta]; exact hq
        exact ⟨hlt', hocc.enter hfree⟩

/-! ### The calls -/

theorem Grant.lt (hr : Grant cap mc mld r)
    (hcap : cap.maxMldNum * cap.maxLinkNum ≤ cap.maxNum) (hL0 : 0 < cap.maxLinkNum) :
    r.2 < cap.maxNum := by
  cases hr with
  | one _ hmid _ => exact hmid
  | behind hmid _ _ _ => exact hmid
  | join _ hg hin _ _ => exact Nat.lt_of_lt_of_le (hin.lt hg) hcap
  | fresh _ hg _ _ => exact Nat.lt_of_lt_of_le ((cap.inGroup_self hL0 _).lt hg) hcap

theorem Grant.keeps (hr : Grant cap mc mld r) (hL0 : 0 < cap.maxLinkNum) :
    mc.sta r.2 = none ∧ r.1.sta = mc.sta ∧ r.1.info = mc.info ∧ r.1.handed = mc.handed ∧ r.1.free = mc.free := by
  cases hr with
  | one _ _ hfree => exact ⟨hfree, rfl, rfl, rfl, rfl⟩
  | behind _ hfree _ _ => exact ⟨hfree, rfl, rfl, rfl, rfl⟩
  | join hfree _ _ _ _ => exact ⟨hfree, rfl, rfl, rfl, rfl⟩
  | fresh _ _ _ hempty =>
    exact ⟨hempty _ (cap.inGroup_self hL0 _), setFlag_sta .., setFlag_info .., setFlag_handed .., setFlag_free ..⟩

/-- `phl_sta->macid = max_macid_num`. -/
def invalidate (cap : Cap) (mc : MacidCtl) (p : ℕ) : MacidCtl :=
  { mc with info := update mc.info p { mc.info p with macid := cap.maxNum } }

theorem Inv.invalidate (h : mc.Inv cap) (hp : ∀ m, mc.sta m ≠ some p) : (mc.invalidate cap p).Inv cap := by
  refine h.congr rfl rfl rfl rfl fun m q hq => ?_
  have hqp : q ≠ p := fun heq => hp m (heq ▸ hq)
  show (update mc.info p _ q).macid = _ ∧ (update mc.info p _ q).mld = _
  rw [update_of_ne hqp]; exact ⟨rfl, rfl⟩

theorem allocMacid_cases (h : mc.Inv cap)
    (hcap : cap.maxMldNum * cap.maxLinkNum ≤ cap.maxNum) (hM : 0 < cap.maxMldNum)
    (hL0 : 0 < cap.maxLinkNum) {mainId : ℕ}
    (hmain : mainId = cap.maxNum ∨ ∃ q, mc.sta mainId = some q ∧ (mc.info q).mld = (mc.info p).mld) :
    mc.allocMacid cap mainId p = mc.invalidate cap p ∨
      ∃ r, Grant cap mc (mc.info p).mld r ∧ mc.allocMacid cap mainId p = r.1.enter p r.2 := by
  have hfound : ∀ r : MacidCtl × ℕ, r = (mc, cap.maxNum) ∨ Grant cap mc (mc.info p).mld r → (if r.2 = cap.maxNum then
        { r.1 with info := update r.1.info p { r.1.info p with macid := cap.maxNum } }
        else r.1.enter p r.2) = mc.invalidate cap p ∨
      ∃ r', Grant cap mc (mc.info p).mld r' ∧ (if r.2 = cap.maxNum then
        { r.1 with info := update r.1.info p { r.1.info p with macid := cap.maxNum } }
        else r.1.enter p r.2) = r'.1.enter p r'.2 := by
    rintro r (rfl | hr)
    · exact .inl (if_pos rfl)
    · exact .inr ⟨r, hr, if_neg (Nat.ne_of_lt (hr.lt hcap hL0))⟩
  refine hfound _ ?_
  by_cases hmld : (mc.info p).mld.isSome
  · rw [if_pos hmld]; exact grant_mld h hcap hM hmld hmain
  · rw [if_neg hmld, Option.not_isSome_iff_eq_none.mp hmld]; exact grant_legacy h

/-- A handed station with a MACID is the one in the table. -/
def Own (cap : Cap) (mc : MacidCtl) (p : ℕ) : Prop :=
  mc.handed p = true → (mc.info p).macid < cap.maxNum → mc.sta (mc.info p).macid = some p

theorem own_invalidate (h : ∀ q ≠ p, mc.Own cap q) : ∀ q, (mc.invalidate cap p).Own cap q := by
  intro q hq hlt
  by_cases hqp : q = p
  · subst hqp; simp [MacidCtl.invalidate] at hlt
  · have hinfo : (mc.invalidate cap p).info q = mc.info q := update_of_ne hqp ..
    rw [hinfo] at hlt ⊢; exact h q hqp hq hlt

theorem own_enter {mc' : MacidCtl} (h : ∀ q ≠ p, mc.Own cap q) (hs : mc'.sta = mc.sta)
    (hi : mc'.info = mc.info) (hh : mc'.handed = mc.handed) (hfree : mc.sta mid = none) :
    ∀ q, (mc'.enter p mid).Own cap q := by
  intro q hq hlt
  by_cases hqp : q = p
  · subst hqp; simp
  · have hinfo : (mc'.enter p mid).info q = mc.info q := by
      rw [enter_info, update_of_ne hqp, hi]
    rw [hinfo] at hlt ⊢
    have hown := h q hqp (hh ▸ hq) hlt
    have hne : (mc.info q).macid ≠ mid := fun heq => by
      rw [heq, hfree] at hown; cases hown
    rw [enter_sta, update_of_ne hne, hs]; exact hown

structure Good (cap : Cap) (mc : MacidCtl) : Prop where
  inv : mc.Inv cap
  own : ∀ p, mc.Own cap p
  out : ∀ m p, mc.sta m = some p → mc.free p = false

theorem Good.setFree (h : mc.Inv cap) (hown : ∀ q, mc.Own cap q)
    (hout : ∀ m q, q ≠ p → mc.sta m = some q → mc.free q = false) {b : Bool}
    (hb : ∀ m, mc.sta m = some p → b = false) : (mc.setFree p b).Good cap where
  inv := h.congr rfl rfl rfl rfl fun _ _ _ => ⟨rfl, rfl⟩
  own := hown
  out m q hq := by
    show update mc.free p b q = false
    by_cases hqp : q = p
    · subst hqp
      rw [update_self]; exact hb m hq
    · rw [update_of_ne hqp]; exact hout m q hqp hq

theorem hand_mld_self (s : StaInfo) : ((mc.hand p s).info p).mld = s.mld := by
  rw [hand]; simp

theorem hand_info {q : ℕ} (hq : q ≠ p) (s : StaInfo) : (mc.hand p s).info q = mc.info q := update_of_ne hq ..

theorem Good.alloc (h : mc.Good cap) (hcap : cap.maxMldNum * cap.maxLinkNum ≤ cap.maxNum)
    (hM : 0 < cap.maxMldNum) (hL0 : 0 < cap.maxLinkNum) {macAddr : List ℕ} {wrole rlink : ℕ}
    {main : Option ℕ} (he : mc.Enabled cap (.alloc p macAddr wrole rlink mld main)) :
    (mc.step cap (.alloc p macAddr wrole rlink mld main)).Good cap := by
  obtain ⟨hfree, hmain⟩ := he
  have hne : ∀ m q, mc.sta m = some q → q ≠ p := by
    rintro m q hq rfl
    rw [h.out m q hq] at hfree; cases hfree
  have hp : ∀ m, mc.sta m ≠ some p := fun m hm => hne m p hm rfl
  let mc' := mc.hand p ⟨0, macAddr, wrole, rlink, mld⟩
  have hinv : mc'.Inv cap := by
    refine h.inv.congr rfl rfl rfl rfl fun m q hq => ?_
    rw [hand_info (hne m q hq)]; exact ⟨rfl, rfl⟩
  have hown : ∀ q ≠ p, mc'.Own cap q := by
    intro q hq hh hlt
    have hhq : mc.handed q = true := by
      rw [← hh]; exact (update_of_ne hq ..).symm
    rw [hand_info hq] at hlt ⊢; exact h.own q hhq hlt
  have hmain' : mc.mainId cap main = cap.maxNum ∨
      ∃ q, mc'.sta (mc.mainId cap main) = some q ∧ (mc'.info q).mld = (mc'.info p).mld := by
    cases main with
    | none => exact .inl rfl
    | some q =>
      obtain ⟨-, hmld, -, hq⟩ := hmain q rfl
      refine .inr ⟨q, hq, ?_⟩
      rw [hand_info (hne _ q hq), hand_mld_self]; exact hmld
  rw [step]
  rcases allocMacid_cases hinv hcap hM hL0 hmain' with heq | ⟨r, hr, heq⟩
  · rw [heq]
    exact Good.setFree (hinv.invalidate hp) (own_invalidate hown)
      (fun m q _ hq => h.out m q hq) fun m hm => absurd hm (hp m)
  · rw [heq]
    obtain ⟨hnone, hs, hi, hh, hf⟩ := hr.keeps hL0
    have hinv' := hr.enter hinv hcap hL0 hp
    refine Good.setFree hinv' (own_enter hown hs hi hh hnone) (fun m q hqp hq => ?_) fun m hm => ?_
    · obtain ⟨-, hold⟩ := (enter_sta_iff.mp hq).resolve_left fun hnew => hqp hnew.2
      show r.1.free q = false
      rw [hf]; exact h.out m q (by rwa [hs] at hold)
    · -- it got its MACID
      obtain ⟨hlt, hmac⟩ := hinv'.held m p hm
      rw [hmac]; exact decide_eq_false (Nat.ne_of_lt hlt)

/-! ### The release -/

/-- `max_mld_num` is not 0, and none of the MACIDs of the group is used in the map. -/
def Unused (cap : Cap) (usedMap : WordMap 32) (mid : ℕ) : Prop :=
  cap.maxMldNum ≠ 0 ∧ ∀ another ∈ group cap mid, usedMap.isUsed another = false

instance (usedMap : WordMap 32) (mid : ℕ) : Decidable (Unused cap usedMap mid) :=
  inferInstanceAs (Decidable (_ ∧ _))

section Release

/-- `_phl_release_macid` for a station with a MACID. -/
def released (cap : Cap) (mc : MacidCtl) (p : ℕ) : MacidCtl :=
  let s := mc.info p
  let usedMap := mc.usedMap.clr s.macid
  let mid := s.macid % cap.maxMldNum
  { mc with
    usedMap := usedMap
    wifiRoleUsedmap := update mc.wifiRoleUsedmap s.wrole
      ((mc.wifiRoleUsedmap s.wrole).clr s.macid)
    sta := update mc.sta s.macid none
    bmcMap := if s.bmc then mc.bmcMap.clr s.macid else mc.bmcMap
    usedMldMap := if Unused cap usedMap mid then mc.usedMldMap.clr mid else mc.usedMldMap
    usedLegacyMap := if Unused cap usedMap mid then mc.usedLegacyMap.clr mid
      else mc.usedLegacyMap }

theorem releaseMacid_eq (cap : Cap) (mc : MacidCtl) (p : ℕ) : mc.releaseMacid cap p =
      if (mc.info p).macid ≥ cap.maxNum ∨ mc.usedMap.isUsed (mc.info p).macid = false then
        mc.invalidate cap p
      else (mc.released cap p).invalidate cap p := by
  unfold releaseMacid
  by_cases hge : (mc.info p).macid ≥ cap.maxNum
  · simp only [if_pos hge, if_pos (Or.inl hge)]; rfl
  · by_cases hun : mc.usedMap.isUsed (mc.info p).macid = false
    · rw [if_pos (Or.inr hun)]
      simp only [if_neg hge, hun, Bool.not_false, if_true]; rfl
    · have hno : ¬ ((mc.info p).macid ≥ cap.maxNum ∨ mc.usedMap.isUsed (mc.info p).macid = false) :=
        not_or.mpr ⟨hge, hun⟩
      rw [if_neg hno]
      rw [Bool.not_eq_false] at hun
      simp only [if_neg hge, hun, Bool.not_true, Bool.false_eq_true, if_false]; rfl

variable {m q g : ℕ}

theorem released_sta_iff : (mc.released cap p).sta m = some q ↔ m ≠ (mc.info p).macid ∧ mc.sta m = some q := by
  show update mc.sta (mc.info p).macid none m = some q ↔ _
  by_cases hm : m = (mc.info p).macid
  · subst hm; simp
  · simp [hm]

theorem released_used : (mc.released cap p).usedMap.isUsed m = true ↔
      m ≠ (mc.info p).macid ∧ mc.usedMap.isUsed m = true := by
  show (mc.usedMap.clr (mc.info p).macid).isUsed m = true ↔ _
  rw [WordMap.isUsed_clr (by decide)]; simp

theorem clr_if {map : WordMap 32} {c : Prop} [Decidable c] {mid : ℕ} :
    (if c then map.clr mid else map).isUsed g = true ↔ ¬ (c ∧ g = mid) ∧ map.isUsed g = true := by
  by_cases hc : c
  · rw [if_pos hc, WordMap.isUsed_clr (by decide)]; simp [hc]
  · rw [if_neg hc]; simp [hc]

/-- The flags of the released MACID's group go when it was the last one. -/
def Gone (cap : Cap) (mc : MacidCtl) (p g : ℕ) : Prop :=
  Unused cap (mc.usedMap.clr (mc.info p).macid) ((mc.info p).macid % cap.maxMldNum) ∧
    g = (mc.info p).macid % cap.maxMldNum

theorem released_mld : (mc.released cap p).usedMldMap.isUsed g = true ↔
    ¬ mc.Gone cap p g ∧ mc.usedMldMap.isUsed g = true := clr_if

theorem released_legacy : (mc.released cap p).usedLegacyMap.isUsed g = true ↔
    ¬ mc.Gone cap p g ∧ mc.usedLegacyMap.isUsed g = true := clr_if

theorem released_flag : (mc.released cap p).Flag g ↔ ¬ mc.Gone cap p g ∧ mc.Flag g := by
  unfold Flag
  rw [released_mld, released_legacy, ← and_or_left]

theorem not_gone (h : ∀ m, mc.usedMap.isUsed m = true ↔ ∃ p, mc.sta m = some p) (hne : m ≠ (mc.info p).macid) (hq : mc.sta m = some q)
    (hg : cap.InGroup g m) : ¬ mc.Gone cap p g := by
  rintro ⟨⟨-, hunused⟩, rfl⟩
  have hclr := hunused m (Cap.mem_group.mpr hg)
  rw [WordMap.isUsed_clr (by decide), (h m).mpr ⟨q, hq⟩] at hclr
  simp [hne] at hclr

theorem Inv.released (h : mc.Inv cap) (hM : 0 < cap.maxMldNum) : (mc.released cap p).Inv cap where
  used m := by
    rw [released_used, h.used m]
    simp only [released_sta_iff, exists_and_left]
  held m q hq := h.held m q (released_sta_iff.mp hq).2
  excl g hg := by
    rw [← Bool.not_eq_true, released_legacy]
    rintro ⟨-, hl⟩
    exact absurd ((h.excl g (released_mld.mp hg).2).symm.trans hl) (by decide)
  one hL g hg := h.one hL g (released_flag.mp hg).2
  flag hL m q g hq hg hin := by
    obtain ⟨hne, hq⟩ := released_sta_iff.mp hq
    have hnot := not_gone h.used hne hq hin
    have hflag := h.flag hL m q g hq hg hin
    unfold FlagFor at hflag ⊢
    rw [released_mld, released_legacy]
    show if (mc.info q).mld.isSome then _ else _
    split at hflag <;> rename_i hmld
    · rw [if_pos hmld]; exact ⟨hnot, hflag⟩
    · rw [if_neg hmld]; exact ⟨hnot, hflag⟩
  behind hL m q hq := h.behind hL m q (released_sta_iff.mp hq).2
  same hL g m m' q q' hg hin hin' hq hq' := h.same hL g m m' q q' hg hin hin'
    (released_sta_iff.mp hq).2 (released_sta_iff.mp hq').2
  flagged g hg := by
    obtain ⟨hnot, hflag⟩ := released_flag.mp hg
    obtain ⟨hlt, m, q, hin, hq⟩ := h.flagged g hflag
    refine ⟨hlt, ?_⟩
    by_cases hne : m = (mc.info p).macid
    · -- the released MACID was in the group, which has another one
      have hgm : g = (mc.info p).macid % cap.maxMldNum := by rw [← hne, hin.mod hlt]
      by_contra hnone
      refine hnot ⟨⟨Nat.ne_of_gt hM, fun another hmem => ?_⟩, hgm⟩
      rw [← hgm] at hmem
      rw [← Bool.not_eq_true]
      intro hused
      obtain ⟨hne', hused'⟩ := released_used.mp (show (mc.released cap p).usedMap.isUsed another = true from hused)
      obtain ⟨r, hr⟩ := (h.used another).mp hused'
      exact hnone ⟨another, r, Cap.mem_group.mp hmem, released_sta_iff.mpr ⟨hne', hr⟩⟩
    · exact ⟨m, q, hin, released_sta_iff.mpr ⟨hne, hq⟩⟩

theorem Good.release (h : mc.Good cap) (hM : 0 < cap.maxMldNum) (hp : mc.handed p = true) :
    (mc.step cap (.release p)).Good cap := by
  rw [step, releaseMacid_eq]
  split
  · rename_i hno
    have hnot : ∀ m, mc.sta m ≠ some p := fun m hm => by
      obtain ⟨hlt, heq⟩ := h.inv.held m p hm
      rw [heq, (h.inv.used m).mpr ⟨p, hm⟩] at hno; exact hno.elim (Nat.not_le.mpr hlt) (by decide)
    exact Good.setFree (h.inv.invalidate hnot) (own_invalidate fun q _ => h.own q)
      (fun m q _ hq => h.out m q hq) fun m hm => absurd hm (hnot m)
  · rename_i hyes
    obtain ⟨hlt, -⟩ := not_or.mp hyes
    have hsta := h.own p hp (Nat.lt_of_not_le hlt)
    have hnot : ∀ m, (mc.released cap p).sta m ≠ some p := fun m hm => by
      obtain ⟨hne, hm⟩ := released_sta_iff.mp hm
      exact hne (h.inv.held m p hm).2.symm
    refine Good.setFree ((h.inv.released hM).invalidate hnot)
      (own_invalidate fun q hq hh hq' => ?_)
      (fun m q _ hq => ?_) fun m hm => absurd hm (hnot m)
    · -- the MACID of another station is another MACID
      refine released_sta_iff.mpr ⟨fun heq => ?_, h.own q hh hq'⟩
      have hown := h.own q hh hq'
      have heq' : (mc.info q).macid = (mc.info p).macid := heq
      rw [heq', hsta] at hown; exact hq (Option.some.inj hown).symm
    · have hq' : (mc.released cap p).sta m = some q := hq
      exact h.out m q (released_sta_iff.mp hq').2

end Release

/-! ### The runs -/

theorem good_run {info : ℕ → StaInfo} (hcap : cap.maxMldNum * cap.maxLinkNum ≤ cap.maxNum)
    (hM : 0 < cap.maxMldNum) (hL0 : 0 < cap.maxLinkNum)
    (h : Reach (step cap) (Enabled cap) (init cap info) mc) : mc.Good cap := by
  refine h.invariant ⟨inv_init cap info, fun p hp => (nomatch hp), fun m p hp => nomatch hp⟩ fun mc e hgood he => ?_
  cases e with
  | alloc p macAddr wrole rlink mld main => exact hgood.alloc hcap hM hL0 he
  | release p => exact hgood.release hM he

/-- The maps and the table are in step in every state: a MACID is used when its station has it, no two
stations have one MACID, and each is below `max_num`; the stations of a group are links of one MLD,
or legacy peers; and a group that nobody is in has no flag. -/
theorem macid_invariant {info : ℕ → StaInfo} (hM : 0 < cap.maxMldNum) (hL : 0 < cap.maxLinkNum)
    (hcap : cap.maxMldNum * cap.maxLinkNum ≤ cap.maxNum)
    (h : Reach (step cap) (Enabled cap) (init cap info) mc) :
    (∀ m, mc.usedMap.isUsed m = true ↔ ∃ p, mc.sta m = some p ∧ (mc.info p).macid = m) ∧
    (∀ m p, mc.sta m = some p → m < cap.maxNum) ∧
    (∀ p q, mc.handed p = true → mc.handed q = true → (mc.info p).macid < cap.maxNum →
      (mc.info q).macid = (mc.info p).macid → q = p) ∧
    (∀ g m m' p q, g < cap.maxMldNum → m ∈ group cap g → m' ∈ group cap g → mc.sta m = some p →
      mc.sta m' = some q → (mc.info p).mld = (mc.info q).mld) ∧
    ∀ g, (∀ m ∈ group cap g, mc.usedMap.isUsed m = false) →
      mc.usedMldMap.isUsed g = false ∧ mc.usedLegacyMap.isUsed g = false := by
  obtain ⟨hinv, hown, -⟩ := good_run hcap hM hL h
  refine ⟨fun m => ?_, fun m p hp => (hinv.held m p hp).1, fun p q hp hq hlt heq => ?_, ?_, ?_⟩
  · rw [hinv.used m]; exact exists_congr fun p => ⟨fun hp => ⟨hp, (hinv.held m p hp).2⟩, And.left⟩
  · have hq' := hown q hq (heq ▸ hlt)
    rw [heq, hown p hp hlt] at hq'; exact (Option.some.inj hq').symm
  · intro g m m' p q hg hm hm' hp hq
    rw [Cap.mem_group] at hm hm'
    by_cases hone : cap.maxLinkNum = 1
    · rw [hm.eq_of_one hone] at hp
      rw [hm'.eq_of_one hone, hp] at hq
      rw [Option.some.inj hq]
    · exact hinv.same hone g m m' p q hg hm hm' hp hq
  · intro g hunused
    have hnot : ¬ mc.Flag g := fun hflag => by
      obtain ⟨-, m, p, hin, hp⟩ := hinv.flagged g hflag
      have hused := (hinv.used m).mpr ⟨p, hp⟩
      rw [hunused m (Cap.mem_group.mpr hin)] at hused; cases hused
    obtain ⟨hm, hl⟩ := not_or.mp hnot
    exact ⟨eq_false_of_ne_true hm, eq_false_of_ne_true hl⟩

/-- The pool of station objects at the start. -/
def someInfo (_ : ℕ) : StaInfo := ⟨0, [], 0, 0, none⟩

instance (e : StaEv) : Decidable (mc.Enabled cap e) := by
  unfold Enabled
  cases e with
  | release p => exact inferInstanceAs (Decidable (_ = _))
  | alloc p macAddr wrole rlink mld main =>
    cases main with
    | none => exact decidable_of_iff (mc.free p = true) (by simp)
    | some q =>
      exact decidable_of_iff (mc.free p = true ∧ mld.isSome ∧ (mc.info q).mld = mld ∧ (mc.info q).macid < cap.maxNum ∧
        mc.sta (mc.info q).macid = some q) (by simp)

/-- Two links of an MLD, a legacy peer, and the release of the first link. -/
def someCalls : List StaEv :=
  [.alloc 0 [1] 0 0 (some 7) none, .alloc 1 [2] 0 1 (some 7) (some 0), .alloc 2 [3] 1 0 none none, .release 0]

theorem macid_invariant_calls :
    (∀ m, (someCalls.foldl (step ⟨4, 2, 2⟩) (init ⟨4, 2, 2⟩ someInfo)).usedMap.isUsed m = true ↔
      ∃ p, (someCalls.foldl (step ⟨4, 2, 2⟩) (init ⟨4, 2, 2⟩ someInfo)).sta m = some p ∧
        ((someCalls.foldl (step ⟨4, 2, 2⟩) (init ⟨4, 2, 2⟩ someInfo)).info p).macid = m) ∧
    (someCalls.foldl (step ⟨4, 2, 2⟩) (init ⟨4, 2, 2⟩ someInfo)).sta 2 = some 1 := by
  have hlegal : Legal (step ⟨4, 2, 2⟩) (Enabled ⟨4, 2, 2⟩) (init ⟨4, 2, 2⟩ someInfo) someCalls := by
    decide
  exact ⟨(macid_invariant (by decide) (by decide) (by decide) hlegal.reach).1, by decide⟩

/-- Without a link, the MLD that gets no MACID leaves the flag of a group that nobody is in. -/
theorem no_link_flag : ¬ ∀ (cap : Cap) (info : ℕ → StaInfo) (mc : MacidCtl), 0 < cap.maxMldNum →
    cap.maxMldNum * cap.maxLinkNum ≤ cap.maxNum →
    Reach (step cap) (Enabled cap) (init cap info) mc →
    ∀ g, (∀ m ∈ group cap g, mc.usedMap.isUsed m = false) →
      mc.usedMldMap.isUsed g = false ∧ mc.usedLegacyMap.isUsed g = false := by
  intro h
  let calls : List StaEv := [.alloc 0 [1] 0 0 (some 7) none, .alloc 1 [2] 0 0 (some 8) none]
  have hlegal : Legal (step ⟨1, 2, 0⟩) (Enabled ⟨1, 2, 0⟩) (init ⟨1, 2, 0⟩ someInfo) calls := by
    decide
  have hflag :=
    (h ⟨1, 2, 0⟩ someInfo _ (by decide) (by decide) hlegal.reach 1 (by decide)).1
  exact absurd hflag (by decide)

end MacidCtl

end Rtl8852cu.Sta
