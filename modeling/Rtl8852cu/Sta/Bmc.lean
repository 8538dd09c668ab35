import Rtl8852cu.Sta.Groups

/-!
# The MACIDs of the broadcast stations

`wrole_bmc` has the MACID of the broadcast station of every role and link.  An allocation enters it;
`_phl_release_macid` clears the maps and the station table, but leaves it.
-/

namespace Rtl8852cu.Sta

open Lib
open Function (update update_self update_of_ne)

namespace MacidCtl

variable {cap : Cap} {mc mc' : MacidCtl} {p mid : ℕ}

/-- The stations, their MACIDs and the flags of the groups.  Where the groups do not fit below
`max_num`, a MACID above it is taken, and stays with its station. -/
structure Slots (cap : Cap) (mc : MacidCtl) : Prop where
  used : ∀ m, mc.usedMap.isUsed m = true ↔ ∃ p, mc.sta m = some p
  invalid : mc.sta cap.maxNum = none
  below : ∀ m p, mc.sta m = some p → m < cap.maxNum → (mc.info p).macid = m
  out : ∀ m p, mc.sta m = some p → (mc.info p).macid = m → mc.free p = false
  flag : cap.maxLinkNum ≠ 1 → ∀ m p, mc.sta m = some p → m < cap.maxMldNum → mc.Flag m
  zero : cap.maxLinkNum = 0 → ∀ m p, mc.sta m = some p → m < cap.maxMldNum
  group : 2 ≤ cap.maxLinkNum → ∀ m p, mc.sta m = some p → m < cap.maxNum → (mc.info p).mld.isSome →
    m < cap.maxMldNum * cap.maxLinkNum ∧ mc.Flag (m % cap.maxMldNum)

/-- A handed station with a MACID has it. -/
def Keeps (cap : Cap) (mc : MacidCtl) (p : ℕ) : Prop :=
  mc.handed p = true → (mc.info p).macid ≠ cap.maxNum → mc.sta (mc.info p).macid = some p

structure Book (cap : Cap) (mc : MacidCtl) : Prop extends Slots cap mc where
  keeps : ∀ p, mc.Keeps cap p

theorem book_init (cap : Cap) (info : ℕ → StaInfo) : (init cap info).Book cap where
  used m := by simp [init]
  invalid := rfl
  below _ _ h := nomatch h
  out _ _ h := nomatch h
  flag _ _ _ h := nomatch h
  zero _ _ _ h := nomatch h
  group _ _ _ h := nomatch h
  keeps _ h := nomatch h

theorem Slots.sta_none (h : mc.Slots cap) {m : ℕ} (hm : mc.usedMap.isUsed m = false) : mc.sta m = none := by
  rw [Option.eq_none_iff_forall_ne_some]
  intro q hq
  have hused := (h.used m).mpr ⟨q, hq⟩
  rw [hm] at hused; cases hused

theorem Slots.ne_of_free (h : mc.Slots cap) (hp : mc.free p = true) {m q : ℕ}
    (hq : mc.sta m = some q) (hm : m < cap.maxNum) : q ≠ p := by
  rintro rfl
  rw [h.out m q hq (h.below m q hq hm)] at hp; cases hp

/-! ### Finding a MACID -/

/-- What is found for a station with this `mld`. -/
structure Found (cap : Cap) (mc : MacidCtl) (mld : Option ℕ) (r : MacidCtl × ℕ) : Prop where
  unused : mc.sta r.2 = none
  same : r.1 = mc ∨ r.1 = mc.setFlag mld r.2
  flag : cap.maxLinkNum ≠ 1 → r.2 < cap.maxMldNum → r.1.Flag r.2
  zero : cap.maxLinkNum = 0 → r.2 < cap.maxMldNum
  group : 2 ≤ cap.maxLinkNum → mld.isSome → r.2 < cap.maxMldNum * cap.maxLinkNum ∧ r.1.Flag (r.2 % cap.maxMldNum)

theorem Slots.found_one (h : mc.Slots cap) (hL : cap.maxLinkNum = 1)
    (hun : mc.usedMap.isUsed mid = false) (mld : Option ℕ) : Found cap mc mld (mc, mid) where
  unused := h.sta_none hun
  same := .inl rfl
  flag hne := absurd hL hne
  zero h0 := by omega
  group h2 := by omega

variable {g : ℕ}

theorem Slots.found_join (h : mc.Slots cap) (hg : g < cap.maxMldNum) (hflag : mc.Flag g)
    (hin : cap.InGroup g mid) (hun : mc.usedMap.isUsed mid = false) (mld : Option ℕ) :
    Found cap mc mld (mc, mid) where
  unused := h.sta_none hun
  same := .inl rfl
  flag _ hlt := by
    have hlt' : mid < cap.maxMldNum := hlt
    have heq : mid = g := by rw [← Nat.mod_eq_of_lt hlt', hin.mod hg]
    rw [heq]; exact hflag
  zero h0 := by
    obtain ⟨k, hk, -⟩ := hin
    omega
  group _ _ := by
    rw [hin.mod hg]; exact ⟨hin.lt hg, hflag⟩

theorem Flag.setFlag {g' : ℕ} (mld : Option ℕ) (h : mc.Flag g' ∨ g' = g) : (mc.setFlag mld g).Flag g' := by
  unfold Flag at *
  rw [setFlag_mld, setFlag_legacy]
  by_cases hmld : mld.isSome <;> tauto

theorem Slots.found_fresh (h : mc.Slots cap) (hL : cap.maxLinkNum ≠ 1)
    (hg : g < cap.maxMldNum) (hnot : ¬ mc.Flag g) (mld : Option ℕ) :
    Found cap mc mld (mc.setFlag mld g, g) where
  unused := by
    rw [Option.eq_none_iff_forall_ne_some]; exact fun q hq => hnot (h.flag hL g q hq hg)
  same := .inr rfl
  flag _ _ := Flag.setFlag mld (.inr rfl)
  zero _ := hg
  group h2 _ := by
    refine ⟨(cap.inGroup_self (by omega) g).lt hg, ?_⟩
    rw [Nat.mod_eq_of_lt hg]; exact Flag.setFlag mld (.inr rfl)

variable {mld : Option ℕ}

theorem found_mld (h : mc.Slots cap) (hmld : mld.isSome) {mainId : ℕ} (hmain : mainId = cap.maxNum ∨
      mainId < cap.maxNum ∧ ∃ q, mc.sta mainId = some q ∧ (mc.info q).mld = mld) :
    (mc.allocMldMacid cap mainId = (mc, cap.maxNum)) ∨ Found cap mc mld (mc.allocMldMacid cap mainId) := by
  unfold allocMldMacid
  by_cases hid : cap.maxNum = mainId
  · rw [if_pos hid]
    by_cases hL : cap.maxLinkNum = 1
    · rw [if_pos hL]
      cases hf : mc.firstUnused (List.range cap.maxNum) with
      | none => exact .inl rfl
      | some mid => exact .inr (h.found_one hL (firstUnused_some hf).2 mld)
    · rw [if_neg hL]
      split
      · rename_i mid hf
        obtain ⟨hmem, hnot⟩ := noFlag_some hf
        have hfound := h.found_fresh hL (List.mem_range.mp hmem) hnot mld
        rw [setFlag, if_pos hmld] at hfound; exact .inr hfound
      · exact .inl rfl
  · rw [if_neg hid]
    cases hf : mc.firstUnused (group cap (mainId % cap.maxMldNum)) with
    | none => exact .inl rfl
    | some mid =>
      obtain ⟨hmem, hun⟩ := firstUnused_some hf
      have hin := Cap.mem_group.mp hmem
      obtain ⟨hlt, q, hq, hqm⟩ := hmain.resolve_left fun heq => hid heq.symm
      refine .inr ?_
      by_cases hL : cap.maxLinkNum = 1
      · exact h.found_one hL hun mld
      · have h2 : 2 ≤ cap.maxLinkNum := by
          obtain ⟨k, hk, -⟩ := hin
          omega
        obtain ⟨hltM, hflag⟩ := h.group h2 mainId q hq hlt (hqm ▸ hmld)
        have hM : 0 < cap.maxMldNum := Nat.pos_of_ne_zero fun h0 => by simp [h0] at hltM
        exact h.found_join (Nat.mod_lt _ hM) hflag hin hun mld

theorem found_legacy (h : mc.Slots cap) : (mc.allocLegacyMacid cap = (mc, cap.maxNum)) ∨
      Found cap mc none (mc.allocLegacyMacid cap) := by
  unfold allocLegacyMacid
  by_cases hL : cap.maxLinkNum = 1
  · rw [if_pos hL]
    cases hf : mc.firstUnused (List.range cap.maxNum) with
    | none => exact .inl rfl
    | some mid => exact .inr (h.found_one hL (firstUnused_some hf).2 none)
  · rw [if_neg hL]
    simp only
    cases hb : (if cap.maxMldNum * cap.maxLinkNum > 0 ∧ cap.maxNum > cap.maxMldNum * cap.maxLinkNum then
        mc.firstUnused (List.range' (cap.maxMldNum * cap.maxLinkNum)
          (cap.maxNum - cap.maxMldNum * cap.maxLinkNum)) else none) with
    | some mid =>
      split at hb
      · rename_i hpos
        obtain ⟨hmem, hun⟩ := firstUnused_some hb
        obtain ⟨hle, -⟩ := List.mem_range'_1.mp hmem
        have hL0 : 0 < cap.maxLinkNum := Nat.pos_of_ne_zero fun h0 => by simp [h0] at hpos
        have hMle : cap.maxMldNum ≤ mid :=
          Nat.le_trans (Nat.le_mul_of_pos_right _ hL0) hle
        exact .inr ⟨h.sta_none hun, .inl rfl, fun _ hlt => absurd hlt (Nat.not_lt.mpr hMle),
          fun h0 => by omega, fun _ hn => nomatch hn⟩
      · cases hb
    | none =>
      have hloop := legacyLoop_finds cap mc (List.range cap.maxMldNum) cap.maxNum
      simp only
      cases hr : legacyLoop cap mc (List.range cap.maxMldNum) cap.maxNum with
      | inl mid =>
        rw [hr] at hloop
        obtain ⟨g, hmem, -, hl, hin, hun⟩ := hloop
        exact .inr (h.found_join (List.mem_range.mp hmem) (.inr hl) hin hun none)
      | inr avail =>
        rw [hr] at hloop
        simp only
        by_cases ha : avail = cap.maxNum
        · rw [if_neg (not_not.mpr ha), ha]; exact .inl rfl
        · rw [if_pos ha]
          obtain ⟨hmem, hnot⟩ := hloop.resolve_left ha
          exact .inr (h.found_fresh hL (List.mem_range.mp hmem) hnot none)

variable {r : MacidCtl × ℕ}

theorem Found.keeps (hr : Found cap mc mld r) :
    r.1.usedMap = mc.usedMap ∧ r.1.sta = mc.sta ∧ r.1.info = mc.info ∧ r.1.free = mc.free ∧
      r.1.handed = mc.handed := by
  rcases hr.same with heq | heq
  · rw [heq]; exact ⟨rfl, rfl, rfl, rfl, rfl⟩
  · rw [heq]
    exact ⟨setFlag_usedMap .., setFlag_sta .., setFlag_info .., setFlag_free .., setFlag_handed ..⟩

theorem Found.keeps_flag (hr : Found cap mc mld r) (hg : mc.Flag g) : r.1.Flag g := by
  rcases hr.same with heq | heq
  · rwa [heq]
  · rw [heq]; exact Flag.setFlag mld (.inl hg)

/-! ### The calls -/

/-- The station is told that it has no MACID, and nothing else is changed but flags set. -/
structure Dropped (cap : Cap) (p : ℕ) (mc mc' : MacidCtl) : Prop where
  usedMap : mc'.usedMap = mc.usedMap
  bmcMap : mc'.bmcMap = mc.bmcMap
  wroleBmc : mc'.wroleBmc = mc.wroleBmc
  sta : mc'.sta = mc.sta
  flag : ∀ g, mc.Flag g → mc'.Flag g
  info : ∀ q ≠ p, mc'.info q = mc.info q
  macid : (mc'.info p).macid = cap.maxNum
  free : ∀ q ≠ p, mc'.free q = mc.free q
  handed : ∀ q ≠ p, mc'.handed q = mc.handed q

theorem Slots.drop (h : mc.Slots cap) (hd : Dropped cap p mc mc')
    (hp : ∀ m q, mc.sta m = some q → m < cap.maxNum → q ≠ p) : mc'.Slots cap where
  used := by
    rw [hd.usedMap, hd.sta]; exact h.used
  invalid := by
    rw [hd.sta]; exact h.invalid
  below m q hq hm := by
    rw [hd.sta] at hq
    rw [hd.info q (hp m q hq hm)]; exact h.below m q hq hm
  out m q hq hmac := by
    rw [hd.sta] at hq
    by_cases hqp : q = p
    · rw [hqp, hd.macid] at hmac
      rw [← hmac, h.invalid] at hq; cases hq
    · rw [hd.info q hqp] at hmac
      rw [hd.free q hqp]; exact h.out m q hq hmac
  flag hL m q hq hm := hd.flag m (h.flag hL m q (hd.sta ▸ hq) hm)
  zero hL m q hq := h.zero hL m q (hd.sta ▸ hq)
  group hL m q hq hm hmld := by
    rw [hd.sta] at hq
    rw [hd.info q (hp m q hq hm)] at hmld
    obtain ⟨hlt, hflag⟩ := h.group hL m q hq hm hmld
    exact ⟨hlt, hd.flag _ hflag⟩

theorem Dropped.keeps (hd : Dropped cap p mc mc') (h : ∀ q ≠ p, mc.Keeps cap q) (q : ℕ) : mc'.Keeps cap q := by
  intro hq hmac
  by_cases hqp : q = p
  · rw [hqp] at hmac; exact absurd hd.macid hmac
  · rw [hd.info q hqp] at hmac ⊢
    rw [hd.sta]; exact h q hqp (hd.handed q hqp ▸ hq) hmac

theorem Slots.hand (h : mc.Slots cap) (hp : mc.free p = true) (s : StaInfo) : (mc.hand p s).Slots cap where
  used := h.used
  invalid := h.invalid
  below m q hq hm := by
    rw [hand_info (h.ne_of_free hp hq hm)]; exact h.below m q hq hm
  out m q hq hmac := by
    refine h.out m q hq ?_
    by_cases hqp : q = p
    · subst hqp
      rw [← hmac, MacidCtl.hand]; simp
    · rw [← hmac, hand_info hqp]
  flag := h.flag
  zero := h.zero
  group hL m q hq hm hmld := by
    rw [hand_info (h.ne_of_free hp hq hm)] at hmld; exact h.group hL m q hq hm hmld

theorem setFree_self (mc : MacidCtl) (p : ℕ) (b : Bool) : (mc.setFree p b).free p = b := update_self ..

theorem setFree_ne (mc : MacidCtl) {q : ℕ} (hq : q ≠ p) (b : Bool) :
    (mc.setFree p b).free q = mc.free q := update_of_ne hq ..

theorem Slots.enter (h : mc.Slots cap) (hp : mc.free p = true)
    (hr : Found cap mc (mc.info p).mld r) (hne : r.2 ≠ cap.maxNum) :
    ((r.1.enter p r.2).setFree p false).Slots cap := by
  obtain ⟨hu, hs, hi, hf, -⟩ := hr.keeps
  have hsta : ∀ {m q}, ((r.1.enter p r.2).setFree p false).sta m = some q →
      m = r.2 ∧ q = p ∨ m ≠ r.2 ∧ mc.sta m = some q := by
    intro m q hq
    rw [← hs]; exact enter_sta_iff.mp hq
  have hinfo : ∀ {q}, q ≠ p → ((r.1.enter p r.2).setFree p false).info q = mc.info q := by
    intro q hqp
    rw [← hi]; exact update_of_ne hqp ..
  have hself : (((r.1.enter p r.2).setFree p false).info p).macid = r.2 := by
    show (update r.1.info p _ p).macid = r.2
    rw [update_self]
  refine ⟨fun m => ?_, ?_, fun m q hq hm => ?_, fun m q hq hmac => ?_, fun hL m q hq hm => ?_,
    fun hL m q hq => ?_, fun hL m q hq hm hmld => ?_⟩
  · show (r.1.usedMap.set r.2).isUsed m = true ↔ ∃ q, (r.1.enter p r.2).sta m = some q
    rw [WordMap.isUsed_set (by decide), Bool.or_eq_true, decide_eq_true_iff, hu, h.used m]
    simp only [enter_sta_iff, hs]
    by_cases hm : m = r.2
    · simp [hm]
    · simp [hm]
  · show update r.1.sta r.2 (some p) cap.maxNum = none
    rw [update_of_ne hne.symm, hs]; exact h.invalid
  · rcases hsta hq with ⟨rfl, rfl⟩ | ⟨-, hold⟩
    · exact hself
    · rw [hinfo (h.ne_of_free hp hold hm)]; exact h.below m q hold hm
  · by_cases hqp : q = p
    · rw [hqp]; exact setFree_self ..
    · have hold := ((hsta hq).resolve_left fun hnew => hqp hnew.2).2
      rw [hinfo hqp] at hmac
      rw [setFree_ne _ hqp]
      show r.1.free q = false
      rw [hf]; exact h.out m q hold hmac
  · rcases hsta hq with ⟨rfl, rfl⟩ | ⟨-, hold⟩
    · exact hr.flag hL hm
    · exact hr.keeps_flag (h.flag hL m q hold hm)
  · rcases hsta hq with ⟨rfl, rfl⟩ | ⟨-, hold⟩
    · exact hr.zero hL
    · exact h.zero hL m q hold
  · rcases hsta hq with ⟨rfl, rfl⟩ | ⟨-, hold⟩
    · refine hr.group hL ?_
      have hm' : (((r.1.enter q r.2).setFree q false).info q).mld = (mc.info q).mld := by
        rw [← hi]; exact enter_mld r.1 q r.2 q
      rwa [hm'] at hmld
    · rw [hinfo (h.ne_of_free hp hold hm)] at hmld
      obtain ⟨hlt, hflag⟩ := h.group hL m q hold hm hmld
      exact ⟨hlt, hr.keeps_flag hflag⟩

theorem step_alloc_cases (h : mc.Slots cap) {macAddr : List ℕ} {wrole rlink : ℕ}
    {main : Option ℕ} (he : mc.Enabled cap (.alloc p macAddr wrole rlink mld main)) :
    Dropped cap p mc (mc.step cap (.alloc p macAddr wrole rlink mld main)) ∨
      ∃ r, Found cap (mc.hand p ⟨0, macAddr, wrole, rlink, mld⟩) mld r ∧ r.2 ≠ cap.maxNum ∧
        mc.step cap (.alloc p macAddr wrole rlink mld main) = (r.1.enter p r.2).setFree p false := by
  obtain ⟨hfree, hmain⟩ := he
  let mc₁ := mc.hand p ⟨0, macAddr, wrole, rlink, mld⟩
  have h₁ : mc₁.Slots cap := h.hand hfree _
  have hmld₁ : (mc₁.info p).mld = mld := hand_mld_self _
  obtain ⟨r, hr, halloc⟩ : ∃ r, (r = (mc₁, cap.maxNum) ∨ Found cap mc₁ mld r) ∧
      mc₁.allocMacid cap (mc.mainId cap main) p =
        if r.2 = cap.maxNum then r.1.invalidate cap p else r.1.enter p r.2 := by
    by_cases hmld : mld.isSome
    · refine ⟨mc₁.allocMldMacid cap (mc.mainId cap main), found_mld h₁ hmld ?_, ?_⟩
      · cases main with
        | none => exact .inl rfl
        | some q =>
          obtain ⟨-, hqm, hlt, hq⟩ := hmain q rfl
          refine .inr ⟨hlt, q, hq, ?_⟩
          rw [hand_info (h.ne_of_free hfree hq hlt)]; exact hqm
      · rw [allocMacid, hmld₁, if_pos hmld]; rfl
    · refine ⟨mc₁.allocLegacyMacid cap, ?_, ?_⟩
      · rw [Option.not_isSome_iff_eq_none.mp hmld]; exact found_legacy h₁
      · rw [allocMacid, hmld₁, if_neg hmld]; rfl
  -- in either way only flags are set before
  have hkeep : r.1.usedMap = mc.usedMap ∧ r.1.bmcMap = mc.bmcMap ∧ r.1.wroleBmc = mc.wroleBmc ∧
      r.1.sta = mc.sta ∧ (∀ g, mc.Flag g → r.1.Flag g) ∧ r.1.info = mc₁.info ∧ r.1.free = mc.free ∧
      r.1.handed = mc₁.handed := by
    rcases hr with rfl | hr
    · exact ⟨rfl, rfl, rfl, rfl, fun _ hg => hg, rfl, rfl, rfl⟩
    · obtain ⟨hu, hs, hi, hf, hh⟩ := hr.keeps
      have hb : r.1.bmcMap = mc.bmcMap ∧ r.1.wroleBmc = mc.wroleBmc := by
        rcases hr.same with heq | heq
        · rw [heq]; exact ⟨rfl, rfl⟩
        · rw [heq, setFlag]
          split <;> exact ⟨rfl, rfl⟩
      exact ⟨hu, hb.1, hb.2, hs, fun g hg => hr.keeps_flag hg, hi, hf, hh⟩
  have hstep : mc.step cap (.alloc p macAddr wrole rlink mld main) =
      (mc₁.allocMacid cap (mc.mainId cap main) p).setFree p
        (((mc₁.allocMacid cap (mc.mainId cap main) p).info p).macid = cap.maxNum) := rfl
  by_cases hN : r.2 = cap.maxNum
  · refine .inl ?_
    rw [hstep, halloc, if_pos hN]
    obtain ⟨hu, hb, hw, hs, hF, hi, hf, hh⟩ := hkeep
    refine ⟨hu, hb, hw, hs, hF, fun q hqp => ?_, ?_, fun q hqp => ?_, fun q hqp => ?_⟩
    · show update r.1.info p _ q = mc.info q
      rw [update_of_ne hqp, hi]; exact hand_info hqp _
    · show (update r.1.info p _ p).macid = cap.maxNum; rw [update_self]
    · rw [setFree_ne _ hqp]; exact congrFun hf q
    · show r.1.handed q = mc.handed q
      rw [hh]; exact update_of_ne hqp ..
  · refine .inr ⟨r, hr.resolve_left fun heq => hN (by rw [heq]), hN, ?_⟩
    have hmac : ((r.1.enter p r.2).info p).macid = r.2 := by
      rw [enter_info, update_self]
    rw [hstep, halloc, if_neg hN, hmac, decide_eq_false hN]

theorem step_release_cases (h : mc.Book cap) (hp : mc.handed p = true) :
    (¬ ((mc.info p).macid < cap.maxNum) ∧ Dropped cap p mc (mc.step cap (.release p))) ∨
      (mc.info p).macid < cap.maxNum ∧ mc.sta (mc.info p).macid = some p ∧
        mc.step cap (.release p) = ((mc.released cap p).invalidate cap p).setFree p true := by
  by_cases hlt : (mc.info p).macid < cap.maxNum
  · have hsta := h.keeps p hp (Nat.ne_of_lt hlt)
    refine .inr ⟨hlt, hsta, ?_⟩
    rw [step, releaseMacid_eq, if_neg]
    rintro (hge | hun)
    · exact absurd hlt (Nat.not_lt.mpr hge)
    · rw [(h.used _).mpr ⟨p, hsta⟩] at hun; cases hun
  · refine .inl ⟨hlt, ?_⟩
    rw [step, releaseMacid_eq, if_pos (.inl (Nat.le_of_not_lt hlt))]
    refine ⟨rfl, rfl, rfl, rfl, fun _ hg => hg, fun q hqp => ?_, ?_, fun q hqp => ?_, fun _ _ => rfl⟩
    · exact update_of_ne hqp ..
    · show (update mc.info p _ p).macid = cap.maxNum; rw [update_self]
    · exact setFree_ne _ hqp true

theorem invalidate_self (mc : MacidCtl) (p : ℕ) : ((mc.invalidate cap p).info p).macid = cap.maxNum := by
  show (update mc.info p _ p).macid = cap.maxNum
  rw [update_self]

theorem invalidate_ne (mc : MacidCtl) {q : ℕ} (hq : q ≠ p) :
    (mc.invalidate cap p).info q = mc.info q := update_of_ne hq ..

theorem Slots.release (h : mc.Slots cap) (hp : mc.sta (mc.info p).macid = some p) :
    (((mc.released cap p).invalidate cap p).setFree p true).Slots cap := by
  have hsta : ∀ {m q}, (((mc.released cap p).invalidate cap p).setFree p true).sta m = some q →
      m ≠ (mc.info p).macid ∧ mc.sta m = some q := by
    intro m q hq
    have hq' : (mc.released cap p).sta m = some q := hq
    exact released_sta_iff.mp hq'
  have hself : ((((mc.released cap p).invalidate cap p).setFree p true).info p).macid = cap.maxNum :=
    invalidate_self ..
  have hinfo : ∀ {q}, q ≠ p → (((mc.released cap p).invalidate cap p).setFree p true).info q =
      mc.info q := fun hqp => invalidate_ne _ hqp
  have hinvalid : (((mc.released cap p).invalidate cap p).setFree p true).sta cap.maxNum = none := by
    rw [Option.eq_none_iff_forall_ne_some]
    intro q hq
    have hold := (hsta hq).2
    rw [h.invalid] at hold; cases hold
  -- the station has no other MACID below `max_num`
  have hne : ∀ {m q}, m ≠ (mc.info p).macid → mc.sta m = some q → m < cap.maxNum → q ≠ p := by
    rintro m q hm hq hmN rfl
    exact hm (h.below m q hq hmN).symm
  refine ⟨fun m => ?_, hinvalid, fun m q hq hm => ?_, fun m q hq hmac => ?_, fun hL m q hq hm => ?_,
    fun hL m q hq => h.zero hL m q (hsta hq).2, fun hL m q hq hm hmld => ?_⟩
  · show (mc.released cap p).usedMap.isUsed m = true ↔ ∃ q, (mc.released cap p).sta m = some q
    rw [released_used, h.used m]
    simp only [released_sta_iff, exists_and_left]
  · obtain ⟨hmne, hold⟩ := hsta hq
    rw [hinfo (hne hmne hold hm)]; exact h.below m q hold hm
  · by_cases hqp : q = p
    · rw [hqp, hself] at hmac
      rw [← hmac, hinvalid] at hq; cases hq
    · rw [hinfo hqp] at hmac
      rw [setFree_ne _ hqp]; exact h.out m q (hsta hq).2 hmac
  · obtain ⟨hmne, hold⟩ := hsta hq
    refine released_flag.mpr ⟨?_, h.flag hL m q hold hm⟩
    by_cases hL0 : cap.maxLinkNum = 0
    · rintro ⟨-, hmod⟩
      rw [Nat.mod_eq_of_lt (h.zero hL0 _ p hp)] at hmod; exact hmne hmod
    · exact not_gone h.used hmne hold (cap.inGroup_self (Nat.pos_of_ne_zero hL0) m)
  · obtain ⟨hmne, hold⟩ := hsta hq
    rw [hinfo (hne hmne hold hm)] at hmld
    obtain ⟨hltM, hflag⟩ := h.group hL m q hold hm hmld
    exact ⟨hltM, released_flag.mpr ⟨not_gone h.used hmne hold (Cap.inGroup_mod hltM), hflag⟩⟩

structure Entered (cap : Cap) (p mid : ℕ) (s : StaInfo) (mc mc' : MacidCtl) : Prop where
  unused : mc.sta mid = none
  valid : mid ≠ cap.maxNum
  used : ∀ m, mc'.usedMap.isUsed m = true ↔ m = mid ∨ mc.usedMap.isUsed m = true
  bmc : ∀ m, mc'.bmcMap.isUsed m = true ↔ s.bmc = true ∧ m = mid ∨ mc.bmcMap.isUsed m = true
  wroleBmc : ∀ wrole rlink, mc'.wroleBmc wrole rlink =
    if s.bmc = true ∧ wrole = s.wrole ∧ rlink = s.rlink then mid else mc.wroleBmc wrole rlink
  sta : ∀ m q, mc'.sta m = some q ↔ m = mid ∧ q = p ∨ m ≠ mid ∧ mc.sta m = some q
  self : mc'.info p = { s with macid := mid }
  info : ∀ q ≠ p, mc'.info q = mc.info q
  handed : ∀ q ≠ p, mc'.handed q = mc.handed q

theorem Found.entered {s : StaInfo} (hr : Found cap (mc.hand p s) mld r) (hne : r.2 ≠ cap.maxNum) :
    Entered cap p r.2 s mc ((r.1.enter p r.2).setFree p false) := by
  obtain ⟨hu, hs, hi, -, hh⟩ := hr.keeps
  obtain ⟨hb, hw⟩ : r.1.bmcMap = mc.bmcMap ∧ r.1.wroleBmc = mc.wroleBmc := by
    rcases hr.same with heq | heq
    · rw [heq]; exact ⟨rfl, rfl⟩
    · rw [heq, setFlag]
      split <;> exact ⟨rfl, rfl⟩
  have hself : r.1.info p = { s with macid := (mc.info p).macid } := by
    rw [hi]; exact update_self ..
  refine ⟨hr.unused, hne, fun m => ?_, fun m => ?_, fun w l => ?_, fun m q => ?_, ?_, fun q hq => ?_, fun q hq => ?_⟩
  · show (r.1.usedMap.set r.2).isUsed m = true ↔ _
    rw [WordMap.isUsed_set (by decide), Bool.or_eq_true, decide_eq_true_iff, hu]; rfl
  · show (if (r.1.info p).bmc then r.1.bmcMap.set r.2 else r.1.bmcMap).isUsed m = true ↔ _
    rw [hself, hb]
    show (if s.bmc then mc.bmcMap.set r.2 else mc.bmcMap).isUsed m = true ↔ _
    by_cases hbmc : s.bmc = true
    · rw [if_pos hbmc, WordMap.isUsed_set (by decide), Bool.or_eq_true, decide_eq_true_iff]
      simp only [hbmc, true_and]
    · rw [if_neg hbmc]; simp [hbmc]
  · show (if (r.1.info p).bmc then update r.1.wroleBmc (r.1.info p).wrole
      (update (r.1.wroleBmc (r.1.info p).wrole) (r.1.info p).rlink r.2)
      else r.1.wroleBmc) w l = _
    rw [hself, hw]
    show (if s.bmc then update mc.wroleBmc s.wrole
      (update (mc.wroleBmc s.wrole) s.rlink r.2) else mc.wroleBmc) w l = _
    by_cases hbmc : s.bmc = true
    · rw [if_pos hbmc]
      by_cases hwr : w = s.wrole
      · subst hwr
        rw [update_self]
        by_cases hl : l = s.rlink
        · rw [hl, update_self, if_pos ⟨hbmc, rfl, rfl⟩]
        · rw [update_of_ne hl, if_neg fun hc => hl hc.2.2]
      · rw [update_of_ne hwr, if_neg fun hc => hwr hc.2.1]
    · rw [if_neg hbmc, if_neg fun hc => hbmc hc.1]
  · rw [← show r.1.sta = mc.sta from hs]; exact enter_sta_iff
  · show update r.1.info p { r.1.info p with macid := r.2 } p = _; rw [update_self, hself]
  · show update r.1.info p _ q = _
    rw [update_of_ne hq, hi]; exact hand_info hq s
  · show r.1.handed q = mc.handed q
    rw [hh]; exact update_of_ne hq ..

theorem Book.step (h : mc.Book cap) {e : StaEv} (he : mc.Enabled cap e) : (mc.step cap e).Book cap := by
  cases e with
  | alloc p macAddr wrole rlink mld main =>
    have hfree := he.1
    rcases step_alloc_cases h.toSlots he with hd | ⟨r, hr, hne, heq⟩
    · exact ⟨h.toSlots.drop hd fun m q hq hm => h.ne_of_free hfree hq hm, hd.keeps fun q _ => h.keeps q⟩
    · rw [heq]
      have hent := hr.entered hne
      refine ⟨(h.toSlots.hand hfree _).enter hfree (by rwa [hand_mld_self]) hne, fun q hq hmac => ?_⟩
      by_cases hqp : q = p
      · subst hqp
        rw [hent.self]; exact (hent.sta _ _).mpr (.inl ⟨rfl, rfl⟩)
      · rw [hent.info q hqp] at hmac ⊢
        have hsta := h.keeps q (hent.handed q hqp ▸ hq) hmac
        refine (hent.sta _ _).mpr (.inr ⟨fun heq' => ?_, hsta⟩)
        rw [heq', hent.unused] at hsta; cases hsta
  | release p =>
    rcases step_release_cases h he with ⟨hnlt, hd⟩ | ⟨hlt, hsta, heq⟩
    · refine ⟨h.toSlots.drop hd ?_, hd.keeps fun q _ => h.keeps q⟩
      rintro m q hq hm rfl
      exact hnlt (h.below m q hq hm ▸ hm)
    · rw [heq]
      refine ⟨h.toSlots.release hsta, fun q hq hmac => ?_⟩
      by_cases hqp : q = p
      · rw [hqp] at hmac; exact absurd (invalidate_self ..) hmac
      · have hinfo : (((mc.released cap p).invalidate cap p).setFree p true).info q = mc.info q :=
          invalidate_ne _ hqp
        rw [hinfo] at hmac ⊢
        have hold := h.keeps q hq hmac
        show (mc.released cap p).sta (mc.info q).macid = some q
        refine released_sta_iff.mpr ⟨fun heq' => ?_, hold⟩
        rw [heq', hsta] at hold; exact hqp (Option.some.inj hold).symm

/-! ### The broadcast table -/

/-- Each entry is `max_num` or the MACID of a broadcast station of that role and link. -/
def BmcOk (cap : Cap) (mc : MacidCtl) : Prop :=
  ∀ wrole rlink, mc.bcmcIdGet wrole rlink = cap.maxNum ∨ ∃ p, mc.sta (mc.bcmcIdGet wrole rlink) = some p ∧
      mc.usedMap.isUsed (mc.bcmcIdGet wrole rlink) = true ∧
      mc.bmcMap.isUsed (mc.bcmcIdGet wrole rlink) = true ∧
      (mc.info p).macid = mc.bcmcIdGet wrole rlink ∧ (mc.info p).bmc = true ∧
      (mc.info p).wrole = wrole ∧ (mc.info p).rlink = rlink

/-- The broadcast station that is entered for its role and link. -/
def Recorded (cap : Cap) (mc : MacidCtl) (p : ℕ) : Prop :=
  (mc.info p).bmc = true ∧ (mc.info p).macid ≠ cap.maxNum ∧
    mc.bcmcIdGet (mc.info p).wrole (mc.info p).rlink = (mc.info p).macid

instance (mc : MacidCtl) (p : ℕ) : Decidable (mc.Recorded cap p) :=
  inferInstanceAs (Decidable (_ ∧ _ ∧ _))

theorem Book.bmcOk_alloc (h : mc.Book cap) (hok : mc.BmcOk cap) {macAddr : List ℕ} {wrole rlink : ℕ} {main : Option ℕ}
    (he : mc.Enabled cap (.alloc p macAddr wrole rlink mld main)) :
    (mc.step cap (.alloc p macAddr wrole rlink mld main)).BmcOk cap := by
  -- a station that is entered is not in the free queue
  have hother : ∀ {m q}, mc.sta m = some q → (mc.info q).macid = m → q ≠ p := by
    rintro m q hq hmac rfl
    exact absurd (he.1.symm.trans (h.out m q hq hmac)) (by decide)
  rcases step_alloc_cases h.toSlots he with hd | ⟨r, hr, hne, heq⟩
  · intro w l
    unfold bcmcIdGet
    rw [hd.wroleBmc]
    refine (hok w l).imp id ?_
    rintro ⟨q, hq, hu, hb, hmac, hrest⟩
    refine ⟨q, ?_, ?_, ?_, ?_⟩
    · rw [hd.sta]; exact hq
    · rw [hd.usedMap]; exact hu
    · rw [hd.bmcMap]; exact hb
    · rw [hd.info q (hother hq hmac)]; exact ⟨hmac, hrest⟩
  · rw [heq]
    have hent := hr.entered hne
    intro w l
    unfold bcmcIdGet
    rw [hent.wroleBmc]
    split
    · rename_i hnew
      obtain ⟨hbmc, hw, hl⟩ := hnew
      refine .inr ⟨p, (hent.sta _ _).mpr (.inl ⟨rfl, rfl⟩), (hent.used _).mpr (.inl rfl),
        (hent.bmc _).mpr (.inl ⟨hbmc, rfl⟩), ?_⟩
      rw [hent.self]; exact ⟨rfl, hbmc, hw.symm, hl.symm⟩
    · refine (hok w l).imp id ?_
      rintro ⟨q, hq, hu, hb, hmac, hrest⟩
      have hmid : mc.bcmcIdGet w l ≠ r.2 := fun heq' => by
        rw [heq', hent.unused] at hq; cases hq
      refine ⟨q, (hent.sta _ _).mpr (.inr ⟨hmid, hq⟩), (hent.used _).mpr (.inr hu), (hent.bmc _).mpr (.inr hb), ?_⟩
      rw [hent.info q (hother hq hmac)]; exact ⟨hmac, hrest⟩

theorem BmcOk.entry (hok : mc.BmcOk cap) (hnot : ¬ mc.Recorded cap p) {w l : ℕ} (hN : mc.bcmcIdGet w l ≠ cap.maxNum) :
    ∃ q, q ≠ p ∧ mc.sta (mc.bcmcIdGet w l) = some q ∧
      mc.usedMap.isUsed (mc.bcmcIdGet w l) = true ∧ mc.bmcMap.isUsed (mc.bcmcIdGet w l) = true ∧
      (mc.info q).macid = mc.bcmcIdGet w l ∧ (mc.info q).bmc = true ∧
      (mc.info q).wrole = w ∧ (mc.info q).rlink = l := by
  obtain ⟨q, hq, hu, hb, hmac, hbmc, hw, hl⟩ := (hok w l).resolve_left hN
  refine ⟨q, ?_, hq, hu, hb, hmac, hbmc, hw, hl⟩
  rintro rfl
  refine hnot ⟨hbmc, hmac ▸ hN, ?_⟩
  rw [hw, hl, hmac]

theorem Book.bmcOk_release (h : mc.Book cap) (hok : mc.BmcOk cap) (he : mc.Enabled cap (.release p)) :
    (mc.step cap (.release p)).BmcOk cap ↔ ¬ mc.Recorded cap p := by
  have hrec : mc.Recorded cap p → mc.sta (mc.info p).macid = some p := fun hr => h.keeps p he hr.2.1
  rcases step_release_cases h he with ⟨hnlt, hd⟩ | ⟨hlt, hsta, heq⟩
  · have hget : ∀ w l, (mc.step cap (.release p)).bcmcIdGet w l = mc.bcmcIdGet w l := fun w l => by
      unfold bcmcIdGet
      rw [hd.wroleBmc]
    constructor
    · -- the entry is left with the station, which does not have that MACID any more
      rintro hok' hr
      have hentry := hok' (mc.info p).wrole (mc.info p).rlink
      rw [hget, hr.2.2] at hentry
      obtain ⟨q, hq, -, -, hmac, -⟩ := hentry.resolve_left hr.2.1
      rw [hd.sta, hrec hr] at hq
      rw [← Option.some.inj hq, hd.macid] at hmac; exact hr.2.1 hmac.symm
    · intro hnot w l
      rw [hget]
      by_cases hN : mc.bcmcIdGet w l = cap.maxNum
      · exact .inl hN
      obtain ⟨q, hqp, hrest⟩ := hok.entry hnot hN
      refine .inr ⟨q, ?_⟩
      rw [hd.sta, hd.usedMap, hd.bmcMap, hd.info q hqp]; exact hrest
  · rw [heq]
    constructor
    · -- nobody is behind the entry now
      rintro hok' hr
      rcases hok' (mc.info p).wrole (mc.info p).rlink with hN | ⟨q, hq, -⟩
      · exact hr.2.1 (hr.2.2.symm.trans hN)
      · have hq' : (mc.released cap p).sta (mc.bcmcIdGet (mc.info p).wrole (mc.info p).rlink) = some q := hq
        exact (released_sta_iff.mp hq').1 hr.2.2
    · intro hnot w l
      show mc.bcmcIdGet w l = cap.maxNum ∨ _
      by_cases hN : mc.bcmcIdGet w l = cap.maxNum
      · exact .inl hN
      obtain ⟨q, hqp, hq, hu, hb, hrest⟩ := hok.entry hnot hN
      have hne : mc.bcmcIdGet w l ≠ (mc.info p).macid := fun heq' => by
        rw [heq', hsta] at hq; exact hqp (Option.some.inj hq).symm
      refine .inr ⟨q, ?_, ?_, ?_, ?_⟩
      · show (mc.released cap p).sta (mc.bcmcIdGet w l) = some q
        exact released_sta_iff.mpr ⟨hne, hq⟩
      · show (mc.released cap p).usedMap.isUsed (mc.bcmcIdGet w l) = true
        exact released_used.mpr ⟨hne, hu⟩
      · show (if (mc.info p).bmc then mc.bmcMap.clr (mc.info p).macid else mc.bmcMap).isUsed
          (mc.bcmcIdGet w l) = true
        exact clr_if.mpr ⟨fun hc => hne hc.2, hb⟩
      · have hinfo : (((mc.released cap p).invalidate cap p).setFree p true).info q = mc.info q :=
          invalidate_ne _ hqp
        rw [hinfo]; exact hrest

theorem Book.bmcOk_step (h : mc.Book cap) (hok : mc.BmcOk cap) {e : StaEv} (he : mc.Enabled cap e) :
    (mc.step cap e).BmcOk cap ↔ ∀ p, e = .release p → ¬ mc.Recorded cap p := by
  cases e with
  | alloc p macAddr wrole rlink mld main =>
    exact iff_of_true (h.bmcOk_alloc hok he) fun _ hne => nomatch hne
  | release p =>
    rw [h.bmcOk_release hok he]
    exact ⟨fun hnot q hq => by cases hq; exact hnot, fun hall => hall p rfl⟩

/-! ### The runs -/

/-- The table is right in every state of a run exactly when no call of the run releases a station that
is entered in it. -/
theorem bmcOk_iff {info : ℕ → StaInfo} {es : List StaEv} (hes : Legal (step cap) (Enabled cap) (init cap info) es) :
    (∀ pre, pre <+: es → (pre.foldl (step cap) (init cap info)).BmcOk cap) ↔ ∀ pre p, pre ++ [.release p] <+: es →
        ¬ (pre.foldl (step cap) (init cap info)).Recorded cap p := by
  have hstart : (init cap info).Book cap ∧ (init cap info).BmcOk cap :=
    ⟨book_init cap info, fun _ _ => .inl rfl⟩
  have hall := Legal.always_iff (J := fun mc => mc.Book cap ∧ mc.BmcOk cap) (P := BmcOk cap)
    (B := fun mc e => ∃ p, e = .release p ∧ mc.Recorded cap p) hstart (fun _ => And.right)
    (fun mc e hmc he hnot => ⟨hmc.1.step he, (hmc.1.bmcOk_step hmc.2 he).mpr fun p hp hrec => hnot ⟨p, hp, hrec⟩⟩)
    (fun mc e hmc he ⟨p, hp, hrec⟩ hok => (hmc.1.bmcOk_step hmc.2 he).mp hok p hp hrec) hes
  rw [hall]
  constructor
  · exact fun hnot pre p hpre hrec => hnot pre _ hpre ⟨p, rfl, hrec⟩
  · rintro hnot pre e hpre ⟨p, rfl, hrec⟩; exact hnot pre p hpre hrec

/-- A broadcast station and its peer; the peer goes. -/
def peerGoes : List StaEv := [.alloc 0 bcAddr 1 0 none none, .alloc 1 [2] 1 0 none none, .release 1]

theorem bmcOk_iff_two : (peerGoes.foldl (step ⟨4, 0, 1⟩) (init ⟨4, 0, 1⟩ someInfo)).BmcOk ⟨4, 0, 1⟩ := by
  refine (bmcOk_iff (by decide)).mpr ?_ peerGoes (List.prefix_refl _)
  rintro pre p ⟨rest, hpre⟩
  unfold peerGoes at hpre
  rcases pre with _ | ⟨e₁, _ | ⟨e₂, _ | ⟨e₃, pre⟩⟩⟩
  · simp at hpre
  · simp at hpre
  · simp only [List.cons_append, List.nil_append, List.cons.injEq, StaEv.release.injEq] at hpre
    obtain ⟨rfl, rfl, rfl, -⟩ := hpre
    decide
  · simp at hpre

/-- The broadcast station of a role goes, and its MACID becomes that of a peer of another role. -/
theorem bmcOk_stale : ¬ ∀ (cap : Cap) (info : ℕ → StaInfo) (mc : MacidCtl),
    Reach (step cap) (Enabled cap) (init cap info) mc → mc.BmcOk cap := by
  intro h
  let calls : List StaEv :=
    [.alloc 0 bcAddr 0 0 none none, .release 0, .alloc 1 [2] 1 0 none none]
  have hlegal : Legal (step ⟨4, 0, 1⟩) (Enabled ⟨4, 0, 1⟩) (init ⟨4, 0, 1⟩ someInfo) calls := by
    decide
  let mc := calls.foldl (step ⟨4, 0, 1⟩) (init ⟨4, 0, 1⟩ someInfo)
  have hsta : mc.sta (mc.bcmcIdGet 0 0) = some 1 := by decide
  rcases h ⟨4, 0, 1⟩ someInfo mc hlegal.reach 0 0 with hN | ⟨q, hq, -, -, -, hbmc, -⟩
  · exact absurd hN (by decide)
  · obtain rfl : 1 = q := Option.some.inj (hsta.symm.trans hq); exact absurd hbmc (by decide)

end MacidCtl

end Rtl8852cu.Sta
