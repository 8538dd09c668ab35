import Rtl8852cu.Stainfo.Pool
import Rtl8852cu.Stainfo.PhlKept
import Mathlib.Data.List.Perm.Basic
import Mathlib.Data.List.Flatten
import Mathlib.Data.List.GetD

/-!
# What the station pool keeps

`Inv` is the state of the pool while the stations `pend` are out of the chains and wait for their release; a station is found in its
chain because addresses are unique there (`Inv.getStainfo`).  One release is `Inv.free`.
-/

namespace Rtl8852cu.Stainfo

open Function (update_self update_of_ne)

namespace StaPriv

/-- No MLD takes the address of the PHL station `p` over. -/
def Untaken (phl : Phl) (p : ℕ) : Prop :=
  ∀ m ∈ phl.assocMldQueue, (phl.mld m).macAddr = (phl.sta p).macAddr → phl.Reaches m p

/-- The pool with the stations `pend` taken out of the chains. -/
structure Inv (iface : Iface) (pend : List ℕ) (s : StaPriv) : Prop where
  pool : (s.freeStaQueue ++ (s.linked ++ pend)).Perm (List.range numSta)
  chains : s.staHash.length = numSta
  count : s.asocStaCount = ((s.linked ++ pend).length : ℤ)
  bound : ∀ x ∈ s.linked ++ pend, ∃ p, s.phlSta x = some p ∧ isMcast (s.phl.sta p).macAddr = false ∧ p ∉ s.phl.freeStaQueue
  distinct : ∀ x ∈ s.linked ++ pend, ∀ y ∈ s.linked ++ pend, ∀ p, s.phlSta x = some p → s.phlSta y = some p → x = y
  placed : ∀ x ∈ s.linked, ∀ p, s.phlSta x = some p → x ∈ s.chain (lookupIndex iface (s.phl.sta p).macAddr)
  unique : ∀ x ∈ s.linked, ∀ y ∈ s.linked, ∀ p q, s.phlSta x = some p → s.phlSta y = some q →
    (s.phl.sta p).macAddr = (s.phl.sta q).macAddr → x = y
  untaken : ∀ x ∈ s.linked, ∀ p, s.phlSta x = some p → Untaken s.phl p
  sound : s.phl.Sound

variable {iface : Iface} {s s' : StaPriv} {pend : List ℕ} {x p : ℕ}

/-! ### Looking a station up -/

theorem wifiMacHash_lt (mac : Mac) : wifiMacHash mac < numSta := Nat.mod_lt _ (by decide)

theorem linkAddr_of_untaken (h : Untaken s.phl p) : s.linkAddr (s.phl.sta p).macAddr = (s.phl.sta p).macAddr := by
  unfold linkAddr
  cases hm : s.phl.getMldByAddr (s.phl.sta p).macAddr with
  | none => rfl
  | some m =>
    have hmac : (s.phl.mld m).macAddr = (s.phl.sta p).macAddr := by
      have := List.find?_some hm
      exact of_decide_eq_true this
    dsimp only
    rcases h m (List.mem_of_find?_eq_some hm) hmac with hnone | hsome | ⟨lidx, hl, hlink⟩
    · rw [hnone]; exact ite_self _
    · rw [hsome]; exact ite_self _
    · have hthis : s.isLinkAddr (s.phl.mld m) (s.phl.sta p).macAddr = true := by
        refine List.any_eq_true.mpr ⟨lidx, List.mem_range.mpr hl, ?_⟩
        rw [hlink]; exact decide_eq_true rfl
      rw [if_pos hthis]

theorem chain_subset (s : StaPriv) (i : ℕ) : s.chain i ⊆ s.linked := by
  intro y hy
  unfold chain at hy
  by_cases hi : i < s.staHash.length
  · rw [List.getD_eq_getElem _ _ hi] at hy; exact List.mem_flatten.mpr ⟨_, List.getElem_mem hi, hy⟩
  · rw [List.getD_eq_default _ _ (Nat.le_of_not_lt hi)] at hy; cases hy

theorem find?_eq_of_unique {l : List ℕ} {f : ℕ → Bool} (hx : x ∈ l) (hf : f x = true) (h : ∀ y ∈ l, f y = true → y = x) :
    l.find? f = some x := by
  cases hfind : l.find? f with
  | none => exact absurd hf (List.find?_eq_none.mp hfind x hx)
  | some y => rw [h y (List.mem_of_find?_eq_some hfind) (List.find?_some hfind)]

theorem Inv.getStainfo (h : Inv iface pend s) (hx : x ∈ s.linked) (hp : s.phlSta x = some p) :
    s.getStainfo iface (s.phl.sta p).macAddr = some x := by
  obtain ⟨q, hq, hind, -⟩ := h.bound x (List.mem_append_left pend hx)
  rw [hp] at hq
  cases hq
  unfold StaPriv.getStainfo
  rw [linkAddr_of_untaken (h.untaken x hx p hp)]
  dsimp only
  rw [hind, if_neg Bool.false_ne_true]
  refine find?_eq_of_unique (h.placed x hx p hp) ?_ fun y hy hkey => ?_
  · rw [hp]; exact decide_eq_true rfl
  · obtain ⟨q, hq, hmac⟩ := (Option.any_eq_true _ _).mp hkey
    exact h.unique y (chain_subset s _ hy) x hx q p hq hp (of_decide_eq_true hmac)

theorem getStainfo_linked {addr : Mac} (h : s.getStainfo iface addr = some x) : x ∈ s.linked := by
  unfold StaPriv.getStainfo at h
  dsimp only at h
  split at h
  · obtain ⟨self, -, hfind⟩ := Option.bind_eq_some_iff.mp h
    exact chain_subset s _ (List.mem_of_find?_eq_some hfind)
  · exact chain_subset s _ (List.mem_of_find?_eq_some h)

/-! ### Taking stations out of the chains -/

/-- Only the stations with `keep` stay in their chains. -/
def cut (s : StaPriv) (keep : ℕ → Bool) : StaPriv :=
  { s with staHash := s.staHash.map fun chain => chain.filter keep }

theorem linked_cut (s : StaPriv) (keep : ℕ → Bool) : (s.cut keep).linked = s.linked.filter keep :=
  List.filter_flatten.symm

theorem chain_cut (s : StaPriv) (keep : ℕ → Bool) (i : ℕ) : (s.cut keep).chain i = (s.chain i).filter keep := by
  exact List.getD_map s.staHash [] fun chain => chain.filter keep

theorem cut_of_all (keep : ℕ → Bool) (h : ∀ y ∈ s.linked, keep y = true) : s.cut keep = s := by
  unfold cut
  have hmap : (s.staHash.map fun chain => chain.filter keep) = s.staHash := by
    conv_rhs => rw [← List.map_id s.staHash]
    refine List.map_congr_left fun chain hchain => ?_
    exact List.filter_eq_self.mpr fun y hy => h y (List.mem_flatten.mpr ⟨chain, hchain, hy⟩)
  rw [hmap]

theorem unlink_of_not_linked (hx : x ∉ s.linked) : s.unlink x = s :=
  cut_of_all (fun y => y ≠ x) fun _ hy => decide_eq_true fun hyx => hx (hyx ▸ hy)

theorem unlink_unlink (s : StaPriv) (x : ℕ) : (s.unlink x).unlink x = s.unlink x := by
  refine unlink_of_not_linked fun hmem => ?_
  have hlinked : (s.unlink x).linked = s.linked.filter fun y => y ≠ x := linked_cut s _
  rw [hlinked] at hmem; exact of_decide_eq_true (List.mem_filter.mp hmem).2 rfl

theorem Inv.cut (h : Inv iface [] s) (keep : ℕ → Bool) :
    Inv iface (s.linked.filter fun y => !keep y) (s.cut keep) := by
  have hperm : ((s.cut keep).linked ++ s.linked.filter fun y => !keep y).Perm (s.linked ++ []) := by
    rw [linked_cut, List.append_nil]; exact List.filter_append_perm keep s.linked
  have hsub : ∀ y ∈ (s.cut keep).linked, y ∈ s.linked ∧ keep y = true := by
    intro y hy
    rw [linked_cut] at hy; exact List.mem_filter.mp hy
  refine
    { pool := (hperm.append_left _).trans h.pool
      chains := (List.length_map _).trans h.chains
      count := by rw [hperm.length_eq]; exact h.count
      bound := fun y hy => h.bound y (hperm.mem_iff.mp hy)
      distinct := fun y hy z hz => h.distinct y (hperm.mem_iff.mp hy) z (hperm.mem_iff.mp hz)
      placed := fun y hy q hq => ?_
      unique := fun y hy z hz => h.unique y (hsub y hy).1 z (hsub z hz).1
      untaken := fun y hy => h.untaken y (hsub y hy).1
      sound := h.sound }
  rw [chain_cut]; exact List.mem_filter.mpr ⟨h.placed y (hsub y hy).1 q hq, (hsub y hy).2⟩

/-! ### Releasing one station -/

/-- No entry of the AID is left for the station. -/
def NoTrace (s : StaPriv) (x aid : ℕ) : Prop :=
  aid ≠ 0 → s.timBitmap (aid % 256) = false ∧ s.staDzBitmap (aid % 256) = false ∧ s.staAid (aid - 1) ≠ some x

/-- The entries of the AID of a station are removed by its release, or there are none. -/
def Traceless (s : StaPriv) (x p : ℕ) : Prop := s.apState = true ∨ NoTrace s x (s.phl.sta p).aid

/-- What the release of the stations `xs` does to the others and to the entries of the AIDs. -/
structure Freed (xs : List ℕ) (s s' : StaPriv) : Prop where
  tim : ∀ i, s'.timBitmap i = true → s.timBitmap i = true
  dz : ∀ i, s'.staDzBitmap i = true → s.staDzBitmap i = true
  aid : ∀ i y, s'.staAid i = some y → s.staAid i = some y
  apState : s'.apState = s.apState
  preLink : s'.preLink = s.preLink
  others : ∀ y, y ∉ xs → s'.phlSta y = s.phlSta y
  sta : ∀ q, (∀ x ∈ xs, s.phlSta x ≠ some q) → s'.phl.sta q = s.phl.sta q
  links : Phl.SameLinks s.phl s'.phl
  clean : ∀ x ∈ xs, ∀ p, s.phlSta x = some p → NoTrace s' x (s.phl.sta p).aid

theorem NoTrace.of_fewer {aid : ℕ} (h : NoTrace s x aid) (htim : ∀ i, s'.timBitmap i = true → s.timBitmap i = true)
    (hdz : ∀ i, s'.staDzBitmap i = true → s.staDzBitmap i = true)
    (haid : ∀ i y, s'.staAid i = some y → s.staAid i = some y) : NoTrace s' x aid := by
  intro h0
  obtain ⟨h1, h2, h3⟩ := h h0
  refine ⟨?_, ?_, fun hx => h3 (haid _ _ hx)⟩
  · exact Bool.eq_false_iff.mpr fun ht => Bool.false_ne_true (h1.symm.trans (htim _ ht))
  · exact Bool.eq_false_iff.mpr fun ht => Bool.false_ne_true (h2.symm.trans (hdz _ ht))

theorem timMapClear_fewer (map : ℕ → Bool) (aid i : ℕ) (h : timMapClear map aid i = true) : map i = true := by
  unfold timMapClear at h
  by_cases hi : i = aid % 256
  · rw [hi, update_self] at h; cases h
  · rwa [update_of_ne hi] at h

theorem clearAid_spec (s : StaPriv) (x p : ℕ) : ∃ (tim dz : ℕ → Bool) (staAid : ℕ → Option ℕ) (f : PhlSta → PhlSta),
      s.clearAid x p = { s with timBitmap := tim, staDzBitmap := dz, staAid := staAid, phl := s.phl.modifySta p f } ∧
      (∀ sta, (f sta).macAddr = sta.macAddr ∧ (f sta).rlink = sta.rlink) ∧
      (∀ i, tim i = true → s.timBitmap i = true) ∧ (∀ i, dz i = true → s.staDzBitmap i = true) ∧
      (∀ i y, staAid i = some y → s.staAid i = some y) ∧
      (s.apState = true → NoTrace { s with timBitmap := tim, staDzBitmap := dz, staAid := staAid } x (s.phl.sta p).aid) := by
  unfold clearAid
  by_cases hap : s.apState = true
  · rw [if_pos hap]
    have hclear : ∀ map : ℕ → Bool, timMapClear map (s.phl.sta p).aid ((s.phl.sta p).aid % 256) = false :=
      fun map => update_self _ _ _
    by_cases haid : 0 < (s.phl.sta p).aid ∧ s.staAid ((s.phl.sta p).aid - 1) = some x
    · rw [if_pos haid]
      refine ⟨_, _, _, fun sta => { sta with aid := 0 }, rfl, fun _ => ⟨rfl, rfl⟩, timMapClear_fewer _ _,
        timMapClear_fewer _ _, fun i y hy => ?_, fun _ _ => ⟨hclear _, hclear _, ?_⟩⟩
      · by_cases hi : i = (s.phl.sta p).aid - 1
        · rw [hi, update_self] at hy; cases hy
        · rwa [update_of_ne hi] at hy
      · dsimp only
        rw [update_self]; exact Option.some_ne_none x |>.symm
    · rw [if_neg haid]
      refine ⟨_, _, s.staAid, id, by rw [Phl.modifySta_id], fun _ => ⟨rfl, rfl⟩, timMapClear_fewer _ _,
        timMapClear_fewer _ _, fun _ _ hy => hy, fun _ h0 => ⟨hclear _, hclear _, fun hx => ?_⟩⟩
      exact haid ⟨Nat.pos_of_ne_zero h0, hx⟩
  · rw [if_neg hap]
    exact ⟨s.timBitmap, s.staDzBitmap, s.staAid, id, by rw [Phl.modifySta_id], fun _ => ⟨rfl, rfl⟩, fun _ h => h,
      fun _ h => h, fun _ _ h => h, fun h => absurd h hap⟩

theorem freeStainfo_unlink {sw : Bool} (hp : s.phlSta x = some p) (hpre : s.preLink (s.phl.sta p).macAddr = false) :
    (s.unlink x).freeStainfo iface x sw = s.freeStainfo iface x sw := by
  have hcore : (s.unlink x).freeCoreStainfo x p = s.freeCoreStainfo x p := by
    unfold freeCoreStainfo
    rw [if_neg (Bool.eq_false_iff.mp hpre),
      if_neg (show ¬(s.unlink x).preLink ((s.unlink x).phl.sta p).macAddr = true from Bool.eq_false_iff.mp hpre), unlink_unlink]
    rfl
  unfold freeStainfo
  have hp' : (s.unlink x).phlSta x = some p := hp
  rw [hp, hp', Option.bind_some, Option.bind_some, hcore]; rfl

/-- One release, seen from the outside. -/
structure Release (x p : ℕ) (s s' : StaPriv) : Prop where
  free : s'.freeStaQueue = s.freeStaQueue ++ [x]
  hash : s'.staHash = s.staHash
  count : s'.asocStaCount = s.asocStaCount - 1
  phlSta : s'.phlSta = Function.update s.phlSta x none
  apState : s'.apState = s.apState
  preLink : s'.preLink = s.preLink
  phl : Phl.Released p s.phl s'.phl
  tim : ∀ i, s'.timBitmap i = true → s.timBitmap i = true
  dz : ∀ i, s'.staDzBitmap i = true → s.staDzBitmap i = true
  aid : ∀ i y, s'.staAid i = some y → s.staAid i = some y
  clean : NoTrace s' x (s.phl.sta p).aid

theorem freeStainfo_release (iface : Iface) (sw : Bool) (hx : x ∉ s.linked) (hp : s.phlSta x = some p)
    (hpre : s.preLink (s.phl.sta p).macAddr = false) (hmld : sw = true ∨ (s.phl.sta p).mld ≠ none)
    (htr : Traceless s x p) (hsound : s.phl.Sound) (hfree : p ∉ s.phl.freeStaQueue) :
    ∃ s', s.freeStainfo iface x sw = some s' ∧ Release x p s s' := by
  have hnull : ¬(sw = false ∧ (s.phl.sta p).mld = none) := by
    rintro ⟨h1, h2⟩
    rcases hmld with h | h
    · exact Bool.false_ne_true (h1.symm.trans h)
    · exact h h2
  refine ⟨(s.freeCoreStainfo x p).freePhlStainfo iface x p sw, ?_, ?_⟩
  · unfold freeStainfo; rw [hp, Option.bind_some, if_neg hnull]
  · obtain ⟨tim, dz, staAid, f, hclear, hf, htim, hdz, haid, hclean⟩ :=
      clearAid_spec ({ s with asocStaCount := s.asocStaCount - 1 } : StaPriv) x p
    have hmod := Phl.released_modifySta (p := p) hsound fun sta => (hf sta).2
    have hrel : Phl.Released p (s.phl.modifySta p f) (if sw then (s.phl.modifySta p f).freeStainfoSw iface p
        else (s.phl.modifySta p f).freeStainfo iface p) := by
      cases sw with
      | true => exact Phl.freeStainfoSw_released iface hmod.sound hfree
      | false => exact Phl.freeStainfo_released iface hmod.sound hfree
    have hcore : s.freeCoreStainfo x p = { s with
        asocStaCount := s.asocStaCount - 1
        timBitmap := tim
        staDzBitmap := dz
        staAid := staAid
        phl := s.phl.modifySta p f
        freeStaQueue := s.freeStaQueue ++ [x] } := by
      unfold freeCoreStainfo
      rw [if_neg (Bool.eq_false_iff.mp hpre), unlink_of_not_linked hx]
      dsimp only at hclear ⊢
      rw [hclear]
    rw [hcore]
    refine ⟨rfl, rfl, rfl, rfl, rfl, rfl, hmod.trans hrel, htim, hdz, haid, ?_⟩
    rcases htr with hap | hno
    · exact hclean hap
    · exact hno.of_fewer htim hdz haid

theorem Inv.release (h : Inv iface (x :: pend) s) (hp : s.phlSta x = some p) (hrel : Release x p s s') : Inv iface pend s' := by
  have hlinked : s'.linked = s.linked := congrArg List.flatten hrel.hash
  have hmid : (s.linked ++ x :: pend).Perm (x :: (s.linked ++ pend)) := List.perm_middle
  have hnd : (x :: (s.linked ++ pend)).Nodup :=
    hmid.nodup_iff.mp (List.nodup_append.mp (h.pool.nodup_iff.mpr List.nodup_range)).2.1
  have hxmem : x ∈ s.linked ++ x :: pend := hmid.mem_iff.mpr List.mem_cons_self
  have hsub : ∀ y ∈ s.linked ++ pend, y ∈ s.linked ++ x :: pend := fun y hy =>
    hmid.mem_iff.mpr (List.mem_cons_of_mem x hy)
  -- the other stations keep their PHL stations, which are not the one of `x`
  have hne : ∀ y ∈ s.linked ++ pend, y ≠ x := fun y hy hyx => (List.nodup_cons.mp hnd).1 (hyx ▸ hy)
  have hphlSta : ∀ y ∈ s.linked ++ pend, s'.phlSta y = s.phlSta y := fun y hy => by
    rw [hrel.phlSta, update_of_ne (hne y hy)]
  have hother : ∀ y ∈ s.linked ++ pend, ∀ q, s.phlSta y = some q → q ≠ p := fun y hy q hq hqp =>
    hne y hy (h.distinct y (hsub y hy) x hxmem p (hqp ▸ hq) hp)
  have hsta : ∀ y ∈ s.linked ++ pend, ∀ q, s.phlSta y = some q → s'.phl.sta q = s.phl.sta q := fun y hy q hq =>
    hrel.phl.apart.sta q (hother y hy q hq)
  have hleft : ∀ y ∈ s.linked, y ∈ s.linked ++ pend := fun y hy => List.mem_append_left pend hy
  refine
    { pool := ?_
      chains := hrel.hash ▸ h.chains
      count := ?_
      bound := fun y hy => ?_
      distinct := fun y hy z hz q hyq hzq => ?_
      placed := fun y hy q hq => ?_
      unique := fun y hy z hz q r hyq hzr hmac => ?_
      untaken := fun y hy q hq => ?_
      sound := hrel.phl.sound }
  · rw [hrel.free, hlinked, List.append_assoc]
    exact (hmid.symm.append_left s.freeStaQueue).trans h.pool
  · rw [hrel.count, h.count, hlinked, hmid.length_eq, List.length_cons, Nat.cast_succ]
    exact Int.add_sub_cancel _ _
  · rw [hlinked] at hy
    obtain ⟨q, hq, hind, hfree⟩ := h.bound y (hsub y hy)
    refine ⟨q, (hphlSta y hy).trans hq, by rw [hsta y hy q hq]; exact hind, fun hmem => ?_⟩
    rcases hrel.phl.free q hmem with hmem | rfl
    · exact hfree hmem
    · exact hother y hy q hq rfl
  · rw [hlinked] at hy hz
    rw [hphlSta y hy] at hyq
    rw [hphlSta z hz] at hzq; exact h.distinct y (hsub y hy) z (hsub z hz) q hyq hzq
  · rw [hlinked] at hy
    rw [hphlSta y (hleft y hy)] at hq
    rw [hsta y (hleft y hy) q hq]
    show y ∈ s'.staHash.getD _ []
    rw [hrel.hash]; exact h.placed y hy q hq
  · rw [hlinked] at hy hz
    rw [hphlSta y (hleft y hy)] at hyq
    rw [hphlSta z (hleft z hz)] at hzr
    rw [hsta y (hleft y hy) q hyq, hsta z (hleft z hz) r hzr] at hmac
    exact h.unique y hy z hz q r hyq hzr hmac
  · rw [hlinked] at hy
    rw [hphlSta y (hleft y hy)] at hq
    intro m hm hmac
    rw [hrel.phl.apart.mld, hsta y (hleft y hy) q hq] at hmac
    rw [hrel.phl.apart.mldQueue] at hm
    exact (hrel.phl.sameLinks.reaches m q).mpr (h.untaken y hy q hq m hm hmac)

theorem Release.freed (h : Release x p s s') (hp : s.phlSta x = some p) : Freed [x] s s' where
  tim := h.tim
  dz := h.dz
  aid := h.aid
  apState := h.apState
  preLink := h.preLink
  others y hy := by
    rw [h.phlSta]; exact update_of_ne (fun hyx => hy (List.mem_singleton.mpr hyx)) _ _
  sta q hq := h.phl.apart.sta q fun hqp => hq x (List.mem_singleton_self x) (hqp ▸ hp)
  links := h.phl.sameLinks
  clean y hy q hq := by
    rw [List.mem_singleton.mp hy] at hq ⊢
    rw [hp] at hq
    cases hq
    exact h.clean

theorem Freed.nil (s : StaPriv) : Freed [] s s :=
  ⟨fun _ h => h, fun _ h => h, fun _ _ h => h, rfl, rfl, fun _ _ => rfl, fun _ _ => rfl, .refl _, nofun⟩

theorem Freed.cons {s₁ : StaPriv} {xs : List ℕ} (h : Freed [x] s s₁) (h' : Freed xs s₁ s') (hx : x ∉ xs)
    (hdist : ∀ y ∈ xs, ∀ q, s.phlSta x = some q → s.phlSta y ≠ some q) : Freed (x :: xs) s s' := by
  have hkeep : ∀ y ∈ xs, s₁.phlSta y = s.phlSta y := fun y hy =>
    h.others y fun hyx => hx (List.mem_singleton.mp hyx ▸ hy)
  refine
    { tim := fun i hi => h.tim i (h'.tim i hi)
      dz := fun i hi => h.dz i (h'.dz i hi)
      aid := fun i y hi => h.aid i y (h'.aid i y hi)
      apState := h'.apState.trans h.apState
      preLink := h'.preLink.trans h.preLink
      others := fun y hy => ?_
      sta := fun q hq => ?_
      links := h.links.trans h'.links
      clean := fun y hy q hq => ?_ }
  · rw [List.mem_cons, not_or] at hy
    rw [h'.others y hy.2, h.others y fun hyx => hy.1 (List.mem_singleton.mp hyx)]
  · rw [h'.sta q fun y hy => by rw [hkeep y hy]; exact hq y (List.mem_cons_of_mem x hy),
      h.sta q fun y hy => by rw [List.mem_singleton.mp hy]; exact hq x List.mem_cons_self]
  · rcases List.mem_cons.mp hy with rfl | hy
    · exact (h.clean y (List.mem_singleton_self y) q hq).of_fewer h'.tim h'.dz h'.aid
    · have hsta : s₁.phl.sta q = s.phl.sta q := h.sta q fun z hz hzq => by
        rw [List.mem_singleton.mp hz] at hzq; exact hdist y hy q hzq hq
      have := h'.clean y hy q (by rw [hkeep y hy]; exact hq)
      rwa [hsta] at this

end StaPriv

end Rtl8852cu.Stainfo
