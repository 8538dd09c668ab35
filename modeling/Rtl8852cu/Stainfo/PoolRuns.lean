import Rtl8852cu.Stainfo.PoolKept
import Rtl8852cu.Lib.Reach

/-!
# Runs of the station pool

The calls on the pool of one interface in any order, between them whatever other code writes to the AIDs, the MLDs and the
pre-link stations.  `CallOk` says when a call does what the pool is for; a run of such calls keeps every station in the free queue
or in one chain, linked stations findable and no entry for the AID of a station that is gone (`run_good`).
-/

namespace Rtl8852cu.Stainfo

/-- What other code writes between the calls. -/
structure Outside where
  staAid : ℕ → Option ℕ
  timBitmap : ℕ → Bool
  staDzBitmap : ℕ → Bool
  preLink : Mac → Bool
  apState : Bool
  aid : ℕ → ℕ
  mldOf : ℕ → Option ℕ
  mld : ℕ → Mld
  assocMldQueue : List ℕ

inductive Call
  | alloc (hwaddr : Mac) (linkIdx : ℕ) (out : PhlOut)
  | free (x : ℕ)
  | freeSw (x : ℕ)
  | freeMld (m : ℕ)
  | freeAll
  | outside (o : Outside)

namespace StaPriv

def outside (s : StaPriv) (o : Outside) : StaPriv :=
  { s with
    staAid := o.staAid
    timBitmap := o.timBitmap
    staDzBitmap := o.staDzBitmap
    preLink := o.preLink
    apState := o.apState
    phl := { s.phl with
      sta := fun p => { s.phl.sta p with aid := o.aid p, mld := o.mldOf p }
      mld := o.mld
      assocMldQueue := o.assocMldQueue } }

variable (iface : Iface) (s : StaPriv)

/-- One call; the run ends where a function reads through a NULL pointer. -/
def call : Call → Option StaPriv
  | .alloc hwaddr linkIdx out => s.allocStainfo iface hwaddr linkIdx out
  | .free x => s.freeStainfo iface x false
  | .freeSw x => s.freeStainfo iface x true
  | .freeMld m => s.freeMldStainfo iface m
  | .freeAll => s.freeAllStainfo iface
  | .outside o => some (s.outside o)

/-- Each station of the pool is once in the free queue or in a chain, they are counted, and a linked one has a PHL station and is
found under its address. -/
structure Good : Prop where
  pool : (s.freeStaQueue ++ s.linked).Perm (List.range numSta)
  count : s.asocStaCount = (s.linked.length : ℤ)
  found : ∀ x ∈ s.linked, ∃ p, s.phlSta x = some p ∧ s.getStainfo iface (s.phl.sta p).macAddr = some x

/-- A station that a call takes out of the chains leaves no entry for its AID. -/
def LeavesNothing (s s' : StaPriv) : Prop :=
  ∀ x ∈ s.linked, x ∉ s'.linked → ∀ p, s.phlSta x = some p → NoTrace s' x (s.phl.sta p).aid

/-! ### When a call does what the pool is for -/

/-- The addresses of linked stations stay their own, as the PHL `phl'` has the MLDs. -/
def Unmoved (phl' : Phl) : Prop := ∀ y ∈ s.linked, ∀ q, s.phlSta y = some q → Untaken phl' q

/-- There is a station for an individual address that no linked station has, the chain of the search is the one that it is put
into, and the PHL gives a station of its own with that address. -/
structure AllocOk (hwaddr : Mac) (linkIdx : ℕ) (out : PhlOut) : Prop where
  free : s.freeStaQueue ≠ []
  individual : isMcast hwaddr = false
  index : lookupIndex iface hwaddr = allocIndex iface hwaddr
  fresh : ∀ y ∈ s.linked, ∀ q, s.phlSta y = some q → (s.phl.sta q).macAddr ≠ hwaddr
  phl : ∃ p, (s.phl.cmdAllocStainfo iface hwaddr linkIdx out).2 = some p ∧
    ((s.phl.cmdAllocStainfo iface hwaddr linkIdx out).1.sta p).macAddr = hwaddr ∧
    (∀ y ∈ s.linked, s.phlSta y ≠ some p) ∧ Untaken (s.phl.cmdAllocStainfo iface hwaddr linkIdx out).1 p ∧
    s.Unmoved (s.phl.cmdAllocStainfo iface hwaddr linkIdx out).1

/-- The station is no pre-link station, on an interface that is no AP it has no entry for its AID, and it has an MLD where that is
read. -/
def Releasable (x : ℕ) (onlyFreeSw : Bool) : Prop :=
  ∀ p, s.phlSta x = some p → s.preLink (s.phl.sta p).macAddr = false ∧
    (onlyFreeSw = true ∨ (s.phl.sta p).mld ≠ none) ∧ Traceless s x p

/-- An MLD that gets the address of a client role is no other station's than the one with that address. -/
def MldSafe (m : ℕ) : Prop :=
  iface.type.client = true → ∀ y ∈ s.linked, ∀ q, s.phlSta y = some q → (s.phl.sta q).macAddr = iface.macAddr →
    s.phl.Reaches m q

/-- `Releasable` of the stations that the loop of `rtw_free_mld_stainfo` comes to, each when its turn comes, and `MldSafe` of the
MLD at its end. -/
def LinksReleasable (m : ℕ) : List ℕ → StaPriv → Prop
  | [], s => s.MldSafe iface m
  | lidx :: ls, s => (∀ x, s.mldTarget iface m lidx = some x → s.Releasable x false) ∧
      ∀ s', s.freeMldTurn iface m lidx = some s' → LinksReleasable m ls s'

/-- When a call does what the pool is for. -/
def CallOk : Call → Prop
  | .alloc hwaddr linkIdx out => s.AllocOk iface hwaddr linkIdx out
  | .free x => x ∈ s.linked ∧ s.Releasable x false
  | .freeSw x => x ∈ s.linked ∧ s.Releasable x true
  | .freeMld m => LinksReleasable iface m (List.range (s.phl.mld m).staNum) s
  | .freeAll => s.asocStaCount = 1 ∨ ∀ x ∈ s.freeStaList iface, s.Releasable x false ∧
      ∀ p, s.phlSta x = some p → ∀ m, (s.phl.sta p).mld = some m → s.MldSafe iface m
  | .outside o => s.Unmoved (s.outside o).phl

variable {iface : Iface} {s s' : StaPriv} {pend xs : List ℕ} {x p m : ℕ}

theorem Inv.good (h : Inv iface [] s) : s.Good iface where
  pool := by
    have := h.pool
    rwa [List.append_nil] at this
  count := by
    have := h.count
    rwa [List.append_nil] at this
  found x hx := by
    obtain ⟨p, hp, -⟩ := h.bound x (List.mem_append_left [] hx)
    exact ⟨p, hp, h.getStainfo hx hp⟩

theorem leavesNothing_of_freed (h : Freed xs s s') (hgone : ∀ y ∈ s.linked, y ∉ s'.linked → y ∈ xs) : LeavesNothing s s' :=
  fun x hx hx' p hp => h.clean x (hgone x hx hx') p hp

/-! ### Releases -/

theorem Inv.freeLinked {sw : Bool} (h : Inv iface [] s) (hx : x ∈ s.linked) (hrel : s.Releasable x sw) :
    ∃ s', s.freeStainfo iface x sw = some s' ∧ Inv iface [] s' ∧ Freed [x] s s' ∧ s'.linked = s.linked.filter fun y => y ≠ x := by
  obtain ⟨p, hp, -, hfree⟩ := h.bound x (List.mem_append_left [] hx)
  obtain ⟨hpre, hmld, htr⟩ := hrel p hp
  have hnd : s.linked.Nodup := by
    have := (List.nodup_append.mp (h.pool.nodup_iff.mpr List.nodup_range)).2.1
    rwa [List.append_nil] at this
  have hcut := h.cut fun y => y ≠ x
  have hpend : (s.linked.filter fun y => !decide (y ≠ x)) = [x] := by
    have hcongr : (s.linked.filter fun y => !decide (y ≠ x)) = s.linked.filter fun y => y == x := by
      refine List.filter_congr fun y _ => ?_
      by_cases hyx : y = x
      · subst hyx
        rw [beq_self_eq_true, decide_eq_false (not_not.mpr rfl)]; rfl
      · rw [decide_eq_true hyx, beq_false_of_ne hyx]; rfl
    rw [hcongr, List.filter_beq, List.count_eq_one_of_mem hnd hx]; rfl
  rw [hpend] at hcut
  have hnot : x ∉ (s.unlink x).linked := fun hmem => by
    have hmem : x ∈ (s.cut fun y => y ≠ x).linked := hmem
    rw [linked_cut] at hmem; exact of_decide_eq_true (List.mem_filter.mp hmem).2 rfl
  obtain ⟨s', hs', hr⟩ := freeStainfo_release (s := s.unlink x) iface sw hnot hp hpre hmld htr h.sound hfree
  have hfr := hr.freed hp
  refine ⟨s', (freeStainfo_unlink hp hpre).symm.trans hs', hcut.release hp hr, ?_, ?_⟩
  · exact ⟨hfr.tim, hfr.dz, hfr.aid, hfr.apState, hfr.preLink, hfr.others, hfr.sta, hfr.links, hfr.clean⟩
  · have : s'.linked = (s.cut fun y => y ≠ x).linked := congrArg List.flatten hr.hash
    rw [this, linked_cut]

theorem Inv.freeMld (h : Inv iface pend s) (hsafe : s.MldSafe iface m) :
    Inv iface pend { s with phl := s.phl.freeMld iface m } := by
  have hlinks := Phl.freeMld_sameLinks iface s.phl m
  have huntaken : ∀ y ∈ s.linked, ∀ q, s.phlSta y = some q → Untaken (s.phl.freeMld iface m) q := by
    intro y hy q hq k hk hmac
    refine (hlinks.reaches k q).mpr ?_
    rcases Phl.freeMld_cases iface s.phl m with ⟨l, hl, heq⟩ | ⟨hclient, heq⟩
    · rw [heq] at hk hmac; exact h.untaken y hy q hq k (hl hk) hmac
    · rw [heq] at hk hmac
      dsimp only at hk hmac
      by_cases hkm : k = m
      · subst hkm
        rw [Function.update_self] at hmac; exact hsafe hclient y hy q hq hmac.symm
      · rw [Function.update_of_ne hkm] at hmac; exact h.untaken y hy q hq k hk hmac
  have hrest : (s.phl.freeMld iface m).sta = s.phl.sta ∧ (s.phl.freeMld iface m).freeStaQueue = s.phl.freeStaQueue ∧
      (s.phl.freeMld iface m).Sound := by
    rcases Phl.freeMld_cases iface s.phl m with ⟨l, -, heq⟩ | ⟨-, heq⟩
    · rw [heq]; exact ⟨rfl, rfl, ⟨h.sound.free_nodup, h.sound.assoc_nodup, h.sound.assoc_link⟩⟩
    · rw [heq]; exact ⟨rfl, rfl, ⟨h.sound.free_nodup, h.sound.assoc_nodup, h.sound.assoc_link⟩⟩
  obtain ⟨hsta, hfree, hsound⟩ := hrest
  refine
    { pool := h.pool
      chains := h.chains
      count := h.count
      bound := ?_
      distinct := h.distinct
      placed := ?_
      unique := ?_
      untaken := huntaken
      sound := hsound }
  · dsimp only
    rw [hsta, hfree]; exact h.bound
  · dsimp only
    rw [hsta]; exact h.placed
  · dsimp only
    rw [hsta]; exact h.unique

theorem freeMld_sta (iface : Iface) (phl : Phl) (m : ℕ) : (phl.freeMld iface m).sta = phl.sta := by
  rcases Phl.freeMld_cases iface phl m with ⟨l, -, heq⟩ | ⟨-, heq⟩
  · rw [heq]
  · rw [heq]

/-! ### `rtw_free_all_stainfo` -/

/-- What the second loop needs of a station. -/
def Waiting (iface : Iface) (s : StaPriv) (x : ℕ) : Prop :=
  s.Releasable x false ∧ ∀ p, s.phlSta x = some p → ∀ m, (s.phl.sta p).mld = some m → s.MldSafe iface m

theorem MldSafe.of_links (h : s.MldSafe iface m) (hlinked : s'.linked = s.linked)
    (hphl : ∀ y ∈ s.linked, s'.phlSta y = s.phlSta y ∧ ∀ q, s.phlSta y = some q → s'.phl.sta q = s.phl.sta q)
    (hlinks : Phl.SameLinks s.phl s'.phl) : s'.MldSafe iface m := by
  intro hclient y hy q hq hmac
  rw [hlinked] at hy
  obtain ⟨hkeep, hsta⟩ := hphl y hy
  rw [hkeep] at hq
  rw [hsta q hq] at hmac; exact (hlinks.reaches m q).mpr (h hclient y hy q hq hmac)

theorem Waiting.of_freed {y : ℕ} (h : Waiting iface s y) (hfr : Freed [x] s s') (hyx : y ≠ x) (hlinked : s'.linked = s.linked)
    (hdist : ∀ q, s.phlSta x = some q → s.phlSta y ≠ some q)
    (hout : ∀ z ∈ s.linked, z ≠ x ∧ ∀ q, s.phlSta x = some q → s.phlSta z ≠ some q) : Waiting iface s' y := by
  have hkeep : ∀ z, z ≠ x → s'.phlSta z = s.phlSta z := fun z hz => hfr.others z fun hmem => hz (List.mem_singleton.mp hmem)
  have hsta : ∀ z, (∀ q, s.phlSta x = some q → s.phlSta z ≠ some q) → ∀ q, s.phlSta z = some q →
      s'.phl.sta q = s.phl.sta q := by
    intro z hz q hq
    refine hfr.sta q fun w hw hwq => ?_
    rw [List.mem_singleton.mp hw] at hwq; exact hz q hwq hq
  refine ⟨fun q hq => ?_, fun q hq k hk => ?_⟩
  · rw [hkeep y hyx] at hq
    obtain ⟨hpre, hmld, htr⟩ := h.1 q hq
    have hq' := hsta y hdist q hq
    refine ⟨by rw [hfr.preLink, hq']; exact hpre, by rw [hq']; exact hmld, ?_⟩
    unfold Traceless
    rw [hfr.apState, hq']
    rcases htr with hap | hno
    · exact Or.inl hap
    · exact Or.inr (hno.of_fewer hfr.tim hfr.dz hfr.aid)
  · rw [hkeep y hyx] at hq
    rw [hsta y hdist q hq] at hk
    exact (h.2 q hq k hk).of_links hlinked (fun z hz => ⟨hkeep z (hout z hz).1, hsta z (hout z hz).2⟩) hfr.links

theorem Inv.freeListed (h : Inv iface xs s) (hwait : ∀ x ∈ xs, Waiting iface s x) :
    ∃ s', s.freeListed iface xs = some s' ∧ Inv iface [] s' ∧ Freed xs s s' ∧ s'.linked = s.linked := by
  induction xs generalizing s with
  | nil => exact ⟨s, rfl, h, .nil s, rfl⟩
  | cons x xs ih =>
    have hmid : (s.linked ++ x :: xs).Perm (x :: (s.linked ++ xs)) := List.perm_middle
    have hnd := List.nodup_cons.mp (hmid.nodup_iff.mp (List.nodup_append.mp (h.pool.nodup_iff.mpr List.nodup_range)).2.1)
    have hxmem : x ∈ s.linked ++ x :: xs := hmid.mem_iff.mpr List.mem_cons_self
    have hne : ∀ y ∈ s.linked ++ xs, y ≠ x := fun y hy hyx => hnd.1 (hyx ▸ hy)
    have hdist : ∀ y ∈ s.linked ++ xs, ∀ q, s.phlSta x = some q → s.phlSta y ≠ some q := fun y hy q hq hyq =>
      hne y hy (h.distinct y (hmid.mem_iff.mpr (List.mem_cons_of_mem x hy)) x hxmem q hyq hq)
    obtain ⟨p, hp, -, hfree⟩ := h.bound x hxmem
    obtain ⟨hrel, hsafe⟩ := hwait x List.mem_cons_self
    obtain ⟨hpre, hmld, htr⟩ := hrel p hp
    -- the MLD goes first
    have hof : Inv iface (x :: xs) (s.freeMldOf iface p) ∧ (s.freeMldOf iface p).phl.sta = s.phl.sta ∧
        Phl.SameLinks s.phl (s.freeMldOf iface p).phl := by
      unfold freeMldOf
      cases hm : (s.phl.sta p).mld with
      | none => exact ⟨h, rfl, .refl _⟩
      | some m => exact ⟨h.freeMld (hsafe p hp m hm), freeMld_sta iface s.phl m, Phl.freeMld_sameLinks iface s.phl m⟩
    obtain ⟨hinv, hsta, hlinks⟩ := hof
    have hp' : (s.freeMldOf iface p).phlSta x = some p := hp
    have hxlinked : x ∉ (s.freeMldOf iface p).linked := fun hx => hne x (List.mem_append_left xs hx) rfl
    obtain ⟨s₁, hs₁, hr⟩ := freeStainfo_release iface false hxlinked hp' (by rw [hsta]; exact hpre)
      (by rw [hsta]; exact hmld) (by unfold Traceless; rw [hsta]; exact htr) hinv.sound
      (by obtain ⟨q, hq, -, hq'⟩ := hinv.bound x hxmem; rw [hp'] at hq; cases hq; exact hq')
    have hfr : Freed [x] s s₁ := by
      have hfr := hr.freed hp'
      refine ⟨hfr.tim, hfr.dz, hfr.aid, hfr.apState, hfr.preLink, hfr.others, fun q hq => ?_, hlinks.trans hfr.links,
        fun y hy q hq => ?_⟩
      · rw [hfr.sta q hq, hsta]
      · have := hfr.clean y hy q hq
        rwa [hsta] at this
    have hlinked : s₁.linked = s.linked := congrArg List.flatten hr.hash
    have hwait' : ∀ y ∈ xs, Waiting iface s₁ y := fun y hy =>
      (hwait y (List.mem_cons_of_mem x hy)).of_freed hfr (hne y (List.mem_append_right _ hy)) hlinked
        (hdist y (List.mem_append_right _ hy)) fun z hz =>
          ⟨hne z (List.mem_append_left _ hz), hdist z (List.mem_append_left _ hz)⟩
    obtain ⟨s', hs', hinv', hfr', hlinked'⟩ := ih (hinv.release hp' hr) hwait'
    refine ⟨s', ?_, hinv', ?_, hlinked'.trans hlinked⟩
    · unfold StaPriv.freeListed; rw [hp, Option.bind_some, hs₁, Option.bind_some, hs']
    · refine hfr.cons hfr' (fun hx => hne x (List.mem_append_right _ hx) rfl) fun y hy => hdist y (List.mem_append_right _ hy)

theorem unlinkAll_eq (iface : Iface) (s : StaPriv) :
    s.unlinkAll iface = s.cut fun x => s.isSelfStainfo iface x || s.isPreLinkSta x := rfl

theorem Inv.freeAll (h : Inv iface [] s) (hok : CallOk iface s .freeAll) :
    ∃ s', s.freeAllStainfo iface = some s' ∧ Inv iface [] s' ∧ LeavesNothing s s' := by
  unfold freeAllStainfo
  by_cases hone : s.asocStaCount = 1
  · rw [if_pos hone]; exact ⟨s, rfl, h, fun x hx hx' => absurd hx hx'⟩
  · rw [if_neg hone]
    have hwait := hok.resolve_left hone
    -- no station of the list is a pre-link station, so the first loop takes exactly these out of the chains
    have hlist : (s.linked.filter fun x => !(s.isSelfStainfo iface x || s.isPreLinkSta x)) = s.freeStaList iface := by
      unfold freeStaList
      refine List.filter_congr fun x hx => ?_
      cases hself : s.isSelfStainfo iface x with
      | true => rfl
      | false =>
        have hmem : x ∈ s.freeStaList iface := List.mem_filter.mpr ⟨hx, by rw [hself]; rfl⟩
        obtain ⟨p, hp, -⟩ := h.bound x (List.mem_append_left [] hx)
        have hpre : s.isPreLinkSta x = false := by
          unfold isPreLinkSta
          rw [hp]; exact ((hwait x hmem).1 p hp).1
        rw [hpre]; rfl
    have hcut := h.cut fun x => s.isSelfStainfo iface x || s.isPreLinkSta x
    rw [hlist, ← unlinkAll_eq] at hcut
    have hsub : ∀ y ∈ (s.unlinkAll iface).linked, y ∈ s.linked := fun y hy => by
      rw [unlinkAll_eq, linked_cut] at hy; exact (List.mem_filter.mp hy).1
    have hcutWait : ∀ x ∈ s.freeStaList iface, Waiting iface (s.unlinkAll iface) x := fun x hx =>
      ⟨(hwait x hx).1, fun p hp m hm hclient y hy => (hwait x hx).2 p hp m hm hclient y (hsub y hy)⟩
    obtain ⟨s', hs', hinv, hfr, hlinked⟩ := hcut.freeListed hcutWait
    refine ⟨s', hs', hinv, fun x hx hx' p hp => hfr.clean x ?_ p hp⟩
    rw [hlinked, unlinkAll_eq, linked_cut] at hx'
    rw [← hlist]
    refine List.mem_filter.mpr ⟨hx, ?_⟩
    cases hkeep : s.isSelfStainfo iface x || s.isPreLinkSta x with
    | false => rfl
    | true => exact absurd (List.mem_filter.mpr ⟨hx, hkeep⟩) hx'

/-! ### `rtw_free_mld_stainfo` -/

theorem Inv.freeMldLinks {ls : List ℕ} (h : Inv iface [] s) (hok : LinksReleasable iface m ls s) :
    ∃ s' xs, s.freeMldLinks iface m ls = some s' ∧ Inv iface [] s' ∧ s'.MldSafe iface m ∧ Freed xs s s' ∧
      (∀ x ∈ xs, x ∈ s.linked) ∧ ∀ y ∈ s.linked, y ∉ s'.linked → y ∈ xs := by
  induction ls generalizing s with
  | nil => exact ⟨s, [], rfl, h, hok, .nil s, nofun, fun y hy hy' => absurd hy hy'⟩
  | cons lidx ls ih =>
    obtain ⟨hrel, hnext⟩ := hok
    unfold StaPriv.freeMldLinks
    cases ht : s.mldTarget iface m lidx with
    | none =>
      have hturn : s.freeMldTurn iface m lidx = some s := by
        unfold freeMldTurn
        rw [ht]
      rw [hturn, Option.bind_some]; exact ih h (hnext s hturn)
    | some x =>
      have hx : x ∈ s.linked := by
        obtain ⟨p, -, hget⟩ := Option.bind_eq_some_iff.mp ht
        exact getStainfo_linked hget
      obtain ⟨s₁, hs₁, hinv, hfr, hlinked⟩ := h.freeLinked hx (hrel x ht)
      have hturn : s.freeMldTurn iface m lidx = some s₁ := by
        unfold freeMldTurn
        rw [ht]; exact hs₁
      rw [hturn, Option.bind_some]
      obtain ⟨s', xs, hs', hinv', hsafe, hfr', hsub, hgone⟩ := ih hinv (hnext s₁ hturn)
      have hxs : ∀ y ∈ xs, y ∈ s.linked ∧ y ≠ x := fun y hy => by
        have := hsub y hy
        rw [hlinked] at this
        exact ⟨(List.mem_filter.mp this).1, of_decide_eq_true (List.mem_filter.mp this).2⟩
      refine ⟨s', x :: xs, hs', hinv', hsafe, ?_, fun y hy => ?_, fun y hy hy' => ?_⟩
      · refine hfr.cons hfr' (fun hmem => (hxs x hmem).2 rfl) fun y hy q hq hyq => (hxs y hy).2 ?_
        exact h.distinct y (List.mem_append_left _ (hxs y hy).1) x (List.mem_append_left _ hx) q hyq hq
      · rcases List.mem_cons.mp hy with rfl | hy
        · exact hx
        · exact (hxs y hy).1
      · by_cases hyx : y = x
        · exact List.mem_cons.mpr (Or.inl hyx)
        · refine List.mem_cons_of_mem x (hgone y ?_ hy')
          rw [hlinked]; exact List.mem_filter.mpr ⟨hy, decide_eq_true hyx⟩

theorem Inv.freeMldStainfo (h : Inv iface [] s) (hok : CallOk iface s (.freeMld m)) :
    ∃ s', s.freeMldStainfo iface m = some s' ∧ Inv iface [] s' ∧ LeavesNothing s s' := by
  obtain ⟨s', xs, hs', hinv, hsafe, hfr, -, hgone⟩ := h.freeMldLinks hok
  refine ⟨{ s' with phl := s'.phl.freeMld iface m }, ?_, hinv.freeMld hsafe, fun x hx hx' p hp => ?_⟩
  · unfold StaPriv.freeMldStainfo
    rw [hs']; rfl
  · exact hfr.clean x (hgone x hx hx') p hp

/-! ### Allocation -/

theorem flatten_modify {l : List (List ℕ)} {i : ℕ} (hi : i < l.length) (x : ℕ) :
    (l.modify i fun chain => chain ++ [x]).flatten.Perm (x :: l.flatten) := by
  induction l generalizing i with
  | nil => exact absurd hi (Nat.not_lt_zero i)
  | cons a l ih =>
    cases i with
    | zero =>
      rw [List.modify_zero_cons, List.flatten_cons, List.flatten_cons, List.append_assoc]
      exact List.perm_middle
    | succ i =>
      rw [List.modify_succ_cons, List.flatten_cons, List.flatten_cons]
      exact ((ih (Nat.lt_of_succ_lt_succ hi)).append_left a).trans List.perm_middle

theorem getD_modify {l : List (List ℕ)} {i : ℕ} (hi : i < l.length) (x j : ℕ) :
    (l.modify i fun chain => chain ++ [x]).getD j [] = l.getD j [] ++ if i = j then [x] else [] := by
  rw [List.getD_eq_getElem?_getD, List.getD_eq_getElem?_getD, List.getElem?_modify]
  by_cases hij : i = j
  · subst hij
    rw [if_pos rfl, List.getElem?_eq_getElem hi]; exact if_pos rfl
  · rw [if_neg hij, List.append_nil]
    cases l[j]? with
    | none => rfl
    | some a => exact if_neg hij

theorem allocIndex_lt (iface : Iface) (addr : Mac) : allocIndex iface addr < numSta := by
  unfold allocIndex
  cases iface.type with
  | _ => exact wifiMacHash_lt _

theorem not_broadcast {addr : Mac} (h : isMcast addr = false) : isBroadcastMacAddr addr = false := by
  refine Bool.eq_false_iff.mpr fun hb => ?_
  rw [show addr = List.replicate 6 0xff from of_decide_eq_true hb] at h; exact absurd h (by decide)

theorem Inv.alloc {hwaddr : Mac} {linkIdx : ℕ} {out : PhlOut} (h : Inv iface [] s) (hok : s.AllocOk iface hwaddr linkIdx out) :
    ∃ s', s.allocStainfo iface hwaddr linkIdx out = some s' ∧ Inv iface [] s' ∧ ∀ y ∈ s.linked, y ∈ s'.linked := by
  obtain ⟨x, rest, hrest⟩ := List.exists_cons_of_ne_nil hok.free
  obtain ⟨p, hp, hmac, hown, hpfree, hunmoved⟩ := hok.phl
  have hall := Phl.cmdAllocStainfo_allocated h.sound (not_broadcast hok.individual) hp
  generalize hphl : (s.phl.cmdAllocStainfo iface hwaddr linkIdx out).1 = phl' at *
  have hi : allocIndex iface hwaddr < s.staHash.length := by rw [h.chains]; exact allocIndex_lt iface hwaddr
  obtain ⟨s', hs', hfree', hhash', hcount', hphlSta', hphl'⟩ : ∃ s', s.allocStainfo iface hwaddr linkIdx out = some s' ∧
      s'.freeStaQueue = rest ∧ s'.staHash = s.staHash.modify (allocIndex iface hwaddr) (fun chain => chain ++ [x]) ∧
      s'.asocStaCount = s.asocStaCount + 1 ∧ s'.phlSta = Function.update s.phlSta x (some p) ∧ s'.phl = phl' := by
    refine ⟨(s.allocCoreStainfo iface hwaddr x rest).allocPhlStainfo iface x hwaddr linkIdx out, ?_, rfl, rfl, rfl, ?_, hphl⟩
    · unfold allocStainfo; rw [hrest]
    · show Function.update (Function.update s.phlSta x none) x (s.phl.cmdAllocStainfo iface hwaddr linkIdx out).2 = _
      rw [Function.update_idem, hp]
  have hlinked : s'.linked.Perm (x :: s.linked) := by
    unfold linked
    rw [hhash']; exact flatten_modify hi x
  have hmem : ∀ y, y ∈ s'.linked ↔ y = x ∨ y ∈ s.linked := fun y => hlinked.mem_iff.trans List.mem_cons
  have hpool : (x :: rest ++ s.linked).Perm (List.range numSta) := by
    have := h.pool
    rwa [List.append_nil, hrest] at this
  have hxnot : ∀ y ∈ s.linked, y ≠ x := by
    have hnd := List.nodup_append.mp (hpool.nodup_iff.mpr List.nodup_range)
    exact fun y hy hyx => hnd.2.2 x List.mem_cons_self y hy hyx.symm
  have hx : s'.phlSta x = some p := by rw [hphlSta', Function.update_self]
  -- the linked stations keep their PHL stations as they are
  have hold : ∀ y ∈ s.linked, s'.phlSta y = s.phlSta y ∧ ∀ q, s.phlSta y = some q → phl'.sta q = s.phl.sta q := by
    refine fun y hy => ⟨by rw [hphlSta', Function.update_of_ne (hxnot y hy)], fun q hq => ?_⟩
    exact hall.apart.sta q fun hqp => hown y hy (hqp ▸ hq)
  have hchain : ∀ j, s'.chain j = s.chain j ++ if allocIndex iface hwaddr = j then [x] else [] := fun j => by
    unfold chain
    rw [hhash']; exact getD_modify hi x j
  have hcases : ∀ y ∈ s'.linked, ∀ q, s'.phlSta y = some q →
      (y = x ∧ q = p) ∨ (y ∈ s.linked ∧ s.phlSta y = some q ∧ phl'.sta q = s.phl.sta q) := by
    intro y hy q hq
    rcases (hmem y).mp hy with rfl | hy
    · rw [hx] at hq
      cases hq
      exact Or.inl ⟨rfl, rfl⟩
    · rw [(hold y hy).1] at hq; exact Or.inr ⟨hy, hq, (hold y hy).2 q hq⟩
  refine ⟨s', hs', ?_, fun y hy => (hmem y).mpr (Or.inr hy)⟩
  refine
    { pool := ?_
      chains := by rw [hhash', List.length_modify]; exact h.chains
      count := ?_
      bound := fun y hy => ?_
      distinct := fun y hy z hz q hyq hzq => ?_
      placed := fun y hy q hq => ?_
      unique := fun y hy z hz q r hyq hzr hmacs => ?_
      untaken := fun y hy q hq => ?_
      sound := by rw [hphl']; exact hall.sound }
  · rw [hfree', List.append_nil]
    exact ((hlinked.append_left rest).trans List.perm_middle).trans hpool
  · rw [hcount', h.count, List.append_nil, List.append_nil, hlinked.length_eq]
    exact (Nat.cast_succ _).symm
  · rw [List.append_nil] at hy
    rw [hphl']
    rcases (hmem y).mp hy with rfl | hy
    · exact ⟨p, hx, by rw [hmac]; exact hok.individual, hall.used⟩
    · obtain ⟨q, hq, hind, hfree⟩ := h.bound y (List.mem_append_left [] hy)
      refine ⟨q, (hold y hy).1.trans hq, by rw [(hold y hy).2 q hq]; exact hind, fun hmem => hfree (hall.free q hmem)⟩
  · rw [List.append_nil] at hy hz
    rcases hcases y hy q hyq with ⟨rfl, rfl⟩ | ⟨hy, hyq, -⟩
    · rcases hcases z hz q hzq with ⟨rfl, -⟩ | ⟨hz, hzq, -⟩
      · rfl
      · exact absurd hzq (hown z hz)
    · rcases hcases z hz q hzq with ⟨rfl, rfl⟩ | ⟨hz, hzq, -⟩
      · exact absurd hyq (hown y hy)
      · exact h.distinct y (List.mem_append_left [] hy) z (List.mem_append_left [] hz) q hyq hzq
  · rw [hphl', hchain]
    rcases hcases y hy q hq with ⟨rfl, rfl⟩ | ⟨hy, hq, hsta⟩
    · rw [hmac, hok.index, if_pos rfl]; exact List.mem_append_right _ List.mem_cons_self
    · rw [hsta]; exact List.mem_append_left _ (h.placed y hy q hq)
  · rw [hphl'] at hmacs
    rcases hcases y hy q hyq with ⟨rfl, rfl⟩ | ⟨hy, hyq, hq⟩
    · rcases hcases z hz r hzr with ⟨rfl, -⟩ | ⟨hz, hzr, hr⟩
      · rfl
      · rw [hmac, hr] at hmacs; exact absurd hmacs.symm (hok.fresh z hz r hzr)
    · rcases hcases z hz r hzr with ⟨rfl, rfl⟩ | ⟨hz, hzr, hr⟩
      · rw [hmac, hq] at hmacs; exact absurd hmacs (hok.fresh y hy q hyq)
      · rw [hq, hr] at hmacs; exact h.unique y hy z hz q r hyq hzr hmacs
  · rw [hphl']
    rcases hcases y hy q hq with ⟨rfl, rfl⟩ | ⟨hy, hq, -⟩
    · exact hpfree
    · exact hunmoved y hy q hq

/-! ### Runs -/

theorem Inv.outside {o : Outside} (h : Inv iface [] s) (hok : s.Unmoved (s.outside o).phl) : Inv iface [] (s.outside o) where
  pool := h.pool
  chains := h.chains
  count := h.count
  bound := h.bound
  distinct := h.distinct
  placed := h.placed
  unique := h.unique
  untaken := hok
  sound := ⟨h.sound.free_nodup, h.sound.assoc_nodup, h.sound.assoc_link⟩

theorem Inv.freeOne {sw : Bool} (h : Inv iface [] s) (hx : x ∈ s.linked) (hrel : s.Releasable x sw) :
    ∃ s', s.freeStainfo iface x sw = some s' ∧ Inv iface [] s' ∧ LeavesNothing s s' := by
  obtain ⟨s', hs', hinv, hfr, hlinked⟩ := h.freeLinked hx hrel
  refine ⟨s', hs', hinv, leavesNothing_of_freed hfr fun y hy hy' => ?_⟩
  by_contra hyx
  rw [List.mem_singleton] at hyx
  rw [hlinked] at hy'; exact hy' (List.mem_filter.mpr ⟨hy, decide_eq_true hyx⟩)

theorem Inv.call {c : Call} (h : Inv iface [] s) (hok : CallOk iface s c) :
    ∃ s', s.call iface c = some s' ∧ Inv iface [] s' ∧ LeavesNothing s s' := by
  cases c with
  | alloc hwaddr linkIdx out =>
    obtain ⟨s', hs', hinv, hsub⟩ := h.alloc hok
    exact ⟨s', hs', hinv, fun x hx hx' => absurd (hsub x hx) hx'⟩
  | free x => exact h.freeOne hok.1 hok.2
  | freeSw x => exact h.freeOne hok.1 hok.2
  | freeMld m => exact h.freeMldStainfo hok
  | freeAll => exact h.freeAll hok
  | outside o => exact ⟨s.outside o, rfl, h.outside hok, fun x hx hx' => absurd hx hx'⟩

/-- `_rtw_init_sta_priv`, before the PHL has given a station to the interface. -/
structure Start (s : StaPriv) : Prop where
  free : s.freeStaQueue = List.range numSta
  hash : s.staHash = List.replicate numSta []
  count : s.asocStaCount = 0
  assoc : ∀ l, s.phl.assocStaQueue l = []
  phlFree : s.phl.freeStaQueue.Nodup

theorem Start.inv (h : Start s) : Inv iface [] s := by
  have hlinked : s.linked = [] := by
    unfold linked
    rw [h.hash, List.flatten_replicate_nil]
  have hnone : ∀ y, y ∉ s.linked := fun y hy => by rw [hlinked] at hy; cases hy
  refine
    { pool := by rw [h.free, hlinked, List.append_nil, List.append_nil]
      chains := by rw [h.hash, List.length_replicate]
      count := by rw [h.count, hlinked]; rfl
      bound := fun y hy => absurd (List.append_nil s.linked ▸ hy) (hnone y)
      distinct := fun y hy => absurd (List.append_nil s.linked ▸ hy) (hnone y)
      placed := fun y hy => absurd hy (hnone y)
      unique := fun y hy => absurd hy (hnone y)
      untaken := fun y hy => absurd hy (hnone y)
      sound := ⟨h.phlFree, fun l => by rw [h.assoc]; exact List.nodup_nil, fun l p hp => by rw [h.assoc] at hp; cases hp⟩ }

def step (iface : Iface) (o : Option StaPriv) (c : Call) : Option StaPriv := o.bind fun s => s.call iface c

/-- `CallOk` in the state that a run has reached. -/
def StepOk (iface : Iface) (o : Option StaPriv) (c : Call) : Prop := ∀ s, o = some s → CallOk iface s c

/-- **A run whose calls are all `CallOk` keeps the pool and cleans up.** -/
theorem stations_kept {s₀ : StaPriv} {cs : List Call} (h₀ : Start s₀) (h : Lib.Legal (step iface) (StepOk iface) (some s₀) cs)
    {pre : List Call} (hpre : pre <+: cs) :
    ∃ s, pre.foldl (step iface) (some s₀) = some s ∧ s.Good iface ∧
      ∀ c, pre ++ [c] <+: cs → ∃ s', s.call iface c = some s' ∧ LeavesNothing s s' := by
  obtain ⟨s, hs, hinv⟩ : ∃ s, pre.foldl (step iface) (some s₀) = some s ∧ Inv iface [] s := by
    obtain ⟨rest, rfl⟩ := hpre
    refine ((Lib.legal_append.mp h).1.reach).invariant (I := fun o => ∃ s, o = some s ∧ Inv iface [] s)
      ⟨s₀, rfl, h₀.inv⟩ fun o c ho hok => ?_
    obtain ⟨s, rfl, hinv⟩ := ho
    obtain ⟨s', hs', hinv', -⟩ := hinv.call (hok s rfl)
    exact ⟨s', hs', hinv'⟩
  refine ⟨s, hs, hinv.good, fun c hc => ?_⟩
  obtain ⟨s', hs', -, hleft⟩ := hinv.call (h.last hc s hs)
  exact ⟨s', hs', hleft⟩

/-! ### Runs on fixed inputs -/

/-- An access point with the address 02:00:00:00:00:01. -/
def apIface : Iface where
  type := .ap
  macAddr := [2, 0, 0, 0, 0, 1]
  rlinkMac _ := [2, 0, 0, 0, 0, 1]
  bssid := [2, 0, 0, 0, 0, 1]
  adapterLinkNum := 1

/-- The interface has no station yet; `free` are the free stations of the PHL. -/
def fresh (free : List ℕ) : StaPriv where
  freeStaQueue := List.range numSta
  staHash := List.replicate numSta []
  asocStaCount := 0
  phlSta _ := none
  staAid _ := none
  timBitmap _ := false
  staDzBitmap _ := false
  preLink _ := false
  apState := true
  phl :=
    { sta := fun _ => { macAddr := [], rlink := 0, active := false, aid := 0, mld := none }
      mld := fun _ => { macAddr := [], staNum := 0, phlSta := fun _ => none }
      assocStaQueue := fun _ => []
      assocMldQueue := []
      freeStaQueue := free }

theorem fresh_start {free : List ℕ} (h : free.Nodup) : Start (fresh free) := ⟨rfl, rfl, rfl, fun _ => rfl, h⟩

def smooth : PhlOut := { cmd := true, sw := true, hal := true, ofld := true, bmc := none }

def peer : Mac := [2, 0, 0, 0, 0, 9]

/-- The peer is given a station, which is released in software. -/
theorem peer_comes_and_goes :
    ∃ s, [Call.alloc peer 0 smooth, Call.freeSw 0].foldl (step apIface) (some (fresh [7])) = some s ∧ s.Good apIface := by
  have hlegal : Lib.Legal (step apIface) (StepOk apIface) (some (fresh [7])) [Call.alloc peer 0 smooth, Call.freeSw 0] := by
    refine ⟨fun s hs => ?_, fun s hs => ?_, trivial⟩
    · cases hs
      refine ⟨by decide, by decide, by decide, by decide, 7, by decide, by decide, by decide,
        fun m hm => (List.not_mem_nil hm).elim, fun y hy => (List.not_mem_nil (show y ∈ [] from hy)).elim⟩
    · cases hs
      refine ⟨by decide, fun p hp => ?_⟩
      cases hp
      exact ⟨rfl, Or.inl rfl, Or.inl rfl⟩
  obtain ⟨s, hs, hgood, -⟩ := stations_kept (fresh_start (List.nodup_singleton 7)) hlegal (List.prefix_refl _)
  exact ⟨s, hs, hgood⟩

/-- The PHL has no station left: the peer's station is in its chain without one. -/
theorem station_without_phl : Start (fresh []) ∧
    ∃ s, (fresh []).call apIface (.alloc peer 0 smooth) = some s ∧ s.linked = [0] ∧ s.phlSta 0 = none ∧ ¬s.Good apIface := by
  refine ⟨fresh_start List.nodup_nil, _, rfl, by decide, by decide, fun h => ?_⟩
  obtain ⟨p, hp, -⟩ := h.found 0 (by decide)
  cases hp
end StaPriv

end Rtl8852cu.Stainfo
