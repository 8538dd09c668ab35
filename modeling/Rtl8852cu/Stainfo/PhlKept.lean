import Rtl8852cu.Stainfo.Phl
import Mathlib.Data.List.Nodup

/-!
# What the PHL keeps

The queues of the PHL stay apart (`Phl.Sound`), and an allocation or a release of one station leaves the other stations and the
MLDs as they are (`Phl.Apart`).
-/

namespace Rtl8852cu.Stainfo.Phl

open Function (update update_self update_of_ne)

/-- Nothing is queued twice, and a station in use is queued under its own link. -/
structure Sound (phl : Phl) : Prop where
  free_nodup : phl.freeStaQueue.Nodup
  assoc_nodup : ∀ l, (phl.assocStaQueue l).Nodup
  assoc_link : ∀ l, ∀ p ∈ phl.assocStaQueue l, (phl.sta p).rlink = l ∧ p ∉ phl.freeStaQueue

/-- Only the station `p` was written. -/
structure Apart (p : ℕ) (phl phl' : Phl) : Prop where
  sta : ∀ q, q ≠ p → phl'.sta q = phl.sta q
  mld : phl'.mld = phl.mld
  mldQueue : phl'.assocMldQueue = phl.assocMldQueue

variable {iface : Iface} {phl phl' : Phl} {p : ℕ}

theorem Apart.refl (p : ℕ) (phl : Phl) : Apart p phl phl := ⟨fun _ _ => rfl, rfl, rfl⟩

theorem Apart.trans {phl'' : Phl} (h : Apart p phl phl') (h' : Apart p phl' phl'') : Apart p phl phl'' :=
  ⟨fun q hq => (h'.sta q hq).trans (h.sta q hq), h'.mld.trans h.mld, h'.mldQueue.trans h.mldQueue⟩

theorem modifySta_self (phl : Phl) (p : ℕ) (f : PhlSta → PhlSta) : (phl.modifySta p f).sta p = f (phl.sta p) :=
  update_self _ _ _

theorem modifySta_other {q : ℕ} (f : PhlSta → PhlSta) (hq : q ≠ p) : (phl.modifySta p f).sta q = phl.sta q :=
  update_of_ne hq _ _

theorem modifySta_apart (phl : Phl) (p : ℕ) (f : PhlSta → PhlSta) : Apart p phl (phl.modifySta p f) :=
  ⟨fun _ hq => modifySta_other f hq, rfl, rfl⟩

theorem modifySta_id (phl : Phl) (p : ℕ) : phl.modifySta p id = phl := by
  unfold modifySta
  rw [id, Function.update_eq_self]

theorem modifySta_modifySta (phl : Phl) (p : ℕ) (f g : PhlSta → PhlSta) :
    (phl.modifySta p f).modifySta p g = phl.modifySta p fun sta => g (f sta) := by
  show ({ phl with sta := update (phl.modifySta p f).sta p (g ((phl.modifySta p f).sta p)) } : Phl) = _
  rw [modifySta_self]
  unfold modifySta
  rw [Function.update_idem]

variable {f : PhlSta → PhlSta}

theorem Sound.modifySta (h : phl.Sound) (hf : ∀ sta, (f sta).rlink = sta.rlink) : (phl.modifySta p f).Sound := by
  refine ⟨h.free_nodup, h.assoc_nodup, fun l q hq => ⟨?_, (h.assoc_link l q hq).2⟩⟩
  by_cases hqp : q = p
  · subst hqp
    rw [modifySta_self, hf]; exact (h.assoc_link l q hq).1
  · rw [modifySta_other f hqp]; exact (h.assoc_link l q hq).1

/-! ### Release -/

theorem freeSelfChk_fst (iface : Iface) (phl : Phl) (p : ℕ) :
    ∃ f : PhlSta → PhlSta, (∀ sta, (f sta).rlink = sta.rlink) ∧ (phl.freeSelfChk iface p).1 = phl.modifySta p f := by
  unfold freeSelfChk
  by_cases hb : isBroadcastMacAddr (phl.sta p).macAddr
  · rw [if_pos hb]; exact ⟨id, fun _ => rfl, (modifySta_id phl p).symm⟩
  · rw [if_neg hb]
    unfold selfStainfoChk
    cases iface.type with
    | station => exact ⟨fun sta => { sta with macAddr := iface.rlinkMac sta.rlink }, fun _ => rfl, rfl⟩
    | p2pGc => exact ⟨fun sta => { sta with macAddr := iface.rlinkMac sta.rlink }, fun _ => rfl, rfl⟩
    | _ => exact ⟨id, fun _ => rfl, (modifySta_id phl p).symm⟩

/-- What a release leaves: the queues stay apart, every station has its link, and no other station gets into the free queue. -/
structure Released (p : ℕ) (phl phl' : Phl) : Prop where
  sound : phl'.Sound
  apart : Apart p phl phl'
  rlink : (phl'.sta p).rlink = (phl.sta p).rlink
  free : ∀ q ∈ phl'.freeStaQueue, q ∈ phl.freeStaQueue ∨ q = p

theorem Released.trans {phl'' : Phl} (h : Released p phl phl') (h' : Released p phl' phl'') : Released p phl phl'' := by
  refine ⟨h'.sound, h.apart.trans h'.apart, h'.rlink.trans h.rlink, fun q hq => ?_⟩
  rcases h'.free q hq with hq | hq
  · exact h.free q hq
  · exact Or.inr hq

theorem released_modifySta (h : phl.Sound) (hf : ∀ sta, (f sta).rlink = sta.rlink) :
    Released p phl (phl.modifySta p f) :=
  ⟨h.modifySta hf, modifySta_apart phl p f, by rw [modifySta_self, hf], fun _ hq => Or.inl hq⟩

theorem released_dequeue (h : phl.Sound) (hp : p ∉ phl.freeStaQueue) : Released p phl { phl with
      assocStaQueue := update phl.assocStaQueue (phl.sta p).rlink ((phl.assocStaQueue (phl.sta p).rlink).erase p)
      freeStaQueue := phl.freeStaQueue ++ [p] } := by
  have hassoc : ∀ l q, q ∈ update phl.assocStaQueue (phl.sta p).rlink
      ((phl.assocStaQueue (phl.sta p).rlink).erase p) l → q ∈ phl.assocStaQueue l ∧ q ≠ p := by
    intro l q hq
    by_cases hl : l = (phl.sta p).rlink
    · subst hl
      rw [update_self] at hq
      have := (h.assoc_nodup _).mem_erase_iff.mp hq
      exact ⟨this.2, this.1⟩
    · rw [update_of_ne hl] at hq
      refine ⟨hq, fun hqp => hl ?_⟩
      rw [← (h.assoc_link l q hq).1, hqp]
  refine ⟨⟨?_, fun l => ?_, fun l q hq => ?_⟩, ⟨fun _ _ => rfl, rfl, rfl⟩, rfl, fun q hq => ?_⟩
  · exact List.nodup_append.mpr ⟨h.free_nodup, List.nodup_singleton p, fun a ha b hb hab =>
      hp (List.mem_singleton.mp hb ▸ hab ▸ ha)⟩
  · by_cases hl : l = (phl.sta p).rlink
    · subst hl
      dsimp only
      rw [update_self]; exact (h.assoc_nodup _).erase p
    · dsimp only
      rw [update_of_ne hl]; exact h.assoc_nodup l
  · obtain ⟨hmem, hqp⟩ := hassoc l q hq
    refine ⟨(h.assoc_link l q hmem).1, fun hfree => ?_⟩
    rcases List.mem_append.mp hfree with hfree | hfree
    · exact (h.assoc_link l q hmem).2 hfree
    · exact hqp (List.mem_singleton.mp hfree)
  · rcases List.mem_append.mp hq with hq | hq
    · exact Or.inl hq
    · exact Or.inr (List.mem_singleton.mp hq)

theorem freeStainfoSw_released (iface : Iface) (h : phl.Sound) (hp : p ∉ phl.freeStaQueue) :
    Released p phl (phl.freeStainfoSw iface p) := by
  obtain ⟨f, hf, hchk⟩ := freeSelfChk_fst iface phl p
  have hmod := released_modifySta (p := p) h hf
  unfold freeStainfoSw
  rw [← hchk] at hmod
  by_cases hself : (phl.freeSelfChk iface p).2 = true
  · simp only [hself, if_true]; exact hmod
  · simp only [hself, Bool.false_eq_true, if_false]
    have hfree : p ∉ (phl.freeSelfChk iface p).1.freeStaQueue := by rw [hchk]; exact hp
    exact hmod.trans (released_dequeue hmod.sound hfree)

theorem freeStainfo_released (iface : Iface) (h : phl.Sound) (hp : p ∉ phl.freeStaQueue) :
    Released p phl (phl.freeStainfo iface p) := by
  obtain ⟨f, hf, hhw⟩ : ∃ f : PhlSta → PhlSta, (∀ sta, (f sta).rlink = sta.rlink) ∧
      phl.freeStainfoHw iface p = phl.modifySta p f := by
    obtain ⟨f, hf, hchk⟩ := freeSelfChk_fst iface phl p
    unfold freeStainfoHw
    by_cases hself : (phl.freeSelfChk iface p).2 = true
    · simp only [hself, if_true]; exact ⟨f, hf, hchk⟩
    · simp only [hself, Bool.false_eq_true, if_false]
      refine ⟨fun sta => { f sta with active := false }, hf, ?_⟩
      rw [hchk]; exact modifySta_modifySta phl p f _
  have hmod := released_modifySta (p := p) h hf
  unfold freeStainfo
  rw [hhw]; exact hmod.trans (freeStainfoSw_released iface hmod.sound hp)

/-! ### MLDs -/

/-- An MLD with the address of `p` is no other station's: it has no primary link, or `p` is one of its links. -/
def Reaches (phl : Phl) (m p : ℕ) : Prop :=
  (phl.mld m).phlSta 0 = none ∨ (phl.mld m).phlSta 0 = some p ∨
    ∃ lidx < (phl.mld m).staNum, phl.getStainfoByMld (phl.mld m) lidx = some p

/-- Each station has its link and each MLD its stations. -/
structure SameLinks (phl phl' : Phl) : Prop where
  rlink : ∀ q, (phl'.sta q).rlink = (phl.sta q).rlink
  staNum : ∀ m, (phl'.mld m).staNum = (phl.mld m).staNum
  phlSta : ∀ m, (phl'.mld m).phlSta = (phl.mld m).phlSta

theorem SameLinks.refl (phl : Phl) : SameLinks phl phl := ⟨fun _ => rfl, fun _ => rfl, fun _ => rfl⟩

theorem SameLinks.trans {phl'' : Phl} (h : SameLinks phl phl') (h' : SameLinks phl' phl'') : SameLinks phl phl'' :=
  ⟨fun q => (h'.rlink q).trans (h.rlink q), fun m => (h'.staNum m).trans (h.staNum m),
    fun m => (h'.phlSta m).trans (h.phlSta m)⟩

theorem SameLinks.getStainfoByMld (h : SameLinks phl phl') (m lidx : ℕ) :
    phl'.getStainfoByMld (phl'.mld m) lidx = phl.getStainfoByMld (phl.mld m) lidx := by
  unfold Phl.getStainfoByMld
  rw [h.staNum, h.phlSta]
  congr 1
  funext q
  rw [h.rlink]

theorem SameLinks.reaches (h : SameLinks phl phl') (m p : ℕ) : phl'.Reaches m p ↔ phl.Reaches m p := by
  unfold Reaches
  rw [h.phlSta, h.staNum]
  simp only [h.getStainfoByMld]

theorem Released.sameLinks (h : Released p phl phl') : SameLinks phl phl' := by
  refine ⟨fun q => ?_, fun m => by rw [h.apart.mld], fun m => by rw [h.apart.mld]⟩
  by_cases hq : q = p
  · rw [hq, h.rlink]
  · rw [h.apart.sta q hq]

theorem freeMld_cases (iface : Iface) (phl : Phl) (m : ℕ) :
    (∃ l, l ⊆ phl.assocMldQueue ∧ phl.freeMld iface m = { phl with assocMldQueue := l }) ∨ (iface.type.client ∧
        phl.freeMld iface m = { phl with mld := update phl.mld m { phl.mld m with macAddr := iface.macAddr } }) := by
  have herase : (phl.assocMldQueue.erase m) ⊆ phl.assocMldQueue := List.erase_subset
  unfold freeMld
  by_cases hb : isBroadcastMacAddr (phl.mld m).macAddr
  · simp only [hb, if_true]; exact Or.inl ⟨_, herase, rfl⟩
  · simp only [hb, Bool.false_eq_true, if_false]
    unfold selfMldChk RoleType.client
    have hkeep : ∀ b : Bool, ∃ l, l ⊆ phl.assocMldQueue ∧
        (if b then phl else { phl with assocMldQueue := phl.assocMldQueue.erase m }) = { phl with assocMldQueue := l } := by
      intro b
      cases b with
      | true => exact ⟨_, List.Subset.refl _, rfl⟩
      | false => exact ⟨_, herase, rfl⟩
    cases iface.type with
    | station => exact Or.inr ⟨rfl, rfl⟩
    | p2pGc => exact Or.inr ⟨rfl, rfl⟩
    | ap => exact Or.inl (hkeep _)
    | mesh => exact Or.inl (hkeep _)
    | p2pGo => exact Or.inl (hkeep _)
    | tdls => exact Or.inl (hkeep _)
    | _ => exact Or.inl (hkeep false)

theorem freeMld_sameLinks (iface : Iface) (phl : Phl) (m : ℕ) : SameLinks phl (phl.freeMld iface m) := by
  rcases freeMld_cases iface phl m with ⟨l, -, h⟩ | ⟨-, h⟩
  · rw [h]; exact ⟨fun _ => rfl, fun _ => rfl, fun _ => rfl⟩
  · have hname : ∀ k, ∃ a, (phl.freeMld iface m).mld k = { phl.mld k with macAddr := a } := by
      intro k
      rw [h]
      by_cases hk : k = m
      · subst hk; exact ⟨iface.macAddr, update_self _ _ _⟩
      · exact ⟨(phl.mld k).macAddr, update_of_ne hk _ _⟩
    refine ⟨fun _ => by rw [h], fun k => ?_, fun k => ?_⟩
    · obtain ⟨a, ha⟩ := hname k; rw [ha]
    · obtain ⟨a, ha⟩ := hname k; rw [ha]

/-! ### Allocation -/

/-- What a successful allocation leaves. -/
structure Allocated (p : ℕ) (phl phl' : Phl) : Prop where
  sound : phl'.Sound
  apart : Apart p phl phl'
  free : ∀ q ∈ phl'.freeStaQueue, q ∈ phl.freeStaQueue
  used : p ∉ phl'.freeStaQueue

theorem Allocated.modifySta (h : Allocated p phl phl') (f : PhlSta → PhlSta) (hf : ∀ sta, (f sta).rlink = sta.rlink) :
    Allocated p phl (phl'.modifySta p f) :=
  ⟨h.sound.modifySta hf, h.apart.trans (modifySta_apart phl' p f), h.free, h.used⟩

variable {l : ℕ}

theorem allocated_of_mem (h : phl.Sound) (hp : p ∈ phl.assocStaQueue l) : Allocated p phl phl :=
  ⟨h, .refl p phl, fun _ hq => hq, (h.assoc_link l p hp).2⟩

theorem allocated_fresh {rest : List ℕ} (h : phl.Sound) (hfree : phl.freeStaQueue = p :: rest)
    (hf : ∀ sta, (f sta).rlink = l) :
    Allocated p phl { phl.modifySta p f with
      assocStaQueue := update phl.assocStaQueue l (phl.assocStaQueue l ++ [p])
      freeStaQueue := rest } := by
  have hnd := h.free_nodup
  rw [hfree] at hnd
  obtain ⟨hp, hrest⟩ := List.nodup_cons.mp hnd
  have hnot : ∀ k, p ∉ phl.assocStaQueue k := fun k hk => (h.assoc_link k p hk).2 (hfree ▸ List.mem_cons_self)
  refine ⟨⟨hrest, fun k => ?_, fun k q hq => ?_⟩, ⟨fun q hq => modifySta_other f hq, rfl, rfl⟩, fun q hq => ?_, hp⟩
  · show List.Nodup (update phl.assocStaQueue l (phl.assocStaQueue l ++ [p]) k)
    by_cases hk : k = l
    · subst hk
      rw [update_self]
      exact List.nodup_append.mpr ⟨h.assoc_nodup k, List.nodup_singleton p, fun a ha b hb hab =>
        hnot k (List.mem_singleton.mp hb ▸ hab ▸ ha)⟩
    · rw [update_of_ne hk]; exact h.assoc_nodup k
  · have hcases : q ∈ phl.assocStaQueue k ∨ (q = p ∧ k = l) := by
      have hq : q ∈ update phl.assocStaQueue l (phl.assocStaQueue l ++ [p]) k := hq
      by_cases hk : k = l
      · subst hk
        rw [update_self] at hq
        rcases List.mem_append.mp hq with hq | hq
        · exact Or.inl hq
        · exact Or.inr ⟨List.mem_singleton.mp hq, rfl⟩
      · rw [update_of_ne hk] at hq; exact Or.inl hq
    rcases hcases with hmem | ⟨rfl, rfl⟩
    · have hqp : q ≠ p := fun hqp => hnot k (hqp ▸ hmem)
      refine ⟨?_, fun hmem' => (h.assoc_link k q hmem).2 (hfree ▸ List.mem_cons_of_mem p hmem')⟩
      show ((phl.modifySta p f).sta q).rlink = k
      rw [modifySta_other f hqp]; exact (h.assoc_link k q hmem).1
    · refine ⟨?_, hp⟩
      show ((phl.modifySta q f).sta q).rlink = k
      rw [modifySta_self, hf]
  · rw [hfree]; exact List.mem_cons_of_mem p hq

theorem getStainfoSelf_mem (h : phl.getStainfoSelf l = some p) : p ∈ phl.assocStaQueue l := List.mem_of_mem_head? h

variable {addr : Mac}

theorem queueSearch_mem (h : phl.queueSearch l addr = some p) : p ∈ phl.assocStaQueue l := List.mem_of_find?_eq_some h

variable {out : PhlOut}

section

variable (h : phl.Sound) (haddr : isBroadcastMacAddr addr = false)

include h haddr

theorem allocStainfoSw_allocated (hp : (phl.allocStainfoSw iface addr l out).2 = some p) :
    Allocated p phl (phl.allocStainfoSw iface addr l out).1 := by
  unfold allocStainfoSw at hp ⊢
  split at hp
  · rename_i q hself
    cases hp
    split at hself
    · exact (allocated_of_mem h (getStainfoSelf_mem hself)).modifySta (fun sta => { sta with macAddr := addr }) fun _ => rfl
    · cases hself
  · split at hp
    · rename_i q hby
      cases hp
      unfold getStainfoByAddr at hby
      rw [haddr] at hby
      exact allocated_of_mem h (queueSearch_mem hby)
    · rename_i hby
      split at hp
      · cases hp
      · rename_i q rest hfree
        by_cases hsw : out.sw
        · simp only [hsw, if_true] at hp
          cases hp
          simp only [hsw, if_true]; exact allocated_fresh h hfree fun _ => rfl
        · simp only [hsw] at hp; cases hp

theorem allocStainfo_allocated (hp : (phl.allocStainfo iface addr l out).2 = some p) :
    Allocated p phl (phl.allocStainfo iface addr l out).1 := by
  have hall : ∀ q, (phl.allocStainfoSw iface addr l out).2 = some q →
      Allocated q phl (phl.allocStainfoSw iface addr l out).1 := fun q hq => allocStainfoSw_allocated h haddr hq
  unfold allocStainfo at hp ⊢
  generalize phl.allocStainfoSw iface addr l out = r at hp hall ⊢
  obtain ⟨phl₁, q⟩ := r
  cases q with
  | none => cases hp
  | some q =>
    have hall := hall q rfl
    dsimp only at hp hall ⊢
    by_cases hact : (phl₁.sta q).active = true
    · rw [if_pos hact] at hp ⊢
      cases hp
      exact hall
    · rw [if_neg hact] at hp ⊢
      by_cases hhal : (!out.hal) = true
      · rw [if_pos hhal] at hp; cases hp
      · rw [if_neg hhal] at hp ⊢
        by_cases hofld : (!out.ofld) = true
        · rw [if_pos hofld] at hp; cases hp
        · rw [if_neg hofld] at hp ⊢
          cases hp
          exact hall.modifySta (fun sta => { sta with active := true }) fun _ => rfl

theorem cmdAllocStainfo_allocated (hp : (phl.cmdAllocStainfo iface addr l out).2 = some p) :
    Allocated p phl (phl.cmdAllocStainfo iface addr l out).1 := by
  unfold cmdAllocStainfo at hp ⊢
  by_cases hcmd : out.cmd
  · rw [if_pos hcmd] at hp ⊢; exact allocStainfo_allocated h haddr hp
  · rw [if_neg hcmd] at hp; cases hp

end

end Rtl8852cu.Stainfo.Phl
