import Rtl8852cu.Lib.Reach
import Rtl8852cu.P2pps.Noa

/-!
# The NoA table against the firmware

An id is one above the largest of the table, but `0` where this is `0`: the second descriptor is given the id of the
first.
-/

namespace Rtl8852cu.P2pps

open Lib
open Function (update update_self update_of_ne update_idem update_eq_self)

/-- **The table agrees with the firmware.** -/
structure NoaInfo.Consistent (info : NoaInfo) : Prop where
  num : info.enDescNum = info.fw.card
  ids : ∀ e ∈ info.fw, ∀ e' ∈ info.fw, e.2 = e'.2 → e = e'
  paused : info.paused = true → info.fw = ∅

instance (info : NoaInfo) : Decidable info.Consistent :=
  decidable_of_iff (info.enDescNum = info.fw.card ∧ (∀ e ∈ info.fw, ∀ e' ∈ info.fw, e.2 = e'.2 → e = e') ∧
      (info.paused = true → info.fw = ∅))
    ⟨fun h => ⟨h.1, h.2.1, h.2.2⟩, fun h => ⟨h.num, h.ids, h.paused⟩⟩

/-- The firmware has the descriptors that are enabled and to be activated, and no others. -/
def Resumed (env : NoaEnv) (before after : NoaInfo) : Prop :=
  ∀ t, (∃ i, (t, i) ∈ after.fw) ↔ (before.noaDesc t).enable = true ∧ shouldActivate env (before.noaDesc t) = true

/-! ### Ids -/

section Ids

variable {desc desc' : Trig → NoaDesc} {t : Trig} {ts us : List Trig}

/-- The id of a place, `0` where it has none. -/
def usedId (desc : Trig → NoaDesc) (t : Trig) : ℕ := if (desc t).noaId = noaidNone then 0 else (desc t).noaId

theorem foldl_maxId (m : ℕ) (ts : List Trig) : ts.foldl (fun m t => if (desc t).noaId = noaidNone then m
      else if (desc t).noaId > m then (desc t).noaId else m) m = max m (maxNoaId desc ts) := by
  induction ts generalizing m with
  | nil => exact (Nat.max_zero m).symm
  | cons t ts ih =>
    unfold maxNoaId
    rw [List.foldl_cons, List.foldl_cons, ih, ih]
    split
    · omega
    · split <;> split <;> omega

theorem maxNoaId_cons : maxNoaId desc (t :: ts) = max (usedId desc t) (maxNoaId desc ts) := by
  unfold usedId
  rw [maxNoaId, List.foldl_cons, foldl_maxId]
  split
  · rfl
  · split <;> omega

theorem maxNoaId_append : maxNoaId desc (ts ++ us) = max (maxNoaId desc ts) (maxNoaId desc us) := by
  induction ts with
  | nil => exact (Nat.zero_max _).symm
  | cons t ts ih => rw [List.cons_append, maxNoaId_cons, maxNoaId_cons, ih, Nat.max_assoc]

theorem maxNoaId_congr (h : ∀ t ∈ ts, desc' t = desc t) : maxNoaId desc' ts = maxNoaId desc ts := by
  induction ts with
  | nil => rfl
  | cons t ts ih =>
    rw [maxNoaId_cons, maxNoaId_cons, ih fun u hu => h u (List.mem_cons_of_mem t hu), usedId, usedId,
      h t List.mem_cons_self]

theorem usedId_le (desc : Trig → NoaDesc) (h : t ∈ ts) : usedId desc t ≤ maxNoaId desc ts := by
  induction ts with
  | nil => cases h
  | cons u ts ih =>
    rw [maxNoaId_cons]
    rcases List.mem_cons.mp h with rfl | h
    · exact Nat.le_max_left _ _
    · exact (ih h).trans (Nat.le_max_right _ _)

end Ids

/-- The ids that `assignNoaid` finds are those of the firmware, or it gives one above. -/
def IdFree (info : NoaInfo) : Prop :=
  info.enDescNum = 0 ∨ 0 < maxNoaId info.noaDesc Trig.all ∧ maxNoaId info.noaDesc Trig.all < 254

/-! ### The firmware and the places -/

/-- **Of the places with `P`, and of no others, the firmware has what the table says it has.** -/
structure Tracks (info : NoaInfo) (P : Trig → Prop) : Prop where
  fw : ∀ t i, (t, i) ∈ info.fw ↔ P t ∧ (info.noaDesc t).enToFw = true ∧ (info.noaDesc t).noaId = i
  num : info.enDescNum = info.fw.card
  ids : ∀ e ∈ info.fw, ∀ e' ∈ info.fw, e.2 = e'.2 → e = e'
  off : ∀ t, (info.noaDesc t).enable = false → (info.noaDesc t).noaId = 0

theorem NoaDesc.enToFw_iff {d : NoaDesc} : d.enToFw = true ↔ d.noaId ≠ noaidNone ∧ d.enable = true := by
  unfold NoaDesc.enToFw
  rw [Bool.and_eq_true, decide_eq_true_iff]

variable {env : NoaEnv} {info : NoaInfo} {P Q : Trig → Prop} {t : Trig} {d inDesc : NoaDesc}

/-- A descriptor that the HAL has taken back. -/
def NoaInfo.taken (info : NoaInfo) (t : Trig) : NoaInfo :=
  { info with
    enDescNum := info.enDescNum - 1
    fw := info.fw.erase (t, (info.noaDesc t).noaId) }

/-- A descriptor that the HAL has accepted. -/
def NoaInfo.given (info : NoaInfo) (t : Trig) (d : NoaDesc) : NoaInfo :=
  { info.setDesc t { d with noaId := assignNoaid (info.setDesc t d) } with
    enDescNum := (info.enDescNum + 1) % 256
    fw := insert (t, assignNoaid (info.setDesc t d)) info.fw }

namespace Tracks

section

variable (h : Tracks info P)

include h

theorem congr (hPQ : ∀ t, (info.noaDesc t).enToFw = true → (P t ↔ Q t)) : Tracks info Q where
  fw t i := by
    rw [h.fw]
    exact ⟨fun ⟨hP, hen, hid⟩ => ⟨(hPQ t hen).mp hP, hen, hid⟩, fun ⟨hQ, hen, hid⟩ => ⟨(hPQ t hen).mpr hQ, hen, hid⟩⟩
  num := h.num
  ids := h.ids
  off := h.off

theorem card_le : info.fw.card ≤ 5 := by
  have hle : info.fw.card ≤ Trig.all.toFinset.card := by
    refine Finset.card_le_card_of_injOn Prod.fst (fun e _ => List.mem_toFinset.mpr (Trig.mem_all e.1)) ?_
    rintro ⟨t, i⟩ he ⟨u, j⟩ he' rfl
    rw [← ((h.fw _ _).mp he).2.2, ← ((h.fw _ _).mp he').2.2]
  exact hle

theorem set (hold : P t → (info.noaDesc t).enToFw = false) (hnew : P t → d.enToFw = false)
    (hoff : d.enable = false → d.noaId = 0) : Tracks (info.setDesc t d) P where
  fw u i := by
    show (u, i) ∈ info.fw ↔ P u ∧ (update info.noaDesc t d u).enToFw = true ∧
      (update info.noaDesc t d u).noaId = i
    by_cases hu : u = t
    · subst hu
      rw [h.fw, update_self]
      refine and_congr_right fun hP => ?_
      rw [hold hP, hnew hP]
      exact iff_of_false (fun hen => Bool.noConfusion hen.1) fun hen => Bool.noConfusion hen.1
    · rw [h.fw, update_of_ne hu]
  num := h.num
  ids := h.ids
  off u hu := by
    simp only [NoaInfo.setDesc] at hu ⊢
    by_cases hut : u = t
    · subst hut
      rw [update_self] at hu ⊢; exact hoff hu
    · rw [update_of_ne hut] at hu ⊢; exact h.off u hu

theorem take (hP : P t) (hen : (info.noaDesc t).enToFw = true) : Tracks (info.taken t) fun u => P u ∧ u ≠ t where
  fw u i := by
    show (u, i) ∈ info.fw.erase (t, (info.noaDesc t).noaId) ↔
      (P u ∧ u ≠ t) ∧ (info.noaDesc u).enToFw = true ∧ (info.noaDesc u).noaId = i
    rw [Finset.mem_erase, h.fw]
    constructor
    · rintro ⟨hne, hPu, henu, rfl⟩; exact ⟨⟨hPu, fun hu => hne (by rw [hu])⟩, henu, rfl⟩
    · rintro ⟨⟨hPu, hne⟩, henu, rfl⟩; exact ⟨fun heq => hne (congrArg Prod.fst heq), hPu, henu, rfl⟩
  num := by
    have hmem := (h.fw t _).mpr ⟨hP, hen, rfl⟩
    show info.enDescNum - 1 = (info.fw.erase (t, (info.noaDesc t).noaId)).card
    rw [Finset.card_erase_of_mem hmem, h.num]
  ids e he e' he' := h.ids e (Finset.mem_of_mem_erase he) e' (Finset.mem_of_mem_erase he')
  off := h.off

theorem fresh (hfree : IdFree info) : assignNoaid info ≠ noaidNone ∧ ∀ e ∈ info.fw, e.2 ≠ assignNoaid info := by
  have hempty : info.enDescNum = 0 → ∀ e ∈ info.fw, e.2 ≠ 0 := fun h0 e he => by
    rw [Finset.card_eq_zero.mp (h.num.symm.trans h0)] at he; exact absurd he (Finset.notMem_empty e)
  have hnone : noaidNone = 255 := rfl
  unfold assignNoaid
  by_cases h0 : info.enDescNum = 0
  · rw [if_pos h0]; exact ⟨by decide, hempty h0⟩
  · obtain ⟨hpos, hlt⟩ := hfree.resolve_left h0
    rw [if_neg h0, if_pos (by omega), Nat.mod_eq_of_lt (by omega)]
    refine ⟨by omega, fun e he => ?_⟩
    obtain ⟨-, hen, hid⟩ := (h.fw e.1 e.2).mp he
    have hle := usedId_le info.noaDesc (Trig.mem_all e.1)
    rw [usedId, if_neg (NoaDesc.enToFw_iff.mp hen).1, hid] at hle; omega

theorem give (hold : P t → (info.noaDesc t).enToFw = false) (hen : d.enable = true)
    (hfree : IdFree (info.setDesc t d)) : Tracks (info.given t d) fun u => P u ∨ u = t := by
  have hnot : ∀ i, (t, i) ∉ info.fw := fun i hmem => by
    obtain ⟨hP, hen, -⟩ := (h.fw t i).mp hmem
    rw [hold hP] at hen; cases hen
  have hbare : Tracks (info.setDesc t d) fun u => P u ∧ u ≠ t := by
    refine (h.congr fun u hu => ?_).set (fun hP => absurd rfl hP.2) (fun hP => absurd rfl hP.2)
      fun hoff => absurd hoff (by rw [hen]; exact Bool.noConfusion)
    exact ⟨fun hP => ⟨hP, fun hut => by rw [hut] at hu hP; rw [hold hP] at hu; cases hu⟩, fun hP => hP.1⟩
  obtain ⟨hnone, hnew⟩ := hbare.fresh hfree
  have hcard := hbare.card_le
  refine ⟨fun u i => ?_, ?_, ?_, fun u hu => ?_⟩
  · show (u, i) ∈ insert (t, assignNoaid (info.setDesc t d)) info.fw ↔ (P u ∨ u = t) ∧
      (update info.noaDesc t { d with noaId := assignNoaid (info.setDesc t d) } u).enToFw = true ∧
      (update info.noaDesc t { d with noaId := assignNoaid (info.setDesc t d) } u).noaId = i
    rw [Finset.mem_insert]
    by_cases hu : u = t
    · subst hu
      rw [update_self]
      constructor
      · rintro (heq | hmem)
        · exact ⟨.inr rfl, NoaDesc.enToFw_iff.mpr ⟨hnone, hen⟩, (congrArg Prod.snd heq).symm⟩
        · exact absurd hmem (hnot i)
      · rintro ⟨-, -, rfl⟩; exact .inl rfl
    · rw [update_of_ne hu, h.fw]
      constructor
      · rintro (heq | ⟨hP, hrest⟩)
        · exact absurd (congrArg Prod.fst heq) hu
        · exact ⟨.inl hP, hrest⟩
      · rintro ⟨hP, hrest⟩; exact .inr ⟨hP.resolve_right hu, hrest⟩
  · show (info.enDescNum + 1) % 256 = (insert (t, assignNoaid (info.setDesc t d)) info.fw).card
    have hle : info.fw.card ≤ 5 := hcard
    rw [Finset.card_insert_of_notMem (hnot _), h.num]; omega
  · intro e he e' he' heq
    rcases Finset.mem_insert.mp he with rfl | he <;> rcases Finset.mem_insert.mp he' with rfl | he'
    · rfl
    · exact absurd heq.symm (hnew e' he')
    · exact absurd heq (hnew e he)
    · exact h.ids e he e' he' heq
  · simp only [NoaInfo.given, NoaInfo.setDesc] at hu ⊢
    by_cases hut : u = t
    · subst hut
      rw [update_self] at hu; exact absurd (hen.symm.trans hu) Bool.noConfusion
    · rw [update_of_ne hut] at hu ⊢; exact h.off u hu

end

end Tracks

/-! ### One descriptor -/

@[simp] theorem setDesc_setDesc (d d' : NoaDesc) : (info.setDesc t d).setDesc t d' = info.setDesc t d' := by
  unfold NoaInfo.setDesc
  rw [update_idem]

theorem setDesc_self : info.setDesc t (info.noaDesc t) = info := by
  unfold NoaInfo.setDesc
  rw [update_eq_self]

theorem noaDisable_taken {clear : Bool} (hgo : (info.paused && clear) = false)
    (hen : (info.noaDesc t).enToFw = true) (hok : env.halDisable t = .success) :
    (noaDisable env info t clear).2 = if clear then (info.taken t).setDesc t .zero else info.taken t := by
  unfold noaDisable
  rw [hgo, if_neg Bool.false_ne_true, if_pos hen, if_neg (not_not_intro hok)]; rfl

theorem noaDisable_off {clear : Bool} (hgo : (info.paused && clear) = false) (hen : (info.noaDesc t).enToFw = false) :
    (noaDisable env info t clear).2 = if clear then info.setDesc t .zero else info := by
  unfold noaDisable
  rw [hgo, if_neg Bool.false_ne_true, hen, if_neg Bool.false_ne_true]

theorem noaDisable_fail (hen : (info.noaDesc t).enToFw = true) (hp : info.paused = false)
    (hfail : env.halDisable t ≠ .success) : (noaDisable env info t true).2 = info := by
  unfold noaDisable
  rw [hp, Bool.false_and, if_neg Bool.false_ne_true, if_pos hen, if_pos hfail]

theorem noaDisable_clear (h : Tracks info fun _ => info.paused = false)
    (hok : info.paused = false → (info.noaDesc t).enToFw = true → env.halDisable t = .success) :
    (noaDisable env info t true).2.noaDesc = update info.noaDesc t .zero ∧
      (noaDisable env info t true).2.paused = info.paused ∧
      Tracks (noaDisable env info t true).2 fun _ => info.paused = false := by
  have hzero : NoaDesc.zero.enToFw = false := rfl
  cases hp : info.paused with
  | true =>
    have heq : (noaDisable env info t true).2 = info.setDesc t .zero := by
      unfold noaDisable
      rw [hp, Bool.true_and, if_pos rfl]
    rw [hp] at h
    rw [heq]
    exact ⟨rfl, hp, h.set (fun h => Bool.noConfusion h) (fun h => Bool.noConfusion h) fun _ => rfl⟩
  | false =>
    have hgo : (info.paused && true) = false := by rw [hp]; rfl
    rw [hp] at h
    cases hen : (info.noaDesc t).enToFw with
    | true =>
      rw [noaDisable_taken hgo hen (hok hp hen), if_pos rfl]
      refine ⟨rfl, hp, ((h.take rfl hen).set (fun hP => absurd rfl hP.2) (fun _ => hzero) fun _ => rfl).congr
        fun u hu => ⟨fun _ => rfl, fun _ => ⟨rfl, fun hut => ?_⟩⟩⟩
      rw [hut] at hu
      simp only [NoaInfo.setDesc, update_self] at hu
      exact absurd hu (by rw [hzero]; exact Bool.false_ne_true)
    | false =>
      rw [noaDisable_off hgo hen, if_pos rfl]
      exact ⟨rfl, hp, h.set (fun _ => hen) (fun _ => hzero) fun _ => rfl⟩

theorem noaEnable_given (hp : info.paused = false) (hact : shouldActivate env d = true)
    (hok : env.halEnable t = .success) : (noaEnable env info t d).2 = info.given t d := by
  have hp' : (info.setDesc t d).paused = false := hp
  unfold noaEnable NoaInfo.given
  simp only
  rw [hp', if_neg Bool.false_ne_true, if_pos hact, hok, setDesc_setDesc]; rfl

theorem noaEnable_none (hp : info.paused = false) (hnot : shouldActivate env d = true → env.halEnable t ≠ .success) :
    (noaEnable env info t d).2 = info.setDesc t { d with noaId := noaidNone } := by
  have hp' : (info.setDesc t d).paused = false := hp
  unfold noaEnable
  simp only
  rw [hp', if_neg Bool.false_ne_true]
  by_cases hact : shouldActivate env d = true
  · rw [if_pos hact]
    cases hok : env.halEnable t with
    | success => exact absurd hok (hnot hact)
    | resource => exact setDesc_setDesc _ _
    | failure => exact setDesc_setDesc _ _
  · rw [if_neg hact]; exact setDesc_setDesc _ _

theorem enToFw_none (d : NoaDesc) : { d with noaId := noaidNone }.enToFw = false := by
  cases hen : { d with noaId := noaidNone }.enToFw with
  | true => exact absurd rfl (NoaDesc.enToFw_iff.mp hen).1
  | false => rfl

theorem Tracks.enable (h : Tracks info P) (env : NoaEnv) (hp : info.paused = false)
    (hold : P t → (info.noaDesc t).enToFw = false) (hen : d.enable = true)
    (hfree : shouldActivate env d = true → env.halEnable t = .success → IdFree (info.setDesc t d)) :
    Tracks (noaEnable env info t d).2 fun u => P u ∨ u = t := by
  by_cases hgo : shouldActivate env d = true ∧ env.halEnable t = .success
  · rw [noaEnable_given hp hgo.1 hgo.2]; exact h.give hold hen (hfree hgo.1 hgo.2)
  · rw [noaEnable_none hp fun hact hok => hgo ⟨hact, hok⟩]
    refine (h.set hold (fun _ => enToFw_none d) fun hoff => absurd (hen.symm.trans hoff) Bool.noConfusion).congr
      fun u hu => ⟨.inl, fun hP => hP.resolve_right fun hut => ?_⟩
    rw [hut] at hu
    simp only [NoaInfo.setDesc, update_self] at hu
    rw [enToFw_none] at hu; cases hu

/-! ### The calls -/

/-- What an update needs: what it replaces is taken back, and the id it gets is free. -/
def UpdateOk (env : NoaEnv) (info : NoaInfo) (inDesc : NoaDesc) : Prop :=
  inDesc.enable = true → info.paused = false →
    ((info.noaDesc inDesc.tag).enToFw = true → env.halDisable inDesc.tag = .success) ∧
    (shouldActivate env inDesc = true → env.halEnable inDesc.tag = .success →
      (∀ u, u ≠ inDesc.tag → (info.noaDesc u).enToFw = false) ∨
      0 < maxNoaId (update info.noaDesc inDesc.tag inDesc) Trig.all ∧
        maxNoaId (update info.noaDesc inDesc.tag inDesc) Trig.all < 254)

/-- The ids that the places `ts` get on a resume are free, when `m` is the largest given before them. -/
def ResumeIds (env : NoaEnv) (desc : Trig → NoaDesc) : Option ℕ → List Trig → Prop
  | _, [] => True
  | m, t :: ts =>
    if (desc t).enable = true ∧ shouldActivate env (desc t) = true then
      match m with
      | none => ResumeIds env desc (some 0) ts
      | some m =>
        0 < max m (maxNoaId desc (t :: ts)) ∧ max m (maxNoaId desc (t :: ts)) < 254 ∧
          ResumeIds env desc (some (max m (maxNoaId desc (t :: ts)) + 1)) ts
    else ResumeIds env desc m ts

/-- What a resume needs: the HAL accepts each descriptor, with an id that is free. -/
def ResumeOk (env : NoaEnv) (info : NoaInfo) : Prop :=
  info.paused = true → (∀ t, (info.noaDesc t).enable = true → shouldActivate env (info.noaDesc t) = true →
      env.halEnable t = .success) ∧ ResumeIds env info.noaDesc none Trig.all

def NoaCallOk (info : NoaInfo) : NoaCall → Prop
  | .update inDesc env => UpdateOk env info inDesc
  | .disableAll _ => True
  | .pauseAll env => info.paused = false → ∀ t, (info.noaDesc t).enToFw = true → env.halDisable t = .success
  | .resumeAll env => ResumeOk env info

def NoaInfo.Inv (info : NoaInfo) : Prop := Tracks info fun _ => info.paused = false

theorem NoaInfo.Inv.consistent (h : info.Inv) : info.Consistent where
  num := h.num
  ids := h.ids
  paused hp := by
    refine Finset.eq_empty_of_forall_notMem fun e he => ?_
    have hno := ((h.fw e.1 e.2).mp he).1
    rw [hp] at hno; cases hno

theorem noaInit_inv : noaInit.Inv where
  fw _ _ := iff_of_false (Finset.notMem_empty _) fun h => Bool.noConfusion h.2.1
  num := rfl
  ids e he := absurd he (Finset.notMem_empty e)
  off _ _ := rfl

theorem NoaInfo.Inv.tog (h : info.Inv) (on : Bool) : NoaInfo.Inv { info with tsf32Tog := on } :=
  ⟨h.fw, h.num, h.ids, h.off⟩

theorem noaUpdate_inv (h : info.Inv) (hok : UpdateOk env info inDesc) : (noaUpdate env info inDesc).2.Inv := by
  unfold noaUpdate
  by_cases hen : inDesc.enable = true
  · rw [if_pos hen]
    simp only
    have hinv : NoaInfo.Inv (if isAllDisable info = true then { info with tsf32Tog := true } else info) := by
      split
      · exact h.tog true
      · exact h
    have hdesc : (if isAllDisable info = true then { info with tsf32Tog := true } else info).noaDesc =
        info.noaDesc := by split <;> rfl
    have hpaused : (if isAllDisable info = true then { info with tsf32Tog := true } else info).paused =
        info.paused := by split <;> rfl
    generalize (if isAllDisable info = true then { info with tsf32Tog := true } else info) = before at *
    have hok' := hok hen
    rw [← hpaused, ← hdesc] at hok'
    obtain ⟨hclear, hp, htracks⟩ := noaDisable_clear (t := inDesc.tag) hinv fun hp => (hok' hp).1
    generalize (noaDisable env before inDesc.tag true).2 = off at *
    rw [← hp] at hok' htracks
    have hoff : (off.noaDesc inDesc.tag).enToFw = false := by
      rw [hclear, update_self]; rfl
    cases hpo : off.paused with
    | true =>
      have hset : (noaEnable env off inDesc.tag inDesc).2 = off.setDesc inDesc.tag inDesc := by
        have hp' : (off.setDesc inDesc.tag inDesc).paused = true := hpo
        unfold noaEnable
        simp only
        rw [hp', if_pos rfl]
      rw [hset]
      show Tracks _ fun _ => off.paused = false
      exact htracks.set (fun _ => hoff) (fun hP => by rw [hpo] at hP; cases hP)
        fun hno => absurd (hen.symm.trans hno) Bool.noConfusion
    | false =>
      have hgo := htracks.enable env hpo (fun _ => hoff) hen fun hact hsuc => ?_
      · have hpn : (noaEnable env off inDesc.tag inDesc).2.paused = false := by
          by_cases hgo : shouldActivate env inDesc = true ∧ env.halEnable inDesc.tag = .success
          · rw [noaEnable_given hpo hgo.1 hgo.2]; exact hpo
          · rw [noaEnable_none hpo fun hact hok => hgo ⟨hact, hok⟩]; exact hpo
        exact hgo.congr fun _ _ => ⟨fun _ => hpn, fun _ => .inl hpo⟩
      · have hup : (off.setDesc inDesc.tag inDesc).noaDesc = update before.noaDesc inDesc.tag inDesc := by
          unfold NoaInfo.setDesc
          simp only
          rw [hclear, update_idem]
        rcases (hok' hpo).2 hact hsuc with halone | hid
        · refine .inl (htracks.num.trans (Finset.card_eq_zero.mpr (Finset.eq_empty_of_forall_notMem fun e he => ?_)))
          obtain ⟨-, hene, -⟩ := (htracks.fw e.1 e.2).mp he
          rw [hclear] at hene
          by_cases het : e.1 = inDesc.tag
          · rw [het, update_self] at hene; cases hene
          · rw [update_of_ne het, halone e.1 het] at hene; cases hene
        · exact .inr (by rw [hup]; exact hid)
  · rw [if_neg hen]
    have hoff : (noaDisable env info inDesc.tag true).2.Inv := by
      by_cases hfail : info.paused = false ∧ (info.noaDesc inDesc.tag).enToFw = true ∧
          env.halDisable inDesc.tag ≠ .success
      · rw [noaDisable_fail hfail.2.1 hfail.1 hfail.2.2]; exact h
      · obtain ⟨-, hp, htracks⟩ := noaDisable_clear h fun hp hen =>
          Classical.not_not.mp fun hne => hfail ⟨hp, hen, hne⟩
        exact htracks.congr fun _ _ => by rw [hp]
    simp only
    split
    · exact hoff.tog false
    · exact hoff

theorem disableDesc_inv (env : NoaEnv) (t : Trig) (h : info.Inv) :
    (disableDesc env info t).Inv ∧ (disableDesc env info t).paused = info.paused ∧
    (info.paused = true → ∀ u, ((disableDesc env info t).noaDesc u).enable = true →
      (info.noaDesc u).enable = true ∧ u ≠ t) := by
  unfold disableDesc
  by_cases hen : (info.noaDesc t).enable = true
  · rw [if_pos hen]
    by_cases hfail : info.paused = false ∧ (info.noaDesc t).enToFw = true ∧ env.halDisable t ≠ .success
    · rw [noaDisable_fail hfail.2.1 hfail.1 hfail.2.2]
      exact ⟨h, rfl, fun hp => by rw [hfail.1] at hp; cases hp⟩
    · obtain ⟨hclear, hp, htracks⟩ := noaDisable_clear h fun hp hen =>
        Classical.not_not.mp fun hne => hfail ⟨hp, hen, hne⟩
      refine ⟨htracks.congr fun _ _ => by rw [hp], hp, fun _ u hu => ?_⟩
      rw [hclear] at hu
      by_cases hut : u = t
      · rw [hut, update_self] at hu; cases hu
      · rw [update_of_ne hut] at hu; exact ⟨hu, hut⟩
  · rw [if_neg hen]; exact ⟨h, rfl, fun _ u hu => ⟨hu, fun hut => hen (by rw [← hut]; exact hu)⟩⟩

theorem foldl_disableDesc (env : NoaEnv) (h : info.Inv) (ts : List Trig) :
    (ts.foldl (disableDesc env) info).Inv ∧ (ts.foldl (disableDesc env) info).paused = info.paused ∧
    (info.paused = true → ∀ u, ((ts.foldl (disableDesc env) info).noaDesc u).enable = true →
      (info.noaDesc u).enable = true ∧ u ∉ ts) := by
  induction ts generalizing info with
  | nil => exact ⟨h, rfl, fun _ u hu => ⟨hu, List.not_mem_nil⟩⟩
  | cons t ts ih =>
    obtain ⟨hinv, hp, hone⟩ := disableDesc_inv env t h
    obtain ⟨hinv', hp', hrest⟩ := ih hinv
    refine ⟨hinv', hp'.trans hp, fun hpt u hu => ?_⟩
    obtain ⟨hu', hnot⟩ := hrest (hp.trans hpt) u hu
    obtain ⟨hu'', hne⟩ := hone hpt u hu'
    exact ⟨hu'', fun hmem => (List.mem_cons.mp hmem).elim hne hnot⟩

theorem noaDisableAll_inv (h : info.Inv) : (noaDisableAll env info).Inv := by
  obtain ⟨hinv, hp, hoff⟩ := foldl_disableDesc env h Trig.all
  have htracks : Tracks (Trig.all.foldl (disableDesc env) info) fun _ => False ∨ True := by
    refine hinv.congr fun t hen => ⟨fun _ => .inr trivial, fun _ => ?_⟩
    cases hpi : info.paused with
    | false => exact hp.trans hpi
    | true => exact absurd (Trig.mem_all t) (hoff hpi t (NoaDesc.enToFw_iff.mp hen).2).2
  exact ⟨fun t i => (htracks.fw t i).trans (and_congr_left fun _ => by simp [noaDisableAll]), htracks.num, htracks.ids,
    htracks.off⟩

theorem foldl_pause (ts : List Trig) (hnodup : ts.Nodup) (h : Tracks info (· ∈ ts))
    (hok : ∀ t, (info.noaDesc t).enToFw = true → env.halDisable t = .success) :
    Tracks (ts.foldl (fun s t => (noaDisable env s t false).2) info) (fun _ => False) ∧
      (ts.foldl (fun s t => (noaDisable env s t false).2) info).paused = info.paused := by
  induction ts generalizing info with
  | nil => exact ⟨h.congr fun t _ => ⟨fun hP => absurd hP List.not_mem_nil, False.elim⟩, rfl⟩
  | cons t ts ih =>
    rw [List.foldl_cons]
    have hgo : (info.paused && false) = false := Bool.and_false _
    obtain ⟨hnot, hnodup⟩ := List.nodup_cons.mp hnodup
    cases hen : (info.noaDesc t).enToFw with
    | true =>
      rw [noaDisable_taken hgo hen (hok t hen), if_neg Bool.false_ne_true]
      refine ih hnodup ((h.take List.mem_cons_self hen).congr fun u _ => ⟨?_, ?_⟩) hok
      · rintro ⟨hu, hne⟩; exact (List.mem_cons.mp hu).resolve_left hne
      · exact fun hu => ⟨List.mem_cons_of_mem t hu, fun hut => hnot (hut ▸ hu)⟩
    | false =>
      rw [noaDisable_off hgo hen, if_neg Bool.false_ne_true]
      refine ih hnodup (h.congr fun u hu => ⟨fun hmem => ?_, List.mem_cons_of_mem t⟩) hok
      refine (List.mem_cons.mp hmem).resolve_left fun hut => ?_
      rw [hut, hen] at hu; cases hu

theorem noaPauseAll_inv (h : info.Inv)
    (hok : info.paused = false → ∀ t, (info.noaDesc t).enToFw = true → env.halDisable t = .success) :
    (noaPauseAll env info).Inv := by
  unfold noaPauseAll
  cases hp : info.paused with
  | true =>
    rw [if_pos rfl]; exact h
  | false =>
    rw [if_neg Bool.false_ne_true]
    have hstart : Tracks { info with paused := true } (· ∈ Trig.all) :=
      ⟨fun t i => (h.fw t i).trans (and_congr_left fun _ => ⟨fun _ => Trig.mem_all t, fun _ => hp⟩), h.num, h.ids, h.off⟩
    obtain ⟨htracks, hpaused⟩ := foldl_pause Trig.all Trig.nodup_all hstart (hok hp)
    exact htracks.congr fun _ _ => ⟨False.elim, fun hno => by rw [hpaused] at hno; cases hno⟩

/-! ### The resume -/

/-- **In the middle of a resume**: the places `done` are dealt with and `ts` are not; `m` is the largest id that was
given. -/
structure Resuming (env : NoaEnv) (desc : Trig → NoaDesc) (done ts : List Trig) (m : Option ℕ) (s : NoaInfo) :
    Prop where
  tracks : Tracks s (· ∉ ts)
  paused : s.paused = false
  rest : ∀ t ∈ ts, s.noaDesc t = desc t
  live : ∀ t, t ∉ ts → ((s.noaDesc t).enToFw = true ↔ (desc t).enable = true ∧ shouldActivate env (desc t) = true)
  top : maxNoaId s.noaDesc done = m.getD 0
  first : m = none ↔ s.enDescNum = 0

section Resume

variable {desc : Trig → NoaDesc} {done ts : List Trig} {m : Option ℕ} {s : NoaInfo}

theorem maxNoaId_next (hnot : t ∉ done) (d : NoaDesc) : maxNoaId (update s.noaDesc t d) (done ++ [t]) =
      max (maxNoaId s.noaDesc done) (if d.noaId = noaidNone then 0 else d.noaId) := by
  have hdone : maxNoaId (update s.noaDesc t d) done = maxNoaId s.noaDesc done :=
    maxNoaId_congr fun u hu => update_of_ne (fun hut => hnot (by rw [← hut]; exact hu)) _ _
  rw [maxNoaId_append, hdone, maxNoaId_cons, usedId, update_self]; exact congrArg _ (Nat.max_zero _)

theorem Resuming.next {s' : NoaInfo} {m' : Option ℕ} {d : NoaDesc} (h : Resuming env desc done (t :: ts) m s)
    (hnot : t ∉ ts) (hdesc : s'.noaDesc = update s.noaDesc t d) (hp : s'.paused = false)
    (htracks : Tracks s' (· ∉ ts))
    (hlive : d.enToFw = true ↔ (desc t).enable = true ∧ shouldActivate env (desc t) = true)
    (htop : maxNoaId s'.noaDesc (done ++ [t]) = m'.getD 0) (hfirst : m' = none ↔ s'.enDescNum = 0) :
    Resuming env desc (done ++ [t]) ts m' s' where
  tracks := htracks
  paused := hp
  rest u hu := by
    rw [hdesc, update_of_ne fun hut => hnot (by rw [← hut]; exact hu)]
    exact h.rest u (List.mem_cons_of_mem t hu)
  live u hu := by
    rw [hdesc]
    by_cases hut : u = t
    · rw [hut, update_self]; exact hlive
    · rw [update_of_ne hut]; exact h.live u fun hmem => (List.mem_cons.mp hmem).elim hut hu
  top := htop
  first := hfirst

theorem not_mem_cons_or (u : Trig) (hnot : t ∉ ts) : (u ∉ t :: ts) ∨ u = t ↔ u ∉ ts := by
  constructor
  · rintro (hu | rfl) hmem
    · exact hu (List.mem_cons_of_mem t hmem)
    · exact hnot hmem
  · intro hu
    by_cases hut : u = t
    · exact .inr hut
    · exact .inl fun hmem => (List.mem_cons.mp hmem).elim hut hu

theorem Resuming.pass (h : Resuming env desc done (t :: ts) m s) (hall : done ++ t :: ts = Trig.all)
    (hok : ∀ t, (desc t).enable = true → shouldActivate env (desc t) = true → env.halEnable t = .success)
    (hids : ResumeIds env desc m (t :: ts)) :
    ∃ m', Resuming env desc (done ++ [t]) ts m' (resumeDesc env s t) ∧ ResumeIds env desc m' ts := by
  have hnodup := Trig.nodup_all
  rw [← hall, List.nodup_append] at hnodup
  obtain ⟨-, hts, hdisj⟩ := hnodup
  have hnot : t ∉ ts := (List.nodup_cons.mp hts).1
  have hdone : t ∉ done := fun hmem => hdisj t hmem t List.mem_cons_self rfl
  have hdt : s.noaDesc t = desc t := h.rest t List.mem_cons_self
  have hmem : ¬ t ∉ t :: ts := fun hn => hn List.mem_cons_self
  unfold resumeDesc
  rw [hdt]
  unfold ResumeIds at hids
  by_cases hen : (desc t).enable = true
  · rw [if_pos hen]
    by_cases hact : shouldActivate env (desc t) = true
    · rw [if_pos ⟨hen, hact⟩] at hids
      have hself : s.setDesc t (desc t) = s := by rw [← hdt]; exact setDesc_self
      have hmax : maxNoaId s.noaDesc Trig.all = max (m.getD 0) (maxNoaId desc (t :: ts)) := by
        rw [← hall, maxNoaId_append, h.top, maxNoaId_congr h.rest]
      have hgive : ∀ id, IdFree s → assignNoaid s = id → id ≠ noaidNone → m.getD 0 ≤ id →
          Resuming env desc (done ++ [t]) ts (some id) (noaEnable env s t (desc t)).2 := by
        intro id hfree hid hne hle
        have htracks := h.tracks.enable env h.paused (fun hn => absurd hn hmem) hen
          (fun _ _ => by rw [hself]; exact hfree)
        rw [noaEnable_given h.paused hact (hok t hen hact)] at htracks ⊢
        refine h.next hnot rfl h.paused (htracks.congr fun u _ => not_mem_cons_or u hnot) ?_ ?_ ?_
        · rw [hself, hid, NoaDesc.enToFw_iff]; exact iff_of_true ⟨hne, hen⟩ ⟨hen, hact⟩
        · show maxNoaId (update s.noaDesc t _) (done ++ [t]) = id
          rw [maxNoaId_next hdone, hself, hid, h.top, if_neg hne]; exact Nat.max_eq_right hle
        · have hle := h.tracks.card_le
          rw [← h.tracks.num] at hle
          show some id = none ↔ (s.enDescNum + 1) % 256 = 0
          exact iff_of_false nofun (by omega)
      have hnone : noaidNone = 255 := rfl
      cases m with
      | none =>
        have h0 : s.enDescNum = 0 := h.first.mp rfl
        exact ⟨some 0, hgive 0 (.inl h0) (if_pos h0) (by omega) (Nat.le_refl 0), hids⟩
      | some m =>
        obtain ⟨hpos, hlt, hids⟩ := hids
        have h0 : s.enDescNum ≠ 0 := fun h0 => nomatch h.first.mpr h0
        rw [Option.getD_some] at hmax
        refine ⟨_, hgive _ (.inr (by rw [hmax]; exact ⟨hpos, hlt⟩)) ?_ (by omega) ?_, hids⟩
        · unfold assignNoaid; rw [if_neg h0, hmax, if_pos (by omega), Nat.mod_eq_of_lt (by omega)]
        · rw [Option.getD_some]; omega
    · rw [if_neg fun h => hact h.2] at hids
      have hno : shouldActivate env (desc t) = true → env.halEnable t ≠ .success := fun h => absurd h hact
      have htracks := h.tracks.enable env h.paused (fun hn => absurd hn hmem) hen
        fun h => absurd h hact
      rw [noaEnable_none h.paused hno] at htracks ⊢
      refine ⟨m, h.next hnot rfl h.paused (htracks.congr fun u _ => not_mem_cons_or u hnot) ?_ ?_ h.first, hids⟩
      · rw [enToFw_none]; exact iff_of_false Bool.false_ne_true fun h => hact h.2
      · show maxNoaId (update s.noaDesc t _) (done ++ [t]) = _
        rw [maxNoaId_next hdone, if_pos rfl, Nat.max_zero]; exact h.top
  · rw [if_neg hen]
    rw [if_neg fun h => hen h.1] at hids
    have hoff : (s.noaDesc t).enable = false := by rw [hdt]; exact Bool.eq_false_iff.mpr hen
    have hno : (s.noaDesc t).enToFw = false := Bool.eq_false_iff.mpr fun h => hen (hdt ▸ (NoaDesc.enToFw_iff.mp h).2)
    refine ⟨m, h.next (d := s.noaDesc t) hnot (update_eq_self _ _).symm h.paused
      (h.tracks.congr fun u hu => ⟨fun hn hmem => hn (List.mem_cons_of_mem t hmem), fun hn hmem => ?_⟩) ?_ ?_ h.first,
      hids⟩
    · rcases List.mem_cons.mp hmem with hut | hmem
      · rw [hut, hno] at hu; cases hu
      · exact hn hmem
    · rw [hno]; exact iff_of_false Bool.false_ne_true fun h => hen h.1
    · have hnext := maxNoaId_next (s := s) hdone (s.noaDesc t)
      rw [update_eq_self, h.tracks.off t hoff, h.top] at hnext
      rw [hnext, if_neg (by decide)]; exact Nat.max_zero _

theorem Resuming.loop (h : Resuming env desc done ts m s) (hall : done ++ ts = Trig.all)
    (hok : ∀ t, (desc t).enable = true → shouldActivate env (desc t) = true → env.halEnable t = .success)
    (hids : ResumeIds env desc m ts) : ∃ m', Resuming env desc Trig.all [] m' (ts.foldl (resumeDesc env) s) := by
  induction ts generalizing done m s with
  | nil =>
    rw [List.append_nil] at hall
    rw [← hall]; exact ⟨m, h⟩
  | cons t ts ih =>
    obtain ⟨m', h', hids'⟩ := h.pass hall hok hids
    exact ih h' (by rw [List.append_assoc]; exact hall) hids'

end Resume

theorem noaResumeAll_spec (h : info.Inv) (hp : info.paused = true) (hok : ResumeOk env info) :
    (noaResumeAll env info).Inv ∧ Resumed env info (noaResumeAll env info) := by
  have hempty := h.consistent.paused hp
  have hstart : Resuming env info.noaDesc [] Trig.all none { info with paused := false } :=
    { tracks := ⟨fun t i => iff_of_false (by rw [hempty]; exact Finset.notMem_empty _) fun h => h.1 (Trig.mem_all t),
        h.num, h.ids, h.off⟩
      paused := rfl
      rest := fun _ _ => rfl
      live := fun t hn => absurd (Trig.mem_all t) hn
      top := rfl
      first := iff_of_true rfl (by rw [h.num, hempty]; rfl) }
  obtain ⟨m, hend⟩ := hstart.loop rfl (hok hp).1 (hok hp).2
  have heq : noaResumeAll env info = Trig.all.foldl (resumeDesc env) { info with paused := false } := by
    unfold noaResumeAll
    rw [hp]; rfl
  rw [heq]
  refine ⟨hend.tracks.congr fun t _ => iff_of_true List.not_mem_nil hend.paused, fun t => ?_⟩
  rw [← hend.live t List.not_mem_nil]
  exact ⟨fun ⟨i, hi⟩ => ((hend.tracks.fw t i).mp hi).2.1,
    fun hen => ⟨_, (hend.tracks.fw t _).mpr ⟨List.not_mem_nil, hen, rfl⟩⟩⟩

/-! ### Runs -/

theorem NoaInfo.Inv.step (h : info.Inv) {c : NoaCall} (hok : NoaCallOk info c) : (info.step c).Inv := by
  cases c with
  | update inDesc env => exact noaUpdate_inv h hok
  | disableAll env => exact noaDisableAll_inv h
  | pauseAll env => exact noaPauseAll_inv h hok
  | resumeAll env =>
    cases hp : info.paused with
    | true => exact (noaResumeAll_spec h hp hok).1
    | false =>
      have heq : noaResumeAll env info = info := by
        unfold noaResumeAll
        rw [hp]; rfl
      show (noaResumeAll env info).Inv
      rw [heq]; exact h

/-- **A run whose calls have what they need**: the table agrees with the firmware in every state, and a resume of a
paused role leaves in the firmware what it is to. -/
theorem noa_run (calls : List NoaCall) (h : Legal NoaInfo.step NoaCallOk noaInit calls) :
    (∀ pre, pre <+: calls → (pre.foldl NoaInfo.step noaInit).Consistent) ∧
    ∀ pre env, pre ++ [.resumeAll env] <+: calls → (pre.foldl NoaInfo.step noaInit).paused = true →
      Resumed env (pre.foldl NoaInfo.step noaInit) ((pre ++ [.resumeAll env]).foldl NoaInfo.step noaInit) := by
  have hinv : ∀ pre, pre <+: calls → (pre.foldl NoaInfo.step noaInit).Inv := fun pre hpre =>
    h.keeps (B := fun _ _ => False) noaInit_inv (fun _ _ hs hok _ => hs.step hok) (fun _ _ _ => id) hpre
  refine ⟨fun pre hpre => (hinv pre hpre).consistent, fun pre env hpre hp => ?_⟩
  have hok := h.last hpre
  rw [List.foldl_append]
  exact (noaResumeAll_spec (hinv pre ((List.prefix_append _ _).trans hpre)) hp hok).2

instance : Fintype Trig := ⟨Trig.all.toFinset, fun t => List.mem_toFinset.mpr t.mem_all⟩

instance : Decidable (UpdateOk env info inDesc) := by unfold UpdateOk; infer_instance

instance ResumeIds.decidable (env : NoaEnv) (desc : Trig → NoaDesc) :
    ∀ (m : Option ℕ) (ts : List Trig), Decidable (ResumeIds env desc m ts)
  | _, [] => inferInstanceAs (Decidable True)
  | m, t :: ts =>
    have (m : Option ℕ) : Decidable (ResumeIds env desc m ts) := ResumeIds.decidable env desc m ts
    match m with
    | none => by unfold ResumeIds; infer_instance
    | some _ => by unfold ResumeIds; infer_instance

instance (env : NoaEnv) : Decidable (ResumeOk env info) := by unfold ResumeOk; infer_instance

instance NoaCallOk.decidable (info : NoaInfo) : ∀ c, Decidable (NoaCallOk info c)
  | .update inDesc env => inferInstanceAs (Decidable (UpdateOk env info inDesc))
  | .disableAll _ => inferInstanceAs (Decidable True)
  | .pauseAll env => inferInstanceAs (Decidable (info.paused = false →
      ∀ t, (info.noaDesc t).enToFw = true → env.halDisable t = .success))
  | .resumeAll env => inferInstanceAs (Decidable (ResumeOk env info))

/-- The HAL does what it is asked for, and no MCC is in progress; the MR module takes the requests for which `takes`. -/
def halOk (takes : Bool) : NoaEnv :=
  ⟨fun _ => .success, fun _ => .success, fun _ => false, fun _ => takes, false, .success⟩

/-- A request that ends after one absence, and one that goes on. -/
def once : NoaDesc := ⟨true, .gc, 0, 1000, 102400, 20000, 1, 0⟩
def forever : NoaDesc := ⟨true, .gc255, 0, 1000, 102400, 20000, 255, 0⟩

theorem noa_run_some :
    (List.foldl NoaInfo.step noaInit [.update once (halOk false), .update forever (halOk true), .pauseAll (halOk false),
      .resumeAll (halOk true)]).Consistent :=
  (noa_run [.update once (halOk false), .update forever (halOk true), .pauseAll (halOk false),
    .resumeAll (halOk true)] (by decide)).1 _ List.prefix_rfl

/-- **Two descriptors in the firmware** have the id `0`, although the HAL has accepted both. -/
theorem ids_collide : ¬ ∀ calls : List NoaCall, (calls.foldl NoaInfo.step noaInit).Consistent := by
  intro h
  exact absurd (h [.update once (halOk false), .update forever (halOk false)]) (by decide)

end Rtl8852cu.P2pps
