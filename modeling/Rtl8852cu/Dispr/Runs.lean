import Rtl8852cu.Dispr.Handover

/-!
# Runs of the engine are runs of moves

* `Op.run_leads`: every step leads from a state in which nothing is held to one in which nothing is
  held, by moves;
* `Run.steps`: so does every run.
-/

namespace Rtl8852cu.Dispr

open Function (update)

variable {N : ℕ} {e e' : Eng N} {i j : Fin 2}

/-! ### Registering a module -/

section Register

variable {p : MdlPri} {id : ℕ} {mdl mdl' : PhlBkModule}

/-- A module that gets no messages yet is the last one of its queue. -/
structure Linking (i : Fin 2) (p : MdlPri) (mdl : PhlBkModule) (e : Eng N) : Prop where
  rest : Rest i [] [] none e
  pri : getMdlPriority mdl.id = some p
  last : ∃ q, (e.d i).mdls.moduleQ p = q ++ [mdl]
  fresh : mdl.id ∉ (e.d i).mdls.bitmap

theorem Rest.modules (he : Rest i [] [] none e) {f : Modules → Modules}
    (hb : (e.d i).mdls.bitmap ⊆ (f (e.d i).mdls).bitmap)
    (hm : MdlsOk (e.d i).mdls → MdlsOk (f (e.d i).mdls)) :
    Steps e (e.onMdls i f) ∧ Rest i [] [] none (e.onMdls i f) := by
  have hs : Steps e (e.onMdls i f) := .single (.modules i _ hb hm)
  exact ⟨hs, he.next hs (by simpa using he.hand) (fun j hj => by simp)
    fun j => by simp [QuietTok.refl]⟩

theorem Linking.lasting : Lasting (Linking (N := N) i p mdl) := fun _ _ he hs hq => by
  obtain ⟨q, hlast⟩ := he.last
  exact ⟨he.rest.still hs hq.toStill, he.pri, ⟨q, by rw [(hq.mdls i).moduleQ, hlast]⟩,
    by rw [(hq.mdls i).bitmap]; exact he.fresh⟩

theorem MdlsOk.setLast {m : Modules} (hm : MdlsOk m) {q : List PhlBkModule}
    (hq : m.moduleQ p = q ++ [mdl]) (hpri : getMdlPriority mdl.id = some p)
    (hfresh : mdl.id ∉ m.bitmap) (hid : mdl'.id = mdl.id) {bitmap basemap : Finset ℕ}
    (hb : ∀ id ∈ bitmap, id ∈ m.bitmap ∨ id = mdl.id ∧ mdl'.started) :
    MdlsOk { m with
      moduleQ := update m.moduleQ p (Dispr.setLast (m.moduleQ p) mdl')
      bitmap := bitmap, basemap := basemap } where
  priority := by
    intro p' x hx
    rcases eq_or_ne p' p with rfl | hp
    · simp only [Function.update_self, Dispr.setLast, hq, List.dropLast_concat, List.mem_append,
        List.mem_singleton] at hx
      rcases hx with hx | rfl
      · exact hm.priority p' x (by simp [hq, hx])
      · rw [hid, hpri]
    · exact hm.priority p' x (by simpa [hp] using hx)
  linked := by
    intro id hid'
    rcases hb id hid' with hmem | ⟨rfl, hst⟩
    · obtain ⟨p', hp', x, hx, rfl, hst⟩ := hm.linked id hmem
      refine ⟨p', hp', x, ?_, rfl, hst⟩
      rcases eq_or_ne p' p with rfl | hp
      · rw [hq, List.mem_append, List.mem_singleton] at hx
        rcases hx with hx | rfl
        · simp [Dispr.setLast, hq, hx]
        · exact absurd hmem hfresh
      · simpa [hp] using hx
    · exact ⟨p, hpri, mdl', by simp [Dispr.setLast], hid, hst⟩
  controller := hm.controller

theorem Linking.setMdl (he : Linking i p mdl e) (hid : mdl'.id = mdl.id) (heq : e' = e.onMdls i fun m =>
      { m with moduleQ := update m.moduleQ p (setLast (m.moduleQ p) mdl') }) :
    Steps e e' ∧ Linking i p mdl' e' := by
  subst heq
  obtain ⟨q, hq⟩ := he.last
  obtain ⟨hs, hrest⟩ := he.rest.modules
    (f := fun m => { m with moduleQ := update m.moduleQ p (setLast (m.moduleQ p) mdl') })
    (fun _ h => h) fun hm => hm.setLast hq he.pri he.fresh hid fun _ h => .inl h
  exact ⟨hs, hrest, hid ▸ he.pri, ⟨q, by simp [setLast, hq]⟩, by simpa [hid] using he.fresh⟩

theorem bkModuleInit_leads (he : Linking i p mdl e) :
    Steps e (bkModuleInit mdl e).2.2 ∧ Linking i p mdl (bkModuleInit mdl e).2.2 ∧
      (bkModuleInit mdl e).1.id = mdl.id := by
  obtain ⟨hs, hl⟩ := callback_tame.leads Linking.lasting (fun _ h => h.rest.sound) e he
  simp only [bkModuleInit]
  split
  · exact ⟨.refl, he, rfl⟩
  · split
    · exact ⟨hs, hl, rfl⟩
    · exact ⟨hs, hl, rfl⟩

theorem bkModuleStart_leads (he : Linking i p mdl e) :
    Steps e (bkModuleStart mdl e).2.2 ∧ Linking i p mdl (bkModuleStart mdl e).2.2 ∧
      (bkModuleStart mdl e).1.id = mdl.id ∧
      ((bkModuleStart mdl e).2.1 → (bkModuleStart mdl e).1.started) := by
  obtain ⟨hs, hl⟩ := callback_tame.leads Linking.lasting (fun _ h => h.rest.sound) e he
  simp only [bkModuleStart]
  split
  · exact ⟨.refl, he, rfl, by simp⟩
  · split
    · exact ⟨hs, hl, rfl, by simp⟩
    · exact ⟨hs, hl, rfl, by simp⟩

theorem Linking.load (he : Linking i p mdl e) (hst : mdl.started) {f : Modules → Finset ℕ}
    (heq : e' = e.onMdls i fun m => { m with
      bitmap := addBitmapBit m.bitmap [mdl.id], basemap := f m }) :
    Steps e e' ∧ Rest i [] [] none e' := by
  subst heq
  obtain ⟨q, hq⟩ := he.last
  refine he.rest.modules
    (f := fun m => { m with bitmap := addBitmapBit m.bitmap [mdl.id], basemap := f m })
    (fun _ h => Finset.mem_union_left _ h) fun hm => ⟨hm.priority, fun id hid => ?_, hm.controller⟩
  rcases Finset.mem_union.1 hid with hmem | hmem
  · exact hm.linked id hmem
  · simp [maskIds] at hmem; exact ⟨p, hmem.1 ▸ he.pri, mdl, by simp [hq], hmem.1.symm, hst⟩

theorem Rest.link (he : Rest i [] [] none e) (hpri : getMdlPriority id = some p)
    (hfresh : id ∉ (e.d i).mdls.bitmap) (heq : e' = e.onMdls i fun m => { m with
      moduleQ := update m.moduleQ p (m.moduleQ p ++ [⟨id, false, false⟩]) }) :
    Steps e e' ∧ Linking i p ⟨id, false, false⟩ e' := by
  subst heq
  have hmem : ∀ (m : Modules) (p' : MdlPri) (x : PhlBkModule),
      x ∈ update m.moduleQ p (m.moduleQ p ++ [⟨id, false, false⟩]) p' ↔
        x ∈ m.moduleQ p' ∨ p' = p ∧ x = ⟨id, false, false⟩ := by
    intro m p' x
    rcases eq_or_ne p' p with rfl | hp
    · simp
    · simp [hp]
  have hok : ∀ m, MdlsOk m → MdlsOk { m with
      moduleQ := update m.moduleQ p (m.moduleQ p ++ [⟨id, false, false⟩]) } := by
    refine fun m hm => ⟨fun p' x hx => ?_, fun id' hid' => ?_, hm.controller⟩
    · rcases (hmem m p' x).1 hx with hx | ⟨rfl, rfl⟩
      · exact hm.priority p' x hx
      · exact hpri
    · obtain ⟨p', hp', x, hx, h⟩ := hm.linked id' hid'
      exact ⟨p', hp', x, (hmem m p' x).2 (.inl hx), h⟩
  obtain ⟨hs, hrest⟩ := he.modules (f := fun m => { m with
      moduleQ := update m.moduleQ p (m.moduleQ p ++ [⟨id, false, false⟩]) })
    (fun _ h => h) (hok _)
  exact ⟨hs, hrest, hpri, ⟨(e.d i).mdls.moduleQ p, by simp⟩, by simpa using hfresh⟩

theorem disprRegisterModule_leads {ops : Bool} : Leads (Rest i [] [] none)
    (Rest i [] [] none : Eng N → Prop) fun e => (disprRegisterModule i id ops e).1 := by
  intro e he
  simp only [disprRegisterModule]
  cases hpri : getMdlPriority id with
  | none => exact ⟨.refl, he⟩
  | some p =>
    simp only
    by_cases hc : ¬ ops ∨ chkBitmapBit (e.d i).mdls.bitmap id
    · rw [if_pos hc]; exact ⟨.refl, he⟩
    rw [if_neg hc]
    have hfresh : id ∉ (e.d i).mdls.bitmap := fun hmem =>
      hc (.inr (chkBitmapBit_iff.2 ⟨getMdlPriority_lt hpri, hmem⟩))
    obtain ⟨hs₁, hl₁⟩ := he.link hpri hfresh rfl
    obtain ⟨hs₂, hl₂, hid₂⟩ := bkModuleInit_leads hl₁
    rcases hinit : bkModuleInit ⟨id, false, false⟩ _ with ⟨mdl₂, ret₂, e₂⟩
    rw [hinit] at hs₂ hl₂ hid₂
    obtain ⟨hs₃, hl₃⟩ := hl₂.setMdl hid₂ rfl
    simp only
    split
    · obtain ⟨hs₄, hl₄, hid₄, hst₄⟩ := bkModuleStart_leads hl₃
      rcases hstart : bkModuleStart mdl₂ _ with ⟨mdl₄, ret₄, e₄⟩
      rw [hstart] at hs₄ hl₄ hid₄ hst₄
      simp only
      split
      · rename_i hret
        obtain ⟨hs₅, hl₅⟩ := hl₄.setMdl hid₄ rfl
        obtain ⟨hs₆, hrest⟩ := hl₅.load (hst₄ hret) (f := fun m =>
          if p = .optional then m.basemap else addBitmapBit m.basemap [id]) rfl
        rw [hid₄.trans hid₂] at hs₆ hrest
        exact ⟨((((hs₁.trans hs₂).trans hs₃).trans hs₄).trans hs₅).trans hs₆, hrest⟩
      · obtain ⟨hs₅, hl₅⟩ := hl₄.setMdl (show { mdl₄ with init := false }.id = _ from hid₄) rfl
        exact ⟨(((hs₁.trans hs₂).trans hs₃).trans hs₄).trans hs₅, hl₅.rest⟩
    · split
      · exact ⟨(hs₁.trans hs₂).trans hs₃, hl₃.rest⟩
      · obtain ⟨hs₄, hl₄⟩ := hl₃.setMdl (show { mdl₂ with init := false }.id = _ from rfl) rfl
        exact ⟨((hs₁.trans hs₂).trans hs₃).trans hs₄, hl₄.rest⟩

theorem MdlsOk.unlink {m : Modules} (hm : MdlsOk m) : MdlsOk { m with
      moduleQ := update m.moduleQ p ((m.moduleQ p).eraseP (·.id == id))
      bitmap := clrBitmapBit m.bitmap [id], basemap := clrBitmapBit m.basemap [id] } where
  priority := by
    intro p' x hx
    rcases eq_or_ne p' p with rfl | hp
    · exact hm.priority p' x (List.mem_of_mem_eraseP (by simpa using hx))
    · exact hm.priority p' x (by simpa [hp] using hx)
  linked := by
    intro id' hid'
    obtain ⟨hmem, hne⟩ := Finset.mem_sdiff.1 hid'
    obtain ⟨p', hp', x, hx, rfl, hst⟩ := hm.linked id' hmem
    refine ⟨p', hp', x, ?_, rfl, hst⟩
    rcases eq_or_ne p' p with rfl | hp
    · have hxid : x.id ≠ id := fun heq => hne (by simp [maskIds, heq, getMdlPriority_lt (heq ▸ hp')])
      simpa [List.mem_eraseP_of_neg, hxid] using hx
    · simpa [hp] using hx
  controller := hm.controller

theorem disprDeregisterModule_leads : Leads (Rest i [] [] none)
    (Rest i [] [] none : Eng N → Prop) fun e => (disprDeregisterModule i id e).1 := by
  intro e he
  simp only [disprDeregisterModule]
  cases hpri : getMdlPriority id with
  | none => exact ⟨.refl, he⟩
  | some p =>
    simp only
    cases hfind : ((e.d i).mdls.moduleQ p).find? (·.id == id) with
    | none => exact ⟨.refl, he⟩
    | some mdl =>
      simp only
      have hs₁ : Steps e ((e.logEv (.gone i id)).onMdls i fun m => { m with
          moduleQ := update m.moduleQ p ((m.moduleQ p).eraseP (·.id == id))
          bitmap := clrBitmapBit m.bitmap [id], basemap := clrBitmapBit m.basemap [id] }) :=
        .single (.deregister i id _ (fun id' hid' hne => by simp [clrBitmapBit, maskIds, hid', hne])
          MdlsOk.unlink)
      have he₁ := he.next hs₁ (by simpa using he.hand) (fun j hj => by simp)
        fun j => by simp [QuietTok.refl]
      have hback : ∀ b : Bool, Tame fun e : Eng N => if b then (callback e).2 else e :=
        fun b => callback_tame.when fun _ => b
      obtain ⟨hs₂, he₂⟩ := ((hback mdl.init).comp (hback mdl.started)).leads Rest.lasting
        (fun _ h => h.sound) _ he₁
      exact ⟨hs₁.trans hs₂, he₂⟩

end Register

/-! ### The steps -/

def AtRest (e : Eng N) : Prop := Rest 0 [] [] none e

theorem AtRest.rest (he : AtRest e) (i : Fin 2) : Rest i [] [] none e := he.any i

theorem Rest.atRest (he : Rest i [] [] none e) : AtRest e := he.any 0

theorem Leads.atRest {f : Eng N → Eng N} (hf : Leads (Rest i [] [] none) (Rest i [] [] none) f) :
    Leads AtRest AtRest f :=
  hf.mono (fun _ he => he.rest i) fun _ he => he.atRest

theorem Tame.atRest {f : Eng N → Eng N} (hf : Tame f) : Leads AtRest AtRest f :=
  (hf.leads (Rest.lasting (i := 0) (h := [])) fun _ he => he.sound).atRest

theorem env_leads (env : List Resp) : Leads AtRest AtRest fun e : Eng N => { e with env := env } :=
  (env_tame env).atRest

theorem clearPendingMsg_leads : Leads AtRest AtRest (clearPendingMsg (N := N) i) := fun e he => by
  obtain ⟨hs, ho, hh⟩ := sorts_clearPendingMsg (i := i) e
  exact ⟨hs, ((he.rest i).still hs (ho.still hh)).atRest⟩

theorem Op.run_leads (a : Op) : Leads AtRest AtRest fun e : Eng N => a.run e := by
  cases a with
  | api i c => exact c.run_tame.atRest
  | send i msg attr cb => exact (disprSendMsg_tame (runScript_tame cb)).atRest
  | register i id ops env => exact (env_leads env).comp disprRegisterModule_leads.atRest
  | deregister i id env => exact (env_leads env).comp disprDeregisterModule_leads.atRest
  | clearPending i => exact clearPendingMsg_leads
  | tokenGate i => exact tokenGate_leads.atRest
  | tokenOp i env => exact (env_leads env).comp tokenOp_leads.atRest
  | dispatch i env => exact (env_leads env).comp dispatchWaitMsg_leads.atRest

/-! ### The start -/

section Start

variable {ctrl : Fin 2 → Bool} {phyNum : ℕ}

theorem MsgsOk.start : MsgsOk i ((Eng.start (N := N) phyNum ctrl).d i).msgs [] where
  parts := by simp [Eng.start, CmdDispatcher.start]
  idle k _ := ⟨rfl, rfl⟩
  fired k hk := absurd (List.mem_finRange k) hk
  calls := ⟨fun _ _ _ _ _ _ h => by simp at h, fun _ _ _ _ _ _ _ _ _ _ _ h => by simp at h,
    fun _ _ => rfl, fun _ _ _ _ _ _ h => by simp at h, fun _ _ _ _ _ _ h => by simp at h⟩
  billed k hk := absurd (List.mem_finRange k) hk
  distinct k hk := absurd (List.mem_finRange k) hk
  settled _ _ _ _ _ _ h := by simp at h

theorem TokOk.start : TokOk ((Eng.start (N := N) phyNum ctrl).d i).tok where
  reqs :=
    { parts := by simp [Eng.start, CmdDispatcher.start]
      count := rfl
      flags := fun r => ⟨fun _ => ⟨rfl, rfl⟩, fun h => by simp [Eng.start, CmdDispatcher.start,
          PhlCmdTokenReqEx.zero, ReqStatus.zero] at h, fun h => by simp [Eng.start,
          CmdDispatcher.start, PhlCmdTokenReqEx.zero, ReqStatus.zero] at h, fun h => by
          simp [Eng.start, CmdDispatcher.start, PhlCmdTokenReqEx.zero, ReqStatus.zero] at h, fun h => by
          simp [Eng.start, CmdDispatcher.start, PhlCmdTokenReqEx.zero, ReqStatus.zero] at h⟩
      called := fun _ => Nat.zero_lt_one
      handled := fun o n h => by simp [Eng.start, CmdDispatcher.start] at h }
  infos o := by cases o <;> exact .inl rfl

theorem MdlsOk.start : MdlsOk ((Eng.start (N := N) phyNum ctrl).d i).mdls where
  priority p mdl h := by simp [Eng.start, CmdDispatcher.start] at h
  linked id h := by simp [Eng.start, CmdDispatcher.start] at h
  controller := rfl

theorem AtRest.start : AtRest (Eng.start (N := N) phyNum ctrl) where
  sound := ⟨fun _ => .start, fun _ => .start, fun _ => .start⟩
  hand := rfl
  reqHand := rfl
  handling := rfl
  others _ _ := ⟨rfl, rfl, rfl⟩
  curRuns _ r h := by simp [Eng.start, CmdDispatcher.start] at h

end Start

/-! ### The runs -/

section Run

variable {e₀ : Eng N} {ok : Eng N → Op → Prop}

theorem Run.steps (h₀ : AtRest e₀) (h : Run ok e₀ e) : Steps e₀ e ∧ AtRest e :=
  h.invariant (I := fun e => Steps e₀ e ∧ AtRest e) ⟨.refl, h₀⟩ fun s a hs _ => by
    obtain ⟨hs', hrest⟩ := Op.run_leads a s hs.2
    exact ⟨hs.1.trans hs', hrest⟩

theorem Steps.invariant {I : Eng N → Prop} (hI : ∀ e e', Move e e' → Sound e → Sound e' → I e → I e')
    (hs : Steps e e') (he : Sound e) (h : I e) : I e' :=
  (hs.keeps (I := fun e => Sound e ∧ I e) (fun e e' hm h => ⟨hm.sound h.1,
    hI e e' hm h.1 (hm.sound h.1) h.2⟩) ⟨he, h⟩).2

end Run

end Rtl8852cu.Dispr
