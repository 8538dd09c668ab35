import Rtl8852cu.Dispr.Feed

/-!
# The registry of modules

The passes `dispr_module_init`, `dispr_module_start` and `dispr_module_stop` over the module queues,
`dispr_start` and `dispr_stop`, and what their runs, together with those of `dispr_register_module`
and `dispr_deregister_module`, keep of the queues and of the two bitmaps.

A module whose `init` or `start` fails is freed while it is linked, and the duplicates are looked for
in the bitmap, which has no bit for a module that is linked and not started.  So the registry is
consistent in the runs whose registrations find no module of the same id and have no failing callback
(`Fit`), and in no others.
-/

namespace Rtl8852cu.Dispr

open Function (update update_self)

variable {N : ℕ} {e : Eng N} {i : Fin 2} {p : MdlPri} {id : ℕ}

/-! ### The passes over the queues -/

/-- The loop over the modules of one queue; `done` are those it has been at. -/
def eachModule (i : Fin 2) (p : MdlPri) (f : PhlBkModule → Eng N → PhlBkModule × Eng N) :
    List PhlBkModule → List PhlBkModule → Eng N → Eng N
  | _, [], e => e
  | done, mdl :: q, e =>
    let (mdl, e) := f mdl e
    eachModule i p f (done ++ [mdl]) q (e.onMdls i fun m => { m with
      moduleQ := update m.moduleQ p (done ++ mdl :: q) })

def eachPriority (i : Fin 2) (f : MdlPri → PhlBkModule → Eng N → PhlBkModule × Eng N) : List MdlPri → Eng N → Eng N
  | [], e => e
  | p :: ps, e => eachPriority i f ps (eachModule i p (f p) [] ((e.d i).mdls.moduleQ p) e)

/-- From `PHL_MDL_PRI_ROLE` up to `PHL_MDL_PRI_MAX - 1`. -/
def priorities : List MdlPri := [.role, .optional, .mandatory]

def disprModuleInit (i : Fin 2) (e : Eng N) : Eng N × PhlStatus :=
  let initOne (_ : MdlPri) (mdl : PhlBkModule) (e : Eng N) :=
    let (mdl, _, e) := bkModuleInit mdl e
    (mdl, e)
  (eachPriority i initOne priorities e, .success)

def disprModuleStart (i : Fin 2) (e : Eng N) : Eng N × PhlStatus :=
  let startOne (p : MdlPri) (mdl : PhlBkModule) (e : Eng N) :=
    let (mdl, ret, e) := bkModuleStart mdl e
    if ret then
      (mdl, e.onMdls i fun m => { m with
        bitmap := addBitmapBit m.bitmap [mdl.id]
        basemap := if p = .optional then m.basemap else addBitmapBit m.basemap [mdl.id] })
    else (mdl, e)
  if ¬ (e.d i).status.started then (e, .unexpectedError)
  else (eachPriority i startOne priorities e, .success)

/-- `bk_module_stop`; the callback is `ops.stop`. -/
def bkModuleStop (mdl : PhlBkModule) (e : Eng N) : PhlBkModule × Bool × Eng N :=
  if ¬ mdl.started then (mdl, false, e)
  else
    let (ret, e) := callback e
    ({ mdl with started := false }, decide (ret = .success), e)

def disprModuleStop (i : Fin 2) (e : Eng N) : Eng N × PhlStatus :=
  let stopOne (_ : MdlPri) (mdl : PhlBkModule) (e : Eng N) :=
    let e := e.onMdls i fun m => { m with
      bitmap := clrBitmapBit m.bitmap [mdl.id]
      basemap := clrBitmapBit m.basemap [mdl.id] }
    let (mdl, _, e) := bkModuleStop mdl e
    (mdl, e)
  if ¬ (e.d i).status.started then (e, .unexpectedError)
  else (eachPriority i stopOne priorities e, .success)

/-! ### Starting and stopping the dispatcher -/

def initDisprMsgPool (q : MsgQs N) : MsgQs N :=
  { q with pool := fun _ => .zero, idle := List.finRange N, wait := [], pend := [] }

def initCmdReqPool (t : TokenQs) : TokenQs :=
  { t with
    reqPool := fun _ => .zero, reqIdle := List.finRange maxCmdReqNum, reqWait := [], opQ := [] }

/-- `dispr_start`, with `_start_dispr_controller`. -/
def disprStart (i : Fin 2) (e : Eng N) : Eng N × PhlStatus :=
  if (e.d i).status.started then (e, .unexpectedError)
  else
    let e := e.modify i fun d => { d with
      msgs := initDisprMsgPool d.msgs
      tok := { initCmdReqPool d.tok with renewReqInfo := .zero }
      pendingEvtId := fun _ => msgEvtMax
      exclusiveMdl := phlMdlIdMax
      status := { d.status with started := true } }
    let (ctrl, ret, e) := bkModuleStart (e.d i).mdls.controller e
    let e := e.onMdls i fun m => { m with controller := ctrl }
    (if ret then e.onStatus i fun s => { s with ctrlPresent := true } else e, .success)

def disprStop (i : Fin 2) (e : Eng N) : Eng N × PhlStatus :=
  if ¬ (e.d i).status.started then (e, .unexpectedError)
  else ((disprThreadStopPriorHdl i e).onTok i fun t => { t with tokenCnt := 0 }, .success)

/-! ### Runs -/

/-- An engine after `dispr_init`; `ctrl` says that the controller was initialised. -/
def Eng.init (phyNum : ℕ) (ctrl : Fin 2 → Bool) : Eng N where
  d := fun i =>
    { CmdDispatcher.start false false with
      status := { (CmdDispatcher.start (N := N) false false).status with started := false }
      mdls := ⟨fun _ => [], ⟨phlMdlPhyMgnt, ctrl i, false⟩, ∅, ∅⟩ }
  phyNum := phyNum
  env := []
  log := []

def answer (ok : Bool) : Resp := ⟨if ok then .success else .fail, .done⟩

/-- The calls on the registry, with what the callbacks they run answer. -/
inductive RegOp where
  | register (id : ℕ) (ops initOk startOk : Bool)
  | deregister (id : ℕ)
  | moduleInit (oks : List Bool)
  | moduleStart (oks : List Bool)
  | moduleStop (oks : List Bool)
  | start (ctrlOk : Bool)
  | stop
  deriving Repr

/-- One call: the engine after it, and what it returns. -/
def RegOp.run (i : Fin 2) (e : Eng N) : RegOp → Eng N × PhlStatus
  | .register id ops initOk startOk =>
    disprRegisterModule i id ops { e with env := [answer initOk, answer startOk] }
  | .deregister id => disprDeregisterModule i id { e with env := [] }
  | .moduleInit oks => disprModuleInit i { e with env := oks.map answer }
  | .moduleStart oks => disprModuleStart i { e with env := oks.map answer }
  | .moduleStop oks => disprModuleStop i { e with env := oks.map answer }
  | .start ctrlOk => disprStart i { e with env := [answer ctrlOk] }
  | .stop => disprStop i e

def Modules.linked (m : Modules) : List PhlBkModule :=
  m.moduleQ .role ++ m.moduleQ .optional ++ m.moduleQ .mandatory

/-- Every id is linked once, its bit is set while its module is started, and the base map is part of
the map. -/
structure Consistent (m : Modules) : Prop where
  once : (m.linked.map (·.id)).Nodup
  bit : ∀ id, id ∈ m.bitmap ↔ ∃ mdl ∈ m.linked, mdl.id = id ∧ mdl.started
  base : m.basemap ⊆ m.bitmap

/-- A registration that fails leaves the registry as it was. -/
def FailsCleanly (i : Fin 2) (e : Eng N) : RegOp → Prop
  | .register id ops initOk startOk =>
    let p := (RegOp.register id ops initOk startOk).run i e
    p.2 ≠ .success → (p.1.d i).mdls.moduleQ = (e.d i).mdls.moduleQ ∧
      (p.1.d i).mdls.bitmap = (e.d i).mdls.bitmap ∧ (p.1.d i).mdls.basemap = (e.d i).mdls.basemap
  | _ => True

/-- The registry is consistent in every state of a run, and its registrations fail cleanly. -/
def Maintained (i : Fin 2) : List RegOp → Eng N → Prop
  | [], e => Consistent (e.d i).mdls
  | a :: as, e => Consistent (e.d i).mdls ∧ FailsCleanly i e a ∧ Maintained i as (a.run i e).1

/-- A registration that passes the checks finds no linked module of its id, and the callbacks it runs
succeed. -/
def RegOp.Fit (i : Fin 2) (e : Eng N) : RegOp → Prop
  | .register id ops initOk startOk =>
    (getMdlPriority id).isSome → ops → id ∉ (e.d i).mdls.bitmap →
      (∀ mdl ∈ (e.d i).mdls.linked, mdl.id ≠ id) ∧ initOk ∧ ((e.d i).status.started → startOk)
  | _ => True

def AllFit (i : Fin 2) : List RegOp → Eng N → Prop
  | [], _ => True
  | a :: as, e => a.Fit i e ∧ AllFit i as (a.run i e).1

/-! ### The queues in order -/

/-- The registry in terms of the single queues. -/
structure Filed (m : Modules) : Prop where
  priority : ∀ p, ∀ mdl ∈ m.moduleQ p, getMdlPriority mdl.id = some p
  nodup : ∀ p, ((m.moduleQ p).map (·.id)).Nodup
  bit : ∀ id, id ∈ m.bitmap ↔ ∃ p, ∃ mdl ∈ m.moduleQ p, mdl.id = id ∧ mdl.started
  base : m.basemap ⊆ m.bitmap

variable {m : Modules} {mdl mdl' : PhlBkModule} {done q : List PhlBkModule} {b b' : Finset ℕ}

theorem Modules.mem_linked : mdl ∈ m.linked ↔ ∃ p, mdl ∈ m.moduleQ p := by
  simp only [Modules.linked, List.mem_append]
  constructor
  · rintro ((h | h) | h)
    exacts [⟨_, h⟩, ⟨_, h⟩, ⟨_, h⟩]
  · rintro ⟨p, h⟩
    cases p
    exacts [.inl (.inl h), .inl (.inr h), .inr h]

namespace Filed

theorem disjoint (h : Filed m) {p' : MdlPri} (hp : p ≠ p') :
    ((m.moduleQ p).map (·.id)).Disjoint ((m.moduleQ p').map (·.id)) := by
  intro id hid hid'
  obtain ⟨x, hx, rfl⟩ := List.mem_map.1 hid
  obtain ⟨y, hy, hxy⟩ := List.mem_map.1 hid'
  have hpri := h.priority p x hx
  rw [← hxy, h.priority p' y hy] at hpri; exact hp (Option.some.inj hpri).symm

theorem consistent (h : Filed m) : Consistent m where
  once := by
    simp only [Modules.linked, List.map_append]
    refine List.Nodup.append (List.Nodup.append (h.nodup _) (h.nodup _) (h.disjoint nofun))
      (h.nodup _) (List.disjoint_append_left.2 ⟨h.disjoint nofun, h.disjoint nofun⟩)
  bit id := by
    rw [h.bit]
    constructor
    · rintro ⟨p, mdl, hmdl, hid⟩; exact ⟨mdl, Modules.mem_linked.2 ⟨p, hmdl⟩, hid⟩
    · rintro ⟨mdl, hmdl, hid⟩
      obtain ⟨p, hp⟩ := Modules.mem_linked.1 hmdl
      exact ⟨p, mdl, hp, hid⟩
  base := h.base

theorem eq_of_id (h : Filed m) {p' : MdlPri} (hx : mdl ∈ m.moduleQ p) (hy : mdl' ∈ m.moduleQ p')
    (hid : mdl.id = mdl'.id) : mdl = mdl' := by
  have hp : p = p' := by
    have hpri := h.priority p mdl hx
    rw [hid, h.priority p' mdl' hy] at hpri; exact (Option.some.inj hpri).symm
  subst hp; exact List.inj_on_of_nodup_map (h.nodup p) hx hy hid

theorem mem_bitmap (h : Filed m) (hx : mdl ∈ m.moduleQ p) : mdl.id ∈ m.bitmap ↔ mdl.started := by
  rw [h.bit]
  constructor
  · rintro ⟨p', y, hy, hid, hst⟩
    rwa [h.eq_of_id hx hy hid.symm]
  · exact fun hst => ⟨p, mdl, hx, rfl, hst⟩

theorem replace (h : Filed m) (hq : m.moduleQ p = done ++ mdl :: q) (hid : mdl'.id = mdl.id)
    (hb : ∀ id, id ≠ mdl.id → (id ∈ b ↔ id ∈ m.bitmap)) (hst : mdl.id ∈ b ↔ mdl'.started)
    (hb' : b' ⊆ b) :
    Filed { m with
      moduleQ := update m.moduleQ p (done ++ mdl' :: q), bitmap := b, basemap := b' } := by
  have hmdl : mdl ∈ m.moduleQ p := by simp [hq]
  have hmem : ∀ (p' : MdlPri) (x : PhlBkModule), x.id ≠ mdl.id →
      (x ∈ update m.moduleQ p (done ++ mdl' :: q) p' ↔ x ∈ m.moduleQ p') := by
    intro p' x hx
    have hne : x ≠ mdl ∧ x ≠ mdl' := ⟨fun heq => hx (heq ▸ rfl), fun heq => hx (heq ▸ hid)⟩
    rcases eq_or_ne p' p with rfl | hp
    · simp [hq, hne.1, hne.2]
    · simp [hp]
  refine ⟨fun p' x hx => ?_, fun p' => ?_, fun id => ?_, hb'⟩
  · by_cases hxid : x.id = mdl.id
    · rcases eq_or_ne p' p with rfl | hp
      · rw [hxid]; exact h.priority p' mdl hmdl
      · exact h.priority p' x (by simpa [hp] using hx)
    · exact h.priority p' x ((hmem p' x hxid).1 hx)
  · rcases eq_or_ne p' p with rfl | hp
    · have hnd := h.nodup p'
      rw [hq] at hnd
      simpa [hid] using hnd
    · simpa [hp] using h.nodup p'
  · by_cases hne : id = mdl.id
    · subst hne
      rw [hst]
      constructor
      · exact fun hst' => ⟨p, mdl', by simp, hid, hst'⟩
      · rintro ⟨p', x, hx, hxid, hxst⟩
        rcases eq_or_ne p' p with rfl | hp
        · have hnd := h.nodup p'
          rw [hq] at hnd
          simp only [List.map_append, List.map_cons, List.nodup_append, List.nodup_cons, List.mem_map] at hnd
          simp only [update_self, List.mem_append, List.mem_cons] at hx
          rcases hx with hx | rfl | hx
          · exact absurd hxid (hnd.2.2 _ ⟨x, hx, rfl⟩ _ (by simp))
          · exact hxst
          · exact absurd ⟨x, hx, hxid⟩ hnd.2.1.1
        · have hx' : x ∈ m.moduleQ p' := by simpa [hp] using hx
          have hpri := h.priority p mdl hmdl
          rw [← hxid, h.priority p' x hx'] at hpri; exact absurd (Option.some.inj hpri) hp
    · rw [hb id hne, h.bit]
      refine exists_congr fun p' => exists_congr fun x => ?_
      constructor
      · rintro ⟨hx, rfl, hxst⟩; exact ⟨(hmem p' x hne).2 hx, rfl, hxst⟩
      · rintro ⟨hx, rfl, hxst⟩; exact ⟨(hmem p' x hne).1 hx, rfl, hxst⟩

theorem link (h : Filed m) (hpri : getMdlPriority mdl.id = some p) (hst : mdl.started = false)
    (hnew : ∀ x ∈ m.linked, x.id ≠ mdl.id) :
    Filed { m with moduleQ := update m.moduleQ p (m.moduleQ p ++ [mdl]) } := by
  have hmem : ∀ (p' : MdlPri) (x : PhlBkModule), x ∈ update m.moduleQ p (m.moduleQ p ++ [mdl]) p' ↔
        x ∈ m.moduleQ p' ∨ p' = p ∧ x = mdl := by
    intro p' x
    rcases eq_or_ne p' p with rfl | hp
    · simp
    · simp [hp]
  refine ⟨fun p' x hx => ?_, fun p' => ?_, fun id => ?_, h.base⟩
  · rcases (hmem p' x).1 hx with hx | ⟨rfl, rfl⟩
    · exact h.priority p' x hx
    · exact hpri
  · rcases eq_or_ne p' p with rfl | hp
    · simp only [update_self, List.map_append, List.map_cons, List.map_nil]
      refine List.Nodup.append (h.nodup p') (List.nodup_singleton _) fun id hid hid' => ?_
      obtain ⟨x, hx, rfl⟩ := List.mem_map.1 hid
      exact hnew x (Modules.mem_linked.2 ⟨p', hx⟩) (by simpa using hid')
    · simpa [hp] using h.nodup p'
  · rw [h.bit]
    refine exists_congr fun p' => exists_congr fun x => ?_
    simp only [hmem]
    constructor
    · exact fun ⟨hx, hid⟩ => ⟨.inl hx, hid⟩
    · rintro ⟨hx | ⟨rfl, rfl⟩, hid, hxst⟩
      · exact ⟨hx, hid, hxst⟩
      · simp [hst] at hxst

theorem unlink (h : Filed m) (hpri : getMdlPriority id = some p) : Filed { m with
      moduleQ := update m.moduleQ p ((m.moduleQ p).eraseP (·.id == id))
      bitmap := clrBitmapBit m.bitmap [id], basemap := clrBitmapBit m.basemap [id] } := by
  have hlt := getMdlPriority_lt hpri
  have hmem : ∀ (p' : MdlPri) (x : PhlBkModule),
      x ∈ update m.moduleQ p ((m.moduleQ p).eraseP (·.id == id)) p' ↔ x ∈ m.moduleQ p' ∧ x.id ≠ id := by
    intro p' x
    rcases eq_or_ne p' p with rfl | hp
    · rw [update_self]
      by_cases hxid : x.id = id
      · simp only [hxid, ne_eq, not_true_eq_false, and_false, iff_false]
        intro hx
        have hnd := h.nodup p'
        obtain ⟨y, l₁, l₂, -, hy, hl, her⟩ := List.exists_of_eraseP (List.mem_of_mem_eraseP hx)
          (p := (·.id == id)) (by simpa using hxid)
        rw [her] at hx
        rw [hl] at hnd
        simp only [List.map_append, List.map_cons, List.nodup_append, List.nodup_cons, List.mem_map] at hnd
        have hyid : y.id = id := by simpa using hy
        rcases List.mem_append.1 hx with hx | hx
        · exact hnd.2.2 _ ⟨x, hx, rfl⟩ y.id (by simp) (hxid.trans hyid.symm)
        · exact hnd.2.1.1 ⟨x, hx, hxid.trans hyid.symm⟩
      · simp [List.mem_eraseP_of_neg, hxid]
    · simp only [Function.update_of_ne hp, iff_self_and]
      rintro hx rfl
      exact hp (Option.some.inj ((h.priority p' x hx).symm.trans hpri))
  refine ⟨fun p' x hx => h.priority p' x ((hmem p' x).1 hx).1, fun p' => ?_, fun id' => ?_, ?_⟩
  · rcases eq_or_ne p' p with rfl | hp
    · simpa using (h.nodup p').sublist ((List.eraseP_sublist).map _)
    · simpa [hp] using h.nodup p'
  · simp only [clrBitmapBit, Finset.mem_sdiff, hmem, h.bit]
    have hmask : id' ∈ maskIds [id] ↔ id' = id := by simpa [maskIds] using fun hid => hid ▸ hlt
    rw [hmask]
    constructor
    · rintro ⟨⟨p', x, hx, rfl, hst⟩, hne⟩; exact ⟨p', x, ⟨hx, hne⟩, rfl, hst⟩
    · rintro ⟨p', x, ⟨hx, hne⟩, rfl, hst⟩; exact ⟨⟨p', x, hx, rfl, hst⟩, hne⟩
  · exact Finset.sdiff_subset_sdiff h.base (Finset.Subset.refl _)

end Filed

/-! ### The passes -/

/-- The callbacks to come make no calls. -/
def Plain (e : Eng N) : Prop := ∀ resp ∈ e.env, resp.script = .done

theorem callback_plain (he : Plain e) : (callback e).2 = { e with env := e.env.tail } := by
  rcases henv : e.env with _ | ⟨resp, env⟩
  · simp [callback, henv]; rw [← henv]
  · have hdone := he resp (by simp [henv]); simp [callback, henv, hdone, runScript]

theorem Plain.tail (he : Plain e) : Plain { e with env := e.env.tail } :=
  fun resp hresp => he resp (List.mem_of_mem_tail hresp)

theorem plain_answers (oks : List Bool) : Plain { e with env := oks.map answer } := by
  intro resp hresp
  obtain ⟨ok, -, rfl⟩ := List.mem_map.1 hresp
  rfl

/-- What a pass does to a linked module keeps the registry in order. -/
def KeepsFiled (i : Fin 2) (p : MdlPri) (f : PhlBkModule → Eng N → PhlBkModule × Eng N) : Prop :=
  ∀ e mdl done q, Plain e → Filed (e.d i).mdls → (e.d i).mdls.moduleQ p = done ++ mdl :: q →
    Plain (f mdl e).2 ∧ Filed { ((f mdl e).2.d i).mdls with
      moduleQ := update ((f mdl e).2.d i).mdls.moduleQ p (done ++ (f mdl e).1 :: q) }

theorem eachModule_filed {f : PhlBkModule → Eng N → PhlBkModule × Eng N} (hf : KeepsFiled i p f)
    (he : Plain e) (h : Filed (e.d i).mdls) (hq : (e.d i).mdls.moduleQ p = done ++ q) :
    Plain (eachModule i p f done q e) ∧ Filed ((eachModule i p f done q e).d i).mdls := by
  induction q generalizing done e with
  | nil => exact ⟨he, h⟩
  | cons mdl q ih =>
    obtain ⟨he', h'⟩ := hf e mdl done q he h hq
    exact ih he' (by simpa using h') (by simp)

theorem eachPriority_filed {f : MdlPri → PhlBkModule → Eng N → PhlBkModule × Eng N}
    (hf : ∀ p, KeepsFiled i p (f p)) {ps : List MdlPri} (he : Plain e) (h : Filed (e.d i).mdls) :
    Filed ((eachPriority i f ps e).d i).mdls := by
  induction ps generalizing e with
  | nil => exact h
  | cons p ps ih =>
    obtain ⟨he', h'⟩ := eachModule_filed (hf p) he h (List.nil_append _).symm
    exact ih he' h'

theorem Filed.touch (h : Filed m) (hq : m.moduleQ p = done ++ mdl :: q) (hid : mdl'.id = mdl.id)
    (hst : mdl'.started = mdl.started) :
    Filed { m with moduleQ := update m.moduleQ p (done ++ mdl' :: q) } :=
  h.replace hq hid (fun _ _ => .rfl) (by rw [hst]; exact h.mem_bitmap (p := p) (by simp [hq])) h.base

theorem disprModuleInit_filed (he : Plain e) (h : Filed (e.d i).mdls) : Filed ((disprModuleInit i e).1.d i).mdls := by
  refine eachPriority_filed (fun p e mdl done q he h hq => ?_) he h
  simp only [bkModuleInit]
  split
  · exact ⟨he, h.touch hq rfl rfl⟩
  · rw [callback_plain he]
    split
    · exact ⟨he.tail, h.touch hq rfl rfl⟩
    · exact ⟨he.tail, h.touch hq rfl rfl⟩

theorem Filed.start (h : Filed m) (hq : m.moduleQ p = done ++ mdl :: q) : Filed { m with
      moduleQ := update m.moduleQ p (done ++ { mdl with started := true } :: q)
      bitmap := addBitmapBit m.bitmap [mdl.id]
      basemap := if p = .optional then m.basemap else addBitmapBit m.basemap [mdl.id] } := by
  have hlt : mdl.id / 8 < modlMaskLen := getMdlPriority_lt (h.priority p mdl (by simp [hq]))
  refine h.replace hq rfl (fun id hid => ?_) ?_ ?_
  · simp [addBitmapBit, maskIds, hid]
  · simp [addBitmapBit, maskIds, hlt]
  · split
    · exact h.base.trans Finset.subset_union_left
    · exact Finset.union_subset_union h.base (Finset.Subset.refl _)

theorem disprModuleStart_filed (he : Plain e) (h : Filed (e.d i).mdls) :
    Filed ((disprModuleStart i e).1.d i).mdls := by
  simp only [disprModuleStart]
  split
  · exact h
  refine eachPriority_filed (fun p e mdl done q he h hq => ?_) he h
  simp only [bkModuleStart]
  split
  · exact ⟨he, h.touch hq rfl rfl⟩
  · rw [callback_plain he]
    split
    · exact ⟨he.tail, by simpa using h.start hq⟩
    · exact ⟨he.tail, h.touch hq rfl rfl⟩

theorem Filed.stop (h : Filed m) (hq : m.moduleQ p = done ++ mdl :: q) (hid : mdl'.id = mdl.id)
    (hst : mdl'.started = false) :
    Filed { m with
      moduleQ := update m.moduleQ p (done ++ mdl' :: q)
      bitmap := clrBitmapBit m.bitmap [mdl.id], basemap := clrBitmapBit m.basemap [mdl.id] } := by
  have hlt : mdl.id / 8 < modlMaskLen := getMdlPriority_lt (h.priority p mdl (by simp [hq]))
  refine h.replace hq hid (fun id hid => ?_) ?_ ?_
  · simp [clrBitmapBit, maskIds, hid]
  · simp [clrBitmapBit, maskIds, hlt, hst]
  · exact Finset.sdiff_subset_sdiff h.base (Finset.Subset.refl _)

theorem disprModuleStop_filed (he : Plain e) (h : Filed (e.d i).mdls) : Filed ((disprModuleStop i e).1.d i).mdls := by
  simp only [disprModuleStop]
  split
  · exact h
  refine eachPriority_filed (fun p e mdl done q he h hq => ?_) he h
  have he' : ∀ g : Modules → Modules, Plain (e.onMdls i g) := fun g => he
  simp only [bkModuleStop]
  split
  · exact ⟨he, by simpa using h.stop hq rfl (by simpa using ‹¬ mdl.started = true›)⟩
  · rw [callback_plain (he' _)]
    exact ⟨(he' _).tail, by
      simpa using h.stop hq (show { mdl with started := false }.id = mdl.id from rfl) rfl⟩

/-! ### Registering -/

theorem disprRegisterModule_refused {ops : Bool}
    (hc : ¬ ((getMdlPriority id).isSome ∧ ops ∧ id ∉ (e.d i).mdls.bitmap)) :
    disprRegisterModule i id ops e = (e, .failure) := by
  unfold disprRegisterModule
  cases hpri : getMdlPriority id with
  | none => rfl
  | some p =>
    simp only [hpri, Option.isSome_some, true_and, not_and, not_not] at hc
    have hlt := getMdlPriority_lt hpri
    simp only
    rw [if_pos]
    by_cases hops : ops
    · exact .inr (chkBitmapBit_iff.2 ⟨hlt, hc hops⟩)
    · exact .inl hops

theorem disprRegisterModule_passed (initOk startOk : Bool) (hpri : getMdlPriority id = some p)
    (hb : id ∉ (e.d i).mdls.bitmap) :
    let r := disprRegisterModule i id true { e with env := [answer initOk, answer startOk] }
    let m := (e.d i).mdls
    if initOk ∧ ((e.d i).status.started → startOk) then
      r.2 = .success ∧ (r.1.d i).mdls = if (e.d i).status.started then { m with
          moduleQ := update m.moduleQ p (m.moduleQ p ++ [⟨id, true, true⟩])
          bitmap := addBitmapBit m.bitmap [id]
          basemap := if p = .optional then m.basemap else addBitmapBit m.basemap [id] }
        else { m with
          moduleQ := update m.moduleQ p (m.moduleQ p ++ [⟨id, true, false⟩]) }
    else r.2 = .failure ∧ (r.1.d i).mdls = { m with
      moduleQ := update m.moduleQ p (m.moduleQ p ++ [⟨id, false, false⟩]) } := by
  have hchk : chkBitmapBit (e.d i).mdls.bitmap id = false := by
    simp [chkBitmapBit, hb]
  cases hstarted : (e.d i).status.started <;> cases initOk <;> cases startOk <;>
    simp [disprRegisterModule, hpri, hchk, bkModuleInit, bkModuleStart, callback, answer, runScript,
      hstarted, setLast]

theorem disprDeregisterModule_filed (he : Plain e) (h : Filed (e.d i).mdls) :
    Filed ((disprDeregisterModule i id e).1.d i).mdls := by
  unfold disprDeregisterModule
  cases hpri : getMdlPriority id with
  | none => exact h
  | some p =>
    simp only
    cases hfind : ((e.d i).mdls.moduleQ p).find? (·.id == id) with
    | none => exact h
    | some mdl =>
      -- the callbacks leave the registry alone
      have hback : ∀ (b : Bool) (e : Eng N), Plain e → Plain (if b then (callback e).2 else e) ∧
            ((if b then (callback e).2 else e).d i).mdls = (e.d i).mdls := by
        intro b e he
        cases b
        · exact ⟨he, rfl⟩
        · simp only [if_true, callback_plain he]; exact ⟨he.tail, trivial⟩
      simp only
      obtain ⟨he₁, h₁⟩ := hback mdl.started _ (show Plain ((e.logEv (.gone i id)).onMdls i fun m =>
        { m with
          moduleQ := update m.moduleQ p ((m.moduleQ p).eraseP (·.id == id))
          bitmap := clrBitmapBit m.bitmap [id]
          basemap := clrBitmapBit m.basemap [id] }) from he)
      rw [(hback mdl.init _ he₁).2, h₁]
      simpa using h.unlink hpri

/-! ### The runs -/

theorem Filed.controller (h : Filed m) (ctrl : PhlBkModule) : Filed { m with controller := ctrl } :=
  ⟨h.priority, h.nodup, h.bit, h.base⟩

theorem disprStart_filed (he : Plain e) (h : Filed (e.d i).mdls) : Filed ((disprStart i e).1.d i).mdls := by
  simp only [disprStart, bkModuleStart]
  split
  · exact h
  · split
    · simpa using h.controller _
    · rw [callback_plain (show Plain (e.modify i _) from he)]
      split
      · simpa using h.controller _
      · simpa using h.controller _

theorem disprStop_filed (h : Filed (e.d i).mdls) : Filed ((disprStop i e).1.d i).mdls := by
  simp only [disprStop, disprThreadStopPriorHdl]
  split
  · exact h
  · simpa using h.controller _

theorem disprRegisterModule_filed {ops initOk startOk : Bool} (h : Filed (e.d i).mdls)
    (hfit : (RegOp.register id ops initOk startOk).Fit i e) :
    let a := RegOp.register id ops initOk startOk
    Filed ((a.run i e).1.d i).mdls ∧ FailsCleanly i e a := by
  simp only [FailsCleanly, RegOp.run]
  by_cases hc : (getMdlPriority id).isSome ∧ ops ∧ id ∉ (e.d i).mdls.bitmap
  · obtain ⟨hpri, rfl, hb⟩ := hc
    obtain ⟨hnew, hok⟩ := hfit hpri rfl hb
    obtain ⟨p, hpri⟩ := Option.isSome_iff_exists.1 hpri
    have hreg := disprRegisterModule_passed initOk startOk hpri hb
    simp only [if_pos hok] at hreg
    rw [hreg.1, hreg.2]
    refine ⟨?_, nofun⟩
    split
    · have hlink := h.link (show getMdlPriority (PhlBkModule.mk id true false).id = some p from hpri)
        rfl hnew
      have hlast : update (e.d i).mdls.moduleQ p ((e.d i).mdls.moduleQ p ++ [⟨id, true, false⟩])
          p = (e.d i).mdls.moduleQ p ++ ⟨id, true, false⟩ :: [] := by simp
      simpa using hlink.start hlast
    · exact h.link (show getMdlPriority (PhlBkModule.mk id true false).id = some p from hpri) rfl hnew
  · rw [disprRegisterModule_refused (by simpa using hc)]; exact ⟨h, fun _ => ⟨rfl, rfl, rfl⟩⟩

theorem RegOp.run_filed (a : RegOp) (h : Filed (e.d i).mdls) (hfit : a.Fit i e) :
    Filed ((a.run i e).1.d i).mdls ∧ FailsCleanly i e a := by
  cases a with
  | register id ops initOk startOk => exact disprRegisterModule_filed h hfit
  | deregister id => exact ⟨disprDeregisterModule_filed (plain_answers []) h, trivial⟩
  | moduleInit oks => exact ⟨disprModuleInit_filed (plain_answers oks) h, trivial⟩
  | moduleStart oks => exact ⟨disprModuleStart_filed (plain_answers oks) h, trivial⟩
  | moduleStop oks => exact ⟨disprModuleStop_filed (plain_answers oks) h, trivial⟩
  | start ctrlOk => exact ⟨disprStart_filed (plain_answers [ctrlOk]) h, trivial⟩
  | stop => exact ⟨disprStop_filed h, trivial⟩

theorem Consistent.nodup (h : Consistent m) (p : MdlPri) : ((m.moduleQ p).map (·.id)).Nodup := by
  have hp : (m.moduleQ p).Sublist m.linked := by
    unfold Modules.linked
    cases p
    · exact (List.sublist_append_left _ _).trans (List.sublist_append_left _ _)
    · exact (List.sublist_append_right _ _).trans (List.sublist_append_left _ _)
    · exact List.sublist_append_right _ _
  exact h.once.sublist (hp.map _)

theorem RegOp.fit_of_consistent (a : RegOp) (h : Filed (e.d i).mdls) (hclean : FailsCleanly i e a)
    (hcons : Consistent ((a.run i e).1.d i).mdls) : a.Fit i e := by
  cases a with
  | register id ops initOk startOk =>
    intro hpri hops hb
    subst hops
    obtain ⟨p, hpri⟩ := Option.isSome_iff_exists.1 hpri
    have hreg := disprRegisterModule_passed initOk startOk hpri hb
    simp only [FailsCleanly, RegOp.run] at hclean hcons
    by_cases hok : initOk ∧ ((e.d i).status.started → startOk)
    · refine ⟨fun mdl hmdl hid => ?_, hok⟩
      obtain ⟨p', hp'⟩ := Modules.mem_linked.1 hmdl
      have hpp : p' = p := Option.some.inj ((h.priority p' mdl hp').symm.trans (hid ▸ hpri))
      subst hpp
      simp only [if_pos hok] at hreg
      have hnd := hcons.nodup p'
      have hq : ∃ st, ((disprRegisterModule i id true
          { e with env := [answer initOk, answer startOk] }).1.d i).mdls.moduleQ p' =
            (e.d i).mdls.moduleQ p' ++ [⟨id, true, st⟩] := by
        rw [hreg.2]
        split
        · exact ⟨true, by simp⟩
        · exact ⟨false, by simp⟩
      obtain ⟨st, hq⟩ := hq
      rw [hq, List.map_append, List.nodup_append] at hnd
      exact hnd.2.2 mdl.id (List.mem_map_of_mem hp') id (by simp) hid
    · simp only [if_neg hok] at hreg
      rw [hreg.1, hreg.2] at hclean
      have hlen := congrArg List.length (congrFun (hclean nofun).1 p)
      simp at hlen
  | _ => trivial

theorem Maintained.consistent {as : List RegOp} (h : Maintained i as e) : Consistent (e.d i).mdls := by
  cases as with
  | nil => exact h
  | cons a as => exact h.1

theorem maintained_iff (as : List RegOp) (h : Filed (e.d i).mdls) : Maintained i as e ↔ AllFit i as e := by
  induction as generalizing e with
  | nil => exact ⟨fun _ => trivial, fun _ => h.consistent⟩
  | cons a as ih =>
    constructor
    · rintro ⟨-, hclean, hrest⟩
      have hfit := a.fit_of_consistent h hclean hrest.consistent
      exact ⟨hfit, (ih (a.run_filed h hfit).1).1 hrest⟩
    · rintro ⟨hfit, hrest⟩
      obtain ⟨h', hclean⟩ := a.run_filed h hfit
      exact ⟨h.consistent, hclean, (ih h').2 hrest⟩

theorem Filed.init {phyNum : ℕ} {ctrl : Fin 2 → Bool} : Filed ((Eng.init (N := N) phyNum ctrl).d i).mdls where
  priority p mdl h := by simp [Eng.init] at h
  nodup p := by simp [Eng.init]
  bit id := by simp [Eng.init]
  base := Finset.Subset.refl _

/-- **The registry is consistent in a run of the calls on it exactly when every registration of the
run finds no linked module of its id and has its callbacks succeed.** -/
theorem registry_maintained_iff (phyNum : ℕ) (ctrl : Fin 2 → Bool) (i : Fin 2) (as : List RegOp) :
    Maintained i as (Eng.init (N := N) phyNum ctrl) ↔ AllFit i as (Eng.init (N := N) phyNum ctrl) :=
  maintained_iff as .init

/-- The callback `init` of a module fails: it is freed, and stays linked. -/
theorem not_registry_maintained : ¬ ∀ as : List RegOp, Maintained 0 as (Eng.init (N := 4) 1 fun _ => true) := by
  intro h
  have hclean := (h [.start true, .register 10 true false true]).2.2.2.1
  have hq := congrFun (hclean (by decide)).1 .role
  revert hq
  decide

end Rtl8852cu.Dispr
