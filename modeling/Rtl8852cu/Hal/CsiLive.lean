import Rtl8852cu.Hal.CsiBuffer

/-!
# Live CSI buffer handles

* `Occupied`: the busy parts of the buffers are those that the live handles cover, each by one;
* `queryLoop_spec`: the first buffer with room gets the parts of the code that is returned;
* `Splits`: a request of 40 MHz gets a half of which one part is busy: `IS_40L_BUSY` and `IS_40U_BUSY`
  ask whether both are;
* `occupied_query`, `Occupied.release`: a call keeps `Occupied` unless it splits a half;
* `csiOk_iff`: the runs in which the handles are apart.
-/

namespace Rtl8852cu.Hal

open Lib CsiBufSubIdx
open Function (update update_self update_of_ne)

namespace CsiObj

variable {obj : CsiObj} {h : ℕ}

/-- What the busy bits say of the live handles. -/
structure Occupied (obj : CsiObj) : Prop where
  su : obj.maxCsiBufNrSu ≤ obj.maxCsiBufNr
  nr : obj.maxCsiBufNr ≤ 32
  idx : ∀ i < obj.maxCsiBufNr, (obj.csiBuf i).idx.toNat = i
  live : ∀ h c, obj.live h = some c → c.idx.toNat < obj.maxCsiBufNr
  busy : ∀ i < obj.maxCsiBufNr, ∀ k, (obj.csiBuf i).subIdx.getLsbD k = true ↔
    ∃ h c, obj.live h = some c ∧ c.idx.toNat = i ∧ (parts c.subIdx).getLsbD k = true
  apart : ∀ h h' c c' k, obj.live h = some c → obj.live h' = some c' → c.idx = c'.idx →
    (parts c.subIdx).getLsbD k = true → (parts c'.subIdx).getLsbD k = true → h = h'

theorem occupied_init {suBufNr muBufNr : ℕ} (hnr : suBufNr + muBufNr ≤ 32) : (csiInit suBufNr muBufNr).Occupied where
  su := Nat.le_add_right ..
  nr := hnr
  idx i hi := by
    have hlt : i < suBufNr + muBufNr := hi
    show (BitVec.ofNat 5 i).toNat = i
    rw [BitVec.toNat_ofNat, Nat.mod_eq_of_lt (by omega)]
  live _ _ hc := nomatch hc
  busy i _ k := by simp [csiInit]
  apart _ _ _ _ _ hc := nomatch hc

/-! ### The queries -/

/-- A query of one buffer sets the parts of its code. -/
def SetsParts (query : BitVec 6 → BitVec 6 × BitVec 6) : Prop :=
  ∀ s, (query s).2 ≠ non → (query s).1 = s ||| parts (query s).2

theorem setsParts_20 : SetsParts queryAvlBufIdx20 := by unfold SetsParts; decide

theorem setsParts_40 : SetsParts queryAvlBufIdx40 := by unfold SetsParts; decide

theorem setsParts_80 : SetsParts queryAvlBufIdx80 := by unfold SetsParts; decide

theorem setsParts_160 : SetsParts queryAvlBufIdx160 := by unfold SetsParts; decide

def queryOf : CsiBufSize → Option (BitVec 6 → BitVec 6 × BitVec 6)
  | .s20 => some queryAvlBufIdx20
  | .s40 => some queryAvlBufIdx40
  | .s80 => some queryAvlBufIdx80
  | .s160 => some queryAvlBufIdx160
  | .none => none

theorem setsParts_of {size : CsiBufSize} {query : BitVec 6 → BitVec 6 × BitVec 6}
    (hq : queryOf size = some query) : SetsParts query := by
  cases size <;> cases hq
  · exact setsParts_20
  · exact setsParts_40
  · exact setsParts_80
  · exact setsParts_160

/-- The buffers that a request looks at. -/
def candidates (obj : CsiObj) (mu : Bool) : List ℕ :=
  if mu then List.range' obj.maxCsiBufNrSu (obj.maxCsiBufNr - obj.maxCsiBufNrSu)
  else List.range obj.maxCsiBufNrSu

variable {mu : Bool} {i : ℕ}

theorem candidates_lt (h : obj.Occupied) (hi : i ∈ obj.candidates mu) : i < obj.maxCsiBufNr := by
  have hsu := h.su
  unfold candidates at hi
  split at hi
  · have hr := List.mem_range'_1.mp hi; omega
  · have hr := List.mem_range.mp hi; omega

theorem queryLoop_eq (obj : CsiObj) (query : BitVec 6 → BitVec 6 × BitVec 6) (is : List ℕ) :
    obj.queryLoop query is = match is.find? fun i => (query (obj.csiBuf i).subIdx).2 ≠ non with
      | none => (obj, none, non)
      | some i =>
        let buf := { obj.csiBuf i with subIdx := (query (obj.csiBuf i).subIdx).1 }
        ({ obj with csiBuf := update obj.csiBuf i buf }, some buf, (query (obj.csiBuf i).subIdx).2) := by
  induction is with
  | nil => rfl
  | cons i is ih =>
    rw [queryLoop]
    by_cases hi : (query (obj.csiBuf i).subIdx).2 ≠ non
    · rw [List.find?_cons_of_pos (by simpa using hi)]; exact if_pos hi
    · rw [List.find?_cons_of_neg (by simpa using hi), ← ih]; exact if_neg hi

/-- Where a request is granted, and the code. -/
def granted (obj : CsiObj) (mu : Bool) (bw : ChannelWidth) : Option (ℕ × BitVec 6) := do
  let query ← queryOf (bw2csi bw)
  let i ← (obj.candidates mu).find? fun i => (query (obj.csiBuf i).subIdx).2 ≠ non
  return (i, (query (obj.csiBuf i).subIdx).2)

/-- The buffer and the handle after a request. -/
def grant (obj : CsiObj) (i : ℕ) (code : BitVec 6) (mu b160mhz : Bool) (h : ℕ) : CsiObj :=
  { obj with
    csiBuf := update obj.csiBuf i
      { obj.csiBuf i with subIdx := (obj.csiBuf i).subIdx ||| parts code }
    live := update obj.live h (some ⟨code, (obj.csiBuf i).idx, mu, b160mhz⟩) }

theorem queryIdleCsiBuf_eq (obj : CsiObj) (mu : Bool) (bw : ChannelWidth) (h : ℕ) :
    obj.queryIdleCsiBuf mu bw h = match obj.granted mu bw with
      | none => obj
      | some (i, code) => obj.grant i code mu (bw = .w160) h := by
  have hcsi : (if mu then obj.queryCsiBufMu (bw2csi bw) else obj.queryCsiBufSu (bw2csi bw)) =
      match queryOf (bw2csi bw) with
      | none => (obj, none, non)
      | some query => obj.queryLoop query (obj.candidates mu) := by
    unfold queryCsiBufMu queryCsiBufSu candidates; cases mu <;> cases bw <;> rfl
  rw [queryIdleCsiBuf, hcsi, granted]
  cases hq : queryOf (bw2csi bw) with
  | none => rfl
  | some query =>
    simp only [queryLoop_eq, Option.bind_eq_bind, Option.bind_some]
    cases hf : (obj.candidates mu).find? fun i => (query (obj.csiBuf i).subIdx).2 ≠ non with
    | none => rfl
    | some i =>
      have hne : (query (obj.csiBuf i).subIdx).2 ≠ non := by simpa using List.find?_some hf
      simp only [if_neg hne, Option.bind_some, pure]
      rw [setsParts_of hq _ hne]; rfl

variable {code : BitVec 6}

theorem granted_lt (hocc : obj.Occupied) {bw : ChannelWidth}
    (hg : obj.granted mu bw = some (i, code)) : i < obj.maxCsiBufNr := by
  unfold granted at hg
  simp only [Option.bind_eq_bind, Option.bind_eq_some_iff] at hg
  obtain ⟨query, -, j, hj, hpair⟩ := hg
  cases hpair
  exact candidates_lt hocc (List.mem_of_find?_eq_some hj)

/-! ### A half of which one part is busy -/

/-- The half that a request of 40 MHz gets in the buffer has a busy part. -/
def halfTaken (s : BitVec 6) : Bool :=
  if !is40LBusy s then s &&& 0b11#6 ≠ 0#6 else !is40UBusy s && s &&& 0b1100#6 ≠ 0#6

/-- A request of 40 MHz gets a half with a busy part: the first buffer that is not busy in both halves has
only one part busy in the first half that is not. -/
def Splits (obj : CsiObj) (mu : Bool) : Prop :=
  ∃ i ∈ (obj.candidates mu).find? fun i =>
      !is40LBusy (obj.csiBuf i).subIdx || !is40UBusy (obj.csiBuf i).subIdx,
    halfTaken (obj.csiBuf i).subIdx = true

instance (obj : CsiObj) (mu : Bool) : Decidable (obj.Splits mu) := by
  unfold Splits
  infer_instance

theorem query40_room : ∀ s : BitVec 6,
    decide ((queryAvlBufIdx40 s).2 ≠ non) = (!is40LBusy s || !is40UBusy s) := by decide

theorem query40_taken : ∀ s : BitVec 6, (queryAvlBufIdx40 s).2 ≠ non →
    (s &&& parts (queryAvlBufIdx40 s).2 = 0#6 ↔ halfTaken s = false) := by decide

theorem query_idle {size : CsiBufSize} {query : BitVec 6 → BitVec 6 × BitVec 6}
    (hq : queryOf size = some query) (hne : size ≠ .s40) :
    ∀ s, (query s).2 ≠ non → s &&& parts (query s).2 = 0#6 := by
  cases size <;> cases hq
  · decide
  · exact absurd rfl hne
  · decide
  · decide

theorem granted_idle {bw : ChannelWidth} (hg : obj.granted mu bw = some (i, code)) :
    (obj.csiBuf i).subIdx &&& parts code = 0#6 ↔ ¬ (bw = .w40 ∧ obj.Splits mu) := by
  unfold granted at hg
  simp only [Option.bind_eq_bind, Option.bind_eq_some_iff] at hg
  obtain ⟨query, hq, j, hj, hpair⟩ := hg
  cases hpair
  have hne : (query (obj.csiBuf i).subIdx).2 ≠ non := by simpa using List.find?_some hj
  by_cases hbw : bw = .w40
  · subst hbw
    obtain rfl : queryAvlBufIdx40 = query := Option.some.inj hq
    simp only [query40_room] at hj
    rw [query40_taken _ hne]
    have hsplits : obj.Splits mu ↔ halfTaken (obj.csiBuf i).subIdx = true := by
      unfold Splits
      rw [hj]; simp
    rw [hsplits]; simp
  · refine iff_of_true (query_idle hq (fun hs => hbw ?_) _ hne) fun hc => hbw hc.1
    cases bw <;> first | rfl | cases hs

theorem granted_of_splits (hs : obj.Splits mu) : ∃ i code, obj.granted mu .w40 = some (i, code) := by
  obtain ⟨i, hi, -⟩ := hs
  refine ⟨i, (queryAvlBufIdx40 (obj.csiBuf i).subIdx).2, ?_⟩
  simp only [← query40_room] at hi
  unfold granted
  show ((obj.candidates mu).find? fun i => _).bind _ = _
  rw [hi]; rfl

/-! ### The calls -/

theorem grant_live (obj : CsiObj) (i : ℕ) (code : BitVec 6) (mu b : Bool) {h' : ℕ} (hne : h' ≠ h) :
    (obj.grant i code mu b h).live h' = obj.live h' := update_of_ne hne ..

theorem grant_self (obj : CsiObj) (i : ℕ) (code : BitVec 6) (mu b : Bool) :
    (obj.grant i code mu b h).live h = some ⟨code, (obj.csiBuf i).idx, mu, b⟩ :=
  update_self ..

theorem Occupied.grant (hocc : obj.Occupied) {b : Bool} (hi : i < obj.maxCsiBufNr) (hh : obj.live h = none)
    (hidle : (obj.csiBuf i).subIdx &&& parts code = 0#6) : (obj.grant i code mu b h).Occupied := by
  have hcases : ∀ {h' c'}, (obj.grant i code mu b h).live h' = some c' →
      h' = h ∧ c' = ⟨code, (obj.csiBuf i).idx, mu, b⟩ ∨ h' ≠ h ∧ obj.live h' = some c' := by
    intro h' c' hc'
    by_cases hne : h' = h
    · subst hne
      rw [grant_self] at hc'; exact .inl ⟨rfl, (Option.some.inj hc').symm⟩
    · rw [grant_live _ _ _ _ _ hne] at hc'; exact .inr ⟨hne, hc'⟩
  have hidx : ∀ j, ((obj.grant i code mu b h).csiBuf j).idx = (obj.csiBuf j).idx := by
    intro j
    show (update obj.csiBuf i _ j).idx = _
    by_cases hj : j = i
    · subst hj; rw [update_self]
    · rw [update_of_ne hj]
  -- a part that is granted is no part of a live handle
  have hnew : ∀ {h' c' k}, obj.live h' = some c' → c'.idx = (obj.csiBuf i).idx →
      (parts c'.subIdx).getLsbD k = true → (parts code).getLsbD k = true → False := by
    intro h' c' k hc' hidx' hk' hk
    have hbusy := (hocc.busy i hi k).mpr ⟨h', c', hc', by rw [hidx', hocc.idx i hi], hk'⟩
    have hboth : ((obj.csiBuf i).subIdx &&& parts code).getLsbD k = true := by
      rw [BitVec.getLsbD_and, hbusy, hk, Bool.and_self]
    rw [hidle, BitVec.getLsbD_zero] at hboth; cases hboth
  refine ⟨hocc.su, hocc.nr, fun j hj => ?_, fun h' c' hc' => ?_, fun j hj k => ?_,
    fun h₁ h₂ c₁ c₂ k h₁c h₂c hidx' hk₁ hk₂ => ?_⟩
  · rw [hidx]; exact hocc.idx j hj
  · rcases hcases hc' with ⟨rfl, rfl⟩ | ⟨-, hold⟩
    · show (obj.csiBuf i).idx.toNat < obj.maxCsiBufNr
      rw [hocc.idx i hi]; exact hi
    · exact hocc.live h' c' hold
  · by_cases hji : j = i
    · subst hji
      show (update obj.csiBuf j _ j).subIdx.getLsbD k = true ↔ _
      rw [update_self, BitVec.getLsbD_or, Bool.or_eq_true, hocc.busy j hj k]
      constructor
      · rintro (⟨h', c', hc', hrest⟩ | hk)
        · have hne : h' ≠ h := fun heq => by
            rw [heq, hh] at hc'; cases hc'
          exact ⟨h', c', (grant_live _ _ _ _ _ hne).trans hc', hrest⟩
        · exact ⟨h, _, grant_self .., hocc.idx j hj, hk⟩
      · rintro ⟨h', c', hc', hidx', hk⟩
        rcases hcases hc' with ⟨rfl, rfl⟩ | ⟨-, hold⟩
        · exact .inr hk
        · exact .inl ⟨h', c', hold, hidx', hk⟩
    · show (update obj.csiBuf i _ j).subIdx.getLsbD k = true ↔ _
      rw [update_of_ne hji, hocc.busy j hj k]
      constructor
      · rintro ⟨h', c', hc', hrest⟩
        have hne : h' ≠ h := fun heq => by
          rw [heq, hh] at hc'; cases hc'
        exact ⟨h', c', (grant_live _ _ _ _ _ hne).trans hc', hrest⟩
      · rintro ⟨h', c', hc', hidx', hk⟩
        rcases hcases hc' with ⟨rfl, rfl⟩ | ⟨-, hold⟩
        · exact absurd (hidx'.symm.trans (hocc.idx i hi)) hji
        · exact ⟨h', c', hold, hidx', hk⟩
  · rcases hcases h₁c with ⟨rfl, rfl⟩ | ⟨-, hold₁⟩
    · rcases hcases h₂c with ⟨rfl, -⟩ | ⟨-, hold₂⟩
      · rfl
      · exact (hnew hold₂ hidx'.symm hk₂ hk₁).elim
    · rcases hcases h₂c with ⟨rfl, rfl⟩ | ⟨-, hold₂⟩
      · exact (hnew hold₁ hidx' hk₁ hk₂).elim
      · exact hocc.apart h₁ h₂ c₁ c₂ k hold₁ hold₂ hidx' hk₁ hk₂

theorem clearCsiSts_eq : ∀ code s : BitVec 6, s &&& 0b110000#6 = 0#6 →
    clearCsiSts code s = s &&& ~~~ parts code := by decide +kernel

theorem parts_low : ∀ code : BitVec 6, parts code &&& 0b110000#6 = 0#6 := by decide

theorem Occupied.low (hocc : obj.Occupied) (hi : i < obj.maxCsiBufNr) :
    (obj.csiBuf i).subIdx &&& 0b110000#6 = 0#6 := by
  refine BitVec.eq_of_getLsbD_eq fun k _ => ?_
  rw [BitVec.getLsbD_and, BitVec.getLsbD_zero, ← Bool.not_eq_true, Bool.and_eq_true]
  rintro ⟨hk, hhigh⟩
  obtain ⟨h, c, -, -, hpart⟩ := (hocc.busy i hi k).mp hk
  have hlow : (parts c.subIdx &&& 0b110000#6).getLsbD k = true := by
    rw [BitVec.getLsbD_and, hpart, hhigh, Bool.and_self]
  rw [parts_low, BitVec.getLsbD_zero] at hlow; cases hlow

theorem releaseCsiBuf_eq (hocc : obj.Occupied) {c : CsiBuf} (hc : obj.live h = some c) :
    obj.releaseCsiBuf h = { obj with
      csiBuf := update obj.csiBuf c.idx.toNat
        { obj.csiBuf c.idx.toNat with
          subIdx := (obj.csiBuf c.idx.toNat).subIdx &&& ~~~ parts c.subIdx }
      live := update obj.live h none } := by
  have hi := hocc.live h c hc
  rw [releaseCsiBuf, hc]
  simp only [if_pos hi, clearCsiSts_eq _ _ (hocc.low hi)]

theorem Occupied.release (hocc : obj.Occupied) {c : CsiBuf} (hc : obj.live h = some c) :
    (obj.releaseCsiBuf h).Occupied := by
  rw [releaseCsiBuf_eq hocc hc]
  have hcases : ∀ {h' c'}, update obj.live h none h' = some c' → h' ≠ h ∧ obj.live h' = some c' := by
    intro h' c' hc'
    by_cases hne : h' = h
    · subst hne
      rw [update_self] at hc'; cases hc'
    · rw [update_of_ne hne] at hc'; exact ⟨hne, hc'⟩
  refine ⟨hocc.su, hocc.nr, fun j hj => ?_, fun h' c' hc' => hocc.live h' c' (hcases hc').2,
    fun j hj k => ?_, fun h₁ h₂ c₁ c₂ k h₁c h₂c => ?_⟩
  · show (update obj.csiBuf c.idx.toNat _ j).idx.toNat = j
    by_cases hji : j = c.idx.toNat
    · subst hji
      rw [update_self]; exact hocc.idx _ hj
    · rw [update_of_ne hji]; exact hocc.idx j hj
  · have hleft : ∀ h' c', update obj.live h none h' = some c' ↔
        h' ≠ h ∧ obj.live h' = some c' := fun h' c' =>
      ⟨hcases, fun hc' => (update_of_ne hc'.1 ..).trans hc'.2⟩
    show (update obj.csiBuf c.idx.toNat _ j).subIdx.getLsbD k = true ↔ _
    simp only [hleft]
    by_cases hji : j = c.idx.toNat
    · subst hji
      rw [update_self, BitVec.getLsbD_and, Bool.and_eq_true, hocc.busy _ hj k]
      constructor
      · rintro ⟨⟨h', c', hc', hidx, hk⟩, hnot⟩
        refine ⟨h', c', ⟨?_, hc'⟩, hidx, hk⟩
        rintro rfl
        obtain rfl := Option.some.inj (hc.symm.trans hc')
        simp [hk] at hnot
      · rintro ⟨h', c', ⟨hne, hc'⟩, hidx, hk⟩
        refine ⟨⟨h', c', hc', hidx, hk⟩, ?_⟩
        -- the part is not one of the released handle
        have hlt : k < 6 := BitVec.lt_of_getLsbD hk
        rw [BitVec.getLsbD_not, decide_eq_true hlt, Bool.true_and, Bool.not_eq_true', ← Bool.not_eq_true]
        exact fun hk' => hne (hocc.apart h' h c' c k hc' hc (BitVec.eq_of_toNat_eq hidx) hk hk')
    · rw [update_of_ne hji, hocc.busy j hj k]
      constructor
      · rintro ⟨h', c', hc', hidx, hk⟩
        refine ⟨h', c', ⟨?_, hc'⟩, hidx, hk⟩
        rintro rfl
        obtain rfl := Option.some.inj (hc.symm.trans hc')
        exact hji hidx.symm
      · rintro ⟨h', c', ⟨-, hc'⟩, hrest⟩; exact ⟨h', c', hc', hrest⟩
  · exact hocc.apart h₁ h₂ c₁ c₂ k (hcases h₁c).2 (hcases h₂c).2

/-! ### The runs -/

/-- What the users of the handles rely on. -/
structure CsiOk (obj : CsiObj) : Prop where
  /-- No part of a buffer is covered by two live handles. -/
  apart : ∀ h h' c c' k, h ≠ h' → obj.live h = some c → obj.live h' = some c' → c.idx = c'.idx →
    ¬ ((parts c.subIdx).getLsbD k = true ∧ (parts c'.subIdx).getLsbD k = true)
  /-- A release leaves the parts of another live handle busy. -/
  release : ∀ h h' c c' k, h ≠ h' → obj.live h = some c → obj.live h' = some c' → (parts c'.subIdx).getLsbD k = true →
    ((obj.releaseCsiBuf h).csiBuf c'.idx.toNat).subIdx.getLsbD k = true
  /-- Without live handles the buffers are idle. -/
  idle : (∀ h, obj.live h = none) → ∀ i < obj.maxCsiBufNr, (obj.csiBuf i).subIdx = 0#6

theorem Occupied.csiOk (hocc : obj.Occupied) : obj.CsiOk where
  apart h h' c c' k hne hc hc' hidx hk := hne (hocc.apart h h' c c' k hc hc' hidx hk.1 hk.2)
  release h h' c c' k hne hc hc' hk := by
    have hocc' := hocc.release hc
    have hlive : (obj.releaseCsiBuf h).live h' = some c' := by
      rw [releaseCsiBuf_eq hocc hc]; exact (update_of_ne hne.symm ..).trans hc'
    exact (hocc'.busy _ (hocc'.live h' c' hlive) k).mpr ⟨h', c', hlive, rfl, hk⟩
  idle hnone i hi := by
    refine BitVec.eq_of_getLsbD_eq fun k _ => ?_
    rw [BitVec.getLsbD_zero, ← Bool.not_eq_true, hocc.busy i hi k]
    rintro ⟨h, c, hc, -⟩
    rw [hnone h] at hc; cases hc

def Splitting (obj : CsiObj) : CsiEv → Prop
  | .query mu bw _ => bw = .w40 ∧ obj.Splits mu
  | .release _ => False

theorem Occupied.step (hocc : obj.Occupied) {e : CsiEv} (he : obj.Enabled e)
    (hnot : ¬ obj.Splitting e) : (obj.step e).Occupied := by
  cases e with
  | query mu bw h =>
    show (obj.queryIdleCsiBuf mu bw h).Occupied
    rw [queryIdleCsiBuf_eq]
    cases hg : obj.granted mu bw with
    | none => exact hocc
    | some r => exact hocc.grant (granted_lt hocc hg) he ((granted_idle hg).mpr hnot)
  | release h =>
    obtain ⟨c, hc⟩ := Option.isSome_iff_exists.mp he
    exact hocc.release hc

theorem Occupied.not_csiOk (hocc : obj.Occupied) {e : CsiEv} (he : obj.Enabled e)
    (hsplit : obj.Splitting e) : ¬ (obj.step e).CsiOk := by
  cases e with
  | release h => exact hsplit.elim
  | query mu bw h =>
    intro hok
    obtain ⟨rfl, hs⟩ := hsplit
    obtain ⟨i, code, hg⟩ := granted_of_splits hs
    have hi := granted_lt hocc hg
    have htaken : ¬ (obj.csiBuf i).subIdx &&& parts code = 0#6 := fun h0 =>
      (granted_idle hg).mp h0 ⟨rfl, hs⟩
    obtain ⟨k, hk, hk'⟩ : ∃ k, (obj.csiBuf i).subIdx.getLsbD k = true ∧ (parts code).getLsbD k = true := by
      by_contra hnone
      refine htaken (BitVec.eq_of_getLsbD_eq fun k _ => ?_)
      rw [BitVec.getLsbD_and, BitVec.getLsbD_zero, ← Bool.not_eq_true, Bool.and_eq_true]
      exact fun hk => hnone ⟨k, hk⟩
    obtain ⟨h', c', hc', hidx, hpart⟩ := (hocc.busy i hi k).mp hk
    have hne : h' ≠ h := fun heq => by
      have hnone : obj.live h = none := he
      rw [heq, hnone] at hc'; cases hc'
    have heq : obj.step (.query mu .w40 h) = obj.grant i code mu (ChannelWidth.w40 = .w160) h := by
      show obj.queryIdleCsiBuf mu .w40 h = _
      rw [queryIdleCsiBuf_eq, hg]
    rw [heq] at hok
    refine hok.apart h' h c' _ k hne ((grant_live _ _ _ _ _ hne).trans hc') (grant_self ..) ?_
      ⟨hpart, hk'⟩
    exact BitVec.eq_of_toNat_eq (hidx.trans (hocc.idx i hi).symm)

/-- The handles are apart, and the busy bits theirs, in every state of a run exactly when no request of
the run gets a half that has a busy part. -/
theorem csiOk_iff {suBufNr muBufNr : ℕ} {es : List CsiEv} (hnr : suBufNr + muBufNr ≤ 32)
    (hes : Legal step Enabled (csiInit suBufNr muBufNr) es) :
    (∀ pre, pre <+: es → (pre.foldl step (csiInit suBufNr muBufNr)).CsiOk) ↔
      ∀ pre mu h, pre ++ [.query mu .w40 h] <+: es → ¬ (pre.foldl step (csiInit suBufNr muBufNr)).Splits mu := by
  rw [Legal.always_iff (J := Occupied) (B := Splitting) (occupied_init hnr)
    (fun _ hocc => hocc.csiOk) (fun _ _ hocc he hnot => hocc.step he hnot)
    (fun _ _ hocc he hsplit => hocc.not_csiOk he hsplit) hes]
  constructor
  · exact fun hnot pre mu h hpre hs => hnot pre _ hpre ⟨rfl, hs⟩
  · intro hnot pre e hpre hsplit
    cases e with
    | release h => exact hsplit.elim
    | query mu bw h =>
      obtain ⟨rfl, hs⟩ := hsplit
      exact hnot pre mu h hpre hs

/-- A request of 40 MHz in front of one of 20 MHz, and their releases. -/
def wideFirst : List CsiEv := [.query false .w40 0, .query false .w20 1, .release 0, .release 1]

theorem csiOk_iff_two : (wideFirst.foldl step (csiInit 4 6)).CsiOk := by
  refine (csiOk_iff (by decide) (by decide)).mpr ?_ wideFirst (List.prefix_refl _)
  rintro pre mu h ⟨rest, hpre⟩
  unfold wideFirst at hpre
  rcases pre with _ | ⟨e, pre⟩
  · simp only [List.nil_append, List.cons_append, List.cons.injEq, CsiEv.query.injEq] at hpre
    obtain ⟨⟨rfl, -, -⟩, -⟩ := hpre
    decide
  · rcases pre with _ | ⟨e₂, _ | ⟨e₃, _ | ⟨e₄, pre⟩⟩⟩ <;> simp at hpre

/-- A request of 40 MHz behind one of 20 MHz. -/
theorem csi_overlap : ¬ ∀ es : List CsiEv, Legal step Enabled (csiInit 4 6) es →
    (es.foldl step (csiInit 4 6)).CsiOk := by
  intro h
  have hok := h [.query false .w20 0, .query false .w40 1] (by decide)
  refine hok.apart 0 1 ⟨ll20, 0, false, false⟩ ⟨l40, 0, false, false⟩ 0 (by decide) ?_ ?_ rfl
    (by decide)
  · decide
  · decide

end CsiObj

end Rtl8852cu.Hal
