import Mathlib.Data.List.Pairwise
import Mathlib.Data.List.Perm.Basic
import Mathlib.Data.Nat.Bitwise
import Mathlib.Tactic.Common

/-!
# Channel definitions that are shared

`phl/phl_chan.c`, `_phl_is_chbw_grouped` and `_phl_adjust_chandef`, and the loop of `phl/phl_mr.c`, `phl_mr_chandef_sync`:
when the links of roles may have one channel, and the definition of the channel they then have.

Of a definition the centre and the frequencies, which none of these looks at, are left out; a bandwidth is one of the values
below `CHANNEL_WIDTH_MAX`.
-/

namespace Rtl8852cu.Chan

inductive BandType
  | on24g | on5g | on6g
  deriving DecidableEq, Repr

inductive ChannelWidth
  | w20 | w40 | w80 | w160 | w80_80 | w5 | w10
  deriving DecidableEq, Repr

inductive ChanOffset
  | noExt | upper | noDef | lower | upper40m | lower40m | upper80m | lower80m
  deriving DecidableEq, Repr

/-- The value of a bandwidth, by which the code compares. -/
def ChannelWidth.val : ChannelWidth → ℕ
  | w20 => 0
  | w40 => 1
  | w80 => 2
  | w160 => 3
  | w80_80 => 4
  | w5 => 5
  | w10 => 6

def ChannelWidth.mhz : ChannelWidth → ℕ
  | w20 => 20
  | w40 => 40
  | w80 => 80
  | w160 => 160
  | w80_80 => 160
  | w5 => 5
  | w10 => 10

/-- The bandwidths with offsets that are compared. -/
def ChannelWidth.wide (w : ChannelWidth) : Prop := w = w40 ∨ w = w80 ∨ w = w160

instance : DecidablePred ChannelWidth.wide := fun _ => inferInstanceAs (Decidable (_ ∨ _ ∨ _))

structure ChanDef where
  band : BandType
  chan : ℕ
  bw : ChannelWidth
  offset : ChanOffset
  deriving DecidableEq, Repr

def isChbwGrouped (a b : ChanDef) : Bool :=
  if a.band ≠ b.band then false
  else if a.chan ≠ b.chan then false
  else if a.bw.wide ∧ b.bw.wide then
    if a.offset ≠ b.offset then false else true
  else true

/-- `_phl_upt_offset_by_chbw_24g`. What is put into the definition for the channels from 1 to 4 is overwritten at the end. -/
def uptOffsetByChbw24g (n : ChanDef) : ChanDef :=
  if ChannelWidth.w80.val ≤ n.bw.val ∨ n.chan < 1 ∨ n.chan > 14 then n
  else if n.bw = .w20 then { n with offset := .noExt }
  else if n.chan ≤ 4 then { { n with offset := .upper } with offset := .noExt }
  else if n.chan ≤ 9 then
    if n.offset = .upper ∨ n.offset = .lower then n else { n with offset := .lower }
  else if n.chan ≤ 13 then { n with offset := .lower }
  else n

def uptOffsetByChbw5g (n : ChanDef) : ChanDef :=
  if n.chan < 36 ∨ n.chan > 177 then n
  else if n.chan ∈ [36, 44, 52, 60, 100, 108, 116, 124, 132, 140, 149, 157, 165, 173] then
    if n.bw.wide then { n with offset := .upper } else { n with offset := .noExt }
  else if n.chan ∈ [40, 48, 56, 64, 104, 112, 120, 128, 136, 144, 153, 161, 169, 177] then
    if n.bw.wide then { n with offset := .lower } else { n with offset := .noExt }
  else n

def uptOffsetByChbw6g (n : ChanDef) : ChanDef :=
  if 1 ≤ n.chan ∧ n.chan ≤ 253 then
    if n.chan % 8 = 1 then
      if n.bw = .w20 then { n with offset := .noExt } else { n with offset := .upper }
    else if n.chan % 8 = 5 then
      if n.bw = .w20 then { n with offset := .noExt } else { n with offset := .lower }
    else n
  else n

def uptOffsetByChbw (n : ChanDef) : ChanDef :=
  match n.band with
  | .on24g => uptOffsetByChbw24g n
  | .on5g => uptOffsetByChbw5g n
  | .on6g => uptOffsetByChbw6g n

/-- `_phl_adjust_chandef`: the new definition and the one of the group. -/
def adjustChandef (n g : ChanDef) (gUpt : Bool) : ChanDef × ChanDef :=
  let n := { n with band := g.band, chan := g.chan }
  let n := if g.band = .on24g ∧ (n.bw = .w80 ∨ n.bw = .w160) then { n with bw := .w40 } else n
  let n :=
    if n.bw.wide then
      let n :=
        if g.bw.wide then { n with offset := g.offset }
        else if g.bw = .w20 then uptOffsetByChbw n
        else n
      if n.offset = .noExt then { n with bw := .w20 } else n
    else if n.bw = .w20 then { n with offset := .noExt }
    else n
  if !gUpt then (n, g)
  else if g.bw.val < n.bw.val then (n, { g with bw := n.bw, offset := n.offset })
  else (n, g)

/-- What a further member does to the definition that was met so far; `none` where the loop is left with no role. -/
def syncStep (r d : ChanDef) : Option ChanDef :=
  if r.band ≠ d.band then none
  else if r.chan ≠ d.chan then none
  else if r.bw.val < d.bw.val then some { r with bw := d.bw, offset := d.offset }
  else if r.bw = d.bw ∧ r.offset ≠ d.offset then none
  else some r

/-- The loop of `phl_mr_chandef_sync` over the members, the first of which is taken as it is. -/
def syncDefs : List ChanDef → Option ChanDef
  | [] => none
  | d :: l => l.foldlM syncStep d

/-! ### What is to hold -/

/-- **The definition that the members need**: their band and channel, the largest of their bandwidths, and the offset of a
member that has it. -/
structure Needs (l : List ChanDef) (d : ChanDef) : Prop where
  all : ∀ e ∈ l, e.band = d.band ∧ e.chan = d.chan ∧ e.bw.mhz ≤ d.bw.mhz
  widest : ∃ e ∈ l, e.bw = d.bw ∧ e.offset = d.offset

/-- The members have one band and channel. -/
def SameChan (l : List ChanDef) : Prop := ∀ e ∈ l, ∀ e' ∈ l, e.band = e'.band ∧ e.chan = e'.chan

/-- Behind the members `p`, each one whose bandwidth no earlier one exceeds has the offset of the earlier ones with the same
bandwidth. -/
def InOrder : List ChanDef → List ChanDef → Prop
  | _, [] => True
  | p, d :: l =>
    ((∀ e ∈ p, e.bw.val ≤ d.bw.val) → ∀ e ∈ p, e.bw = d.bw → e.offset = d.offset) ∧ InOrder (p ++ [d]) l

/-- The bandwidths whose values come behind those of larger ones. -/
def ChannelWidth.narrow (w : ChannelWidth) : Prop := w = w5 ∨ w = w10

instance : DecidablePred ChannelWidth.narrow := fun _ => inferInstanceAs (Decidable (_ ∨ _))

/-- The values of the members' bandwidths are in the order of the bandwidths. -/
def OneScale (l : List ChanDef) : Prop := (∀ e ∈ l, e.bw.narrow) ∨ ∀ e ∈ l, ¬ e.bw.narrow

/-- Members that get what they need in every order. -/
structure Settled (l : List ChanDef) : Prop where
  some : l ≠ []
  offsets : ∀ e ∈ l, ∀ e' ∈ l, e.bw = e'.bw → e.offset = e'.offset
  scale : OneScale l

/-- What the loop has after the members `p`. -/
structure Synced (p : List ChanDef) (r : ChanDef) : Prop where
  all : ∀ e ∈ p, e.band = r.band ∧ e.chan = r.chan ∧ e.bw.val ≤ r.bw.val
  widest : ∃ e ∈ p, e.bw = r.bw ∧ e.offset = r.offset
  settled : ∀ e ∈ p, e.bw = r.bw → e.offset = r.offset

variable {a b c d r : ChanDef} {p l l' : List ChanDef}

/-! ### Grouping -/

theorem isChbwGrouped_iff : isChbwGrouped a b = true ↔
    a.band = b.band ∧ a.chan = b.chan ∧ (a.bw.wide → b.bw.wide → a.offset = b.offset) := by
  unfold isChbwGrouped
  by_cases hband : a.band = b.band
  · rw [if_neg (not_not.mpr hband)]
    by_cases hchan : a.chan = b.chan
    · rw [if_neg (not_not.mpr hchan)]
      by_cases hwide : a.bw.wide ∧ b.bw.wide
      · rw [if_pos hwide]
        by_cases hoff : a.offset = b.offset <;> simp [hband, hchan, hwide, hoff]
      · rw [if_neg hwide]
        have hno : a.bw.wide → b.bw.wide → a.offset = b.offset := fun ha hb => absurd ⟨ha, hb⟩ hwide
        exact iff_of_true rfl ⟨hband, hchan, hno⟩
    · rw [if_pos hchan]; exact iff_of_false nofun fun h => hchan h.2.1
  · rw [if_pos hband]; exact iff_of_false nofun fun h => hband h.1

theorem sameChan_of_grouped (h : l.Pairwise fun a b => isChbwGrouped a b = true) : SameChan l := by
  have hsymm : Std.Symm fun a b : ChanDef => a.band = b.band ∧ a.chan = b.chan :=
    ⟨fun _ _ hab => ⟨hab.1.symm, hab.2.symm⟩⟩
  have hchan : l.Pairwise fun a b => a.band = b.band ∧ a.chan = b.chan := h.imp fun hab => by
    obtain ⟨hband, hchan, -⟩ := isChbwGrouped_iff.mp hab
    exact ⟨hband, hchan⟩
  exact fun e he e' he' => hchan.forall_of_forall (fun _ _ => ⟨rfl, rfl⟩) he he'

theorem adjustChandef_chan (n g : ChanDef) (gUpt : Bool) :
    (adjustChandef n g gUpt).2.band = g.band ∧ (adjustChandef n g gUpt).2.chan = g.chan := by
  unfold adjustChandef
  simp only
  split_ifs <;> exact ⟨rfl, rfl⟩

/-! ### One member -/

theorem ChannelWidth.val_injective {w w' : ChannelWidth} (h : w.val = w'.val) : w = w' := by
  cases w <;> cases w' <;> first | rfl | cases h

theorem synced_singleton (d : ChanDef) : Synced [d] d := by
  refine ⟨fun e he => ?_, ⟨d, List.mem_singleton_self d, rfl, rfl⟩, fun e he _ => ?_⟩ <;>
    obtain rfl := List.mem_singleton.mp he
  · exact ⟨rfl, rfl, Nat.le_refl _⟩
  · rfl

theorem syncStep_isSome_iff (h : Synced p r) (hband : r.band = d.band) (hchan : r.chan = d.chan) :
    (syncStep r d).isSome ↔ ((∀ e ∈ p, e.bw.val ≤ d.bw.val) → ∀ e ∈ p, e.bw = d.bw → e.offset = d.offset) := by
  obtain ⟨w, hw, hwbw, hwoff⟩ := h.widest
  unfold syncStep
  rw [if_neg (not_not.mpr hband), if_neg (not_not.mpr hchan)]
  by_cases hlt : r.bw.val < d.bw.val
  · rw [if_pos hlt]
    refine iff_of_true rfl fun _ e he hbw => ?_
    have hle := (h.all e he).2.2
    rw [hbw] at hle; omega
  · rw [if_neg hlt]
    by_cases heq : r.bw = d.bw
    · have hearlier : ∀ e ∈ p, e.bw.val ≤ d.bw.val := fun e he => heq ▸ (h.all e he).2.2
      by_cases hoff : r.offset = d.offset
      · rw [if_neg fun hne => hne.2 hoff]
        refine iff_of_true rfl fun _ e he hbw => ?_
        rw [h.settled e he (hbw.trans heq.symm), hoff]
      · rw [if_pos ⟨heq, hoff⟩]
        refine iff_of_false nofun fun hall => hoff ?_
        rw [← hwoff]; exact hall hearlier w hw (hwbw.trans heq)
    · rw [if_neg fun hne => heq hne.1]
      refine iff_of_true rfl fun hall e he hbw => ?_
      have hle := hall w hw
      rw [hwbw] at hle; exact absurd (ChannelWidth.val_injective (by omega)) heq

theorem syncStep_synced (h : Synced p r) {r' : ChanDef} (hstep : syncStep r d = some r') : Synced (p ++ [d]) r' := by
  have hcases : ∀ {q : ChanDef → Prop}, (∀ e ∈ p, q e) → q d → ∀ e ∈ p ++ [d], q e := fun hp hd e he => by
    rcases List.mem_append.mp he with he | he
    · exact hp e he
    · exact List.mem_singleton.mp he ▸ hd
  unfold syncStep at hstep
  by_cases hband : r.band = d.band
  swap
  · rw [if_pos hband] at hstep; cases hstep
  by_cases hchan : r.chan = d.chan
  swap
  · rw [if_neg (not_not.mpr hband), if_pos hchan] at hstep; cases hstep
  rw [if_neg (not_not.mpr hband), if_neg (not_not.mpr hchan)] at hstep
  by_cases hlt : r.bw.val < d.bw.val
  · rw [if_pos hlt] at hstep
    obtain rfl := Option.some.inj hstep
    refine ⟨hcases (fun e he => ?_) ⟨hband.symm, hchan.symm, Nat.le_refl _⟩, ⟨d, by simp, rfl, rfl⟩,
      hcases (fun e he hbw => ?_) fun _ => rfl⟩
    · obtain ⟨hb, hc, hle⟩ := h.all e he; exact ⟨hb, hc, by simp only; omega⟩
    · have hle := (h.all e he).2.2
      simp only at hbw
      rw [hbw] at hle; omega
  · rw [if_neg hlt] at hstep
    by_cases hoff : r.bw = d.bw ∧ r.offset ≠ d.offset
    · rw [if_pos hoff] at hstep; cases hstep
    · rw [if_neg hoff] at hstep
      obtain rfl := Option.some.inj hstep
      obtain ⟨w, hw, hwbw, hwoff⟩ := h.widest
      refine ⟨hcases h.all ⟨hband.symm, hchan.symm, by omega⟩, ⟨w, List.mem_append_left _ hw, hwbw, hwoff⟩,
        hcases h.settled fun hbw => ?_⟩
      by_contra hne
      exact hoff ⟨hbw.symm, fun he => hne he.symm⟩

/-! ### All members -/

theorem foldlM_syncStep (h : Synced p r) (hsame : SameChan (p ++ l)) :
    ((l.foldlM syncStep r).isSome ↔ InOrder p l) ∧ ∀ r', l.foldlM syncStep r = some r' → Synced (p ++ l) r' := by
  induction l generalizing p r with
  | nil =>
    refine ⟨iff_of_true rfl trivial, fun r' hr' => ?_⟩
    obtain rfl := Option.some.inj hr'
    rwa [List.append_nil]
  | cons d l ih =>
    obtain ⟨w, hw, -, -⟩ := h.widest
    obtain ⟨hband, hchan, -⟩ := h.all w hw
    obtain ⟨hband', hchan'⟩ := hsame w (List.mem_append_left _ hw) d (by simp)
    have hstep := syncStep_isSome_iff h (hband.symm.trans hband') (hchan.symm.trans hchan')
    rw [List.foldlM_cons]
    cases hd : syncStep r d with
    | none =>
      rw [hd] at hstep
      refine ⟨iff_of_false nofun fun hin => ?_, nofun⟩
      exact absurd (hstep.mpr hin.1) nofun
    | some r₁ =>
      rw [hd] at hstep
      rw [List.append_cons] at hsame ⊢
      obtain ⟨hiff, hsynced⟩ := ih (syncStep_synced h hd) hsame
      exact ⟨hiff.trans ⟨fun hin => ⟨hstep.mp rfl, hin⟩, fun hin => hin.2⟩, hsynced⟩

theorem syncDefs_isSome_iff (hsame : SameChan l) : (syncDefs l).isSome ↔ l ≠ [] ∧ InOrder [] l := by
  cases l with
  | nil => exact iff_of_false nofun fun h => h.1 rfl
  | cons d l =>
    have hfirst : InOrder [] (d :: l) ↔ InOrder [d] l := and_iff_right fun _ => nofun
    rw [hfirst]
    exact (foldlM_syncStep (synced_singleton d) hsame).1.trans (and_iff_right (List.cons_ne_nil d l)).symm

theorem syncDefs_synced (hsame : SameChan l) (h : syncDefs l = some r) : Synced l r := by
  cases l with
  | nil => cases h
  | cons d l => exact (foldlM_syncStep (synced_singleton d) hsame).2 r h

theorem mhz_le_of_val_le {w w' : ChannelWidth} (h : w.val ≤ w'.val) (hscale : w.narrow ↔ w'.narrow) : w.mhz ≤ w'.mhz := by
  revert h hscale
  cases w <;> cases w' <;> decide

theorem narrow_of_val_le {w w' : ChannelWidth} (h : w.val ≤ w'.val) (hmhz : w.mhz ≤ w'.mhz) : w.narrow ↔ w'.narrow := by
  revert h hmhz
  cases w <;> cases w' <;> decide

theorem Synced.needs_iff (h : Synced l r) : Needs l r ↔ OneScale l := by
  obtain ⟨w, hw, hwbw, -⟩ := h.widest
  constructor
  · intro hneeds
    have hsame : ∀ e ∈ l, e.bw.narrow ↔ r.bw.narrow := fun e he =>
      narrow_of_val_le (h.all e he).2.2 (hneeds.all e he).2.2
    by_cases hr : r.bw.narrow
    · exact .inl fun e he => (hsame e he).mpr hr
    · exact .inr fun e he hn => hr ((hsame e he).mp hn)
  · intro hscale
    refine ⟨fun e he => ?_, h.widest⟩
    obtain ⟨hband, hchan, hle⟩ := h.all e he
    refine ⟨hband, hchan, mhz_le_of_val_le hle ?_⟩
    rw [← hwbw]
    rcases hscale with hall | hnone
    · exact iff_of_true (hall e he) (hall w hw)
    · exact iff_of_false (hnone e he) (hnone w hw)

theorem syncDefs_iff (hsame : SameChan l) :
    (∃ d, syncDefs l = some d ∧ Needs l d) ↔ l ≠ [] ∧ InOrder [] l ∧ OneScale l := by
  rw [← and_assoc, ← syncDefs_isSome_iff hsame]
  constructor
  · rintro ⟨d, hd, hneeds⟩
    refine ⟨?_, (syncDefs_synced hsame hd).needs_iff.mp hneeds⟩
    rw [hd]; rfl
  · rintro ⟨hsome, hscale⟩
    obtain ⟨d, hd⟩ := Option.isSome_iff_exists.mp hsome
    exact ⟨d, hd, (syncDefs_synced hsame hd).needs_iff.mpr hscale⟩

/-! ### Every order -/

theorem SameChan.perm (h : SameChan l) (hperm : l'.Perm l) : SameChan l' := fun e he e' he' =>
  h e (hperm.mem_iff.mp he) e' (hperm.mem_iff.mp he')

theorem Synced.unique (h : Synced l r) {r' : ChanDef} (h' : Synced l' r') (hperm : l'.Perm l) : r' = r := by
  obtain ⟨w, hw, hbw, hoff⟩ := h.widest
  obtain ⟨w', hw', hbw', -⟩ := h'.widest
  obtain ⟨hband, hchan, hle⟩ := h'.all w (hperm.mem_iff.mpr hw)
  obtain ⟨hband₁, hchan₁, -⟩ := h.all w hw
  have hle' := (h.all w' (hperm.mem_iff.mp hw')).2.2
  have hw₁ : r'.bw = r.bw := by
    apply ChannelWidth.val_injective
    rw [hbw] at hle
    rw [hbw'] at hle'; omega
  have hoff' := h'.settled w (hperm.mem_iff.mpr hw) (hbw.trans hw₁.symm)
  cases r
  cases r'
  simp only [ChanDef.mk.injEq]
  exact ⟨hband.symm.trans hband₁, hchan.symm.trans hchan₁, hw₁, hoff'.symm.trans hoff⟩

theorem inOrder_of_offsets (h : ∀ e ∈ p ++ l, ∀ e' ∈ p ++ l, e.bw = e'.bw → e.offset = e'.offset) : InOrder p l := by
  induction l generalizing p with
  | nil => trivial
  | cons d l ih =>
    refine ⟨fun _ e he => h e (List.mem_append_left _ he) d (by simp), ih ?_⟩
    rwa [← List.append_cons]

theorem syncDefs_perm_iff (hsame : SameChan l) :
    (∃ d, Needs l d ∧ ∀ l', l'.Perm l → syncDefs l' = some d) ↔ Settled l := by
  constructor
  · rintro ⟨d, hneeds, horder⟩
    obtain ⟨hsome, -, hscale⟩ := (syncDefs_iff hsame).mp ⟨d, horder l (.refl l), hneeds⟩
    refine ⟨hsome, fun e he e' he' hbw => ?_, hscale⟩
    by_contra hoff
    have hne : e' ≠ e := fun heq => hoff (heq ▸ rfl)
    have hperm : (e :: e' :: (l.erase e).erase e').Perm l :=
      ((List.perm_cons_erase ((List.mem_erase_of_ne hne).mpr he')).symm.cons e).trans (List.perm_cons_erase he).symm
    have hstep : syncStep e e' = none := by
      obtain ⟨hband, hchan⟩ := hsame e he e' he'
      unfold syncStep
      rw [if_neg (not_not.mpr hband), if_neg (not_not.mpr hchan), if_neg (by rw [hbw]; omega), if_pos ⟨hbw, hoff⟩]
    have hnone : syncDefs (e :: e' :: (l.erase e).erase e') = none := by
      change (e' :: (l.erase e).erase e').foldlM syncStep e = none
      rw [List.foldlM_cons, hstep]; rfl
    rw [horder _ hperm] at hnone; cases hnone
  · rintro ⟨hsome, hoff, hscale⟩
    obtain ⟨d, hd, hneeds⟩ := (syncDefs_iff hsame).mpr ⟨hsome, inOrder_of_offsets hoff, hscale⟩
    refine ⟨d, hneeds, fun l' hperm => ?_⟩
    have hsame' := hsame.perm hperm
    have hoff' : ∀ e ∈ [] ++ l', ∀ e' ∈ [] ++ l', e.bw = e'.bw → e.offset = e'.offset := fun e he e' he' =>
      hoff e (hperm.mem_iff.mp he) e' (hperm.mem_iff.mp he')
    have hne : l' ≠ [] := fun hnil => hsome (List.Perm.eq_nil (hnil ▸ hperm.symm))
    obtain ⟨d', hd'⟩ := Option.isSome_iff_exists.mp
      ((syncDefs_isSome_iff hsame').mpr ⟨hne, inOrder_of_offsets hoff'⟩)
    rw [hd', (syncDefs_synced hsame hd).unique (syncDefs_synced hsame' hd') hperm]

end Rtl8852cu.Chan
