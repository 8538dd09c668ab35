import Rtl8852cu.Chan.Chandef
import Rtl8852cu.Lib.Reach
import Mathlib.Data.List.Nodup
import Mathlib.Data.List.Range
import Mathlib.Logic.Function.Basic

/-!
# Channel contexts

`phl/phl_chan.c`, `rtw_phl_chanctx_add` and `rtw_phl_chanctx_del`, and `phl/phl_mr.c`, `phl_mr_chandef_sync`: the channel
contexts of a hardware band, the roles that are in them, and the definition that a context has.

An object is known by its address. The build is without `CONFIG_DBCC_SUPPORT` and with `CONFIG_MCC_SUPPORT`; the counts of
the bands of the contexts, which decide nothing here, are left out.
-/

namespace Rtl8852cu.Chan

open Lib

/-- A link: the role, and its place in `rlink`. -/
abbrev Link := ℕ × ℕ

/-- The roles and the bands of their links, of which a role has at most one on a band. -/
structure Links where
  maxWifiRoleNumber : ℕ
  rlinkNum : ℕ → ℕ
  hwBand : Link → ℕ
  few : maxWifiRoleNumber ≤ 8
  pos : ∀ r, 0 < rlinkNum r
  apart : ∀ r i j, i < rlinkNum r → j < rlinkNum r → hwBand (r, i) = hwBand (r, j) → i = j

/-- `enum mr_op_mode` -/
inductive OpMode
  | none | swr | scc | mcc
  deriving DecidableEq, Repr

/-- The control of a band, the objects of its contexts, and what the links have. -/
structure ChanSt where
  chandef : Link → ChanDef
  chanctx : Link → Option ℕ
  chanDef : ℕ → ChanDef
  roleMap : ℕ → BitVec 8
  queue : List ℕ
  opMode : OpMode
  /-- The static `psts` of `_phl_cc_band_map_set`. -/
  ccPsts : Bool
  next : ℕ

structure ChanCfg where
  links : Links
  id : ℕ
  isDb : Bool
  mccSup : Bool

variable (R : Links) (id : ℕ)

/-- The link of a role that `phl_mr_chandef_sync` looks at: the first one on the band, or the last one. -/
def Links.rlinkOf (r : ℕ) : Link :=
  (r, ((List.range (R.rlinkNum r)).find? fun i => R.hwBand (r, i) = id).getD (R.rlinkNum r - 1))

/-- The loop of `phl_mr_chandef_sync`, where a role was met or not. -/
def syncLoop (chandef : Link → ChanDef) (roleMap : BitVec 8) : List ℕ → Option ChanDef → Option ChanDef
  | [], ret => ret
  | ridx :: rs, ret =>
    if roleMap.getLsbD ridx then
      let d := chandef (R.rlinkOf id ridx)
      match ret with
      | none => syncLoop chandef roleMap rs (some d)
      | some r =>
        match syncStep r d with
        | none => none
        | some r' => syncLoop chandef roleMap rs (some r')
    else syncLoop chandef roleMap rs ret

/-- `phl_mr_chandef_sync`, of a context with a role map. -/
def phlMrChandefSync (chandef : Link → ChanDef) (roleMap : BitVec 8) : Option ChanDef :=
  syncLoop R id chandef roleMap (List.range R.maxWifiRoleNumber) none

def roles (roleMap : BitVec 8) : List ℕ := (List.range R.maxWifiRoleNumber).filter (roleMap.getLsbD ·)

/-- The definitions of the links of a context, in the order of the roles. -/
def members (chandef : Link → ChanDef) (roleMap : BitVec 8) : List ChanDef :=
  (roles R roleMap).map fun r => chandef (R.rlinkOf id r)

def chanctxGetRnum (roleMap : BitVec 8) : ℕ := (roles R roleMap).length

/-- `_phl_chanctx_rmap_set` -/
def ChanSt.rmapSet (s : ChanSt) (rlink : Link) (a : ℕ) : ChanSt :=
  { s with
    roleMap := Function.update s.roleMap a (s.roleMap a ||| BitVec.twoPow 8 rlink.1)
    chanctx := Function.update s.chanctx rlink (some a) }

/-- `_phl_chanctx_rmap_clr` -/
def ChanSt.rmapClr (s : ChanSt) (rlink : Link) (a : ℕ) : ChanSt :=
  { s with
    roleMap := Function.update s.roleMap a (s.roleMap a &&& ~~~BitVec.twoPow 8 rlink.1)
    chanctx := Function.update s.chanctx rlink none }

/-- Whether `_phl_cc_band_map_set` knows the part of the band. -/
def ccBandKnown (d : ChanDef) : Bool :=
  match d.band with
  | .on24g => true
  | .on5g => (36 ≤ d.chan ∧ d.chan ≤ 48) ∨ (52 ≤ d.chan ∧ d.chan ≤ 64) ∨ (100 ≤ d.chan ∧ d.chan ≤ 144) ∨
      (149 ≤ d.chan ∧ d.chan ≤ 177)
  | .on6g => (1 ≤ d.chan ∧ d.chan ≤ 93) ∨ (97 ≤ d.chan ∧ d.chan ≤ 117) ∨ (121 ≤ d.chan ∧ d.chan ≤ 189) ∨
      (193 ≤ d.chan ∧ d.chan ≤ 233)

/-- `_phl_chanctx_create`, with memory or without. A context that cannot be added stays in the queue. -/
def ChanSt.create (s : ChanSt) (rlink : Link) (newChdef : ChanDef) (mem : Bool) : Bool × ChanSt :=
  if !mem then (false, s)
  else
    let a := s.next
    let s :=
      { s with
        chanDef := Function.update s.chanDef a newChdef
        roleMap := Function.update s.roleMap a 0
        queue := s.queue ++ [a]
        next := s.next + 1 }
    if s.queue.length > 2 then (false, s)
    else
      let s := { s with ccPsts := s.ccPsts && ccBandKnown newChdef }
      if s.ccPsts then (true, s.rmapSet rlink a) else (false, s)

/-- `phl_chanctx_add`: whether the definition is grouped, the state, and the definition that is handed back. -/
def phlChanctxAdd (mccSup : Bool) (s : ChanSt) (rlink : Link) (newChdef : ChanDef) (mem : Bool) :
    Bool × ChanSt × ChanDef :=
  let s := { s with opMode := .none }
  let chanctxNum := s.queue.length
  if chanctxNum = 0 then
    let r := s.create rlink newChdef mem
    if r.1 then (true, { r.2 with opMode := .swr }, newChdef) else (false, r.2, newChdef)
  else
    match s.queue.find? fun a => isChbwGrouped (s.chanDef a) newChdef with
    | some a =>
      let g := (adjustChandef newChdef (s.chanDef a) true).2
      let s := { s with chanDef := Function.update s.chanDef a g }.rmapSet rlink a
      if chanctxNum = 1 then (true, { s with opMode := .scc }, g)
      else if chanctxNum = 2 ∧ mccSup = true then (true, { s with opMode := .mcc }, g)
      else (true, s, g)
    | none =>
      if chanctxNum ≥ 2 then (false, s, newChdef)
      else if mccSup = true then
        let r := s.create rlink newChdef mem
        if r.1 then (true, { r.2 with opMode := .mcc }, newChdef) else (false, r.2, newChdef)
      else (false, s, newChdef)

def chanctxAdd (cfg : ChanCfg) (s : ChanSt) (rlink : Link) (newChdef : ChanDef) (mem : Bool) :
    Bool × ChanSt × ChanDef :=
  if newChdef.chan = 0 then (false, s, newChdef)
  else if cfg.isDb = false ∧ cfg.links.hwBand rlink = 1 then (false, s, newChdef)
  else phlChanctxAdd cfg.mccSup s rlink newChdef mem

/-- What `rtw_phl_chanctx_del` returns, whether it came to its end, the state, and `*chan_def`. -/
structure DelRet where
  chctxNum : ℕ
  completed : Bool
  st : ChanSt
  chanDef : ChanDef

/-- The end of `rtw_phl_chanctx_del`, from the second count of the contexts on. -/
def delEnd (s : ChanSt) (target : ℕ) (chanDef : ChanDef) : DelRet :=
  match s.queue with
  | [] => ⟨0, true, { s with opMode := .none }, chanDef⟩
  | [b] => ⟨1, true, { s with opMode := if chanctxGetRnum R (s.roleMap b) = 1 then .swr else .scc }, s.chanDef b⟩
  | [_, _] => ⟨2, true, { s with opMode := .mcc }, s.chanDef target⟩
  | q => ⟨q.length, true, s, chanDef⟩

def chanctxDel (s : ChanSt) (rlink : Link) (chanDef : ChanDef) : DelRet :=
  match s.chanctx rlink with
  | none => ⟨0, false, s, chanDef⟩
  | some target =>
    let chanDef := { chanDef with chan := 0 }
    let chctxNum := s.queue.length
    let chctxRoleNum := chanctxGetRnum R (s.roleMap target)
    if chctxNum = 0 ∨ chctxRoleNum = 0 then ⟨chctxNum, false, s, chanDef⟩
    else if chctxNum > 2 then ⟨chctxNum, false, s, chanDef⟩
    else
      let s := s.rmapClr rlink target
      if chctxRoleNum = 1 then delEnd R { s with queue := s.queue.erase target } target chanDef
      else
        match phlMrChandefSync R id s.chandef (s.roleMap target) with
        | none => ⟨chctxNum, false, s, chanDef⟩
        | some d => delEnd R { s with chanDef := Function.update s.chanDef target d } target chanDef

/-- `rtw_hw_update_chan_def`: the core puts the definition of its own into a link. -/
def ChanSt.updateChanDef (s : ChanSt) (rlink : Link) (own : ChanDef) : ChanSt :=
  { s with chandef := Function.update s.chandef rlink own }

/-- What happens to the contexts of a band: the core asks for a channel and then puts the definition of its own into the link,
it leaves the channel, or it only puts a definition into a link. -/
inductive ChanEv
  | add (rlink : Link) (newChdef own : ChanDef) (mem : Bool)
  | del (rlink : Link)
  | update (rlink : Link) (own : ChanDef)

def chanStep (cfg : ChanCfg) (s : ChanSt) : ChanEv → ChanSt
  | .add rlink newChdef own mem => (chanctxAdd cfg s rlink newChdef mem).2.1.updateChanDef rlink own
  | .del rlink => (chanctxDel cfg.links cfg.id s rlink ⟨.on24g, 0, .w20, .noExt⟩).st
  | .update rlink own => s.updateChanDef rlink own

def Links.OnBand (l : Link) : Prop := l.1 < R.maxWifiRoleNumber ∧ l.2 < R.rlinkNum l.1 ∧ R.hwBand l = id

/-- A link that is in a context is not added again, and its definition is on the channel that was asked for. -/
def ChanOk (cfg : ChanCfg) (s : ChanSt) : ChanEv → Prop
  | .add rlink newChdef own _ =>
    cfg.links.OnBand cfg.id rlink ∧ s.chanctx rlink = none ∧ own.band = newChdef.band ∧ own.chan = newChdef.chan
  | .del rlink => cfg.links.OnBand cfg.id rlink
  | .update rlink _ => s.chanctx rlink = none

structure ChanInit (s : ChanSt) : Prop where
  queue : s.queue = []
  chanctx : ∀ l, s.chanctx l = none

/-! ### What is to hold -/

/-- The definitions of the members that stay when a role leaves a context. -/
def others (s : ChanSt) (a r : ℕ) : List ChanDef := members R id s.chandef (s.roleMap a &&& ~~~BitVec.twoPow 8 r)

/-- **The call comes to its end; the role is out of the context, which is gone with its last role and else has the definition
the others need; the mode and `*chan_def` are those of the contexts that are left, and nothing else is changed.** -/
structure DelRight (s : ChanSt) (a r : ℕ) (ret : DelRet) : Prop where
  completed : ret.completed = true
  roleMap : ret.st.roleMap = Function.update s.roleMap a (s.roleMap a &&& ~~~BitVec.twoPow 8 r)
  chanctx : ret.st.chanctx = Function.update s.chanctx (R.rlinkOf id r) none
  chandef : ret.st.chandef = s.chandef
  gone : others R id s a r = [] → ret.st.queue = s.queue.erase a
  narrowed : others R id s a r ≠ [] → ret.st.queue = s.queue ∧ Needs (others R id s a r) (ret.st.chanDef a)
  frame : ∀ b, b ≠ a → ret.st.chanDef b = s.chanDef b
  num : ret.chctxNum = ret.st.queue.length
  idle : ret.st.queue = [] → ret.st.opMode = .none ∧ ret.chanDef.chan = 0
  single : ∀ b, ret.st.queue = [b] → ret.chanDef = ret.st.chanDef b ∧
    ret.st.opMode = if chanctxGetRnum R (ret.st.roleMap b) = 1 then .swr else .scc
  double : ∀ b c, ret.st.queue = [b, c] → ret.chanDef = ret.st.chanDef a ∧ ret.st.opMode = .mcc

/-- Who is in the contexts: the links that point to them, on their channel. -/
structure ChanInv (s : ChanSt) : Prop where
  nodup : s.queue.Nodup
  below : ∀ a ∈ s.queue, a < s.next
  short : s.queue.length ≤ 2
  member : ∀ a ∈ s.queue, ∀ r < R.maxWifiRoleNumber, (s.roleMap a).getLsbD r = true →
    s.chanctx (R.rlinkOf id r) = some a ∧ (s.chandef (R.rlinkOf id r)).band = (s.chanDef a).band ∧
      (s.chandef (R.rlinkOf id r)).chan = (s.chanDef a).chan
  owned : ∀ l, R.OnBand id l → ∀ a, s.chanctx l = some a → a ∈ s.queue ∧ (s.roleMap a).getLsbD l.1 = true

variable {R id} {s : ChanSt} {m : BitVec 8} {a r : ℕ} {l : Link} {chandef : Link → ChanDef}

/-! ### The roles of a context -/

theorem rlinkOf_of_onBand (h : R.OnBand id l) : R.rlinkOf id l.1 = l := by
  obtain ⟨-, hlt, hband⟩ := h
  obtain ⟨r, i⟩ := l
  unfold Links.rlinkOf
  cases hfind : (List.range (R.rlinkNum r)).find? fun j => R.hwBand (r, j) = id with
  | none =>
    have hno := List.find?_eq_none.mp hfind i (List.mem_range.mpr hlt)
    simp only [decide_eq_true_eq] at hno; exact absurd hband hno
  | some j =>
    have hj := List.find?_some hfind
    simp only [decide_eq_true_eq] at hj
    rw [Option.getD_some, R.apart r j i (List.mem_range.mp (List.mem_of_find?_eq_some hfind)) hlt (hj.trans hband.symm)]

theorem mem_roles : r ∈ roles R m ↔ r < R.maxWifiRoleNumber ∧ m.getLsbD r = true := by
  unfold roles
  rw [List.mem_filter, List.mem_range]

theorem nodup_roles : (roles R m).Nodup := List.nodup_range.filter _

theorem getLsbD_set {k : ℕ} (hr : r < 8) : (m ||| BitVec.twoPow 8 r).getLsbD k = (m.getLsbD k || decide (k = r)) := by
  rw [BitVec.getLsbD_or, BitVec.getLsbD_twoPow]
  by_cases hk : r = k
  · subst hk; simp [hr]
  · simp [hk, Ne.symm hk]

theorem getLsbD_clr (m : BitVec 8) (r k : ℕ) :
    (m &&& ~~~BitVec.twoPow 8 r).getLsbD k = (m.getLsbD k && decide (k ≠ r)) := by
  rw [BitVec.getLsbD_and, BitVec.getLsbD_not, BitVec.getLsbD_twoPow]
  by_cases hk8 : k < 8
  · by_cases hk : r = k
    · simp [hk, hk8]
    · simp [hk, Ne.symm hk, hk8]
  · rw [BitVec.getLsbD_of_ge m k (by omega)]; rfl

theorem roles_clr (m : BitVec 8) (r : ℕ) : roles R (m &&& ~~~BitVec.twoPow 8 r) = (roles R m).erase r := by
  rw [nodup_roles.erase_eq_filter]
  unfold roles
  rw [List.filter_filter]
  refine List.filter_congr fun k _ => ?_
  rw [getLsbD_clr, Bool.and_comm]
  by_cases hk : k = r <;> simp [hk]

theorem syncLoop_eq (rs : List ℕ) : (∀ d, syncLoop R id chandef m rs (some d) =
      ((rs.filter (m.getLsbD ·)).map fun r => chandef (R.rlinkOf id r)).foldlM syncStep d) ∧
    syncLoop R id chandef m rs none = syncDefs ((rs.filter (m.getLsbD ·)).map fun r => chandef (R.rlinkOf id r)) := by
  induction rs with
  | nil => exact ⟨fun d => rfl, rfl⟩
  | cons r rs ih =>
    by_cases hbit : m.getLsbD r = true
    · refine ⟨fun d => ?_, ?_⟩
      · rw [syncLoop, if_pos hbit, List.filter_cons_of_pos hbit, List.map_cons, List.foldlM_cons]
        cases hstep : syncStep d (chandef (R.rlinkOf id r)) with
        | none => simp only [hstep, Option.bind_eq_bind, Option.bind_none]
        | some d' => simp only [hstep, Option.bind_eq_bind, Option.bind_some, ih.1]
      · rw [syncLoop, if_pos hbit, List.filter_cons_of_pos hbit, List.map_cons]; exact ih.1 _
    · refine ⟨fun d => ?_, ?_⟩ <;> rw [syncLoop, if_neg hbit, List.filter_cons_of_neg hbit]
      · exact ih.1 d
      · exact ih.2

theorem phlMrChandefSync_eq (chandef : Link → ChanDef) (m : BitVec 8) :
    phlMrChandefSync R id chandef m = syncDefs (members R id chandef m) :=
  (syncLoop_eq _).2

theorem exists_members (defs : List ChanDef) (hlen : defs.length ≤ R.maxWifiRoleNumber) :
    ∃ chandef m, members R id chandef m = defs := by
  have hfew := R.few
  refine ⟨fun l => defs.getD l.1 ⟨.on24g, 0, .w20, .noExt⟩, BitVec.ofNat 8 (2 ^ defs.length - 1), ?_⟩
  have hroles : roles R (BitVec.ofNat 8 (2 ^ defs.length - 1)) = List.range defs.length := by
    unfold roles
    have hbit : ∀ i ∈ List.range R.maxWifiRoleNumber,
        (BitVec.ofNat 8 (2 ^ defs.length - 1)).getLsbD i = decide (i < defs.length) := fun i hi => by
      have hi' := List.mem_range.mp hi
      rw [BitVec.getLsbD_ofNat, Nat.testBit_two_pow_sub_one]
      simp
      omega
    rw [List.filter_congr hbit]
    obtain ⟨k, hk⟩ := Nat.exists_eq_add_of_le hlen
    rw [hk, List.range_add, List.filter_append, List.filter_eq_self.mpr fun i hi => by simpa using hi,
      List.filter_eq_nil_iff.mpr fun i hi => ?_, List.append_nil]
    obtain ⟨j, -, rfl⟩ := List.mem_map.mp hi
    simp
  unfold members
  rw [hroles]
  refine List.ext_getElem (by simp) fun i h₁ h₂ => ?_
  rw [List.getElem_map, List.getElem_range]; exact List.getD_eq_getElem _ _ h₂

/-! ### The contexts of a run -/

theorem ChanInv.opMode (h : ChanInv R id s) (o : OpMode) (p : Bool) :
    ChanInv R id { s with opMode := o, ccPsts := p } :=
  ⟨h.nodup, h.below, h.short, h.member, h.owned⟩

section

variable (h : ChanInv R id s)

include h

theorem ChanInv.fresh (hlen : s.queue.length ≤ 1) (d : ChanDef) : ChanInv R id { s with
        chanDef := Function.update s.chanDef s.next d
        roleMap := Function.update s.roleMap s.next 0
        queue := s.queue ++ [s.next]
        next := s.next + 1 } := by
  have hold : ∀ a ∈ s.queue, a ≠ s.next := fun a ha => by
    have := h.below a ha
    omega
  refine ⟨?_, fun a ha => ?_, ?_, fun a ha r hr hbit => ?_, fun l hl a ha => ?_⟩
  · exact h.nodup.append (List.nodup_singleton _) (by simpa using fun hmem => hold _ hmem rfl)
  · rcases List.mem_append.mp ha with ha | ha
    · have := h.below a ha
      simp only
      omega
    · rw [List.mem_singleton.mp ha]; exact Nat.lt_succ_self _
  · rw [List.length_append, List.length_singleton]; omega
  · rcases List.mem_append.mp ha with ha | ha
    · simp only [Function.update_of_ne (hold a ha)] at hbit ⊢; exact h.member a ha r hr hbit
    · simp only [List.mem_singleton.mp ha, Function.update_self] at hbit
      have hzero : (0 : BitVec 8).getLsbD r = false := BitVec.getLsbD_zero
      rw [hzero] at hbit; cases hbit
  · obtain ⟨hmem, hbit⟩ := h.owned l hl a ha
    refine ⟨List.mem_append_left _ hmem, ?_⟩
    simp only [Function.update_of_ne (hold a hmem)]; exact hbit

theorem ChanInv.update (hfree : s.chanctx l = none) (own : ChanDef) : ChanInv R id (s.updateChanDef l own) := by
  refine ⟨h.nodup, h.below, h.short, fun a ha r hr hbit => ?_, h.owned⟩
  have hmem := h.member a ha r hr hbit
  have hne : R.rlinkOf id r ≠ l := fun heq => by
    rw [heq, hfree] at hmem; cases hmem.1
  simp only [ChanSt.updateChanDef, Function.update_of_ne hne]; exact hmem

theorem ChanInv.setDef {d : ChanDef} (hband : d.band = (s.chanDef a).band)
    (hchan : d.chan = (s.chanDef a).chan) : ChanInv R id { s with chanDef := Function.update s.chanDef a d } := by
  refine ⟨h.nodup, h.below, h.short, fun b hb r hr hbit => ?_, h.owned⟩
  obtain ⟨hctx, hmb, hmc⟩ := h.member b hb r hr hbit
  by_cases hba : b = a
  · subst hba
    simp only [Function.update_self, hband, hchan]; exact ⟨hctx, hmb, hmc⟩
  · simp only [Function.update_of_ne hba]; exact ⟨hctx, hmb, hmc⟩

theorem ChanInv.join (ha : a ∈ s.queue) (hl : R.OnBand id l) (hfree : s.chanctx l = none)
    {own : ChanDef} (hband : own.band = (s.chanDef a).band) (hchan : own.chan = (s.chanDef a).chan) :
    ChanInv R id ((s.rmapSet l a).updateChanDef l own) := by
  have hl8 : l.1 < 8 := Nat.lt_of_lt_of_le hl.1 R.few
  have hother : ∀ {r : ℕ}, r ≠ l.1 → R.rlinkOf id r ≠ l := fun hne heq => hne (congrArg Prod.fst heq)
  refine ⟨h.nodup, h.below, h.short, fun b hb r hr hbit => ?_, fun l' hl' b hb => ?_⟩
  · by_cases hrl : r = l.1
    · have hlink : R.rlinkOf id r = l := hrl ▸ rlinkOf_of_onBand hl
      by_cases hba : b = a
      · subst hba
        simp only [ChanSt.updateChanDef, ChanSt.rmapSet, hlink, Function.update_self]
        exact ⟨trivial, hband, hchan⟩
      · simp only [ChanSt.updateChanDef, ChanSt.rmapSet, Function.update_of_ne hba] at hbit
        have hctx := (h.member b hb r hr hbit).1
        rw [hlink, hfree] at hctx; cases hctx
    · simp only [ChanSt.updateChanDef, ChanSt.rmapSet, Function.update_of_ne (hother hrl)] at hbit ⊢
      refine h.member b hb r hr ?_
      by_cases hba : b = a
      · subst hba
        rw [Function.update_self, getLsbD_set hl8] at hbit
        simpa [hrl] using hbit
      · rwa [Function.update_of_ne hba] at hbit
  · simp only [ChanSt.updateChanDef, ChanSt.rmapSet] at hb ⊢
    by_cases hll : l' = l
    · subst hll
      rw [Function.update_self] at hb
      obtain rfl := Option.some.inj hb
      refine ⟨ha, ?_⟩
      rw [Function.update_self, getLsbD_set hl8, decide_eq_true rfl, Bool.or_true]
    · rw [Function.update_of_ne hll] at hb
      obtain ⟨hmem, hbit⟩ := h.owned l' hl' b hb
      refine ⟨hmem, ?_⟩
      by_cases hba : b = a
      · subst hba; rw [Function.update_self, getLsbD_set hl8, hbit, Bool.true_or]
      · rwa [Function.update_of_ne hba]

theorem ChanInv.leave (hl : R.rlinkOf id l.1 = l) (hctx : s.chanctx l = some a) : ChanInv R id (s.rmapClr l a) := by
  refine ⟨h.nodup, h.below, h.short, fun b hb r hr hbit => ?_, fun l' hl' b hb => ?_⟩
  · simp only [ChanSt.rmapClr] at hbit ⊢
    have hbit' : (s.roleMap b).getLsbD r = true ∧ (b = a → r ≠ l.1) := by
      by_cases hba : b = a
      · subst hba
        rw [Function.update_self, getLsbD_clr, Bool.and_eq_true, decide_eq_true_eq] at hbit
        exact ⟨hbit.1, fun _ => hbit.2⟩
      · rw [Function.update_of_ne hba] at hbit; exact ⟨hbit, fun heq => absurd heq hba⟩
    have hmem := h.member b hb r hr hbit'.1
    have hne : R.rlinkOf id r ≠ l := fun heq => by
      rw [heq, hctx] at hmem; exact hbit'.2 (Option.some.inj hmem.1).symm (congrArg Prod.fst heq)
    rw [Function.update_of_ne hne]; exact hmem
  · simp only [ChanSt.rmapClr] at hb ⊢
    have hne : l' ≠ l := fun heq => by
      rw [heq, Function.update_self] at hb; cases hb
    rw [Function.update_of_ne hne] at hb
    obtain ⟨hmem, hbit⟩ := h.owned l' hl' b hb
    refine ⟨hmem, ?_⟩
    by_cases hba : b = a
    · subst hba
      have hrole : l'.1 ≠ l.1 := fun heq => hne (by rw [← rlinkOf_of_onBand hl', heq, hl])
      rw [Function.update_self, getLsbD_clr, hbit, decide_eq_true hrole, Bool.and_true]
    · rwa [Function.update_of_ne hba]

theorem ChanInv.erase (hempty : roles R (s.roleMap a) = []) : ChanInv R id { s with queue := s.queue.erase a } := by
  refine ⟨h.nodup.erase a, fun b hb => h.below b (List.mem_of_mem_erase hb),
    Nat.le_trans List.length_erase_le h.short, fun b hb => h.member b (List.mem_of_mem_erase hb), fun l hl b hb => ?_⟩
  obtain ⟨hmem, hbit⟩ := h.owned l hl b hb
  refine ⟨(List.mem_erase_of_ne fun hba => ?_).mpr hmem, hbit⟩
  subst hba
  have hrole := mem_roles.mpr ⟨hl.1, hbit⟩
  rw [hempty] at hrole; cases hrole

end

theorem delEnd_st (s : ChanSt) (target : ℕ) (d : ChanDef) : ∃ o, (delEnd R s target d).st = { s with opMode := o } := by
  unfold delEnd
  split
  · exact ⟨_, rfl⟩
  · exact ⟨_, rfl⟩
  · exact ⟨_, rfl⟩
  · exact ⟨s.opMode, rfl⟩

/-! ### The calls -/

theorem ChanInv.create (h : ChanInv R id s) (hlen : s.queue.length ≤ 1) (hl : R.OnBand id l) (hfree : s.chanctx l = none)
    {d own : ChanDef} (hband : own.band = d.band) (hchan : own.chan = d.chan) (mem : Bool) :
    ChanInv R id ((s.create l d mem).2.updateChanDef l own) := by
  have hnew := h.fresh hlen d
  have hnot : ∀ a ∈ s.queue, a ≠ s.next := fun a ha => by
    have := h.below a ha
    omega
  unfold ChanSt.create
  cases mem with
  | false => exact h.update hfree own
  | true =>
    simp only [Bool.not_true, Bool.false_eq_true, if_false]
    have hshort : ¬ (s.queue ++ [s.next]).length > 2 := by
      rw [List.length_append, List.length_singleton]; omega
    rw [if_neg hshort]
    by_cases hknown : (s.ccPsts && ccBandKnown d) = true
    · rw [if_pos hknown]
      exact (hnew.opMode s.opMode _).join (List.mem_append_right _ (List.mem_singleton_self _)) hl hfree
        (by simpa using hband) (by simpa using hchan)
    · rw [if_neg hknown]; exact (hnew.opMode s.opMode _).update hfree own

theorem ChanInv.created {res : Bool × ChanSt} {own : ChanDef} (h : ChanInv R id (res.2.updateChanDef l own)) (o : OpMode)
    (d : ChanDef) : ChanInv R id
      ((if res.1 = true then (true, { res.2 with opMode := o }, d) else (false, res.2, d)).2.1.updateChanDef l own) := by
  by_cases hok : res.1 = true
  · rw [if_pos hok]; exact h.opMode o _
  · rw [if_neg hok]; exact h

theorem ChanInv.add {cfg : ChanCfg} (h : ChanInv cfg.links cfg.id s) (hl : cfg.links.OnBand cfg.id l)
    (hfree : s.chanctx l = none) {d own : ChanDef} (hband : own.band = d.band) (hchan : own.chan = d.chan) (mem : Bool) :
    ChanInv cfg.links cfg.id ((chanctxAdd cfg s l d mem).2.1.updateChanDef l own) := by
  unfold chanctxAdd
  by_cases hzero : d.chan = 0
  · rw [if_pos hzero]; exact h.update hfree own
  rw [if_neg hzero]
  by_cases hdb : cfg.isDb = false ∧ cfg.links.hwBand l = 1
  · rw [if_pos hdb]; exact h.update hfree own
  rw [if_neg hdb]
  unfold phlChanctxAdd
  simp only
  have h₀ := h.opMode .none s.ccPsts
  by_cases hnone : s.queue.length = 0
  · rw [if_pos hnone]
    exact (h₀.create (by simp only; omega) hl hfree hband hchan mem).created .swr d
  rw [if_neg hnone]
  cases hfind : s.queue.find? fun a => isChbwGrouped (s.chanDef a) d with
  | some a =>
    have hmem := List.mem_of_find?_eq_some hfind
    have hgrouped := List.find?_some hfind
    obtain ⟨hgband, hgchan, -⟩ := isChbwGrouped_iff.mp hgrouped
    obtain ⟨haband, hachan⟩ := adjustChandef_chan d (s.chanDef a) true
    have hset := h₀.setDef haband hachan
    have hownband : own.band = (Function.update s.chanDef a (adjustChandef d (s.chanDef a) true).2 a).band := by
      rw [Function.update_self, haband, hgband, hband]
    have hownchan : own.chan = (Function.update s.chanDef a (adjustChandef d (s.chanDef a) true).2 a).chan := by
      rw [Function.update_self, hachan, hgchan, hchan]
    have hjoin := hset.join hmem hl hfree hownband hownchan
    simp only
    by_cases hone : s.queue.length = 1
    · rw [if_pos hone]; exact hjoin.opMode .scc _
    · rw [if_neg hone]
      by_cases htwo : s.queue.length = 2 ∧ cfg.mccSup = true
      · rw [if_pos htwo]; exact hjoin.opMode .mcc _
      · rw [if_neg htwo]; exact hjoin
  | none =>
    simp only
    by_cases htwo : s.queue.length ≥ 2
    · rw [if_pos htwo]; exact h₀.update hfree own
    · rw [if_neg htwo]
      by_cases hmcc : cfg.mccSup = true
      · rw [if_pos hmcc]
        exact (h₀.create (by simp only; omega) hl hfree hband hchan mem).created .mcc d
      · rw [if_neg hmcc]; exact h₀.update hfree own

theorem ChanInv.members_chan (h : ChanInv R id s) (ha : a ∈ s.queue) : ∀ e ∈ members R id s.chandef (s.roleMap a),
    e.band = (s.chanDef a).band ∧ e.chan = (s.chanDef a).chan := by
  intro e he
  obtain ⟨r, hr, rfl⟩ := List.mem_map.mp he
  obtain ⟨hlt, hbit⟩ := mem_roles.mp hr
  exact (h.member a ha r hlt hbit).2

theorem ChanInv.sameChan (h : ChanInv R id s) (ha : a ∈ s.queue) : SameChan (members R id s.chandef (s.roleMap a)) := by
  intro e he e' he'
  obtain ⟨hband, hchan⟩ := h.members_chan ha e he
  obtain ⟨hband', hchan'⟩ := h.members_chan ha e' he'
  exact ⟨hband.trans hband'.symm, hchan.trans hchan'.symm⟩

theorem ChanInv.del (h : ChanInv R id s) (hl : R.OnBand id l) (d : ChanDef) :
    ChanInv R id (chanctxDel R id s l d).st := by
  unfold chanctxDel
  cases hctx : s.chanctx l with
  | none => exact h
  | some a =>
    obtain ⟨hmem, hbit⟩ := h.owned l hl a hctx
    have hleave := h.leave (rlinkOf_of_onBand hl) hctx
    have hrole : l.1 ∈ roles R (s.roleMap a) := mem_roles.mpr ⟨hl.1, hbit⟩
    have hmap : (s.rmapClr l a).roleMap a = s.roleMap a &&& ~~~BitVec.twoPow 8 l.1 := Function.update_self ..
    simp only
    by_cases hzero : s.queue.length = 0 ∨ chanctxGetRnum R (s.roleMap a) = 0
    · rw [if_pos hzero]; exact h
    rw [if_neg hzero]
    by_cases hmany : s.queue.length > 2
    · rw [if_pos hmany]; exact h
    rw [if_neg hmany]
    by_cases hone : chanctxGetRnum R (s.roleMap a) = 1
    · rw [if_pos hone]
      obtain ⟨o, ho⟩ := delEnd_st (R := R) { s.rmapClr l a with queue := (s.rmapClr l a).queue.erase a } a { d with chan := 0 }
      rw [ho]
      refine (hleave.erase ?_).opMode o _
      rw [hmap, roles_clr]
      refine List.length_eq_zero_iff.mp ?_
      unfold chanctxGetRnum at hone
      rw [List.length_erase_of_mem hrole, hone]
    · rw [if_neg hone]
      cases hsync : phlMrChandefSync R id (s.rmapClr l a).chandef ((s.rmapClr l a).roleMap a) with
      | none => exact hleave
      | some d' =>
        obtain ⟨o, ho⟩ := delEnd_st (R := R)
          { s.rmapClr l a with chanDef := Function.update (s.rmapClr l a).chanDef a d' } a { d with chan := 0 }
        simp only
        rw [ho]
        rw [phlMrChandefSync_eq] at hsync
        have hsynced := syncDefs_synced (hleave.sameChan hmem) hsync
        obtain ⟨w, hw, -⟩ := hsynced.widest
        obtain ⟨hband, hchan, -⟩ := hsynced.all w hw
        obtain ⟨hband', hchan'⟩ := hleave.members_chan hmem w hw
        exact (hleave.setDef (hband.symm.trans hband') (hchan.symm.trans hchan')).opMode o _

theorem chanInv_of_reach {cfg : ChanCfg} {s₀ : ChanSt} (h₀ : ChanInit s₀) (h : Reach (chanStep cfg) (ChanOk cfg) s₀ s) :
    ChanInv cfg.links cfg.id s := by
  refine h.invariant ?_ ?_
  · have hempty : ∀ a, a ∉ s₀.queue := fun a => h₀.queue ▸ List.not_mem_nil
    refine ⟨h₀.queue ▸ List.nodup_nil, fun a ha => absurd ha (hempty a), ?_, fun a ha => absurd ha (hempty a),
      fun l _ a ha => ?_⟩
    · rw [h₀.queue]; exact Nat.zero_le _
    · rw [h₀.chanctx l] at ha; cases ha
  · rintro s (⟨l, d, own, mem⟩ | ⟨l⟩ | ⟨l, own⟩) hinv hok
    · exact hinv.add hok.1 hok.2.1 hok.2.2.1 hok.2.2.2 mem
    · exact hinv.del hok _
    · exact hinv.update hok own

theorem others_eq (s : ChanSt) (a r : ℕ) :
    others R id s a r = ((roles R (s.roleMap a)).erase r).map fun r => s.chandef (R.rlinkOf id r) := by
  unfold others members
  rw [roles_clr]

theorem others_nil_iff (hr : r ∈ roles R (s.roleMap a)) :
    others R id s a r = [] ↔ chanctxGetRnum R (s.roleMap a) = 1 := by
  have hpos := List.length_pos_of_mem hr
  rw [others_eq, List.map_eq_nil_iff, ← List.length_eq_zero_iff, List.length_erase_of_mem hr]
  unfold chanctxGetRnum; omega

theorem delEnd_queue (s : ChanSt) (target : ℕ) (d : ChanDef) :
    (delEnd R s target d).completed = true ∧ (delEnd R s target d).chctxNum = s.queue.length ∧
      (s.queue = [] → (delEnd R s target d).st.opMode = .none ∧ (delEnd R s target d).chanDef = d) ∧
      (∀ b, s.queue = [b] → (delEnd R s target d).chanDef = s.chanDef b ∧
        (delEnd R s target d).st.opMode = if chanctxGetRnum R (s.roleMap b) = 1 then .swr else .scc) ∧
      ∀ b c, s.queue = [b, c] → (delEnd R s target d).chanDef = s.chanDef target ∧
        (delEnd R s target d).st.opMode = .mcc := by
  unfold delEnd
  refine ⟨?_, ?_, fun hq => ?_, fun b hq => ?_, fun b c hq => ?_⟩
  · split <;> rfl
  · split <;> simp only [*, List.length_nil, List.length_cons, Nat.zero_add]
  all_goals
    rw [hq]; exact ⟨rfl, rfl⟩

theorem delEnd_right {s' : ChanSt} {d : ChanDef} (hd : d.chan = 0)
    (hmap : s'.roleMap = Function.update s.roleMap a (s.roleMap a &&& ~~~BitVec.twoPow 8 r))
    (hctx : s'.chanctx = Function.update s.chanctx (R.rlinkOf id r) none) (hdef : s'.chandef = s.chandef)
    (hgone : others R id s a r = [] → s'.queue = s.queue.erase a)
    (hnarrowed : others R id s a r ≠ [] → s'.queue = s.queue ∧ Needs (others R id s a r) (s'.chanDef a))
    (hframe : ∀ b, b ≠ a → s'.chanDef b = s.chanDef b) : DelRight R id s a r (delEnd R s' a d) := by
  obtain ⟨o, ho⟩ := delEnd_st (R := R) s' a d
  obtain ⟨hcompleted, hnum, hidle, hsingle, hdouble⟩ := delEnd_queue (R := R) s' a d
  have hq : (delEnd R s' a d).st.queue = s'.queue := by rw [ho]
  have hdefs : (delEnd R s' a d).st.chanDef = s'.chanDef := by rw [ho]
  have hmaps : (delEnd R s' a d).st.roleMap = s'.roleMap := by rw [ho]
  refine ⟨hcompleted, hmaps.trans hmap, ?_, ?_, ?_, ?_, ?_, ?_, ?_, ?_, ?_⟩
  · rw [ho]; exact hctx
  · rw [ho]; exact hdef
  · rw [hq]; exact hgone
  · rw [hq, hdefs]; exact hnarrowed
  · rw [hdefs]; exact hframe
  · rw [hq]; exact hnum
  · rw [hq]
    intro hnil
    obtain ⟨hmode, hout⟩ := hidle hnil
    rw [hout]; exact ⟨hmode, hd⟩
  · rw [hq, hdefs, hmaps]; exact hsingle
  · rw [hq, hdefs]; exact hdouble

theorem del_right_iff (h : ChanInv R id s) (ha : a ∈ s.queue) (hr : r < R.maxWifiRoleNumber)
    (hbit : (s.roleMap a).getLsbD r = true) (d : ChanDef) :
    DelRight R id s a r (chanctxDel R id s (R.rlinkOf id r) d) ↔
      InOrder [] (others R id s a r) ∧ OneScale (others R id s a r) := by
  have hctx := (h.member a ha r hr hbit).1
  have hrole := mem_roles.mpr ⟨hr, hbit⟩
  have hnil := @others_nil_iff R id s a r hrole
  have hleave := h.leave (l := R.rlinkOf id r) rfl hctx
  have hmap : (s.rmapClr (R.rlinkOf id r) a).roleMap a = s.roleMap a &&& ~~~BitVec.twoPow 8 r := Function.update_self ..
  have hothers : members R id (s.rmapClr (R.rlinkOf id r) a).chandef ((s.rmapClr (R.rlinkOf id r) a).roleMap a) =
      others R id s a r := by
    rw [hmap]; rfl
  have hsame : SameChan (others R id s a r) := hothers ▸ hleave.sameChan ha
  have hqueue : s.queue.length ≠ 0 := Nat.ne_of_gt (List.length_pos_of_mem ha)
  have hrnum : chanctxGetRnum R (s.roleMap a) ≠ 0 := Nat.ne_of_gt (List.length_pos_of_mem hrole)
  unfold chanctxDel
  rw [hctx]
  simp only
  rw [if_neg (not_or.mpr ⟨hqueue, hrnum⟩), if_neg (Nat.not_lt.mpr h.short)]
  by_cases hone : chanctxGetRnum R (s.roleMap a) = 1
  · have hempty := hnil.mpr hone
    rw [if_pos hone]
    refine iff_of_true (delEnd_right rfl rfl rfl rfl (fun _ => rfl) (fun hne => absurd hempty hne) fun _ _ => rfl) ?_
    rw [hempty]; exact ⟨trivial, .inl nofun⟩
  · have hne : others R id s a r ≠ [] := fun hempty => hone (hnil.mp hempty)
    have hiff := syncDefs_iff hsame
    rw [and_iff_right hne] at hiff
    rw [if_neg hone, phlMrChandefSync_eq, hothers, ← hiff]
    cases hsync : syncDefs (others R id s a r) with
    | none =>
      refine iff_of_false (fun hright => ?_) nofun
      exact absurd hright.completed nofun
    | some d' =>
      simp only [Option.some.injEq, exists_eq_left']
      constructor
      · intro hright
        have hneeds := (hright.narrowed hne).2
        obtain ⟨o, ho⟩ := delEnd_st (R := R)
          { s.rmapClr (R.rlinkOf id r) a with
            chanDef := Function.update (s.rmapClr (R.rlinkOf id r) a).chanDef a d' } a { d with chan := 0 }
        rw [ho] at hneeds
        simpa only [Function.update_self] using hneeds
      · intro hneeds
        refine delEnd_right rfl rfl rfl rfl (fun hempty => absurd hempty hne) (fun _ => ⟨rfl, ?_⟩) fun b hb => ?_
        · simpa only [Function.update_self] using hneeds
        · simp only [Function.update_of_ne hb]; rfl

/-! ### The contexts -/

/-- **Where a context has the definition its members need**: the synchronisation gives it to members that may be grouped, the
same one in every order of the roles, exactly where members of one bandwidth have one offset and no member has 5 or 10 MHz
beside a larger one; and a role that leaves a context of a run leaves it right exactly where the others are in order. -/
theorem chandef_sync_iff (cfg : ChanCfg) :
    (∀ chandef m, (members cfg.links cfg.id chandef m).Pairwise (fun a b => isChbwGrouped a b = true) →
      ((∃ d, Needs (members cfg.links cfg.id chandef m) d ∧
          ∀ chandef' m', (members cfg.links cfg.id chandef' m').Perm (members cfg.links cfg.id chandef m) →
            phlMrChandefSync cfg.links cfg.id chandef' m' = some d) ↔
        Settled (members cfg.links cfg.id chandef m))) ∧
    ∀ s₀ s, ChanInit s₀ → Reach (chanStep cfg) (ChanOk cfg) s₀ s → ∀ a ∈ s.queue, ∀ r < cfg.links.maxWifiRoleNumber,
      (s.roleMap a).getLsbD r = true → ∀ d,
        (DelRight cfg.links cfg.id s a r (chanctxDel cfg.links cfg.id s (cfg.links.rlinkOf cfg.id r) d) ↔
          InOrder [] (others cfg.links cfg.id s a r) ∧ OneScale (others cfg.links cfg.id s a r)) := by
  refine ⟨fun chandef m hgrouped => ?_, fun s₀ s h₀ hreach a ha r hr hbit d => ?_⟩
  · rw [← syncDefs_perm_iff (sameChan_of_grouped hgrouped)]
    constructor
    · rintro ⟨d, hneeds, horder⟩
      refine ⟨d, hneeds, fun l' hperm => ?_⟩
      have hlen : l'.length ≤ cfg.links.maxWifiRoleNumber := by
        rw [hperm.length_eq]
        unfold members roles
        rw [List.length_map]
        exact Nat.le_trans (List.length_filter_le ..) (Nat.le_of_eq List.length_range)
      obtain ⟨chandef', m', rfl⟩ := @exists_members cfg.links cfg.id l' hlen
      rw [← phlMrChandefSync_eq]; exact horder chandef' m' hperm
    · rintro ⟨d, hneeds, horder⟩
      refine ⟨d, hneeds, fun chandef' m' hperm => ?_⟩
      rw [phlMrChandefSync_eq]; exact horder _ hperm
  · exact del_right_iff (chanInv_of_reach h₀ hreach) ha hr hbit d

/-- Five roles with one link each, on band 0. -/
def oneBand : ChanCfg where
  links :=
    { maxWifiRoleNumber := 5
      rlinkNum := fun _ => 1
      hwBand := fun _ => 0
      few := by decide
      pos := fun _ => Nat.one_pos
      apart := fun _ i j hi hj _ => by omega }
  id := 0
  isDb := false
  mccSup := true

/-- **Two links of 20 MHz on channel 6, the one with an offset, the other with none**, may be grouped and have no definition. -/
theorem offsets_of_20mhz_not_synced :
    let chandef : Link → ChanDef := fun l => ⟨.on24g, 6, .w20, if l.1 = 0 then .noExt else .upper⟩
    (members oneBand.links oneBand.id chandef 0b11#8).Pairwise (fun a b => isChbwGrouped a b = true) ∧
      phlMrChandefSync oneBand.links oneBand.id chandef 0b11#8 = none := by
  decide

/-- Roles 0 and 1 on channel 36, with 80 and with 20 MHz. -/
def twoRoles : ChanSt :=
  chanStep oneBand
    (chanStep oneBand ⟨fun _ => ⟨.on24g, 1, .w20, .noExt⟩, fun _ => none, fun _ => ⟨.on24g, 1, .w20, .noExt⟩, fun _ => 0, [],
      .none, true, 0⟩ (.add (0, 0) ⟨.on5g, 36, .w80, .upper⟩ ⟨.on5g, 36, .w80, .upper⟩ true))
    (.add (1, 0) ⟨.on5g, 36, .w20, .noExt⟩ ⟨.on5g, 36, .w20, .noExt⟩ true)

theorem twoRoles_right : (∃ d, Needs (members oneBand.links oneBand.id twoRoles.chandef 0b11#8) d ∧
      ∀ chandef' m', (members oneBand.links oneBand.id chandef' m').Perm
          (members oneBand.links oneBand.id twoRoles.chandef 0b11#8) →
        phlMrChandefSync oneBand.links oneBand.id chandef' m' = some d) ∧
    DelRight oneBand.links oneBand.id twoRoles 0 0
      (chanctxDel oneBand.links oneBand.id twoRoles (oneBand.links.rlinkOf oneBand.id 0) ⟨.on24g, 1, .w20, .noExt⟩) := by
  have hreach : Reach (chanStep oneBand) (ChanOk oneBand) _ twoRoles :=
    .step _ (.step _ .init ⟨⟨by decide, by decide, rfl⟩, rfl, rfl, rfl⟩) ⟨⟨by decide, by decide, rfl⟩, rfl, rfl, rfl⟩
  refine ⟨((chandef_sync_iff oneBand).1 twoRoles.chandef 0b11#8 (by decide)).mpr ⟨by decide, by decide, .inr (by decide)⟩,
    ((chandef_sync_iff oneBand).2 _ _ ⟨rfl, fun _ => rfl⟩ hreach 0 (by decide) 0 (by decide) (by decide) _).mpr ⟨?_, ?_⟩⟩
  · refine ⟨nofun, ?_⟩; trivial
  · exact .inr (by decide)

end Rtl8852cu.Chan
