import Rtl8852cu.Lib.Interleave
import Rtl8852cu.Scan.Select

/-!
# What is left of a round

`Remains bkop c F` says that the list of a scan control holds, with the turns to come, the channels `F`: what was put in front of the
list is still to be visited, then the rest of the round with the operating channels after each channel whose turn it is.  `Source`
adds the rounds that are still to come, each of them from a position that is one more than that of the first.
-/

namespace Rtl8852cu.Scan

open Lib

variable {p : ScanParam} {c : ScanCtrl} {bkop : BackopPara} {passing i k d : ℕ} {ch : ScanChannel} {L F : List ScanChannel}

/-! ### One scan control is written -/

namespace ScanParam

@[simp] theorem modify_self (p : ScanParam) (i : ℕ) (f : ScanCtrl → ScanCtrl) : (p.modify i f).sctrl i = f (p.sctrl i) := Function.update_self i _ _

theorem modify_of_ne (p : ScanParam) {i j : ℕ} (f : ScanCtrl → ScanCtrl) (h : j ≠ i) : (p.modify i f).sctrl j = p.sctrl j :=
  Function.update_of_ne h _ _

theorem modify_modify (p : ScanParam) (i : ℕ) (f g : ScanCtrl → ScanCtrl) : (p.modify i f).modify i g = p.modify i (g ∘ f) := by
  unfold modify
  simp only [Function.update_self, Function.update_idem, Function.comp_apply]

theorem modify_hwBand (p : ScanParam) {i : ℕ} {f : ScanCtrl → ScanCtrl} (h : (f (p.sctrl i)).hwBand = (p.sctrl i).hwBand) (j : ℕ) :
    ((p.modify i f).sctrl j).hwBand = (p.sctrl j).hwBand := by
  rcases eq_or_ne j i with rfl | hne
  · rw [modify_self, h]
  · rw [modify_of_ne p f hne]

end ScanParam

/-! ### A channel is taken -/

/-- The operating channels that are put into the list of a scan control. -/
def opsOf (bkop : BackopPara) (c : ScanCtrl) : List ScanChannel :=
  if bkop.mode = .none then [] else c.backOpCh.takeWhile fun ch => ch.channel ≠ 0

theorem enqueueOpch_chlist (c : ScanCtrl) :
    (enqueueOpch c).chlist = (c.backOpCh.takeWhile fun ch => ch.channel ≠ 0).reverse ++ c.chlist :=
  List.foldl_flip_cons_eq_append'

theorem not_backOpIsRequired (h : backOpIsRequired c = false) : (c.backOpCh.takeWhile fun ch => ch.channel ≠ 0) = [] := by
  unfold backOpIsRequired at h
  cases hl : c.backOpCh with
  | nil => rfl
  | cons ch l =>
    rw [hl] at h
    have hzero : decide (ch.channel ≠ 0) = false := h
    exact List.takeWhile_cons_of_neg (by rw [hzero]; exact Bool.false_ne_true)

/-- The turn of the channel with a number, in a round that starts `d` positions late. -/
def turn (chIntv d i : ℕ) : Bool := (i + d + 1) % chIntv = 0

theorem normalTurn_eq (hmode : bkop.mode ≠ .timer) (passing : ℕ) (hidx : c.chIdx = ((k + d : ℕ) : ℤ) - 1) :
    normalTurn bkop passing c =
      { c with chIdx := ((k + 1 + d : ℕ) : ℤ) - 1
               chlist := (if turn bkop.chIntv d k then (opsOf bkop c).reverse else []) ++ c.chlist } := by
  have hnext : c.chIdx + 1 = ((k + 1 + d : ℕ) : ℤ) - 1 := by omega
  have hturn : (c.chIdx + 1 + 1) % (bkop.chIntv : ℤ) = 0 ↔ turn bkop.chIntv d k = true := by
    have hcast : c.chIdx + 1 + 1 = ((k + d + 1 : ℕ) : ℤ) := by omega
    unfold turn
    rw [hcast, decide_eq_true_iff]; omega
  have hskip : ¬ (backOpIsRequired c ∧ bkop.mode = .cnt) → opsOf bkop c = [] := by
    intro hnot
    unfold opsOf
    split_ifs with hnone
    · rfl
    · have hcnt : bkop.mode = .cnt := by
        cases hm : bkop.mode with
        | none => exact absurd hm hnone
        | cnt => rfl
        | timer => exact absurd hm hmode
      exact not_backOpIsRequired (eq_false_of_ne_true fun hreq => hnot ⟨hreq, hcnt⟩)
  unfold normalTurn
  simp only []
  by_cases hb : backOpIsRequired { c with chIdx := c.chIdx + 1 } ∧ bkop.mode = .cnt
  · have hops : opsOf bkop c = c.backOpCh.takeWhile fun ch => ch.channel ≠ 0 := if_neg (by rw [hb.2]; nofun)
    rw [hops]
    by_cases ht : turn bkop.chIntv d k = true
    · rw [if_pos ht, ← enqueueOpch_chlist]
      rw [if_pos hb, if_pos (hturn.mpr ht), ← hnext]; rfl
    · rw [if_neg ht, List.nil_append]; rw [if_pos hb, if_neg fun h => ht (hturn.mp h), ← hnext]
  · rw [hskip hb, List.reverse_nil, ite_self, List.nil_append, if_neg hb, if_neg fun h => hmode h.2, ← hnext]

/-- What a call makes of a scan control from whose list it takes a channel. -/
def afterPop (bkop : BackopPara) (passing : ℕ) (ch : ScanChannel) (c : ScanCtrl) : ScanCtrl :=
  let c := { c with chlist := c.chlist.tail }
  { (if ch.scanMode = .normal then normalTurn bkop passing c else c) with scanCh := some ch }

theorem popped_eq (hmode : ch.scanMode = .normal ∨ ch.scanMode = .backop) :
    p.popped passing i ch = (ch, p.modify i (afterPop p.bkop passing ch)) := by
  unfold ScanParam.popped afterPop
  rcases hmode with h | h
  · simp only [h, if_true, ScanParam.modify_modify]; rfl
  · simp only [h, ScanParam.modify_modify]; rfl

/-! ### The channels to come -/

/-- The list of a scan control holds, with the turns to come, the channels `F`. -/
def Remains (bkop : BackopPara) (c : ScanCtrl) (F : List ScanChannel) : Prop :=
  ∃ d k front rest, c.chlist = front ++ rest ∧ c.chIdx = ((k + d : ℕ) : ℤ) - 1 ∧ (∀ a ∈ front, a.scanMode = .backop) ∧
    (∀ a ∈ rest, a.scanMode = .normal) ∧ (∀ a ∈ opsOf bkop c, a.scanMode = .backop) ∧
      F = front ++ interleave (turn bkop.chIntv d) (opsOf bkop c).reverse k rest

theorem Remains.start (d : ℕ) (hlist : c.chlist = L) (hidx : c.chIdx = (d : ℤ) - 1) (hnormal : ∀ a ∈ L, a.scanMode = .normal)
    (hops : ∀ a ∈ opsOf bkop c, a.scanMode = .backop) :
    Remains bkop c (interleave (turn bkop.chIntv d) (opsOf bkop c).reverse 0 L) :=
  ⟨d, 0, [], L, hlist, by rw [hidx, Nat.zero_add], nofun, hnormal, hops, rfl⟩

theorem Remains.nil (h : Remains bkop c []) : c.chlist = [] := by
  obtain ⟨d, k, front, rest, hlist, -, -, -, -, hF⟩ := h
  obtain ⟨hfront, hrest⟩ := List.append_eq_nil_iff.mp hF.symm
  cases rest with
  | nil => rw [hlist, hfront, List.nil_append]
  | cons a l => cases hrest

theorem Remains.popped (h : Remains bkop c (ch :: F)) (hmode : bkop.mode ≠ .timer) (passing : ℕ) :
    c.chlist = ch :: c.chlist.tail ∧ (ch.scanMode = .normal ∨ ch.scanMode = .backop) ∧
      Remains bkop (afterPop bkop passing ch c) F := by
  obtain ⟨d, k, front, rest, hlist, hidx, hfront, hrest, hops, hF⟩ := h
  cases front with
  | cons a front =>
    obtain ⟨rfl, rfl⟩ := List.cons.inj hF
    have hback := hfront ch List.mem_cons_self
    have htail : c.chlist.tail = front ++ rest := by rw [hlist]; rfl
    refine ⟨by rw [hlist]; rfl, Or.inr hback, d, k, front, rest, ?_⟩
    have hnot : ¬ ch.scanMode = .normal := by rw [hback]; nofun
    simp only [afterPop, if_neg hnot]
    exact ⟨htail, hidx, fun a ha => hfront a (List.mem_cons_of_mem ch ha), hrest, hops, rfl⟩
  | nil =>
    cases rest with
    | nil => cases hF
    | cons a rest =>
      obtain ⟨rfl, rfl⟩ := List.cons.inj hF
      have hnormal := hrest ch List.mem_cons_self
      have htail : c.chlist.tail = rest := by rw [hlist]; rfl
      refine ⟨by rw [hlist]; rfl, Or.inl hnormal, d, k + 1, if turn bkop.chIntv d k then (opsOf bkop c).reverse else [], rest, ?_⟩
      have hturned := normalTurn_eq (c := { c with chlist := c.chlist.tail }) hmode passing hidx
      simp only [afterPop, if_pos hnormal, hturned]
      rw [htail]
      refine ⟨rfl, trivial, fun a ha => ?_, fun a ha => hrest a (List.mem_cons_of_mem ch ha), hops, rfl⟩
      split_ifs at ha with ht
      · exact hops a (List.mem_reverse.mp ha)
      · cases ha

/-! ### A list is filled again -/

/-- The channels of a request that are for a scan control. -/
def ScanParam.chlistFor (p : ScanParam) (isCckphy : Bool) : List ScanChannel :=
  if 1 < p.sctrlNum then p.ch.filter fun ch => ch.band = ScanParam.selBand isCckphy else p.ch

theorem updateChlist_eq (p : ScanParam) {i : ℕ} (hi : 1 < p.sctrlNum ∨ i = 0) (isCckphy : Bool) :
    p.updateChlist i isCckphy = p.modify i fun c => { c with isCckphy := isCckphy, chlist := p.chlistFor isCckphy } := by
  unfold ScanParam.updateChlist ScanParam.chlistFor
  by_cases hnum : 1 < p.sctrlNum
  · have hnum' : 1 < (p.modify i fun c => { c with chlist := [] }).sctrlNum := hnum
    simp only [if_pos hnum, if_pos hnum', ScanParam.modify_modify]; rfl
  · have hnum' : ¬ 1 < (p.modify i fun c => { c with chlist := [] }).sctrlNum := hnum
    obtain rfl := hi.resolve_left hnum
    simp only [if_neg hnum, if_neg hnum', ScanParam.modify_modify]; rfl

/-- Only the scan control with a number has changed, and none its band. -/
structure SameBut (i : ℕ) (p p' : ScanParam) : Prop where
  ch : p'.ch = p.ch
  bkop : p'.bkop = p.bkop
  num : p'.sctrlNum = p.sctrlNum
  band : ∀ j, (p'.sctrl j).hwBand = (p.sctrl j).hwBand
  other : ∀ j < p.sctrlNum, j ≠ i → p'.sctrl j = p.sctrl j

theorem SameBut.trans {p' p'' : ScanParam} (h : SameBut i p p') (h' : SameBut i p' p'') : SameBut i p p'' where
  ch := h'.ch.trans h.ch
  bkop := h'.bkop.trans h.bkop
  num := h'.num.trans h.num
  band := fun j => (h'.band j).trans (h.band j)
  other := fun j hj hne => (h'.other j (by rw [h.num]; exact hj) hne).trans (h.other j hj hne)

theorem SameBut.modify (p : ScanParam) {f : ScanCtrl → ScanCtrl} (h : (f (p.sctrl i)).hwBand = (p.sctrl i).hwBand) :
    SameBut i p (p.modify i f) :=
  ⟨rfl, rfl, rfl, p.modify_hwBand h, fun _ _ hne => p.modify_of_ne f hne⟩

theorem SameBut.cmdScanCtrl {p' : ScanParam} (h : SameBut i p p') (band : HwBand) : p'.cmdScanCtrl band = p.cmdScanCtrl band := by
  unfold ScanParam.cmdScanCtrl
  rw [h.num]
  simp only [h.band]

theorem SameBut.chlistFor {p' : ScanParam} (h : SameBut i p p') (isCckphy : Bool) : p'.chlistFor isCckphy = p.chlistFor isCckphy := by
  unfold ScanParam.chlistFor
  rw [h.num, h.ch]

/-- The index by which a list is filled again is that of the scan control itself. -/
def Fits (p : ScanParam) (band : HwBand) (i : ℕ) : Prop := if 1 < p.sctrlNum then band.idx = i else i = 0 ∧ p.sctrlNum = 1

/-- What a scan control is at the start of a later round. -/
def refilled (p : ScanParam) (c : ScanCtrl) : ScanCtrl :=
  { c with chlist := p.chlistFor c.isCckphy, chIdx := 0, repeats := if c.repeats ≠ 255 then c.repeats - 1 else c.repeats }

theorem nextRound_fits {band : HwBand} (hfits : Fits p band i) (hnil : (p.sctrl i).chlist = []) :
    SameBut i p (p.nextRound band i) ∧ (p.nextRound band i).sctrl i = refilled p (p.sctrl i) := by
  unfold Fits at hfits
  unfold ScanParam.nextRound
  by_cases hnum : 1 < p.sctrlNum
  · rw [if_pos hnum] at hfits
    subst hfits
    rw [updateChlist_eq p (Or.inl hnum), ScanParam.modify_modify]
    exact ⟨SameBut.modify p rfl, ScanParam.modify_self p _ _⟩
  · rw [if_neg hnum] at hfits
    obtain ⟨rfl, hone⟩ := hfits
    unfold ScanParam.updateChlist refilled ScanParam.chlistFor
    have hnum' : ¬ 1 < (p.modify band.idx fun c => { c with chlist := [] }).sctrlNum := hnum
    have hclear : (p.modify band.idx fun c => { c with chlist := [] }).sctrl 0 = { p.sctrl 0 with chlist := [] } := by
      cases band with
      | band0 => exact p.modify_self 0 _
      | band1 => rw [← hnil]; exact p.modify_of_ne _ (by decide)
    have hsame : SameBut 0 p (p.modify band.idx fun c => { c with chlist := [] }) :=
      ⟨rfl, rfl, rfl, p.modify_hwBand rfl, fun j hj hne => by omega⟩
    simp only [if_neg hnum, if_neg hnum', ScanParam.modify_modify]
    refine ⟨hsame.trans (SameBut.modify _ rfl), ?_⟩
    rw [ScanParam.modify_self, hclear]; rfl

theorem nextCh_starved {band : HwBand} {fuel : ℕ} {r : Option ScanChannel} {p' : ScanParam} (hnum : 1 < p.sctrlNum) (hne : band.idx ≠ i)
    (hnil : (p.sctrl i).chlist = []) (h : p.nextCh passing band i fuel = some (r, p')) : r = none := by
  induction fuel generalizing p with
  | zero => cases h
  | succ fuel ih =>
    unfold ScanParam.nextCh at h
    rw [hnil] at h
    simp only [] at h
    split_ifs at h with hrep
    · have hnum' : 1 < (p.nextRound band i).sctrlNum := by
        unfold ScanParam.nextRound
        rw [updateChlist_eq p (Or.inl hnum)]; exact hnum
      have hkeep : ((p.nextRound band i).sctrl i).chlist = [] := by
        unfold ScanParam.nextRound
        rw [updateChlist_eq p (Or.inl hnum), ScanParam.modify_self, ScanParam.modify_of_ne _ _ hne.symm]
        exact hnil
      exact ih hnum' hkeep h
    · cases h; rfl

/-- A list that is empty and stays so when a round starts. -/
def Dry (p : ScanParam) (band : HwBand) (i : ℕ) : Prop :=
  (p.sctrl i).chlist = [] ∧ ((1 < p.sctrlNum ∧ band.idx ≠ i) ∨ (Fits p band i ∧ p.chlistFor (p.sctrl i).isCckphy = []))

theorem Dry.nextRound {band : HwBand} (h : Dry p band i) : Dry (p.nextRound band i) band i ∧
      ((p.nextRound band i).sctrl i).repeats = if (p.sctrl i).repeats ≠ 255 then (p.sctrl i).repeats - 1 else (p.sctrl i).repeats := by
  obtain ⟨hnil, ⟨hnum, hne⟩ | ⟨hfits, hempty⟩⟩ := h
  · unfold ScanParam.nextRound
    rw [updateChlist_eq p (Or.inl hnum)]
    have hself : (p.modify band.idx fun c => { c with isCckphy := (p.sctrl i).isCckphy, chlist := p.chlistFor (p.sctrl i).isCckphy }).sctrl i =
        p.sctrl i := ScanParam.modify_of_ne p _ hne.symm
    refine ⟨⟨?_, Or.inl ⟨hnum, hne⟩⟩, ?_⟩
    · rw [ScanParam.modify_self, hself]; exact hnil
    · rw [ScanParam.modify_self, hself]
  · obtain ⟨hsame, hctrl⟩ := nextRound_fits hfits hnil
    refine ⟨⟨?_, Or.inr ⟨?_, ?_⟩⟩, ?_⟩
    · rw [hctrl]; exact hempty
    · unfold Fits at hfits ⊢
      rw [hsame.num]; exact hfits
    · rw [hctrl, hsame.chlistFor]; exact hempty
    · rw [hctrl]; rfl

theorem nextCh_nil {band : HwBand} {fuel : ℕ} (hnil : (p.sctrl i).chlist = []) : p.nextCh passing band i (fuel + 1) =
      if 0 < (p.sctrl i).repeats then (p.nextRound band i).nextCh passing band i fuel else some (none, p) := by
  conv_lhs => unfold ScanParam.nextCh
  rw [hnil]

theorem Dry.forever {band : HwBand} (h : Dry p band i) (hrep : 255 ≤ (p.sctrl i).repeats) (n : ℕ) :
    p.nextCh passing band i n = none := by
  induction n generalizing p with
  | zero => rfl
  | succ n ih =>
    obtain ⟨hdry, hnext⟩ := h.nextRound
    rw [nextCh_nil h.1, if_pos (by omega)]
    refine ih hdry ?_
    rw [hnext]
    split
    · omega
    · exact hrep

theorem Dry.repeats {band : HwBand} {fuel : ℕ} (h : Dry p band i) (hfuel : (p.sctrl i).repeats < fuel)
    (hnone : p.nextCh passing band i fuel = none) : 255 ≤ (p.sctrl i).repeats := by
  induction fuel generalizing p with
  | zero => omega
  | succ fuel ih =>
    obtain ⟨hdry, hnext⟩ := h.nextRound
    rw [nextCh_nil h.1] at hnone
    by_contra hlt
    rw [if_pos (by omega)] at hnext
    by_cases hpos : 0 < (p.sctrl i).repeats
    · rw [if_pos hpos] at hnone
      have hend := ih hdry (by omega) hnone
      omega
    · rw [if_neg hpos] at hnone; cases hnone

theorem selectChnl_none_iff (p : ScanParam) (passing : ℕ) (band : HwBand) : p.selectChnl passing band = none ↔
    ∃ i, p.cmdScanCtrl band = some i ∧ 255 ≤ (p.sctrl i).repeats ∧ Dry p band i := by
  unfold ScanParam.selectChnl
  cases hctrl : p.cmdScanCtrl band with
  | none => simp only [reduceCtorEq, false_and, exists_false]
  | some i =>
    dsimp only
    simp only [Option.some.injEq, exists_eq_left']
    refine ⟨fun hnone => ?_, fun ⟨hrep, hdry⟩ => hdry.forever hrep _⟩
    have hi : i < p.sctrlNum := by
      unfold ScanParam.cmdScanCtrl at hctrl; exact List.mem_range.mp (List.mem_of_find?_eq_some hctrl)
    cases hlist : (p.sctrl i).chlist with
    | cons ch l =>
      unfold ScanParam.nextCh at hnone
      rw [hlist] at hnone; cases hnone
    | nil =>
      by_cases hdry : Dry p band i
      · exact ⟨hdry.repeats (by omega) hnone, hdry⟩
      · -- the list is filled again, and its first channel is the result
        have hfits : Fits p band i := by
          unfold Fits
          split_ifs with hnum
          · by_contra hne; exact hdry ⟨hlist, Or.inl ⟨hnum, hne⟩⟩
          · omega
        have hfull : p.chlistFor (p.sctrl i).isCckphy ≠ [] := fun h => hdry ⟨hlist, Or.inr ⟨hfits, h⟩⟩
        obtain ⟨a, l, hcons⟩ := List.exists_cons_of_ne_nil hfull
        have hnext : ((p.nextRound band i).sctrl i).chlist = a :: l := by
          rw [(nextRound_fits hfits hlist).2]; exact hcons
        rw [nextCh_nil hlist] at hnone
        split_ifs at hnone
        unfold ScanParam.nextCh at hnone
        rw [hnext] at hnone; cases hnone

/-- **When a call does not return**: a round is repeated for ever, with a list that stays empty. -/
theorem selectChnl_hangs_iff (p : ScanParam) (passing : ℕ) (band : HwBand) :
    (p.selectChnl passing band = none ↔ ∃ i, p.cmdScanCtrl band = some i ∧ ∀ fuel, p.nextCh passing band i fuel = none) ∧
      (p.selectChnl passing band = none ↔ ∃ i, p.cmdScanCtrl band = some i ∧ 255 ≤ (p.sctrl i).repeats ∧ Dry p band i) := by
  refine ⟨⟨fun hnone => ?_, fun ⟨i, hi, hall⟩ => ?_⟩, selectChnl_none_iff p passing band⟩
  · obtain ⟨i, hi, hrep, hdry⟩ := (selectChnl_none_iff p passing band).mp hnone
    exact ⟨i, hi, hdry.forever hrep⟩
  · unfold ScanParam.selectChnl
    rw [hi]; exact hall _

/-! ### The channels and rounds to come -/

/-- So many rounds one after the other. -/
def rounds (m : ℕ) (A : List ScanChannel) : List ScanChannel := (List.replicate m A).flatten

theorem rounds_succ (m : ℕ) (A : List ScanChannel) : rounds (m + 1) A = A ++ rounds m A := rfl

theorem le_length_rounds {A : List ScanChannel} (hne : A ≠ []) (m : ℕ) : m ≤ (rounds m A).length := by
  induction m with
  | zero => exact Nat.zero_le _
  | succ m ih =>
    have hpos : 0 < A.length := List.length_pos_of_ne_nil hne
    rw [rounds_succ, List.length_append]; omega

def laterRound (p : ScanParam) (c : ScanCtrl) : List ScanChannel :=
  interleave (turn p.bkop.chIntv 1) (opsOf p.bkop c).reverse 0 (p.chlistFor c.isCckphy)

/-- The calls for a band are served with the channels `F`, and `m` rounds of them are still to be started. -/
structure Source (p : ScanParam) (band : HwBand) (i m : ℕ) (F : List ScanChannel) : Prop where
  ctrl : p.cmdScanCtrl band = some i
  num : i < p.sctrlNum
  mode : p.bkop.mode ≠ .timer
  normal : ∀ a ∈ p.chlistFor (p.sctrl i).isCckphy, a.scanMode = .normal
  nonempty : p.chlistFor (p.sctrl i).isCckphy ≠ []
  ops : ∀ a ∈ opsOf p.bkop (p.sctrl i), a.scanMode = .backop
  left : ∃ F₀, Remains p.bkop (p.sctrl i) F₀ ∧ F = F₀ ++ rounds m (laterRound p (p.sctrl i))
  again : 0 < m → Fits p band i ∧ ((p.sctrl i).repeats = m ∨ (p.sctrl i).repeats = 255)

/-- There are channels for so many calls, or no rounds besides those of `m`. -/
def Enough (p : ScanParam) (i m : ℕ) (F : List ScanChannel) (calls : ℕ) : Prop :=
  calls ≤ F.length ∨ ((p.sctrl i).repeats = m ∧ m < 255)

theorem afterPop_keeps (bkop : BackopPara) (passing : ℕ) (ch : ScanChannel) (c : ScanCtrl) :
    (afterPop bkop passing ch c).hwBand = c.hwBand ∧ (afterPop bkop passing ch c).backOpCh = c.backOpCh ∧
      (afterPop bkop passing ch c).isCckphy = c.isCckphy ∧ (afterPop bkop passing ch c).repeats = c.repeats := by
  simp only [afterPop]
  split_ifs with hmode
  · simp only [normalTurn]
    split_ifs <;> exact ⟨rfl, rfl, rfl, rfl⟩
  · exact ⟨rfl, rfl, rfl, rfl⟩

theorem interleave_ne_nil {turn : ℕ → Bool} {ins : List ScanChannel} (h : L ≠ []) : interleave turn ins k L ≠ [] := by
  cases L with
  | nil => exact absurd rfl h
  | cons a l => exact List.cons_ne_nil _ _

variable {band : HwBand} {m K : ℕ}

theorem Source.other {p' : ScanParam} {j : ℕ} (h : Source p band i m F) (hsame : SameBut j p p') (hne : i ≠ j) : Source p' band i m F := by
  have hctrl : p'.sctrl i = p.sctrl i := hsame.other i h.num hne
  obtain ⟨F₀, hleft, hF⟩ := h.left
  refine ⟨(hsame.cmdScanCtrl band).trans h.ctrl, hsame.num ▸ h.num, hsame.bkop ▸ h.mode, ?_, ?_, ?_, ⟨F₀, ?_, ?_⟩, fun hm => ?_⟩
  · rw [hctrl, hsame.chlistFor]; exact h.normal
  · rw [hctrl, hsame.chlistFor]; exact h.nonempty
  · rw [hctrl, hsame.bkop]; exact h.ops
  · rw [hctrl, hsame.bkop]; exact hleft
  · unfold laterRound
    rw [hctrl, hsame.bkop, hsame.chlistFor]; exact hF
  · unfold Fits
    rw [hctrl, hsame.num]; exact h.again hm

theorem Source.pop {a : ScanChannel} {F₁ : List ScanChannel} (h : Source p band i m F) (hleft : Remains p.bkop (p.sctrl i) (a :: F₁))
    (hF : F = a :: F₁ ++ rounds m (laterRound p (p.sctrl i))) (passing fuel : ℕ) :
    ∃ p', p.nextCh passing band i (fuel + 1) = some (some a, p') ∧ SameBut i p p' ∧ Source p' band i m F.tail ∧
      (p'.sctrl i).repeats = (p.sctrl i).repeats := by
  obtain ⟨hlist, hmode, hrest⟩ := hleft.popped h.mode passing
  obtain ⟨hband, hops, hcck, hrep⟩ := afterPop_keeps p.bkop passing a (p.sctrl i)
  have hopsOf : opsOf p.bkop (afterPop p.bkop passing a (p.sctrl i)) = opsOf p.bkop (p.sctrl i) := by
    unfold opsOf
    rw [hops]
  have hsame : SameBut i p (p.modify i (afterPop p.bkop passing a)) := SameBut.modify p hband
  refine ⟨p.modify i (afterPop p.bkop passing a), ?_, hsame, ?_, ?_⟩
  · unfold ScanParam.nextCh
    rw [hlist]
    simp only [popped_eq hmode]
  · refine ⟨(hsame.cmdScanCtrl band).trans h.ctrl, h.num, h.mode, ?_, ?_, ?_, ⟨F₁, ?_, ?_⟩, ?_⟩
    · rw [ScanParam.modify_self, hcck]; exact h.normal
    · rw [ScanParam.modify_self, hcck]; exact h.nonempty
    · rw [ScanParam.modify_self]; exact hopsOf ▸ h.ops
    · rw [ScanParam.modify_self]; exact hrest
    · rw [hF, ScanParam.modify_self]
      unfold laterRound
      rw [hcck]
      exact congrArg (F₁ ++ rounds m ·) (congrArg (fun o : List ScanChannel => interleave _ o.reverse 0 _) hopsOf.symm)
    · intro hm
      rw [ScanParam.modify_self, hrep]; exact h.again hm
  · rw [ScanParam.modify_self, hrep]

theorem Source.refill (h : Source p band i (m + 1) F) (hnil : (p.sctrl i).chlist = []) (hF : F = rounds (m + 1) (laterRound p (p.sctrl i))) :
    Source (p.nextRound band i) band i m F ∧ SameBut i p (p.nextRound band i) ∧
      Remains (p.nextRound band i).bkop ((p.nextRound band i).sctrl i) (laterRound p (p.sctrl i)) ∧
        laterRound (p.nextRound band i) ((p.nextRound band i).sctrl i) = laterRound p (p.sctrl i) ∧
          (p.nextRound band i).sctrl i = refilled p (p.sctrl i) := by
  obtain ⟨hfits, hrep⟩ := h.again (Nat.succ_pos m)
  obtain ⟨hsame, hctrl⟩ := nextRound_fits hfits hnil
  have hlater : laterRound (p.nextRound band i) ((p.nextRound band i).sctrl i) = laterRound p (p.sctrl i) := by
    unfold laterRound
    rw [hctrl, hsame.bkop, hsame.chlistFor]; rfl
  have hremains : Remains (p.nextRound band i).bkop ((p.nextRound band i).sctrl i) (laterRound p (p.sctrl i)) := by
    rw [hctrl, hsame.bkop]; exact Remains.start 1 rfl rfl h.normal h.ops
  refine ⟨⟨(hsame.cmdScanCtrl band).trans h.ctrl, hsame.num ▸ h.num, hsame.bkop ▸ h.mode, ?_, ?_, ?_, ⟨_, hremains, ?_⟩, fun hm => ⟨?_, ?_⟩⟩,
    hsame, hremains, hlater, hctrl⟩
  · rw [hctrl, hsame.chlistFor]; exact h.normal
  · rw [hctrl, hsame.chlistFor]; exact h.nonempty
  · rw [hctrl, hsame.bkop]; exact h.ops
  · rw [hlater, ← rounds_succ]; exact hF
  · unfold Fits
    rw [hsame.num]; exact hfits
  · rw [hctrl]
    unfold refilled
    simp only []
    rcases hrep with hrep | hrep
    · rw [hrep]
      split_ifs <;> omega
    · right
      rw [hrep]; rfl

theorem Source.step (h : Source p band i m F) (he : Enough p i m F (K + 1)) (passing : ℕ) :
    ∃ p' m', p.selectChnl passing band = some (F.head?, p') ∧ SameBut i p p' ∧ Source p' band i m' F.tail ∧ Enough p' i m' F.tail K := by
  unfold ScanParam.selectChnl
  rw [h.ctrl]
  simp only []
  obtain ⟨F₀, hleft, hF⟩ := h.left
  cases F₀ with
  | cons a F₁ =>
    obtain ⟨p', hcall, hsame, hsource, hrep⟩ := h.pop hleft hF passing ((p.sctrl i).repeats + 1)
    refine ⟨p', m, ?_, hsame, hsource, ?_⟩
    · rw [hcall, hF]; rfl
    · unfold Enough
      rw [hrep, List.length_tail]; exact he.imp_left fun hle => by omega
  | nil =>
    have hnil := hleft.nil
    rw [List.nil_append] at hF
    cases m with
    | zero =>
      have hF : F = [] := hF
      subst hF
      have hrep : (p.sctrl i).repeats = 0 := by
        rcases he with hle | ⟨hrep, -⟩
        · exact absurd hle (Nat.not_succ_le_zero K)
        · exact hrep
      refine ⟨p, 0, ?_, ⟨rfl, rfl, rfl, fun _ => rfl, fun _ _ _ => rfl⟩, h, Or.inr ⟨hrep, by decide⟩⟩
      unfold ScanParam.nextCh
      rw [hnil, hrep]; rfl
    | succ m =>
      obtain ⟨hq, hsame, hremains, hlater, hctrl⟩ := h.refill hnil hF
      have hne : laterRound p (p.sctrl i) ≠ [] := interleave_ne_nil h.nonempty
      obtain ⟨a, F₁, hcons⟩ := List.exists_cons_of_ne_nil hne
      have hrep : 0 < (p.sctrl i).repeats := by
        obtain ⟨-, hrep | hrep⟩ := h.again (Nat.succ_pos m)
        · omega
        · omega
      obtain ⟨p', hcall, hsame', hsource, hrep'⟩ := hq.pop (hcons ▸ hremains) (by rw [hlater, ← hcons, ← rounds_succ]; exact hF) passing
        (p.sctrl i).repeats
      refine ⟨p', m, ?_, hsame.trans hsame', hsource, ?_⟩
      · conv_lhs => unfold ScanParam.nextCh
        rw [hnil]
        simp only []
        rw [if_pos hrep, hcall, hF, rounds_succ, hcons]; rfl
      · unfold Enough at he ⊢
        rw [hrep', hctrl, List.length_tail]
        refine he.imp (fun hle => by omega) fun hlast => ?_
        unfold refilled
        simp only []
        rw [if_pos (by omega)]; omega

end Rtl8852cu.Scan
