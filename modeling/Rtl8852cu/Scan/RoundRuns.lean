import Mathlib.Data.List.TakeWhile
import Rtl8852cu.Scan.Rounds

/-!
# The rounds of a scan

`SelectsRight` is what the calls of `_cmd_scan_select_chnl` for the bands of a request are to return: the rounds of each band one after
the other, each with the operating channels in their order after every `ch_intv` channels.  It holds exactly when the request `Fits`
what the code does (`selects_right_iff`): operating channels are put in back to front, a later round counts one position more than
the first, and a list is filled again by the number of its band.
-/

namespace Rtl8852cu.Scan

open Lib

namespace ScanReq

variable {req : ScanReq} {band : HwBand}

/-- The channels of the request that are for a band. -/
def chlist (req : ScanReq) (band : HwBand) : List ScanChannel :=
  if req.dual then req.ch.filter fun ch => ch.band = ScanParam.selBand (req.isCckphy band) else req.ch

/-- The operating channels that are visited during the scan of a band. -/
def ops (req : ScanReq) (band : HwBand) : List ScanChannel :=
  if req.bkop.mode = .none then [] else (req.assignOpchList band).takeWhile fun ch => ch.channel ≠ 0

def Starts (req : ScanReq) (band : HwBand) : Prop := (req.dual = true ∨ band = req.hwBand) ∧ req.chlist band ≠ []

/-- A round of a band: each channel of its list, and all operating channels after every `ch_intv` of them. -/
def round (req : ScanReq) (band : HwBand) : List ScanChannel :=
  interleave (fun i => (i + 1) % req.bkop.chIntv = 0) (req.ops band) 0 (req.chlist band)

/-- The channels of a band in the order in which they are to be visited; of rounds without end, as many as the calls can need. -/
def visits (req : ScanReq) (band : HwBand) (calls : ℕ) : List ScanChannel :=
  rounds (if req.repeats = 255 then calls + 1 else req.repeats.toNat + 1) (req.round band)

def callsOf (band : HwBand) (cs : List SelectCall) : ℕ := (cs.filter fun c => c.band = band).length

/-- Calls for the bands of the request return, the channels are those of the rounds, and none changes the list of another band. -/
def SelectsRight (req : ScanReq) : Prop :=
  ∀ cs : List SelectCall, (∀ c ∈ cs, req.Starts c.band) → ∃ rs p, runCalls req.cmdScanReqInit cs = some (rs, p) ∧
    (∀ band, req.Starts band → resultsOf band rs = firstResults (callsOf band cs) (req.visits band cs.length)) ∧
      ∀ c : SelectCall, req.Starts c.band → ∃ r p', p.selectChnl c.passing c.band = some (r, p') ∧
        ∀ i < p.sctrlNum, (p.sctrl i).hwBand ≠ c.band → (p'.sctrl i).chlist = (p.sctrl i).chlist

/-! ### The start -/

/-- The index of the scan control of a band. -/
def ctrlIdx (req : ScanReq) (band : HwBand) : ℕ := if band = req.hwBand then 0 else 1

/-- A scan control after `_cmd_scan_req_init`. -/
def startCtrl (req : ScanReq) (band : HwBand) : ScanCtrl where
  hwBand := band
  repeats := req.repeats.toNat
  isCckphy := req.isCckphy band
  backOpCh := if req.bkop.mode ≠ .none then req.assignOpchList band else []
  chlist := req.chlist band
  scanCh := none
  chIdx := -1
  lastOpchAddTime := 0

theorem initCtrl_eq (req : ScanReq) {p : ScanParam} {i : ℕ} (hch : p.ch = req.ch) (hnum : p.sctrlNum = req.sctrlNum)
    (hi : i < req.sctrlNum) (hzero : p.sctrl i = zeroCtrl) : req.initCtrl p i = p.modify i fun _ => req.startCtrl (req.ctrlBand i) := by
  have hmodify : ∀ f : ScanCtrl → ScanCtrl, f zeroCtrl = req.startCtrl (req.ctrlBand i) →
      p.modify i f = p.modify i fun _ => req.startCtrl (req.ctrlBand i) := by
    intro f h
    unfold ScanParam.modify
    rw [hzero, h]
  have hlist : ∀ (f : ScanCtrl → ScanCtrl), (p.modify i f).chlistFor (req.isCckphy (req.ctrlBand i)) = req.chlist (req.ctrlBand i) := by
    intro f
    show p.chlistFor _ = _
    unfold ScanParam.chlistFor chlist
    rw [hch, hnum]
    unfold sctrlNum; cases req.dual <;> rfl
  have hidx : ∀ f : ScanCtrl → ScanCtrl, 1 < (p.modify i f).sctrlNum ∨ i = 0 := fun f => by
    show 1 < p.sctrlNum ∨ i = 0
    omega
  unfold initCtrl
  simp only [updateChlist_eq _ (hidx _), hlist, ScanParam.modify_modify]
  split_ifs with hmode
  · refine hmodify _ ?_
    unfold startCtrl
    rw [if_pos hmode]; rfl
  · refine hmodify _ ?_
    unfold startCtrl
    rw [if_neg hmode]; rfl

theorem init_eq (req : ScanReq) :
    req.cmdScanReqInit.ch = req.ch ∧ req.cmdScanReqInit.bkop = req.bkop ∧ req.cmdScanReqInit.sctrlNum = req.sctrlNum ∧
      req.cmdScanReqInit.sctrl 0 = req.startCtrl req.hwBand ∧
        (req.dual = true → req.cmdScanReqInit.sctrl 1 = req.startCtrl req.hwBand.other) := by
  unfold cmdScanReqInit
  cases hd : req.dual with
  | false =>
    have hnum : req.sctrlNum = 1 := by unfold sctrlNum; rw [hd]; rfl
    have h₀ : (List.range req.sctrlNum).foldl req.initCtrl ⟨req.ch, req.bkop, fun _ => zeroCtrl, req.sctrlNum⟩ =
        req.initCtrl ⟨req.ch, req.bkop, fun _ => zeroCtrl, req.sctrlNum⟩ 0 := by
      rw [hnum]; rfl
    rw [h₀, initCtrl_eq req rfl rfl (by omega) rfl]
    exact ⟨rfl, rfl, rfl, ScanParam.modify_self _ 0 _, nofun⟩
  | true =>
    have hnum : req.sctrlNum = 2 := by unfold sctrlNum; rw [hd]; rfl
    have h₁ : (List.range req.sctrlNum).foldl req.initCtrl ⟨req.ch, req.bkop, fun _ => zeroCtrl, req.sctrlNum⟩ =
        req.initCtrl (req.initCtrl ⟨req.ch, req.bkop, fun _ => zeroCtrl, req.sctrlNum⟩ 0) 1 := by
      rw [hnum]; rfl
    rw [h₁, initCtrl_eq req (i := 0) rfl rfl (by omega) rfl,
      initCtrl_eq req (i := 1) rfl rfl (by omega) (ScanParam.modify_of_ne _ _ (by decide))]
    refine ⟨rfl, rfl, rfl, ?_, fun _ => ScanParam.modify_self _ 1 _⟩
    rw [ScanParam.modify_of_ne _ _ (by decide), ScanParam.modify_self]; rfl

theorem init_ctrl (hhas : req.dual = true ∨ band = req.hwBand) :
    req.cmdScanReqInit.cmdScanCtrl band = some (req.ctrlIdx band) ∧ req.ctrlIdx band < req.cmdScanReqInit.sctrlNum ∧
      req.cmdScanReqInit.sctrl (req.ctrlIdx band) = req.startCtrl band := by
  obtain ⟨-, -, hnum, hzero, hone⟩ := req.init_eq
  by_cases hb : band = req.hwBand
  · have hidx : req.ctrlIdx band = 0 := if_pos hb
    rw [hidx]
    have hpos : 0 < req.sctrlNum := by unfold sctrlNum; split_ifs <;> decide
    refine ⟨?_, hnum ▸ hpos, by rw [hzero, hb]⟩
    unfold ScanParam.cmdScanCtrl
    rw [hnum]
    obtain ⟨n, hn⟩ := Nat.exists_eq_add_of_lt hpos
    rw [hn, Nat.zero_add, List.range_succ_eq_map]
    exact List.find?_cons_of_pos (by rw [hzero, hb]; exact decide_eq_true rfl)
  · have hidx : req.ctrlIdx band = 1 := if_neg hb
    have hd : req.dual = true := hhas.resolve_right hb
    have hother : req.hwBand.other = band := by
      revert hb
      cases band <;> cases req.hwBand <;> simp [HwBand.other]
    have hnum2 : req.sctrlNum = 2 := by unfold sctrlNum; rw [hd]; rfl
    rw [hidx]
    refine ⟨?_, by rw [hnum, hnum2]; decide, by rw [hone hd, hother]⟩
    unfold ScanParam.cmdScanCtrl
    rw [hnum, hnum2]
    show List.find? _ [0, 1] = some 1
    rw [List.find?_cons_of_neg, List.find?_cons_of_pos]
    · rw [hone hd, hother]; exact decide_eq_true rfl
    · rw [hzero]; exact fun h => hb (of_decide_eq_true h).symm

/-! ### Runs of calls -/

theorem opsOf_start (req : ScanReq) (band : HwBand) : opsOf req.bkop (req.startCtrl band) = req.ops band := by
  unfold opsOf ops startCtrl
  by_cases hmode : req.bkop.mode = .none
  · rw [if_pos hmode, if_pos hmode]
  · rw [if_neg hmode, if_neg hmode, if_pos hmode]

theorem ops_backop {a : ScanChannel} (ha : a ∈ req.ops band) : a.scanMode = .backop := by
  unfold ops at ha
  split_ifs at ha with hmode
  · cases ha
  · have hused := List.mem_takeWhile_imp ha
    obtain ⟨d, -, rfl⟩ := List.mem_map.mp ((List.takeWhile_sublist _).subset ha)
    split_ifs at hused ⊢ with hchan
    · rfl
    · exact absurd hused (by decide)

theorem chlist_subset {a : ScanChannel} (ha : a ∈ req.chlist band) : a ∈ req.ch := by
  unfold chlist at ha
  split_ifs at ha
  · exact (List.mem_filter.mp ha).1
  · exact ha

/-- The first round of a band as the code visits it, and a later one. -/
def codeRound (req : ScanReq) (band : HwBand) (d : ℕ) : List ScanChannel :=
  interleave (turn req.bkop.chIntv d) (req.ops band).reverse 0 (req.chlist band)

/-- The list of the band is filled by the index of its own scan control. -/
def OwnIndex (req : ScanReq) : Prop := req.dual = false ∨ req.hwBand = .band0

variable (hnormal : ∀ ch ∈ req.ch, ch.scanMode = .normal) (hmode : req.bkop.mode ≠ .timer)
include hnormal hmode

theorem start_source (hstarts : req.Starts band) {m : ℕ} (hm : 0 < m → req.OwnIndex ∧ (req.repeats.toNat = m ∨ req.repeats.toNat = 255)) :
    Source req.cmdScanReqInit band (req.ctrlIdx band) m (req.codeRound band 0 ++ rounds m (req.codeRound band 1)) := by
  obtain ⟨hch, hbkop, hnum, -, -⟩ := req.init_eq
  obtain ⟨hctrl, hlt, hstart⟩ := init_ctrl hstarts.1
  have hlist : req.cmdScanReqInit.chlistFor (req.startCtrl band).isCckphy = req.chlist band := by
    unfold ScanParam.chlistFor chlist
    rw [hch, hnum]
    unfold sctrlNum; cases req.dual <;> rfl
  have hnormal' : ∀ a ∈ req.chlist band, a.scanMode = .normal := fun a ha => hnormal a (chlist_subset ha)
  have hops : ∀ a ∈ opsOf req.bkop (req.startCtrl band), a.scanMode = .backop := fun a ha => ops_backop (opsOf_start req band ▸ ha)
  refine ⟨hctrl, hlt, hbkop ▸ hmode, ?_, ?_, ?_, ⟨req.codeRound band 0, ?_, ?_⟩, fun hpos => ?_⟩
  · rw [hstart, hlist]; exact hnormal'
  · rw [hstart, hlist]; exact hstarts.2
  · rw [hstart, hbkop]; exact hops
  · rw [hstart, hbkop]
    unfold codeRound
    rw [← opsOf_start]; exact Remains.start 0 rfl rfl hnormal' hops
  · rw [hstart]
    unfold laterRound codeRound
    rw [hlist, hbkop, opsOf_start]
  · obtain ⟨hown, hrep⟩ := hm hpos
    rw [hstart]
    refine ⟨?_, hrep⟩
    unfold Fits ctrlIdx
    rw [hnum]
    unfold sctrlNum
    rcases hstarts.1 with hd | hb
    · have hband : req.hwBand = .band0 := hown.resolve_left (by rw [hd]; nofun)
      rw [hd, hband]; cases band <;> decide
    · subst hb
      rcases hown with hd | hband
      · rw [hd]; exact ⟨if_pos rfl, rfl⟩
      · rw [hband]; cases req.dual <;> decide

end ScanReq

theorem runCalls_cons {p p' : ScanParam} {c : SelectCall} {r : Option ScanChannel} (cs : List SelectCall)
    (h : p.selectChnl c.passing c.band = some (r, p')) :
    runCalls p (c :: cs) = (runCalls p' cs).map fun q => ((c.band, r) :: q.1, q.2) := by
  simp only [runCalls, h]

theorem runCalls_cons_none {p : ScanParam} {c : SelectCall} (cs : List SelectCall) (h : p.selectChnl c.passing c.band = none) :
    runCalls p (c :: cs) = none := by
  simp only [runCalls, h]

theorem callsOf_cons (band : HwBand) (c : SelectCall) (cs : List SelectCall) :
    ScanReq.callsOf band (c :: cs) = if c.band = band then ScanReq.callsOf band cs + 1 else ScanReq.callsOf band cs := by
  unfold ScanReq.callsOf
  rw [List.filter_cons]
  by_cases h : c.band = band
  · rw [if_pos h, if_pos (decide_eq_true h), List.length_cons]
  · rw [if_neg h, if_neg fun hb => h (of_decide_eq_true hb)]

theorem resultsOf_cons (band : HwBand) (r : HwBand × Option ScanChannel) (rs : List (HwBand × Option ScanChannel)) :
    resultsOf band (r :: rs) = if r.1 = band then r.2 :: resultsOf band rs else resultsOf band rs := by
  unfold resultsOf
  rw [List.filter_cons]
  by_cases h : r.1 = band
  · rw [if_pos h, if_pos (decide_eq_true h), List.map_cons]
  · rw [if_neg h, if_neg fun hb => h (of_decide_eq_true hb)]

theorem Source.hwBand {p : ScanParam} {band : HwBand} {i m : ℕ} {F : List ScanChannel} (h : Source p band i m F) :
    (p.sctrl i).hwBand = band := by
  have hctrl := h.ctrl
  unfold ScanParam.cmdScanCtrl at hctrl
  have hfound := List.find?_some hctrl
  exact of_decide_eq_true hfound

theorem runCalls_served (S : HwBand → Prop) (idx : HwBand → ℕ) (K : ℕ) :
    ∀ (cs : List SelectCall) (p : ScanParam) (F : HwBand → List ScanChannel), (∀ c ∈ cs, S c.band) →
      (∀ band, S band → ∃ m, Source p band (idx band) m (F band) ∧ Enough p (idx band) m (F band) (ScanReq.callsOf band cs + K)) →
        ∃ rs p', runCalls p cs = some (rs, p') ∧ p'.sctrlNum = p.sctrlNum ∧ ∀ band, S band →
          resultsOf band rs = firstResults (ScanReq.callsOf band cs) (F band) ∧
            ∃ m, Source p' band (idx band) m ((F band).drop (ScanReq.callsOf band cs)) ∧
              Enough p' (idx band) m ((F band).drop (ScanReq.callsOf band cs)) K := by
  intro cs
  induction cs with
  | nil =>
    intro p F _ hserve
    refine ⟨[], p, rfl, rfl, fun band hb => ⟨rfl, ?_⟩⟩
    have hserve := hserve band hb
    rwa [show ScanReq.callsOf band [] + K = K from Nat.zero_add K] at hserve
  | cons c cs ih =>
    intro p F hcs hserve
    have hc := hcs c List.mem_cons_self
    have hown : ScanReq.callsOf c.band (c :: cs) = ScanReq.callsOf c.band cs + 1 := by rw [callsOf_cons, if_pos rfl]
    have hother : ∀ band, band ≠ c.band → ScanReq.callsOf band (c :: cs) = ScanReq.callsOf band cs := fun band hne => by
      rw [callsOf_cons, if_neg hne.symm]
    obtain ⟨m, hsource, henough⟩ := hserve c.band hc
    rw [hown, Nat.add_right_comm] at henough
    obtain ⟨p', m', hcall, hsame, hsource', henough'⟩ := hsource.step henough c.passing
    obtain ⟨rs, q, hrun, hnum, hrest⟩ := ih p' (fun band => if band = c.band then (F band).tail else F band)
      (fun c' hmem => hcs c' (List.mem_cons_of_mem c hmem)) (by
        intro band hb
        by_cases heq : band = c.band
        · subst heq
          rw [if_pos rfl]; exact ⟨m', hsource', henough'⟩
        · obtain ⟨n, hn, hen⟩ := hserve band hb
          rw [hother band heq] at hen
          have hidx : idx band ≠ idx c.band := fun h => heq (hn.hwBand.symm.trans (h ▸ hsource.hwBand))
          rw [if_neg heq]
          refine ⟨n, hn.other hsame hidx, ?_⟩
          unfold Enough at hen ⊢
          rwa [hsame.other _ hn.num hidx])
    refine ⟨(c.band, (F c.band).head?) :: rs, q, ?_, hnum.trans hsame.num, fun band hb => ?_⟩
    · rw [runCalls_cons cs hcall, hrun]; rfl
    · obtain ⟨hres, hleft⟩ := hrest band hb
      by_cases heq : band = c.band
      · subst heq
        rw [if_pos rfl] at hres hleft
        rw [hown, ← List.drop_tail]
        exact ⟨by rw [firstResults_succ, ← hres, resultsOf_cons, if_pos rfl], hleft⟩
      · rw [if_neg heq] at hres hleft
        rw [hother band heq]
        exact ⟨by rw [← hres, resultsOf_cons, if_neg fun h => heq h.symm], hleft⟩

/-! ### The rounds of the code and those of the request -/

namespace ScanReq

variable {req : ScanReq} {band : HwBand}

/-- The operating channels of a band are put in as the request wants: there is none, or their order does not show and a later round
has its turns where the first has them. -/
def OpsFit (req : ScanReq) (band : HwBand) : Prop :=
  req.ops band = [] ∨ (((req.chlist band).length < req.bkop.chIntv ∨ (req.ops band).reverse = req.ops band) ∧
      (req.repeats = 0 ∨ req.bkop.chIntv = 1 ∨ (req.chlist band).length + 1 < req.bkop.chIntv))

theorem codeRound_short {d : ℕ} (hlen : (req.chlist band).length + d < req.bkop.chIntv) : req.codeRound band d = req.chlist band := by
  refine interleave_none fun j _ hj => decide_eq_false ?_
  rw [Nat.mod_eq_of_lt (by omega)]; omega

theorem round_short (hlen : (req.chlist band).length < req.bkop.chIntv) : req.round band = req.chlist band := by
  refine interleave_none fun j _ hj => decide_eq_false ?_
  rw [Nat.mod_eq_of_lt (by omega)]; omega

theorem codeRound_first (h : req.OpsFit band) : req.codeRound band 0 = req.round band := by
  unfold codeRound round
  rcases h with hnil | ⟨hlen | hrev, -⟩
  · rw [hnil]; exact (interleave_nil 0 _).trans (interleave_nil 0 _).symm
  · exact (codeRound_short hlen).trans (round_short hlen).symm
  · rw [hrev]; rfl

theorem codeRound_later (h : req.OpsFit band) (hrep : req.repeats ≠ 0) : req.codeRound band 1 = req.round band := by
  rw [← codeRound_first h]
  unfold codeRound
  rcases h with hnil | ⟨-, hzero | hone | hlen⟩
  · rw [hnil]; exact (interleave_nil 0 _).trans (interleave_nil 0 _).symm
  · exact absurd hzero hrep
  · refine interleave_congr fun j _ _ => ⟨?_, fun _ => rfl⟩
    unfold turn
    rw [hone, Nat.mod_one, Nat.mod_one]
  · exact (codeRound_short hlen).trans (codeRound_short (by omega)).symm

theorem length_codeRound (req : ScanReq) (band : HwBand) : (req.codeRound band 0).length = (req.round band).length :=
  length_interleave List.length_reverse

theorem codeRound_first_only (hintv : 0 < req.bkop.chIntv) (h : req.codeRound band 0 = req.round band) :
    (req.chlist band).length < req.bkop.chIntv ∨ (req.ops band).reverse = req.ops band := by
  rcases Nat.lt_or_ge (req.chlist band).length req.bkop.chIntv with hlt | hge
  · exact Or.inl hlt
  · right
    have hlt : req.bkop.chIntv - 1 < (req.chlist band).length := by omega
    have hturn : turn req.bkop.chIntv 0 (req.bkop.chIntv - 1) = true := decide_eq_true (by
      rw [Nat.add_zero, Nat.sub_add_cancel hintv, Nat.mod_self])
    have hbefore : ∀ j < req.bkop.chIntv - 1, turn req.bkop.chIntv 0 j = false := fun j hj => decide_eq_false (by
      rw [Nat.mod_eq_of_lt (by omega)]
      omega)
    have h₁ : req.codeRound band 0 = _ := interleave_first hlt hturn hbefore
    have h₂ : req.round band = _ := interleave_first hlt hturn hbefore
    rw [h₁, h₂] at h; exact (List.append_inj (List.append_cancel_left h) List.length_reverse).1

theorem codeRound_later_differs (hintv : 0 < req.bkop.chIntv) (hnormal : ∀ ch ∈ req.ch, ch.scanMode = .normal)
    (hops : req.ops band ≠ []) (hone : req.bkop.chIntv ≠ 1) (hlen : req.bkop.chIntv ≤ (req.chlist band).length + 1) (m : ℕ) (hm : 0 < m) :
    (rounds m (req.codeRound band 1))[req.bkop.chIntv - 1]? ≠ (rounds m (req.round band))[req.bkop.chIntv - 1]? := by
  obtain ⟨m, rfl⟩ := Nat.exists_eq_succ_of_ne_zero hm.ne'
  have hlt : req.bkop.chIntv - 2 < (req.chlist band).length := by omega
  have hturn : turn req.bkop.chIntv 1 (req.bkop.chIntv - 2) = true := decide_eq_true (by
    rw [show req.bkop.chIntv - 2 + 1 + 1 = req.bkop.chIntv by omega, Nat.mod_self])
  have hbefore : ∀ j < req.bkop.chIntv - 2, turn req.bkop.chIntv 1 j = false := fun j hj => decide_eq_false (by
    rw [Nat.mod_eq_of_lt (by omega)]
    omega)
  have hlater : req.codeRound band 1 = _ := interleave_first hlt hturn hbefore
  have htake : ((req.chlist band).take (req.bkop.chIntv - 2 + 1)).length = req.bkop.chIntv - 1 := by
    rw [List.length_take]; omega
  obtain ⟨o, os, hcons⟩ := List.exists_cons_of_ne_nil (List.reverse_ne_nil_iff.mpr hops)
  have hback : o.scanMode = .backop := ops_backop (List.mem_reverse.mp (hcons ▸ List.mem_cons_self))
  have hcode : (rounds (m + 1) (req.codeRound band 1))[req.bkop.chIntv - 1]? = some o := by
    rw [rounds_succ, hlater, hcons, List.append_assoc, List.getElem?_append_right htake.le, htake, Nat.sub_self]
    rfl
  intro heq
  rw [hcode] at heq
  have hmem : o ∈ req.chlist band := by
    rcases Nat.lt_or_ge (req.chlist band).length req.bkop.chIntv with hshort | hge
    · have hmem := List.mem_of_getElem? heq.symm
      rw [round_short hshort] at hmem
      obtain ⟨l, hl, ho⟩ := List.mem_flatten.mp hmem
      rwa [List.eq_of_mem_replicate hl] at ho
    · have hlt' : req.bkop.chIntv - 1 < (req.chlist band).length := by omega
      have hround : req.round band = _ := interleave_first hlt' (decide_eq_true (by
        rw [Nat.sub_add_cancel hintv, Nat.mod_self])) fun j hj => decide_eq_false (by
          rw [Nat.mod_eq_of_lt (by omega)]
          omega)
      rw [rounds_succ, hround, List.append_assoc, List.getElem?_append_left (by rw [List.length_take]; omega)] at heq
      exact List.mem_of_mem_take (List.mem_of_getElem? heq.symm)
  rw [hnormal o (chlist_subset hmem)] at hback; cases hback

/-- The rounds after the first that so many calls can need. -/
def more (req : ScanReq) (calls : ℕ) : ℕ := if req.repeats = 255 then calls else req.repeats.toNat

theorem visits_eq (req : ScanReq) (band : HwBand) (n : ℕ) : req.visits band n = req.round band ++ rounds (req.more n) (req.round band) := by
  unfold visits more
  split_ifs <;> rfl

theorem more_repeats (req : ScanReq) (n : ℕ) : req.repeats.toNat = req.more n ∨ req.repeats.toNat = 255 := by
  unfold more
  split_ifs with h
  · exact Or.inr (by rw [h]; rfl)
  · exact Or.inl rfl

theorem more_pos {n : ℕ} (hn : 0 < n) (hrep : req.repeats ≠ 0) : 0 < req.more n := by
  unfold more
  split_ifs
  · exact hn
  · exact Nat.pos_of_ne_zero fun h => hrep (UInt8.toNat_inj.mp h)

theorem more_zero (n : ℕ) (hrep : req.repeats = 0) : req.more n = 0 := by
  unfold more
  rw [hrep]; rfl

theorem start_enough (hstarts : req.Starts band) {A B : List ScanChannel} {n K : ℕ} (hA : K ≤ A.length) (hB : B ≠ []) {k : ℕ} (hk : k ≤ n) :
    Enough req.cmdScanReqInit (req.ctrlIdx band) (req.more n) (A ++ rounds (req.more n) B) (k + K) := by
  unfold Enough
  rw [(init_ctrl hstarts.1).2.2]
  by_cases hrep : req.repeats = 255
  · left
    have hmore : req.more n = n := if_pos hrep
    have hle := le_length_rounds hB n
    rw [hmore, List.length_append]; omega
  · right
    have hmore : req.more n = req.repeats.toNat := if_neg hrep
    have hne : req.repeats.toNat ≠ 255 := fun h => hrep (UInt8.toNat_inj.mp h)
    have hlt := req.repeats.toNat_lt
    rw [hmore]; exact ⟨rfl, by omega⟩

theorem round_ne_nil (hstarts : req.Starts band) : req.round band ≠ [] := interleave_ne_nil hstarts.2

theorem selectsRight_of_fits (hnormal : ∀ ch ∈ req.ch, ch.scanMode = .normal) (hmode : req.bkop.mode ≠ .timer)
    (hfit : ∀ band, req.Starts band → (req.repeats = 0 ∨ req.OwnIndex) ∧ req.OpsFit band) : req.SelectsRight := by
  intro cs hcs
  have hvisits : ∀ band, req.Starts band →
      req.codeRound band 0 ++ rounds (req.more cs.length) (req.codeRound band 1) = req.visits band cs.length := by
    intro band hb
    rw [visits_eq, codeRound_first (hfit band hb).2]
    by_cases hrep : req.repeats = 0
    · rw [more_zero _ hrep]; rfl
    · rw [codeRound_later (hfit band hb).2 hrep]
  obtain ⟨rs, p, hrun, -, hserved⟩ := runCalls_served req.Starts req.ctrlIdx 1 cs req.cmdScanReqInit
    (fun band => req.visits band cs.length) hcs (by
      intro band hb
      have hlen : 1 ≤ (req.codeRound band 0).length := List.length_pos_of_ne_nil (interleave_ne_nil hb.2)
      have hcalls : callsOf band cs ≤ cs.length := List.length_filter_le _ cs
      rw [← hvisits band hb]
      refine ⟨req.more cs.length, start_source hnormal hmode hb fun hpos => ⟨?_, req.more_repeats _⟩,
        start_enough hb hlen (interleave_ne_nil hb.2) hcalls⟩
      exact (hfit band hb).1.resolve_left fun hrep => absurd (more_zero cs.length hrep) hpos.ne')
  refine ⟨rs, p, hrun, fun band hb => (hserved band hb).1, fun c hc => ?_⟩
  obtain ⟨-, m, hsource, henough⟩ := hserved c.band hc
  obtain ⟨p', -, hcall, hsame, -, -⟩ := hsource.step henough c.passing
  refine ⟨_, p', hcall, fun i hi hne => ?_⟩
  rw [hsame.other i hi fun h => hne (h ▸ hsource.hwBand)]

end ScanReq

theorem callsOf_replicate (c : SelectCall) (n : ℕ) : ScanReq.callsOf c.band (List.replicate n c) = n := by
  induction n with
  | zero => rfl
  | succ n ih => rw [List.replicate_succ, callsOf_cons, if_pos rfl, ih]

theorem resultsOf_append (band : HwBand) (rs rs' : List (HwBand × Option ScanChannel)) :
    resultsOf band (rs ++ rs') = resultsOf band rs ++ resultsOf band rs' := by
  unfold resultsOf
  rw [List.filter_append, List.map_append]

theorem runCalls_snoc {p p' q : ScanParam} {cs : List SelectCall} {c : SelectCall} {rs rs' : List (HwBand × Option ScanChannel)}
    (h : runCalls p cs = some (rs, p')) (h' : runCalls p (cs ++ [c]) = some (rs', q)) :
    ∃ r, p'.selectChnl c.passing c.band = some (r, q) ∧ rs' = rs ++ [(c.band, r)] := by
  induction cs generalizing p rs rs' with
  | nil =>
    cases h
    cases hcall : p'.selectChnl c.passing c.band with
    | none =>
      rw [List.nil_append, runCalls_cons_none [] hcall] at h'; cases h'
    | some r =>
      rw [List.nil_append, runCalls_cons [] hcall] at h'
      cases h'
      exact ⟨r.1, rfl, rfl⟩
  | cons a cs ih =>
    rw [List.cons_append] at h'
    cases hcall : p.selectChnl a.passing a.band with
    | none =>
      rw [runCalls_cons_none cs hcall] at h; cases h
    | some r =>
      rw [runCalls_cons _ hcall] at h h'
      obtain ⟨⟨rs₁, q₁⟩, hrun₁, heq₁⟩ := Option.map_eq_some_iff.mp h
      obtain ⟨⟨rs₂, q₂⟩, hrun₂, heq₂⟩ := Option.map_eq_some_iff.mp h'
      cases heq₁
      cases heq₂
      obtain ⟨x, hx, rfl⟩ := ih hrun₁ hrun₂
      exact ⟨x, hx, rfl⟩

namespace ScanReq

variable {req : ScanReq} {band : HwBand}

/-- The calls for one band from the start. -/
def callsFor (band : HwBand) (n : ℕ) : List SelectCall := List.replicate n ⟨band, 0⟩

theorem callsFor_starts (hb : req.Starts band) (n : ℕ) : ∀ c ∈ callsFor band n, req.Starts c.band := fun c hc => by
  rw [List.eq_of_mem_replicate hc]; exact hb

section

variable (hnormal : ∀ ch ∈ req.ch, ch.scanMode = .normal) (hmode : req.bkop.mode ≠ .timer)

include hnormal hmode

theorem ownIndex_of_selectsRight (hright : req.SelectsRight) (hb : req.Starts band) (hrep : req.repeats ≠ 0) :
    req.OwnIndex := by
  by_contra hown
  obtain ⟨hd, hband⟩ := not_or.mp hown
  have hd : req.dual = true := eq_true_of_ne_false hd
  have hnone : 0 < 0 → req.OwnIndex ∧ (req.repeats.toNat = 0 ∨ req.repeats.toNat = 255) := fun h => absurd h (Nat.lt_irrefl 0)
  have hsource := start_source hnormal hmode hb hnone
  rw [show rounds 0 (req.codeRound band 1) = [] from rfl, List.append_nil] at hsource
  -- the calls of the first round
  obtain ⟨rs, p, hrun, hnum, hserved⟩ := runCalls_served (· = band) req.ctrlIdx 0
    (callsFor band (req.codeRound band 0).length) req.cmdScanReqInit (fun _ => req.codeRound band 0)
    (fun c hc => by rw [List.eq_of_mem_replicate hc]) (by
      rintro _ rfl
      exact ⟨0, hsource, Or.inl (callsOf_replicate (.mk _ 0) _).le⟩)
  obtain ⟨hres, m, hleft, -⟩ := hserved band rfl
  have hcalls : callsOf band (callsFor band (req.codeRound band 0).length) = (req.codeRound band 0).length := callsOf_replicate ⟨band, 0⟩ _
  rw [hcalls] at hres hleft
  rw [List.drop_length] at hleft
  have hnil : (p.sctrl (req.ctrlIdx band)).chlist = [] := by
    obtain ⟨F₀, hremains, hF⟩ := hleft.left
    rw [(List.append_eq_nil_iff.mp hF.symm).1] at hremains; exact hremains.nil
  -- the call after them
  obtain ⟨rs', q, hrun', hres', -⟩ := hright (callsFor band ((req.codeRound band 0).length + 1)) (callsFor_starts hb _)
  have hresults := hres' band hb
  have hcalls' : callsOf band (callsFor band ((req.codeRound band 0).length + 1)) = (req.codeRound band 0).length + 1 :=
    callsOf_replicate ⟨band, 0⟩ _
  rw [hcalls'] at hresults
  have hsnoc : callsFor band ((req.codeRound band 0).length + 1) = callsFor band (req.codeRound band 0).length ++ [⟨band, 0⟩] :=
    List.replicate_succ'
  rw [hsnoc] at hrun'
  obtain ⟨r, hcall, rfl⟩ := runCalls_snoc hrun hrun'
  have hidx : band.idx ≠ req.ctrlIdx band := by
    have hband1 : req.hwBand = .band1 := by
      cases h : req.hwBand with
      | band0 => exact absurd h hband
      | band1 => rfl
    unfold ctrlIdx
    rw [hband1]; cases band <;> decide
  have hr : r = none := by
    unfold ScanParam.selectChnl at hcall
    rw [hleft.ctrl] at hcall
    refine nextCh_starved ?_ hidx hnil hcall
    rw [hnum, req.init_eq.2.2.1]
    unfold sctrlNum
    rw [hd]; decide
  -- the request has a channel for it
  have hlast := congrArg (fun l : List (Option ScanChannel) => l[(req.codeRound band 0).length]?) hresults
  simp only [] at hlast
  rw [firstResults_getElem? (Nat.lt_succ_self _), resultsOf_append, List.getElem?_append_right (by rw [hres, firstResults_length]), hres,
    firstResults_length, Nat.sub_self, resultsOf_cons, if_pos rfl, hr, visits_eq] at hlast
  have hlen : (req.codeRound band 0).length < (req.round band ++ rounds (req.more (callsFor band ((req.codeRound band 0).length + 1)).length)
      (req.round band)).length := by
    have hpos : 0 < (req.round band).length := List.length_pos_of_ne_nil (round_ne_nil hb)
    have hmore := le_length_rounds (round_ne_nil hb) (req.more (callsFor band ((req.codeRound band 0).length + 1)).length)
    have hmore' : 0 < req.more (callsFor band ((req.codeRound band 0).length + 1)).length :=
      more_pos (by unfold callsFor; rw [List.length_replicate]; omega) hrep
    have hsame := length_codeRound req band
    rw [List.length_append]; omega
  rw [List.getElem?_eq_getElem hlen] at hlast; cases hlast

theorem agrees_of_selectsRight (hright : req.SelectsRight) (hb : req.Starts band) {n j : ℕ} (hj : j < n) :
    (req.codeRound band 0 ++ rounds (req.more n) (req.codeRound band 1))[j]? =
      (req.round band ++ rounds (req.more n) (req.round band))[j]? := by
  have hsource := start_source (m := req.more n) hnormal hmode hb fun hpos =>
    ⟨ownIndex_of_selectsRight hnormal hmode hright hb fun hrep => absurd (more_zero n hrep) hpos.ne', req.more_repeats n⟩
  have hcalls : callsOf band (callsFor band n) = n := callsOf_replicate ⟨band, 0⟩ n
  obtain ⟨rs, p, hrun, -, hserved⟩ := runCalls_served (· = band) req.ctrlIdx 0 (callsFor band n) req.cmdScanReqInit
    (fun _ => req.codeRound band 0 ++ rounds (req.more n) (req.codeRound band 1)) (fun c hc => by rw [List.eq_of_mem_replicate hc]) (by
      rintro _ rfl
      exact ⟨req.more n, hsource, start_enough hb (Nat.zero_le _) (interleave_ne_nil hb.2) hcalls.le⟩)
  obtain ⟨rs', q, hrun', hres, -⟩ := hright (callsFor band n) (callsFor_starts hb n)
  rw [hrun] at hrun'
  cases hrun'
  have heq := (hserved band rfl).1.symm.trans (hres band hb)
  have hlen : (callsFor band n).length = n := List.length_replicate
  rw [hcalls, hlen, visits_eq] at heq
  have hget := congrArg (fun l : List (Option ScanChannel) => l[j]?) heq
  rw [firstResults_getElem? hj, firstResults_getElem? hj] at hget; exact Option.some.inj hget

theorem opsFit_of_selectsRight (hintv : 0 < req.bkop.chIntv) (hright : req.SelectsRight) (hb : req.Starts band) :
    req.OpsFit band := by
  by_cases hops : req.ops band = []
  · exact Or.inl hops
  have hlen := length_codeRound req band
  have hfirst : req.codeRound band 0 = req.round band := by
    refine List.ext_getElem? fun j => ?_
    rcases Nat.lt_or_ge j (req.round band).length with hj | hj
    · have hagree := agrees_of_selectsRight hnormal hmode hright hb hj
      rwa [List.getElem?_append_left (hlen ▸ hj), List.getElem?_append_left hj] at hagree
    · rw [List.getElem?_eq_none (hlen ▸ hj), List.getElem?_eq_none hj]
  refine Or.inr ⟨codeRound_first_only hintv hfirst, ?_⟩
  by_contra hnot
  obtain ⟨hrep, hnot⟩ := not_or.mp hnot
  obtain ⟨hone, hshort⟩ := not_or.mp hnot
  have hagree := agrees_of_selectsRight hnormal hmode hright hb (n := (req.round band).length + req.bkop.chIntv)
    (j := (req.round band).length + (req.bkop.chIntv - 1)) (by omega)
  rw [List.getElem?_append_right (by omega), List.getElem?_append_right (by omega), hlen, Nat.add_sub_cancel_left] at hagree
  exact codeRound_later_differs hintv hnormal hops hone (by omega) _ (more_pos (by omega) hrep) hagree

end

/-- **The channels are selected as the request wants them exactly when, for each band that starts, the list is filled again by its own
index if at all, and the operating channels fit.** -/
theorem selects_right_iff (hnormal : ∀ ch ∈ req.ch, ch.scanMode = .normal) (hmode : req.bkop.mode ≠ .timer)
    (hintv : 0 < req.bkop.chIntv) :
    req.SelectsRight ↔ ∀ band, req.Starts band → (req.repeats = 0 ∨ req.dual = false ∨ req.hwBand = .band0) ∧ req.OpsFit band := by
  refine ⟨fun hright band hb => ⟨?_, opsFit_of_selectsRight hnormal hmode hintv hright hb⟩, selectsRight_of_fits hnormal hmode⟩
  by_cases hrep : req.repeats = 0
  · exact Or.inl hrep
  · exact Or.inr (ownIndex_of_selectsRight hnormal hmode hright hb hrep)

/-- Two bands, and one operating channel after each two channels of the only round. -/
def twoBands : ScanReq where
  ch := [⟨1, .on24g, 1, 100, .normal⟩, ⟨2, .on24g, 6, 100, .normal⟩, ⟨3, .on24g, 11, 100, .normal⟩, ⟨4, .on5g, 36, 100, .normal⟩]
  repeats := 0
  bkop := ⟨.cnt, 2, 0⟩
  hwBand := .band1
  dual := true
  cckPhyidx := .band0
  opchList := fun _ => [⟨5, .on5g, 149, 30⟩]

theorem twoBands_selectsRight : twoBands.SelectsRight :=
  (selects_right_iff (by decide) (by decide) (by decide)).mpr fun band _ => by
    refine ⟨Or.inl rfl, Or.inr ⟨Or.inr ?_, Or.inl rfl⟩⟩
    cases band <;> rfl

/-- One channel, and two operating channels after it. -/
def twoOpch : ScanReq where
  ch := [⟨1, .on24g, 1, 100, .normal⟩]
  repeats := 0
  bkop := ⟨.cnt, 1, 0⟩
  hwBand := .band0
  dual := false
  cckPhyidx := .band0
  opchList := fun _ => [⟨2, .on24g, 6, 30⟩, ⟨3, .on24g, 11, 30⟩]

/-- The second operating channel is visited before the first. -/
theorem opch_reversed : ¬ twoOpch.SelectsRight := by
  intro h
  have hstarts : twoOpch.Starts .band0 := ⟨Or.inr rfl, by decide⟩
  obtain ⟨rs, p, hrun, hres, -⟩ := h [⟨.band0, 0⟩, ⟨.band0, 0⟩] (fun c hc => by
    rcases List.mem_pair.mp hc with rfl | rfl <;> exact hstarts)
  have hcode : (runCalls twoOpch.cmdScanReqInit [⟨.band0, 0⟩, ⟨.band0, 0⟩]).map (fun r => (resultsOf .band0 r.1).map (Option.map (·.channel))) =
      some [some 1, some 11] := by decide
  have hwanted : (firstResults (callsOf .band0 [⟨.band0, 0⟩, ⟨.band0, 0⟩]) (twoOpch.visits .band0 2)).map (Option.map (·.channel)) =
      [some 1, some 6] := by decide
  rw [hrun] at hcode
  have hcode : (resultsOf .band0 rs).map (Option.map (·.channel)) = [some 1, some 11] := Option.some.inj hcode
  rw [hres .band0 hstarts] at hcode; exact absurd (hcode.symm.trans hwanted) (by decide)

end ScanReq

end Rtl8852cu.Scan
