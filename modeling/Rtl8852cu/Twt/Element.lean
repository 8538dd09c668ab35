import Rtl8852cu.Twt.Config
import Rtl8852cu.Lib.BitMem

/-!
# The TWT element

Control, request type and parameters of an individual TWT, packed into fifteen bytes behind the id and the length of the
element.

A read that does not end before `lim` gives `none`.  Groupings, the broadcast parameters and NDP paging are not there.
-/

namespace Rtl8852cu.Twt

open Lib.BitMem

inductive WakeDurUnit where
  | wake256us
  | wake1tu
deriving DecidableEq, Repr

inductive SetupCmd where
  | requestTwt
  | suggestTwt
  | demandTwt
  | twtGrouping
  | acceptTwt
  | alternateTwt
  | dictateTwt
  | rejectTwt
deriving DecidableEq, Repr

inductive FlowType where
  | announcedTwt
  | unannouncedTwt
deriving DecidableEq, Repr

/-! ### The values of the enumerations -/

def NegoType.code : NegoType → ℕ
  | .indivTwt => 0
  | .wakeTbttInr => 1
  | .bcastTwt => 2
  | .manageBcastTwt => 3

def NegoType.ofCode : ℕ → NegoType
  | 0 => .indivTwt
  | 1 => .wakeTbttInr
  | 2 => .bcastTwt
  | _ => .manageBcastTwt

def WakeDurUnit.code : WakeDurUnit → ℕ
  | .wake256us => 0
  | .wake1tu => 1

def WakeDurUnit.ofCode : ℕ → WakeDurUnit
  | 0 => .wake256us
  | _ => .wake1tu

def SetupCmd.code : SetupCmd → ℕ
  | .requestTwt => 0
  | .suggestTwt => 1
  | .demandTwt => 2
  | .twtGrouping => 3
  | .acceptTwt => 4
  | .alternateTwt => 5
  | .dictateTwt => 6
  | .rejectTwt => 7

def SetupCmd.ofCode : ℕ → SetupCmd
  | 0 => .requestTwt
  | 1 => .suggestTwt
  | 2 => .demandTwt
  | 3 => .twtGrouping
  | 4 => .acceptTwt
  | 5 => .alternateTwt
  | 6 => .dictateTwt
  | _ => .rejectTwt

def FlowType.code : FlowType → ℕ
  | .announcedTwt => 0
  | .unannouncedTwt => 1

def FlowType.ofCode : ℕ → FlowType
  | 0 => .announcedTwt
  | _ => .unannouncedTwt

@[simp] theorem NegoType.ofCode_code (x : NegoType) : ofCode x.code = x := by cases x <;> rfl
@[simp] theorem WakeDurUnit.ofCode_code (x : WakeDurUnit) : ofCode x.code = x := by cases x <;> rfl
@[simp] theorem SetupCmd.ofCode_code (x : SetupCmd) : ofCode x.code = x := by cases x <;> rfl
@[simp] theorem FlowType.ofCode_code (x : FlowType) : ofCode x.code = x := by cases x <;> rfl

theorem NegoType.code_lt (x : NegoType) : x.code < 2 ^ 2 := by cases x <;> decide
theorem WakeDurUnit.code_lt (x : WakeDurUnit) : x.code < 2 ^ 1 := by cases x <;> decide
theorem SetupCmd.code_lt (x : SetupCmd) : x.code < 2 ^ 3 := by cases x <;> decide
theorem FlowType.code_lt (x : FlowType) : x.code < 2 ^ 1 := by cases x <;> decide

/-! ### The element -/

structure TwtControl where
  negoType : NegoType
  wakeDurUnit : WakeDurUnit
  ndpPagingIndic : ℕ
  responderPmMode : ℕ
  twtInfoFrameDisable : ℕ
deriving DecidableEq, Repr

structure ReqTypeIndiv where
  twtSetupCmd : SetupCmd
  flowType : FlowType
  twtRequest : ℕ
  trigger : ℕ
  implicit : ℕ
  twtFlowId : ℕ
  twtWakeIntExp : ℕ
  twtProtection : ℕ
deriving DecidableEq, Repr

structure IndivTwtParaSet where
  reqType : ReqTypeIndiv
  targetWakeTH : ℕ
  targetWakeTL : ℕ
  twtWakeIntMantissa : ℕ
  nomMinTwtWakeDur : ℕ
  twtChannel : ℕ
deriving DecidableEq, Repr

structure TwtElement where
  twtCtrl : TwtControl
  iTwtParaSet : IndivTwtParaSet
deriving DecidableEq, Repr

structure TwtSetupInfo where
  twtElement : TwtElement
  dialogToken : ℕ
deriving DecidableEq, Repr

structure TwtElement.Fits (e : TwtElement) : Prop where
  ndpPagingIndic : e.twtCtrl.ndpPagingIndic < 2 ^ 1
  responderPmMode : e.twtCtrl.responderPmMode < 2 ^ 1
  twtInfoFrameDisable : e.twtCtrl.twtInfoFrameDisable < 2 ^ 1
  twtRequest : e.iTwtParaSet.reqType.twtRequest < 2 ^ 1
  trigger : e.iTwtParaSet.reqType.trigger < 2 ^ 1
  implicit : e.iTwtParaSet.reqType.implicit < 2 ^ 1
  twtFlowId : e.iTwtParaSet.reqType.twtFlowId < 2 ^ 3
  twtWakeIntExp : e.iTwtParaSet.reqType.twtWakeIntExp < 2 ^ 5
  twtProtection : e.iTwtParaSet.reqType.twtProtection < 2 ^ 1
  targetWakeTH : e.iTwtParaSet.targetWakeTH < 2 ^ 32
  targetWakeTL : e.iTwtParaSet.targetWakeTL < 2 ^ 32
  twtWakeIntMantissa : e.iTwtParaSet.twtWakeIntMantissa < 2 ^ 16
  nomMinTwtWakeDur : e.iTwtParaSet.nomMinTwtWakeDur < 2 ^ 8
  twtChannel : e.iTwtParaSet.twtChannel < 2 ^ 8

/-! ### The lengths -/

def minTwtEleLen : ℕ := 15
def controlLength : ℕ := 1
def requestTypeLength : ℕ := 2
def targetWakeTimeLength : ℕ := 8
def nominalMinimumTwtWakeDurationLength : ℕ := 1
def twtWakeIntervalMantissaLength : ℕ := 2
def twtChannelLength : ℕ := 1
def tokenOffset : ℕ := 2
def tokenLength : ℕ := 1
def elemIdLen : ℕ := 1
def elemLenLen : ℕ := 1

/-! ### `SET_TWT_*` -/

def setTwtControlNdpPagingIndicator (m : Mem) (a v : ℕ) : Mem := setBits m a 1 0 1 v
def setTwtControlResponderPmMode (m : Mem) (a v : ℕ) : Mem := setBits m a 1 1 1 v
def setTwtControlNegotiationType (m : Mem) (a v : ℕ) : Mem := setBits m a 1 2 2 v
def setTwtControlTwtInformationFrameDisable (m : Mem) (a v : ℕ) : Mem := setBits m a 1 4 1 v
def setTwtControlWakeDurationUnit (m : Mem) (a v : ℕ) : Mem := setBits m a 1 5 1 v
def setTwtReqTypeTwtRequest (m : Mem) (a v : ℕ) : Mem := setBits m a 1 0 1 v
def setTwtReqTypeTwtSetupCommand (m : Mem) (a v : ℕ) : Mem := setBits m a 1 1 3 v
def setTwtReqTypeTrigger (m : Mem) (a v : ℕ) : Mem := setBits m a 1 4 1 v
def setTwtReqTypeImplicit (m : Mem) (a v : ℕ) : Mem := setBits m a 1 5 1 v
def setTwtReqTypeFlowType (m : Mem) (a v : ℕ) : Mem := setBits m a 1 6 1 v
def setTwtReqTypeTwtFlowIdentifer (m : Mem) (a v : ℕ) : Mem := setBits m a 2 7 3 v
def setTwtReqTypeTwtWakeIntervalExponent (m : Mem) (a v : ℕ) : Mem := setBits m a 2 10 5 v
def setTwtReqTypeTwtProtection (m : Mem) (a v : ℕ) : Mem := setBits m a 2 15 1 v
def setTwtTargetWakeTimeL (m : Mem) (a v : ℕ) : Mem := setBits m (a + 2) 4 0 32 v
def setTwtTargetWakeTimeH (m : Mem) (a v : ℕ) : Mem := setBits m (a + 6) 4 0 32 v
def setTwtNominalMinimumTwtWakeDuration (m : Mem) (a offset v : ℕ) : Mem := setBits m (a + offset) 1 0 8 v
def setTwtTwtWakeIntervalMantissa (m : Mem) (a offset v : ℕ) : Mem := setBits m (a + offset) 2 0 16 v
def setTwtTwtChannel (m : Mem) (a offset v : ℕ) : Mem := setBits m (a + offset) 1 0 8 v

/-! ### `GET_TWT_*` -/

/-- `LE_BITS_TO_1BYTE`, `LE_BITS_TO_2BYTE` and `LE_BITS_TO_4BYTE`. -/
def leBits (m : Mem) (lim a n off len : ℕ) : Option ℕ := if a + n ≤ lim then some (getBits m a n off len) else none

def getEleId (m : Mem) (lim a : ℕ) : Option ℕ := leBits m lim a 1 0 8
def getEleLen (m : Mem) (lim a : ℕ) : Option ℕ := leBits m lim a 1 0 8
def getDialogToken (m : Mem) (lim a : ℕ) : Option ℕ := leBits m lim a 1 0 8
def getTwtControlNdpPagingIndicator (m : Mem) (lim a : ℕ) : Option ℕ := leBits m lim a 1 0 1
def getTwtControlResponderPmMode (m : Mem) (lim a : ℕ) : Option ℕ := leBits m lim a 1 1 1
def getTwtControlNegotiationType (m : Mem) (lim a : ℕ) : Option ℕ := leBits m lim a 1 2 2
def getTwtControlTwtInformationFrameDisable (m : Mem) (lim a : ℕ) : Option ℕ := leBits m lim a 1 4 1
def getTwtControlWakeDurationUnit (m : Mem) (lim a : ℕ) : Option ℕ := leBits m lim a 1 5 1
def getTwtReqTypeTwtRequest (m : Mem) (lim a : ℕ) : Option ℕ := leBits m lim a 2 0 1
def getTwtReqTypeTwtSetupCommand (m : Mem) (lim a : ℕ) : Option ℕ := leBits m lim a 2 1 3
def getTwtReqTypeTrigger (m : Mem) (lim a : ℕ) : Option ℕ := leBits m lim a 2 4 1
def getTwtReqTypeImplicit (m : Mem) (lim a : ℕ) : Option ℕ := leBits m lim a 2 5 1
def getTwtReqTypeFlowType (m : Mem) (lim a : ℕ) : Option ℕ := leBits m lim a 2 6 1
def getTwtReqTypeTwtFlowIdentifer (m : Mem) (lim a : ℕ) : Option ℕ := leBits m lim a 2 7 3
def getTwtReqTypeTwtWakeIntervalExponent (m : Mem) (lim a : ℕ) : Option ℕ := leBits m lim a 2 10 5
def getTwtReqTypeTwtProtection (m : Mem) (lim a : ℕ) : Option ℕ := leBits m lim a 2 15 1
def getTwtTargetWakeTimeL (m : Mem) (lim a : ℕ) : Option ℕ := leBits m lim a 4 0 32
def getTwtTargetWakeTimeH (m : Mem) (lim a : ℕ) : Option ℕ := leBits m lim (a + 4) 4 0 32
def getTwtNominalMinimumTwtWakeDuration (m : Mem) (lim a : ℕ) : Option ℕ := leBits m lim a 1 0 8
def getTwtTwtWakeIntervalMantissa (m : Mem) (lim a : ℕ) : Option ℕ := leBits m lim a 2 0 16
def getTwtTwtChannel (m : Mem) (lim a : ℕ) : Option ℕ := leBits m lim a 1 0 8

/-! ### Filling -/

/-- `_twt_fill_individual_twt_para_set`; the last is `*length`. -/
def twtFillIndividualTwtParaSet (para : IndivTwtParaSet) (m : Mem) (buf : ℕ) : PhlStatus × Mem × ℕ :=
  let m := setTwtReqTypeTwtRequest m buf para.reqType.twtRequest
  let m := setTwtReqTypeTwtSetupCommand m buf para.reqType.twtSetupCmd.code
  let m := setTwtReqTypeTrigger m buf para.reqType.trigger
  let m := setTwtReqTypeImplicit m buf para.reqType.implicit
  let m := setTwtReqTypeFlowType m buf para.reqType.flowType.code
  let m := setTwtReqTypeTwtFlowIdentifer m buf para.reqType.twtFlowId
  let m := setTwtReqTypeTwtWakeIntervalExponent m buf para.reqType.twtWakeIntExp
  let m := setTwtReqTypeTwtProtection m buf para.reqType.twtProtection
  let length := requestTypeLength
  let (m, length) :=
    if para.reqType.twtSetupCmd = .twtGrouping then (m, length)
    else
      let m := setTwtTargetWakeTimeL m buf para.targetWakeTL
      let m := setTwtTargetWakeTimeH m buf para.targetWakeTH
      (m, length + targetWakeTimeLength)
  let m := setTwtNominalMinimumTwtWakeDuration m buf length para.nomMinTwtWakeDur
  let length := length + nominalMinimumTwtWakeDurationLength
  let m := setTwtTwtWakeIntervalMantissa m buf length para.twtWakeIntMantissa
  let length := length + twtWakeIntervalMantissaLength
  let m := setTwtTwtChannel m buf length para.twtChannel
  (.success, m, length + twtChannelLength)

/-- `rtw_phl_twt_fill_twt_element`; the last is `*len`. -/
def rtwPhlTwtFillTwtElement (ele : TwtElement) (m : Mem) (buf : ℕ) : PhlStatus × Mem × ℕ :=
  let m := setTwtControlNdpPagingIndicator m buf ele.twtCtrl.ndpPagingIndic
  let m := setTwtControlResponderPmMode m buf ele.twtCtrl.responderPmMode
  let m := setTwtControlNegotiationType m buf ele.twtCtrl.negoType.code
  let m := setTwtControlTwtInformationFrameDisable m buf ele.twtCtrl.twtInfoFrameDisable
  let m := setTwtControlWakeDurationUnit m buf ele.twtCtrl.wakeDurUnit.code
  if ele.twtCtrl.negoType = .indivTwt then
    let (pstatus, m, length) := twtFillIndividualTwtParaSet ele.iTwtParaSet m (buf + controlLength)
    (pstatus, m, controlLength + length)
  else (.failure, m, controlLength)

/-! ### Parsing -/

/-- The target wake time of `_twt_parse_individual_twt_para`, with where the next field is. -/
def parseTargetWakeTime (m : Mem) (lim next : ℕ) (para : IndivTwtParaSet) : Option (IndivTwtParaSet × ℕ) :=
  if para.reqType.twtSetupCmd = .twtGrouping then some (para, next)
  else do
    let targetWakeTL ← getTwtTargetWakeTimeL m lim next
    let targetWakeTH ← getTwtTargetWakeTimeH m lim next
    some ({ para with targetWakeTL, targetWakeTH }, next + targetWakeTimeLength)

def twtParseIndividualTwtPara (m : Mem) (lim twtEle : ℕ) (para : IndivTwtParaSet) : Option (PhlStatus × IndivTwtParaSet) := do
  let next := twtEle + elemIdLen + elemLenLen + controlLength
  let twtRequest ← getTwtReqTypeTwtRequest m lim next
  let twtSetupCmd ← getTwtReqTypeTwtSetupCommand m lim next
  let trigger ← getTwtReqTypeTrigger m lim next
  let implicit ← getTwtReqTypeImplicit m lim next
  let flowType ← getTwtReqTypeFlowType m lim next
  let twtFlowId ← getTwtReqTypeTwtFlowIdentifer m lim next
  let twtWakeIntExp ← getTwtReqTypeTwtWakeIntervalExponent m lim next
  let twtProtection ← getTwtReqTypeTwtProtection m lim next
  let reqType : ReqTypeIndiv :=
    ⟨.ofCode twtSetupCmd, .ofCode flowType, twtRequest, trigger, implicit, twtFlowId, twtWakeIntExp, twtProtection⟩
  let (para, next) ← parseTargetWakeTime m lim (next + requestTypeLength) { para with reqType }
  let nomMinTwtWakeDur ← getTwtNominalMinimumTwtWakeDuration m lim next
  let next := next + nominalMinimumTwtWakeDurationLength
  let twtWakeIntMantissa ← getTwtTwtWakeIntervalMantissa m lim next
  let next := next + twtWakeIntervalMantissaLength
  let twtChannel ← getTwtTwtChannel m lim next
  some (.success, { para with nomMinTwtWakeDur, twtWakeIntMantissa, twtChannel })

/-- The control field of `rtw_phl_twt_parse_element`. -/
def parseTwtControl (m : Mem) (lim next : ℕ) : Option TwtControl := do
  let ndpPagingIndic ← getTwtControlNdpPagingIndicator m lim next
  let responderPmMode ← getTwtControlResponderPmMode m lim next
  let negoType ← getTwtControlNegotiationType m lim next
  let twtInfoFrameDisable ← getTwtControlTwtInformationFrameDisable m lim next
  let wakeDurUnit ← getTwtControlWakeDurationUnit m lim next
  some ⟨.ofCode negoType, .ofCode wakeDurUnit, ndpPagingIndic, responderPmMode, twtInfoFrameDisable⟩

/-- `rtw_phl_twt_parse_element`; `ele` is what `*twt_element` was. -/
def rtwPhlTwtParseElement (m : Mem) (lim twtEle length : ℕ) (ele : TwtElement) : Option (PhlStatus × TwtElement) :=
  if length < minTwtEleLen + elemIdLen + elemLenLen then some (.failure, ele)
  else do
    let _ ← getEleId m lim twtEle
    let eleLen ← getEleLen m lim (twtEle + elemIdLen)
    if eleLen < minTwtEleLen then some (.failure, ele)
    else do
      let twtCtrl ← parseTwtControl m lim (twtEle + elemIdLen + elemLenLen)
      if twtCtrl.negoType = .indivTwt then do
        let (pstatus, iTwtParaSet) ← twtParseIndividualTwtPara m lim twtEle ele.iTwtParaSet
        some (pstatus, { twtCtrl, iTwtParaSet })
      else some (.failure, { ele with twtCtrl })

/-- `rtw_phl_twt_parse_setup_info`; the length of the element is 16 bits wide. -/
def rtwPhlTwtParseSetupInfo (m : Mem) (lim pkt length : ℕ) (info : TwtSetupInfo) : Option (PhlStatus × TwtSetupInfo) := do
  let eleLength := (length + 2 ^ 16 - tokenOffset - tokenLength) % 2 ^ 16
  let dialogToken ← getDialogToken m lim (pkt + tokenOffset)
  let (pstatus, twtElement) ← rtwPhlTwtParseElement m lim (pkt + tokenOffset + tokenLength) eleLength info.twtElement
  some (pstatus, { twtElement, dialogToken })

/-! ### An element in memory -/

variable {m m' : Mem} {a b lim : ℕ} {e : TwtElement}

/-- **The fields of an individual TWT**, from the control field on, with the target wake time there. -/
structure TwtElement.At (e : TwtElement) (m : Mem) (a : ℕ) : Prop where
  ndpPagingIndic : getBits m a 1 0 1 = e.twtCtrl.ndpPagingIndic
  responderPmMode : getBits m a 1 1 1 = e.twtCtrl.responderPmMode
  negoType : getBits m a 1 2 2 = e.twtCtrl.negoType.code
  twtInfoFrameDisable : getBits m a 1 4 1 = e.twtCtrl.twtInfoFrameDisable
  wakeDurUnit : getBits m a 1 5 1 = e.twtCtrl.wakeDurUnit.code
  twtRequest : getBits m (a + 1) 2 0 1 = e.iTwtParaSet.reqType.twtRequest
  twtSetupCmd : getBits m (a + 1) 2 1 3 = e.iTwtParaSet.reqType.twtSetupCmd.code
  trigger : getBits m (a + 1) 2 4 1 = e.iTwtParaSet.reqType.trigger
  implicit : getBits m (a + 1) 2 5 1 = e.iTwtParaSet.reqType.implicit
  flowType : getBits m (a + 1) 2 6 1 = e.iTwtParaSet.reqType.flowType.code
  twtFlowId : getBits m (a + 1) 2 7 3 = e.iTwtParaSet.reqType.twtFlowId
  twtWakeIntExp : getBits m (a + 1) 2 10 5 = e.iTwtParaSet.reqType.twtWakeIntExp
  twtProtection : getBits m (a + 1) 2 15 1 = e.iTwtParaSet.reqType.twtProtection
  targetWakeTL : getBits m (a + 3) 4 0 32 = e.iTwtParaSet.targetWakeTL
  targetWakeTH : getBits m (a + 7) 4 0 32 = e.iTwtParaSet.targetWakeTH
  nomMinTwtWakeDur : getBits m (a + 11) 1 0 8 = e.iTwtParaSet.nomMinTwtWakeDur
  twtWakeIntMantissa : getBits m (a + 12) 2 0 16 = e.iTwtParaSet.twtWakeIntMantissa
  twtChannel : getBits m (a + 14) 1 0 8 = e.iTwtParaSet.twtChannel

/-- The memory that an element is filled into. -/
def TwtElement.filled (e : TwtElement) (m : Mem) (a : ℕ) : Mem := (rtwPhlTwtFillTwtElement e m a).2.1

theorem fillTwtElement_eq (hn : e.twtCtrl.negoType = .indivTwt) (hc : e.iTwtParaSet.reqType.twtSetupCmd ≠ .twtGrouping) :
    rtwPhlTwtFillTwtElement e m a = (.success, e.filled m a, minTwtEleLen) := by
  unfold TwtElement.filled rtwPhlTwtFillTwtElement twtFillIndividualTwtParaSet
  simp only [if_pos hn, if_neg hc]; rfl

theorem at_filled (h : e.Fits) (hn : e.twtCtrl.negoType = .indivTwt)
    (hc : e.iTwtParaSet.reqType.twtSetupCmd ≠ .twtGrouping) : e.At (e.filled m a) a := by
  have hcmd := e.iTwtParaSet.reqType.twtSetupCmd.code_lt
  have hflow := e.iTwtParaSet.reqType.flowType.code_lt
  have hnego := e.twtCtrl.negoType.code_lt
  have hunit := e.twtCtrl.wakeDurUnit.code_lt
  obtain ⟨h1, h2, h3, h4, h5, h6, h7, h8, h9, h10, h11, h12, h13, h14⟩ := h
  unfold TwtElement.filled rtwPhlTwtFillTwtElement twtFillIndividualTwtParaSet
  simp only [if_pos hn, if_neg hc, setTwtControlNdpPagingIndicator, setTwtControlResponderPmMode, setTwtControlNegotiationType,
    setTwtControlTwtInformationFrameDisable, setTwtControlWakeDurationUnit, setTwtReqTypeTwtRequest,
    setTwtReqTypeTwtSetupCommand, setTwtReqTypeTrigger, setTwtReqTypeImplicit, setTwtReqTypeFlowType,
    setTwtReqTypeTwtFlowIdentifer, setTwtReqTypeTwtWakeIntervalExponent, setTwtReqTypeTwtProtection,
    setTwtTargetWakeTimeL, setTwtTargetWakeTimeH, setTwtNominalMinimumTwtWakeDuration, setTwtTwtWakeIntervalMantissa,
    setTwtTwtChannel, controlLength, requestTypeLength, targetWakeTimeLength, nominalMinimumTwtWakeDurationLength,
    twtWakeIntervalMantissaLength]
  constructor <;> simp (disch := omega) only [getBits_setBits_same, getBits_setBits_disjoint]

theorem TwtElement.At.copy (h : e.At m a) (hcopy : ∀ i < minTwtEleLen, m' (b + i) = m (a + i)) : e.At m' b := by
  have hfield : ∀ k n off len, k + n ≤ minTwtEleLen → getBits m' (b + k) n off len = getBits m (a + k) n off len := by
    intro k n off len hk
    refine getBits_congr fun i hi => ?_
    rw [Nat.add_assoc, Nat.add_assoc]; exact hcopy (k + i) (by omega)
  have hctrl : ∀ off len, getBits m' b 1 off len = getBits m a 1 off len := fun off len => hfield 0 1 off len (by decide)
  obtain ⟨h1, h2, h3, h4, h5, h6, h7, h8, h9, h10, h11, h12, h13, h14, h15, h16, h17, h18⟩ := h
  constructor
  all_goals first
    | rw [hctrl]
      assumption
    | rw [hfield _ _ _ _ (by decide)]
      assumption

/-! ### What is parsed -/

theorem leBits_eq {n off len : ℕ} (h : a + n ≤ lim) : leBits m lim a n off len = some (getBits m a n off len) := if_pos h

theorem parseTwtControl_eq (h : a + 1 ≤ lim) :
    parseTwtControl m lim a = some ⟨.ofCode (getBits m a 1 2 2), .ofCode (getBits m a 1 5 1), getBits m a 1 0 1,
      getBits m a 1 1 1, getBits m a 1 4 1⟩ := by
  unfold parseTwtControl getTwtControlNdpPagingIndicator getTwtControlResponderPmMode getTwtControlNegotiationType
    getTwtControlTwtInformationFrameDisable getTwtControlWakeDurationUnit
  simp only [leBits_eq h]; rfl

theorem twtParseIndividualTwtPara_some (h : a + 17 ≤ lim) (para : IndivTwtParaSet) :
    ∃ r, twtParseIndividualTwtPara m lim a para = some r := by
  unfold twtParseIndividualTwtPara parseTargetWakeTime getTwtReqTypeTwtRequest getTwtReqTypeTwtSetupCommand
    getTwtReqTypeTrigger getTwtReqTypeImplicit getTwtReqTypeFlowType getTwtReqTypeTwtFlowIdentifer
    getTwtReqTypeTwtWakeIntervalExponent getTwtReqTypeTwtProtection getTwtTargetWakeTimeL getTwtTargetWakeTimeH
    getTwtNominalMinimumTwtWakeDuration getTwtTwtWakeIntervalMantissa getTwtTwtChannel elemIdLen elemLenLen controlLength
    requestTypeLength targetWakeTimeLength nominalMinimumTwtWakeDurationLength twtWakeIntervalMantissaLength
  by_cases hc : SetupCmd.ofCode (getBits m (a + 1 + 1 + 1) 2 1 3) = .twtGrouping
  · simp (disch := omega) only [leBits_eq, Option.bind_eq_bind, Option.bind_some, if_pos hc]
    exact ⟨_, rfl⟩
  · simp (disch := omega) only [leBits_eq, Option.bind_eq_bind, Option.bind_some, if_neg hc]
    exact ⟨_, rfl⟩

theorem twtParseIndividualTwtPara_at (h : e.At m (a + 2)) (hc : e.iTwtParaSet.reqType.twtSetupCmd ≠ .twtGrouping)
    (hlim : a + 17 ≤ lim) (para : IndivTwtParaSet) :
    twtParseIndividualTwtPara m lim a para = some (.success, e.iTwtParaSet) := by
  have hcmd : SetupCmd.ofCode (getBits m (a + 2 + 1) 2 1 3) ≠ .twtGrouping := by
    rw [h.twtSetupCmd, SetupCmd.ofCode_code]; exact hc
  unfold twtParseIndividualTwtPara parseTargetWakeTime getTwtReqTypeTwtRequest getTwtReqTypeTwtSetupCommand
    getTwtReqTypeTrigger getTwtReqTypeImplicit getTwtReqTypeFlowType getTwtReqTypeTwtFlowIdentifer
    getTwtReqTypeTwtWakeIntervalExponent getTwtReqTypeTwtProtection getTwtTargetWakeTimeL getTwtTargetWakeTimeH
    getTwtNominalMinimumTwtWakeDuration getTwtTwtWakeIntervalMantissa getTwtTwtChannel elemIdLen elemLenLen controlLength
    requestTypeLength targetWakeTimeLength nominalMinimumTwtWakeDurationLength twtWakeIntervalMantissaLength
  simp (disch := omega) only [leBits_eq, Option.bind_eq_bind, Option.bind_some, Nat.add_assoc, Nat.reduceAdd] at hcmd ⊢
  rw [if_neg hcmd]
  obtain ⟨h1, h2, h3, h4, h5, h6, h7, h8, h9, h10, h11, h12, h13, h14, h15, h16, h17, h18⟩ := h
  simp only [Nat.add_assoc, Nat.reduceAdd] at h6 h7 h8 h9 h10 h11 h12 h13 h14 h15 h16 h17 h18
  simp (disch := omega) only [leBits_eq, Option.bind_some, Nat.add_assoc, Nat.reduceAdd, h6, h7, h8, h9, h10, h11, h12, h13, h14, h15, h16, h17, h18,
    SetupCmd.ofCode_code, FlowType.ofCode_code]

theorem TwtElement.At.parse (h : e.At m (a + 2)) (hn : e.twtCtrl.negoType = .indivTwt)
    (hc : e.iTwtParaSet.reqType.twtSetupCmd ≠ .twtGrouping) (hlen : (m (a + 1)).toNat = minTwtEleLen) {length : ℕ}
    (hl : minTwtEleLen + elemIdLen + elemLenLen ≤ length) (hlim : a + length ≤ lim) (old : TwtElement) :
    rtwPhlTwtParseElement m lim a length old = some (.success, e) := by
  have hmin : minTwtEleLen + elemIdLen + elemLenLen = 17 := rfl
  have hlim' : a + 17 ≤ lim := by omega
  have hctrl : parseTwtControl m lim (a + elemIdLen + elemLenLen) = some e.twtCtrl := by
    show parseTwtControl m lim (a + 2) = _
    rw [parseTwtControl_eq (by omega), h.ndpPagingIndic, h.responderPmMode, h.negoType, h.twtInfoFrameDisable,
      h.wakeDurUnit, NegoType.ofCode_code, WakeDurUnit.ofCode_code]
  unfold rtwPhlTwtParseElement getEleId getEleLen
  rw [if_neg (not_lt.mpr hl), leBits_eq (by omega), leBits_eq (show a + elemIdLen + 1 ≤ lim by unfold elemIdLen; omega)]
  simp only [Option.bind_eq_bind, Option.bind_some]
  rw [getBits_byte, if_neg (show ¬ (m (a + elemIdLen)).toNat < minTwtEleLen from not_lt.mpr hlen.ge), hctrl]
  simp only [Option.bind_some]
  rw [if_pos hn, twtParseIndividualTwtPara_at h hc hlim']; rfl

theorem parseElement_inside (m : Mem) (length : ℕ) (hlim : a + length ≤ lim) (old : TwtElement) :
    (rtwPhlTwtParseElement m lim a length old).isSome := by
  unfold rtwPhlTwtParseElement getEleId getEleLen
  by_cases hl : length < minTwtEleLen + elemIdLen + elemLenLen
  · rw [if_pos hl]; rfl
  have hmin : minTwtEleLen + elemIdLen + elemLenLen = 17 := rfl
  have hid : elemIdLen = 1 := rfl
  have hlen : elemLenLen = 1 := rfl
  rw [if_neg hl, leBits_eq (by omega), leBits_eq (by omega)]
  simp only [Option.bind_eq_bind, Option.bind_some]
  split
  · rfl
  · rw [parseTwtControl_eq (by omega)]
    simp only [Option.bind_some]
    split
    · obtain ⟨r, hr⟩ := twtParseIndividualTwtPara_some (m := m) (show a + 17 ≤ lim by omega) old.iTwtParaSet
      rw [hr]; rfl
    · rfl

theorem parseSetupInfo_inside_iff (m : Mem) {length : ℕ} (hlength : length < 2 ^ 16) (old : TwtSetupInfo) :
    (rtwPhlTwtParseSetupInfo m (a + length) a length old).isSome ↔ tokenOffset + tokenLength ≤ length := by
  have htoken : tokenOffset + tokenLength = 3 := rfl
  have hoff : tokenOffset = 2 := rfl
  have htlen : tokenLength = 1 := rfl
  unfold rtwPhlTwtParseSetupInfo getDialogToken
  by_cases hl : tokenOffset + tokenLength ≤ length
  · have hmod : (length + 2 ^ 16 - tokenOffset - tokenLength) % 2 ^ 16 = length - 3 := by omega
    rw [leBits_eq (by omega), hmod]
    simp only [Option.bind_eq_bind, Option.bind_some]
    have hin := parseElement_inside m (length - 3) (show a + tokenOffset + tokenLength + (length - 3) ≤ a + length by omega)
      old.twtElement
    obtain ⟨r, hr⟩ := Option.isSome_iff_exists.mp hin
    rw [hr]; exact iff_of_true rfl hl
  · have hnone : leBits m (a + length) (a + tokenOffset) 1 0 8 = none := if_neg (by omega)
    rw [hnone]; exact iff_of_false Bool.false_ne_true hl

/-! ### Both ways -/

/-- **An individual TWT goes through memory, and nothing behind the frame is read, exactly for frames with a token.** -/
theorem twt_element_codec (e : TwtElement) (hfits : e.Fits) (hn : e.twtCtrl.negoType = .indivTwt)
    (hc : e.iTwtParaSet.reqType.twtSetupCmd ≠ .twtGrouping) (length : ℕ) (hlength : length < 2 ^ 16) :
    (∀ (m : Mem) (a : ℕ), (rtwPhlTwtFillTwtElement e m a).1 = .success ∧
        ∀ (m' : Mem) (b l : ℕ) (old : TwtElement), minTwtEleLen + elemIdLen + elemLenLen ≤ l →
          (m' (b + elemIdLen)).toNat = (rtwPhlTwtFillTwtElement e m a).2.2 →
          (∀ i < (rtwPhlTwtFillTwtElement e m a).2.2,
            m' (b + elemIdLen + elemLenLen + i) = (rtwPhlTwtFillTwtElement e m a).2.1 (a + i)) →
          rtwPhlTwtParseElement m' (b + l) b l old = some (.success, e)) ∧
      (∀ (m : Mem) (a : ℕ) (old : TwtElement), (rtwPhlTwtParseElement m (a + length) a length old).isSome) ∧
      ((∀ (m : Mem) (a : ℕ) (old : TwtSetupInfo), (rtwPhlTwtParseSetupInfo m (a + length) a length old).isSome) ↔
        tokenOffset + tokenLength ≤ length) := by
  refine ⟨fun m a => ?_, fun m a old => parseElement_inside m length le_rfl old, ?_⟩
  · rw [fillTwtElement_eq hn hc]
    refine ⟨rfl, fun m' b l old hl hlen hcopy => ?_⟩
    have hat : e.At m' (b + 2) := (at_filled hfits hn hc).copy hcopy
    exact hat.parse hn hc hlen hl le_rfl old
  · refine ⟨fun h => ?_, fun h m a old => (parseSetupInfo_inside_iff m hlength old).mpr h⟩
    exact (parseSetupInfo_inside_iff (fun _ => 0) hlength ⟨e, 0⟩).mp (h _ 0 _)

/-- A request for a service period of 64 ms every 512 ms. -/
def requestElement : TwtElement :=
  ⟨⟨.indivTwt, .wake256us, 0, 0, 1⟩, ⟨⟨.suggestTwt, .unannouncedTwt, 1, 1, 1, 5, 10, 0⟩, 0x12, 0x3456789a, 512, 250, 3⟩⟩

theorem requestElement_fits : requestElement.Fits := by constructor <;> decide

theorem requestElement_codec : (rtwPhlTwtFillTwtElement requestElement (fun _ => 0xff) 2).1 = .success ∧
      ∀ (m : Mem) (a : ℕ) (old : TwtSetupInfo), (rtwPhlTwtParseSetupInfo m (a + 20) a 20 old).isSome :=
  ⟨((twt_element_codec requestElement requestElement_fits rfl (by decide) 20 (by decide)).1 (fun _ => 0xff) 2).1,
    (twt_element_codec requestElement requestElement_fits rfl (by decide) 20 (by decide)).2.2.mpr (by decide)⟩

/-- A frame of two bytes: the token behind it is read. -/
theorem token_behind_frame :
    ∃ (m : Mem) (length : ℕ) (old : TwtSetupInfo), length < 2 ^ 16 ∧ rtwPhlTwtParseSetupInfo m length 0 length old = none :=
  ⟨fun _ => 0, 2, ⟨requestElement, 0⟩, by decide, by decide⟩

end Rtl8852cu.Twt
