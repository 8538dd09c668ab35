import Rtl8852cu.Fwofld.Handlers
import Rtl8852cu.H2c.Packet

/-!
# The codecs of register commands

`phl/hal_g6/mac/mac_ax/fwofld.c`: `add_cmd` and `add_cmd_v1` put a register command into the buffer of commands as four
words, and `h2c_buf_to_cmd_ofld` and `h2c_buf_to_cmd_ofld_v1` take it apart again for the error dump. A command of the
second kind has two registers, and the source and path of each are a base that is added to its offset, which
`gen_base_offset` makes and `base_offset_to_h2c` takes apart. The machine is little-endian, as the build for it is.
-/

namespace Rtl8852cu.Fwofld

open H2c

/-- `enum rtw_mac_src_cmd_ofld`. -/
inductive SrcCmdOfld
  | bb
  | rf
  | mac
  | rfDdie
  | other
  deriving DecidableEq, Repr

/-- `enum rtw_mac_cmd_type_ofld`. -/
inductive CmdTypeOfld
  | write
  | compare
  | delay
  | move
  deriving DecidableEq, Repr

/-- `enum rtw_mac_rf_path`. -/
inductive RfPath
  | a
  | b
  | c
  | d
  deriving DecidableEq, Repr

def SrcCmdOfld.val : SrcCmdOfld → ℕ
  | .bb => 0
  | .rf => 1
  | .mac => 2
  | .rfDdie => 3
  | .other => 4

def CmdTypeOfld.val : CmdTypeOfld → ℕ
  | .write => 0
  | .compare => 1
  | .delay => 2
  | .move => 3

def RfPath.val : RfPath → ℕ
  | .a => 0
  | .b => 1
  | .c => 2
  | .d => 3

/-- The source with a number; `none` where there is none. -/
def SrcCmdOfld.ofVal : ℕ → Option SrcCmdOfld
  | 0 => some .bb
  | 1 => some .rf
  | 2 => some .mac
  | 3 => some .rfDdie
  | 4 => some .other
  | _ => none

def CmdTypeOfld.ofVal : ℕ → Option CmdTypeOfld
  | 0 => some .write
  | 1 => some .compare
  | 2 => some .delay
  | 3 => some .move
  | _ => none

def RfPath.ofVal : ℕ → Option RfPath
  | 0 => some .a
  | 1 => some .b
  | 2 => some .c
  | 3 => some .d
  | _ => none

structure MacCmd where
  src : SrcCmdOfld
  type : CmdTypeOfld
  lc : BitVec 8
  rfPath : RfPath
  offset : BitVec 16
  id : BitVec 16
  value : BitVec 32
  mask : BitVec 32
  deriving DecidableEq

structure MacCmdV1 where
  src0 : SrcCmdOfld
  rfPath0 : RfPath
  src1 : SrcCmdOfld
  rfPath1 : RfPath
  type : CmdTypeOfld
  lc : BitVec 8
  offset0 : BitVec 16
  offset1 : BitVec 16
  mask0 : BitVec 32
  value : BitVec 32
  deriving DecidableEq

/-- The words of `struct fwcmd_cmd_ofld` and of `struct fwcmd_cmd_ofld_v1`. -/
structure CmdWords where
  dword0 : ℕ
  dword1 : ℕ
  dword2 : ℕ
  dword3 : ℕ
  deriving DecidableEq

inductive CmdOfldVer
  | cmdOfld
  | cmdOfldV1
  deriving DecidableEq, Repr

abbrev cmdOfldMaxLen : ℕ := 2000
/-- `CMD_OFLD_SIZE` and `CMD_OFLD_V1_SIZE` -/
abbrev cmdOfldSize : ℕ := 16

/-- `struct mac_ax_cmd_ofld_info` with a buffer: the commands up to `buf_wptr`, and the counters of these. -/
structure CmdOfldInfo where
  cmds : List CmdWords
  lastVer : Option CmdOfldVer
  avlBufSize : ℕ
  usedSize : ℕ
  cmdNum : ℕ
  accuDelay : BitVec 32
  used : usedSize = cmdOfldSize * cmds.length
  avl : avlBufSize + usedSize = cmdOfldMaxLen
  num : cmdNum = cmds.length

/-- The buffer of `PLTFM_MALLOC`. -/
def CmdOfldInfo.fresh : CmdOfldInfo := ⟨[], none, cmdOfldMaxLen, 0, 0, 0, rfl, rfl, rfl⟩

/-- A command has room in the buffer, as `ofld_incompatible_full_cmd` sees to. -/
def CmdOfldInfo.HasRoom (info : CmdOfldInfo) : Prop := cmdOfldSize ≤ info.avlBufSize

theorem fresh_hasRoom : CmdOfldInfo.fresh.HasRoom := show cmdOfldSize ≤ cmdOfldMaxLen by decide

/-- What both functions do behind the words: the pointer, and the counters. -/
def CmdOfldInfo.push (info : CmdOfldInfo) (h : info.HasRoom) (ver : CmdOfldVer) (words : CmdWords) (type : CmdTypeOfld)
    (value : BitVec 32) : CmdOfldInfo where
  cmds := info.cmds ++ [words]
  lastVer := some ver
  avlBufSize := info.avlBufSize - cmdOfldSize
  usedSize := info.usedSize + cmdOfldSize
  cmdNum := info.cmdNum + 1
  accuDelay := if type = .delay then info.accuDelay + value else info.accuDelay
  used := by rw [info.used, List.length_append, List.length_singleton, Nat.mul_add, Nat.mul_one]
  avl := by
    have := info.avl
    unfold CmdOfldInfo.HasRoom at h; omega
  num := by rw [info.num, List.length_append, List.length_singleton]

/-! ### Encoding -/

def baseBits : ℕ := 0x00FF0000
def macBaseOffset : ℕ := 0x18600000 &&& baseBits
def bbBaseOffset : ℕ := 0x18610000 &&& baseBits
def rfAdieBaseOffset : ℕ := bbBaseOffset ||| 2 ^ 23
def rfPathBBaseOffset : ℕ := 0x1000

/-- `x & ~y` of words. -/
def andNot (x y : ℕ) : ℕ := x &&& ((2 ^ 32 - 1) ^^^ y)

/-- `gen_base_offset`; `none` where it returns `MACHWNOSUP`. -/
def genBaseOffset (src : SrcCmdOfld) (rfPath : RfPath) : Option ℕ :=
  match src with
  | .mac => some macBaseOffset
  | .bb => some bbBaseOffset
  | .rf =>
    match rfPath with
    | .a => some (andNot rfAdieBaseOffset rfPathBBaseOffset)
    | .b => some (rfAdieBaseOffset ||| rfPathBBaseOffset)
    | _ => none
  | _ => none

/-- The words of `add_cmd`. -/
def cmdWords (cmdNum : ℕ) (cmd : MacCmd) : CmdWords :=
  let src := if cmd.src = .rfDdie then SrcCmdOfld.rf else cmd.src
  { dword0 := setWord src.val 0 0x3 ||| setWord cmd.type.val 2 0x3 ||| (if cmd.lc ≠ 0 then 2 ^ 4 else 0) |||
      setWord cmd.rfPath.val 5 0x3 ||| setWord cmd.offset.toNat 16 0xffff ||| setWord cmdNum 8 0x7f
    dword1 := setWord cmd.id.toNat 0 0xffff ||| setWord (if cmd.src = .rfDdie then 1 else 0) 16 0xffff
    dword2 := setWord cmd.value.toNat 0 0xffffffff
    dword3 := setWord cmd.mask.toNat 0 0xffffffff }

/-- The words of `add_cmd_v1`, of the bases of both registers. -/
def cmdWordsV1 (cmdNum base0 base1 : ℕ) (cmd : MacCmdV1) : CmdWords where
  dword0 := setWord cmd.type.val 0 0x7 ||| (if cmd.lc ≠ 0 then 2 ^ 3 else 0) |||
    setWord (cmd.offset0.toNat + base0) 8 0xffffff
  dword1 := setWord (cmd.offset1.toNat + base1) 0 0xffffff ||| setWord cmdNum 24 0xff
  dword2 := setWord cmd.mask0.toNat 0 0xffffffff
  dword3 := setWord cmd.value.toNat 0 0xffffffff

inductive CmdRet
  | bufAlloc
  | hwNoSup
  deriving DecidableEq, Repr

/-- `ofld_info->buf`, with the room that a command needs. -/
abbrev CmdBuf := Option {info : CmdOfldInfo // info.HasRoom}

/-- The buffer there is, or that of `PLTFM_MALLOC`. -/
def CmdBuf.get (malloc : Bool) : CmdBuf → Except CmdRet {info : CmdOfldInfo // info.HasRoom}
  | some info => .ok info
  | none => if malloc = true then .ok ⟨.fresh, fresh_hasRoom⟩ else .error .bufAlloc

def addCmd (malloc : Bool) (buf : CmdBuf) (cmd : MacCmd) : Except CmdRet CmdOfldInfo := do
  let info ← buf.get malloc
  return info.val.push info.property .cmdOfld (cmdWords info.val.cmdNum cmd) cmd.type cmd.value

/-- `add_cmd_v1`. What it writes before it refuses the second register is behind `buf_wptr`. -/
def addCmdV1 (malloc : Bool) (buf : CmdBuf) (cmd : MacCmdV1) : Except CmdRet CmdOfldInfo := do
  let info ← buf.get malloc
  match genBaseOffset cmd.src0 cmd.rfPath0, genBaseOffset cmd.src1 cmd.rfPath1 with
  | some base0, some base1 =>
    return info.val.push info.property .cmdOfldV1 (cmdWordsV1 info.val.cmdNum base0 base1 cmd) cmd.type cmd.value
  | _, _ => throw .hwNoSup

/-! ### Decoding -/

/-- `base_offset_to_h2c`, of a register whose source and path were `src` and `rfPath` before: what is left of the offset,
and the source and the path, which are not written where the base is no known one. -/
def baseOffsetToH2c (baseOffset : ℕ) (src : SrcCmdOfld) (rfPath : RfPath) : ℕ × SrcCmdOfld × RfPath :=
  let base := baseOffset &&& baseBits
  let rest := andNot baseOffset baseBits
  if base = macBaseOffset then (rest, .mac, .a)
  else if base = bbBaseOffset then (rest, .bb, .a)
  else if base = rfAdieBaseOffset ||| rfPathBBaseOffset then (rest, .rf, .a)
  else if base = andNot rfAdieBaseOffset rfPathBBaseOffset then (rest, .rf, .b)
  else (rest, src, rfPath)

/-- `h2c_buf_to_cmd_ofld`, the command and its number; `none` where a field is no number of an enumerator. -/
def h2cBufToCmdOfld (w : CmdWords) : Option (MacCmd × ℕ) := do
  let src ← SrcCmdOfld.ofVal (getField w.dword0 0 0x3)
  let type ← CmdTypeOfld.ofVal (getField w.dword0 2 0x3)
  let rfPath ← RfPath.ofVal (getField w.dword0 5 0x3)
  let baseOffset := getField w.dword1 16 0xffff
  return ({ src := if baseOffset ≠ 0 ∧ src = .rf then .rfDdie else src
            type
            lc := if w.dword0 &&& 2 ^ 4 ≠ 0 then 1 else 0
            rfPath
            offset := BitVec.ofNat 16 (getField w.dword0 16 0xffff)
            id := BitVec.ofNat 16 (getField w.dword1 0 0xffff)
            value := BitVec.ofNat 32 (getField w.dword2 0 0xffffffff)
            mask := BitVec.ofNat 32 (getField w.dword3 0 0xffffffff) }, getField w.dword0 8 0x7f)

/-- `h2c_buf_to_cmd_ofld_v1`, into a command that was `cmd` before. -/
def h2cBufToCmdOfldV1 (w : CmdWords) (cmd : MacCmdV1) : Option (MacCmdV1 × ℕ) := do
  let type ← CmdTypeOfld.ofVal (getField w.dword0 0 0x7)
  let reg0 := baseOffsetToH2c (getField w.dword0 8 0xffffff) cmd.src0 cmd.rfPath0
  let reg1 := baseOffsetToH2c (getField w.dword1 0 0xffffff) cmd.src1 cmd.rfPath1
  return ({ src0 := reg0.2.1
            rfPath0 := reg0.2.2
            src1 := reg1.2.1
            rfPath1 := reg1.2.2
            type
            lc := if w.dword0 &&& 2 ^ 3 ≠ 0 then 1 else 0
            offset0 := BitVec.ofNat 16 reg0.1
            offset1 := BitVec.ofNat 16 reg1.1
            mask0 := BitVec.ofNat 32 (getField w.dword2 0 0xffffffff)
            value := BitVec.ofNat 32 (getField w.dword3 0 0xffffffff) }, getField w.dword1 24 0xff)

/-! ### The fields of a word -/

variable {v w x y sh sh' msk msk' : ℕ}

theorem getField_or : getField (x ||| y) sh msk = getField x sh msk ||| getField y sh msk := by
  unfold getField
  rw [Nat.shiftRight_or_distrib, Nat.and_or_distrib_right]

theorem getField_setWord_same : getField (setWord v sh msk) sh msk = v &&& msk := by
  unfold getField setWord
  rw [Nat.shiftLeft_shiftRight, Nat.and_assoc, Nat.and_self]

theorem getField_setWord_ne (h : (msk' <<< sh') &&& (msk <<< sh) = 0) : getField (setWord v sh' msk') sh msk = 0 := by
  unfold getField setWord
  refine Nat.eq_of_testBit_eq fun i => ?_
  have hbit : ((msk' <<< sh') &&& (msk <<< sh)).testBit (sh + i) = false := by rw [h, Nat.zero_testBit]
  have hle : sh ≤ sh + i := Nat.le_add_right sh i
  rw [Nat.testBit_and, Nat.testBit_shiftLeft, Nat.testBit_shiftLeft, decide_eq_true hle, Bool.true_and,
    Nat.add_sub_cancel_left] at hbit
  rw [Nat.testBit_and, Nat.testBit_shiftRight, Nat.testBit_shiftLeft, Nat.testBit_and, Nat.zero_testBit]
  rcases Bool.and_eq_false_iff.mp hbit with hmsk' | hmsk
  · rcases Bool.and_eq_false_iff.mp hmsk' with hlt | hmsk'
    · rw [hlt, Bool.false_and, Bool.false_and]
    · rw [hmsk', Bool.and_false, Bool.and_false, Bool.false_and]
  · rw [hmsk, Bool.and_false]

theorem flag_eq_setWord (p : Prop) [Decidable p] (i : ℕ) :
    (if p then 2 ^ i else 0) = setWord (if p then 1 else 0) i 1 := by
  unfold setWord
  by_cases hp : p
  · rw [if_pos hp, if_pos hp, Nat.and_self, Nat.one_shiftLeft]
  · rw [if_neg hp, if_neg hp, Nat.zero_and, Nat.zero_shiftLeft]

theorem and_flag_eq_zero (w i : ℕ) : w &&& 2 ^ i = 0 ↔ getField w i 1 = 0 := by
  unfold getField
  rw [Nat.and_one_is_mod, Nat.mod_two_eq_zero_iff_testBit_zero, Nat.testBit_shiftRight, Nat.add_zero]
  constructor
  · intro h
    have hbit : (w &&& 2 ^ i).testBit i = false := by rw [h, Nat.zero_testBit]
    rwa [Nat.testBit_and, Nat.testBit_two_pow_self, Bool.and_true] at hbit
  · intro h
    refine Nat.eq_of_testBit_eq fun j => ?_
    rw [Nat.testBit_and, Nat.testBit_two_pow, Nat.zero_testBit]
    by_cases hj : i = j
    · rw [← hj, h, Bool.false_and]
    · rw [decide_eq_false hj, Bool.and_false]

theorem and_mask {k : ℕ} (hv : v < 2 ^ k) (h : msk = 2 ^ k - 1) : v &&& msk = v := by
  rw [h, Nat.and_two_pow_sub_one_eq_mod, Nat.mod_eq_of_lt hv]


@[simp] theorem ofVal_type (type : CmdTypeOfld) : CmdTypeOfld.ofVal type.val = some type := by cases type <;> rfl

@[simp] theorem ofVal_path (rfPath : RfPath) : RfPath.ofVal rfPath.val = some rfPath := by cases rfPath <;> rfl

theorem type_lt (type : CmdTypeOfld) : type.val < 2 ^ 2 := by cases type <;> decide

theorem path_lt (rfPath : RfPath) : rfPath.val < 2 ^ 2 := by cases rfPath <;> decide

theorem setWord_and_all {m : ℕ} (h : (msk <<< sh) &&& m = msk <<< sh) : setWord v sh msk &&& m = setWord v sh msk := by
  unfold setWord
  rw [Nat.shiftLeft_and_distrib, Nat.and_assoc, h]

theorem setWord_and_none {m : ℕ} (h : (msk <<< sh) &&& m = 0) : setWord v sh msk &&& m = 0 := by
  unfold setWord
  rw [Nat.shiftLeft_and_distrib, Nat.and_assoc, h, Nat.and_zero]

/-! ### What is decoded -/

def lcFlag (lc : BitVec 8) : BitVec 8 := if lc ≠ 0 then 1 else 0

/-- The source that comes back: there is no number for another one. -/
def SrcCmdOfld.folded (src : SrcCmdOfld) : SrcCmdOfld := if src = .other then .bb else src

theorem flag_and_one (lc : BitVec 8) : (if lc ≠ 0 then 1 else 0) &&& 1 = 0 ↔ lc = 0 := by
  by_cases hlc : lc = 0
  · rw [if_neg (not_not.mpr hlc)]; exact iff_of_true rfl hlc
  · rw [if_pos hlc]; exact iff_of_false (by decide) hlc

theorem h2cBufToCmdOfld_eq (n : ℕ) (cmd : MacCmd) :
    h2cBufToCmdOfld (cmdWords n cmd) = some ({ cmd with src := cmd.src.folded, lc := lcFlag cmd.lc }, n &&& 0x7f) := by
  have htype : cmd.type.val &&& 0x3 = cmd.type.val := and_mask (type_lt cmd.type) rfl
  have hpath : cmd.rfPath.val &&& 0x3 = cmd.rfPath.val := and_mask (path_lt cmd.rfPath) rfl
  have hoffset : cmd.offset.toNat &&& 0xffff = cmd.offset.toNat := and_mask cmd.offset.isLt rfl
  have hid : cmd.id.toNat &&& 0xffff = cmd.id.toNat := and_mask cmd.id.isLt rfl
  have hvalue : cmd.value.toNat &&& 0xffffffff = cmd.value.toNat := and_mask cmd.value.isLt rfl
  have hmask : cmd.mask.toNat &&& 0xffffffff = cmd.mask.toNat := and_mask cmd.mask.isLt rfl
  unfold h2cBufToCmdOfld cmdWords
  simp (disch := decide) only [ne_eq, and_flag_eq_zero, flag_eq_setWord, getField_or, getField_setWord_same,
    getField_setWord_ne, Nat.or_zero, Nat.zero_or, htype, hpath, hoffset, hid, hvalue, hmask, ofVal_type, ofVal_path,
    BitVec.ofNat_toNat, BitVec.setWidth_eq]
  simp only [← ne_eq, flag_and_one]
  simp only [ne_eq]; cases hsrc : cmd.src <;> rfl

theorem base_split (o : BitVec 16) {b : ℕ} (hb : b < 2 ^ 8) :
    (o.toNat + b * 2 ^ 16) &&& baseBits = b * 2 ^ 16 ∧ andNot (o.toNat + b * 2 ^ 16) baseBits = o.toNat := by
  have ho : setWord o.toNat 0 0xffff = o.toNat := by
    have hmask : o.toNat &&& 0xffff = o.toNat := and_mask o.isLt rfl
    unfold setWord
    rw [hmask, Nat.shiftLeft_zero]
  have hbase : setWord b 16 0xff = b * 2 ^ 16 := by
    have hmask : b &&& 0xff = b := and_mask hb rfl
    unfold setWord
    rw [hmask, Nat.shiftLeft_eq]
  have hsum : o.toNat + b * 2 ^ 16 = setWord b 16 0xff ||| setWord o.toNat 0 0xffff := by
    rw [ho, hbase, Nat.add_comm, Nat.mul_comm]; exact Nat.two_pow_add_eq_or_of_lt o.isLt b
  unfold andNot
  rw [hsum, Nat.and_or_distrib_right, Nat.and_or_distrib_right, setWord_and_all (m := baseBits) (by decide),
    setWord_and_none (m := baseBits) (by decide), setWord_and_none (by decide), setWord_and_all (by decide), ho, hbase]
  exact ⟨Nat.or_zero _, Nat.zero_or _⟩

theorem macBaseOffset_eq : macBaseOffset = 0x60 * 2 ^ 16 := by decide

theorem bbBaseOffset_eq : bbBaseOffset = 0x61 * 2 ^ 16 := by decide

theorem rfBaseOffset_a : andNot rfAdieBaseOffset rfPathBBaseOffset = 0xE1 * 2 ^ 16 := by decide

theorem rfBaseOffset_b : rfAdieBaseOffset ||| rfPathBBaseOffset = 0xE1 * 2 ^ 16 + 0x1000 := by decide

theorem baseOffsetToH2c_eq (o : BitVec 16) {b : ℕ} (hb : b < 2 ^ 8) (src : SrcCmdOfld) (rfPath : RfPath) :
    baseOffsetToH2c ((o.toNat + b * 2 ^ 16) &&& 0xffffff) src rfPath = (o.toNat,
      if b = 0x60 then (.mac, .a) else if b = 0x61 then (.bb, .a) else if b = 0xE1 then (.rf, .b) else (src, rfPath)) := by
  have ho := o.isLt
  have hlt : o.toNat + b * 2 ^ 16 < 2 ^ 24 := by omega
  have hmask : (o.toNat + b * 2 ^ 16) &&& 0xffffff = o.toNat + b * 2 ^ 16 := and_mask hlt rfl
  obtain ⟨hbase, hrest⟩ := base_split o hb
  unfold baseOffsetToH2c
  simp only
  rw [hmask, hbase, hrest, macBaseOffset_eq, bbBaseOffset_eq, rfBaseOffset_a, rfBaseOffset_b]
  by_cases h60 : b = 0x60
  · rw [if_pos (by omega), if_pos h60]
  rw [if_neg (by omega), if_neg h60]
  by_cases h61 : b = 0x61
  · rw [if_pos (by omega), if_pos h61]
  rw [if_neg (by omega), if_neg h61, if_neg (by omega)]
  by_cases he1 : b = 0xE1
  · rw [if_pos (by omega), if_pos he1]
  · rw [if_neg (by omega), if_neg he1]

/-- The register that comes back of an encoded one. -/
structure RegBack (src : SrcCmdOfld) (rfPath : RfPath) (offset : BitVec 16) (r : ℕ × SrcCmdOfld × RfPath) : Prop where
  offset : BitVec.ofNat 16 r.1 = offset
  src : r.2.1 = src
  path : r.2.2 = rfPath

theorem regBack_iff {src : SrcCmdOfld} {rfPath : RfPath} {base : ℕ} (h : genBaseOffset src rfPath = some base)
    (offset : BitVec 16) (src' : SrcCmdOfld) (rfPath' : RfPath) :
    RegBack src rfPath offset (baseOffsetToH2c ((offset.toNat + base) &&& 0xffffff) src' rfPath') ↔
      src ≠ .rf ∧ rfPath = .a := by
  have hback : BitVec.ofNat 16 offset.toNat = offset := by rw [BitVec.ofNat_toNat, BitVec.setWidth_eq]
  cases src with
  | mac =>
    obtain rfl : 0x60 * 2 ^ 16 = base := macBaseOffset_eq ▸ Option.some.inj h
    rw [baseOffsetToH2c_eq offset (by decide)]
    exact ⟨fun hreg => ⟨nofun, hreg.path.symm⟩, fun hp => ⟨hback, rfl, hp.2.symm⟩⟩
  | bb =>
    obtain rfl : 0x61 * 2 ^ 16 = base := bbBaseOffset_eq ▸ Option.some.inj h
    rw [baseOffsetToH2c_eq offset (by decide)]
    exact ⟨fun hreg => ⟨nofun, hreg.path.symm⟩, fun hp => ⟨hback, rfl, hp.2.symm⟩⟩
  | rf =>
    refine iff_of_false (fun hreg => ?_) fun hp => hp.1 rfl
    cases rfPath with
    | a =>
      -- the base of the first path is that of the second one for the decoder
      obtain rfl : 0xE1 * 2 ^ 16 = base := rfBaseOffset_a ▸ Option.some.inj h
      rw [baseOffsetToH2c_eq offset (by decide)] at hreg; exact absurd hreg.path nofun
    | b =>
      -- the bit of the second path stays in the offset
      obtain rfl : 0xE1 * 2 ^ 16 + 0x1000 = base := rfBaseOffset_b ▸ Option.some.inj h
      have hlt := offset.isLt
      have hsum : offset.toNat + (0xE1 * 2 ^ 16 + 0x1000) =
          (offset + 0x1000#16).toNat + (0xE1 + (offset.toNat + 0x1000) / 2 ^ 16) * 2 ^ 16 := by
        rw [BitVec.toNat_add, BitVec.toNat_ofNat]; omega
      rw [hsum, baseOffsetToH2c_eq _ (by omega)] at hreg
      have hoff := congrArg BitVec.toNat hreg.offset
      simp only [BitVec.toNat_ofNat, BitVec.toNat_add] at hoff; omega
    | c => exact absurd h nofun
    | d => exact absurd h nofun
  | rfDdie => exact absurd h nofun
  | other => exact absurd h nofun

theorem h2cBufToCmdOfldV1_eq (n base0 base1 : ℕ) (cmd prev : MacCmdV1) :
    h2cBufToCmdOfldV1 (cmdWordsV1 n base0 base1 cmd) prev =
      let reg0 := baseOffsetToH2c ((cmd.offset0.toNat + base0) &&& 0xffffff) prev.src0 prev.rfPath0
      let reg1 := baseOffsetToH2c ((cmd.offset1.toNat + base1) &&& 0xffffff) prev.src1 prev.rfPath1
      some ({ cmd with
        src0 := reg0.2.1
        rfPath0 := reg0.2.2
        src1 := reg1.2.1
        rfPath1 := reg1.2.2
        lc := lcFlag cmd.lc
        offset0 := BitVec.ofNat 16 reg0.1
        offset1 := BitVec.ofNat 16 reg1.1 }, n &&& 0xff) := by
  have htype : cmd.type.val &&& 0x7 = cmd.type.val :=
    and_mask (Nat.lt_trans (type_lt cmd.type) (by decide : 2 ^ 2 < 2 ^ 3)) rfl
  have hmask : cmd.mask0.toNat &&& 0xffffffff = cmd.mask0.toNat := and_mask cmd.mask0.isLt rfl
  have hvalue : cmd.value.toNat &&& 0xffffffff = cmd.value.toNat := and_mask cmd.value.isLt rfl
  unfold h2cBufToCmdOfldV1 cmdWordsV1
  simp (disch := decide) only [ne_eq, and_flag_eq_zero, flag_eq_setWord, getField_or, getField_setWord_same,
    getField_setWord_ne, Nat.or_zero, Nat.zero_or, htype, hmask, hvalue, ofVal_type, BitVec.ofNat_toNat,
    BitVec.setWidth_eq]
  simp only [← ne_eq, flag_and_one]; rfl

/-! ### The round trip -/

/-- The words of the last command in the buffer. -/
def CmdOfldInfo.lastWords (info : CmdOfldInfo) : Option CmdWords := info.cmds.getLast?

def CmdBuf.nextNum : CmdBuf → ℕ
  | some info => info.val.cmdNum
  | none => 0

theorem nextNum_lt (buf : CmdBuf) : buf.nextNum < 2 ^ 7 := by
  unfold CmdBuf.nextNum
  cases buf with
  | none => decide
  | some info =>
    have hnum := info.val.num
    have hused := info.val.used
    have havl := info.val.avl
    simp only
    unfold cmdOfldSize at hused
    unfold cmdOfldMaxLen at havl; omega

/-- Where `add_cmd` takes the command, its words are at the end of the buffer, and they give it back. -/
def CodecRight (malloc : Bool) (buf : CmdBuf) (cmd : MacCmd) : Prop :=
  ∀ info, addCmd malloc buf cmd = .ok info → ∃ words, info.lastWords = some words ∧
    h2cBufToCmdOfld words = some ({ cmd with lc := lcFlag cmd.lc }, buf.nextNum)

/-- The same of `add_cmd_v1`, whatever was in the command that is decoded into. -/
def CodecRightV1 (malloc : Bool) (buf : CmdBuf) (cmd : MacCmdV1) : Prop :=
  ∀ info, addCmdV1 malloc buf cmd = .ok info → ∃ words, info.lastWords = some words ∧
    ∀ prev, h2cBufToCmdOfldV1 words prev = some ({ cmd with lc := lcFlag cmd.lc }, buf.nextNum)

/-- There is a buffer, or memory for one. -/
def CmdBuf.Present (malloc : Bool) (buf : CmdBuf) : Prop := buf ≠ none ∨ malloc = true

theorem get_present {malloc : Bool} {buf : CmdBuf} (h : buf.Present malloc) :
    ∃ info, buf.get malloc = .ok info ∧ info.val.cmdNum = buf.nextNum := by
  unfold CmdBuf.get CmdBuf.nextNum
  cases buf with
  | none =>
    have hmalloc : malloc = true := h.resolve_left fun hne => hne rfl
    simp only
    rw [if_pos hmalloc]; exact ⟨_, rfl, rfl⟩
  | some info => exact ⟨info, rfl, rfl⟩

theorem get_absent {malloc : Bool} {buf : CmdBuf} (h : ¬ buf.Present malloc) : buf.get malloc = .error .bufAlloc := by
  obtain ⟨hnone, hmalloc⟩ := not_or.mp h
  rw [not_not.mp hnone]; exact if_neg hmalloc

theorem lastWords_push (info : CmdOfldInfo) (h : info.HasRoom) (ver : CmdOfldVer) (words : CmdWords)
    (type : CmdTypeOfld) (value : BitVec 32) : (info.push h ver words type value).lastWords = some words :=
  List.getLast?_concat

theorem codecRight_iff (malloc : Bool) (buf : CmdBuf) (cmd : MacCmd) :
    CodecRight malloc buf cmd ↔ buf.Present malloc → cmd.src ≠ .other := by
  by_cases hp : buf.Present malloc
  · obtain ⟨info, hget, hnum⟩ := get_present hp
    have hadd : addCmd malloc buf cmd =
        .ok (info.val.push info.property .cmdOfld (cmdWords info.val.cmdNum cmd) cmd.type cmd.value) := by
      unfold addCmd
      rw [hget]; rfl
    have hn : buf.nextNum &&& 0x7f = buf.nextNum := and_mask (nextNum_lt buf) rfl
    have hdec := h2cBufToCmdOfld_eq info.val.cmdNum cmd
    rw [hnum, hn] at hdec
    constructor
    · intro h _ hother
      obtain ⟨words, hwords, hback⟩ := h _ hadd
      rw [lastWords_push, hnum] at hwords
      rw [← Option.some.inj hwords, hdec] at hback
      have hsrc := congrArg (fun r => r.1.src) (Option.some.inj hback)
      simp only [hother] at hsrc; exact absurd hsrc (by decide)
    · intro h info' hadd'
      rw [hadd, Except.ok.injEq] at hadd'
      refine ⟨_, hadd' ▸ lastWords_push _ _ _ _ _ _, ?_⟩
      rw [hnum, hdec]
      unfold SrcCmdOfld.folded
      rw [if_neg (h hp)]
  · refine iff_of_true (fun info hadd => ?_) fun h => absurd h hp
    unfold addCmd at hadd
    rw [get_absent hp] at hadd; exact absurd hadd nofun

/-- A register that `gen_base_offset` has a base for. -/
def HasBase (src : SrcCmdOfld) (rfPath : RfPath) : Prop := (genBaseOffset src rfPath).isSome = true

/-- A register of the MAC or the baseband, with the first path. -/
def PlainReg (src : SrcCmdOfld) (rfPath : RfPath) : Prop := src ≠ .rf ∧ rfPath = .a

theorem codecRightV1_iff (malloc : Bool) (buf : CmdBuf) (cmd : MacCmdV1) :
    CodecRightV1 malloc buf cmd ↔ buf.Present malloc → HasBase cmd.src0 cmd.rfPath0 → HasBase cmd.src1 cmd.rfPath1 →
      PlainReg cmd.src0 cmd.rfPath0 ∧ PlainReg cmd.src1 cmd.rfPath1 := by
  by_cases hp : buf.Present malloc
  swap
  · refine iff_of_true (fun info hadd => ?_) fun h => absurd h hp
    unfold addCmdV1 at hadd
    rw [get_absent hp] at hadd; exact absurd hadd nofun
  obtain ⟨info, hget, hnum⟩ := get_present hp
  cases h0 : genBaseOffset cmd.src0 cmd.rfPath0 with
  | none =>
    refine iff_of_true (fun info' hadd => ?_) fun _ hb => absurd hb ?_
    · unfold addCmdV1 at hadd
      rw [hget, h0] at hadd; exact absurd hadd nofun
    · unfold HasBase
      rw [h0]; exact nofun
  | some base0 =>
    cases h1 : genBaseOffset cmd.src1 cmd.rfPath1 with
    | none =>
      refine iff_of_true (fun info' hadd => ?_) fun _ _ hb => absurd hb ?_
      · unfold addCmdV1 at hadd
        rw [hget, h0, h1] at hadd; exact absurd hadd nofun
      · unfold HasBase
        rw [h1]; exact nofun
    | some base1 =>
      have hadd : addCmdV1 malloc buf cmd = .ok (info.val.push info.property .cmdOfldV1
          (cmdWordsV1 info.val.cmdNum base0 base1 cmd) cmd.type cmd.value) := by
        unfold addCmdV1
        rw [hget, h0, h1]; rfl
      have hn : buf.nextNum &&& 0xff = buf.nextNum :=
        and_mask (Nat.lt_trans (nextNum_lt buf) (by decide : 2 ^ 7 < 2 ^ 8)) rfl
      have hdec (prev : MacCmdV1) := h2cBufToCmdOfldV1_eq info.val.cmdNum base0 base1 cmd prev
      simp only [hnum, hn] at hdec
      have hreg0 (src : SrcCmdOfld) (rfPath : RfPath) := regBack_iff h0 cmd.offset0 src rfPath
      have hreg1 (src : SrcCmdOfld) (rfPath : RfPath) := regBack_iff h1 cmd.offset1 src rfPath
      constructor
      · intro h _ _ _
        obtain ⟨words, hwords, hback⟩ := h _ hadd
        rw [lastWords_push, hnum] at hwords
        obtain rfl := Option.some.inj hwords
        have hcmd := congrArg Prod.fst (Option.some.inj ((hdec cmd).symm.trans (hback cmd)))
        simp only [MacCmdV1.mk.injEq] at hcmd
        obtain ⟨hsrc0, hpath0, hsrc1, hpath1, -, -, hoff0, hoff1, -⟩ := hcmd
        exact ⟨(hreg0 _ _).mp ⟨hoff0, hsrc0, hpath0⟩, (hreg1 _ _).mp ⟨hoff1, hsrc1, hpath1⟩⟩
      · intro h info' hadd'
        have hb0 : HasBase cmd.src0 cmd.rfPath0 := by
          unfold HasBase
          rw [h0]; rfl
        have hb1 : HasBase cmd.src1 cmd.rfPath1 := by
          unfold HasBase
          rw [h1]; rfl
        obtain ⟨hplain0, hplain1⟩ := h hp hb0 hb1
        rw [hadd, Except.ok.injEq] at hadd'
        refine ⟨_, hadd' ▸ lastWords_push _ _ _ _ _ _, fun prev => ?_⟩
        have hr0 := (hreg0 prev.src0 prev.rfPath0).mpr hplain0
        have hr1 := (hreg1 prev.src1 prev.rfPath1).mpr hplain1
        rw [hnum, hdec, hr0.offset, hr0.src, hr0.path, hr1.offset, hr1.src, hr1.path]

/-- **A command taken by `add_cmd` comes back from its words exactly when its source is none of the others, and one taken
by `add_cmd_v1` exactly when both registers are of the MAC or the baseband, with the first path.** -/
theorem cmd_ofld_codec_iff (malloc : Bool) (buf : CmdBuf) (cmd : MacCmd) (cmdV1 : MacCmdV1) :
    (CodecRight malloc buf cmd ↔ buf.Present malloc → cmd.src ≠ .other) ∧
      (CodecRightV1 malloc buf cmdV1 ↔ buf.Present malloc → HasBase cmdV1.src0 cmdV1.rfPath0 →
        HasBase cmdV1.src1 cmdV1.rfPath1 → PlainReg cmdV1.src0 cmdV1.rfPath0 ∧ PlainReg cmdV1.src1 cmdV1.rfPath1) :=
  ⟨codecRight_iff malloc buf cmd, codecRightV1_iff malloc buf cmdV1⟩

/-- A write to the first path of the radio is taken, and comes back with the second one. -/
theorem rfPath_swapped : ¬ CodecRightV1 true none ⟨.rf, .a, .mac, .a, .write, 1, 0, 0, 0xfffff, 0⟩ := by
  rw [codecRightV1_iff]
  intro h
  exact (h (.inr rfl) rfl rfl).1.1 rfl

end Rtl8852cu.Fwofld
