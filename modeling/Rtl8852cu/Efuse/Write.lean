import Rtl8852cu.Efuse.Parser

/-!
# Writing a byte of a logical map

`proc_write_log_efuse`: the word with the byte is appended to the physical map as an entry of its own, cell by
cell.  The two maps of a bank are kept in memory until a cell is written.

What the hardware does is part of the calls: `ready k` says whether it takes the `k`-th byte, it has it
then.  A driver on the analog die (`DAV`) is not told.  Reads and allocations succeed.
-/

namespace Rtl8852cu.Efuse

def bt1bEntrySize : ℕ := 0x80

inductive MacStatus where
  | success | efuseParse | efuseSize | efuseWrite
  deriving DecidableEq

/-- `struct mac_ax_efuse_param`, for one bank, with its hardware; `behind` is what is read behind a physical map. -/
structure EfuseParam where
  /-- The cells by their addresses. -/
  hw : ℕ → UInt8
  behind : Bytes
  autoCkEn : Bool
  phyMap : Bytes
  phyMapValid : Bool
  logMap : Bytes
  logMapValid : Bool
  efuseEnd : ℕ

/-- A call of `proc_write_log_efuse`. -/
structure LogWrite where
  offset : ℕ
  value : UInt8
  ready : ℕ → Bool

namespace EfuseParam

variable (b : Bank) (s : EfuseParam)

/-- The address of a cell, with the start of the bank. -/
def addr (offset : ℕ) : ℕ := (offset + b.efuseStart) % 2048

/-- `read_hw_efuse` of the whole bank. -/
def readHwEfuse : Bytes := fun i => if i < b.physSize then s.hw (addr b i) else s.behind i

def writeHwEfuse (offset : ℕ) (value : UInt8) (ready : Bool) : MacStatus × EfuseParam :=
  let s := { s with phyMapValid := false, logMapValid := false }
  if !ready && !b.dav then (.efuseWrite, s)
  else
    let s := if ready then { s with hw := Function.update s.hw (addr b offset) value } else s
    -- `read_hw_efuse` adds the start of the bank to an offset that has it already
    if s.autoCkEn && s.hw (addr b (offset + b.efuseStart)) ≠ value then (.efuseWrite, s)
    else (.success, s)

/-- Bytes written one after the other, until one fails. -/
def writeBytes : EfuseParam → ℕ → List UInt8 → (ℕ → Bool) → MacStatus × EfuseParam
  | s, _, [], _ => (.success, s)
  | s, offset, value :: values, ready =>
    match s.writeHwEfuse b offset value (ready 0) with
    | (.success, s) => writeBytes s (offset + 1) values fun k => ready (k + 1)
    | r => r

/-- `read_log_efuse_map`, with `efuse_end` in the state. -/
def readLogEfuseMap : MacStatus × EfuseParam :=
  if s.logMapValid then (.success, s)
  else
    let s := if s.phyMapValid then s else { s with phyMap := s.readHwEfuse b, phyMapValid := true }
    match eepromParser b .map s.phyMap with
    | none => (.efuseParse, s)
    | some p =>
      (.success, { s with logMap := p.log, logMapValid := true, efuseEnd := p.efuseEnd })

end EfuseParam

/-- The bits of the words in a header, for one word. -/
def oneWordEn (blkIdx : UInt8) : UInt8 := (1 <<< blkIdx) ^^^ 0x0F

/-- The header of the word with the byte `offset`. -/
def headerBytes (b : Bank) (offset : ℕ) : List UInt8 :=
  let wordEn := oneWordEn (UInt8.ofNat (offset % 8 / 2))
  if b.isBt then
    if offset < bt1bEntrySize then [(UInt8.ofNat (offset / 8) <<< 4) + wordEn]
    else
      let blkIdx := UInt8.ofNat (offset / 8 % 8 * 2)
      [(blkIdx <<< 4) + 0xF, (UInt8.ofNat (offset / 8 / 8) <<< 4) + wordEn]
  else
    let blk := UInt8.ofNat (offset / 8)
    [((blk &&& 0xF0) >>> 4) ||| 0x30, ((blk &&& 0x0F) <<< 4) + wordEn]

/-- The word: the new byte and the other one as it is. -/
def wordBytes (map : Bytes) (offset : ℕ) (value : UInt8) : List UInt8 :=
  if offset % 2 = 0 then [value, map (offset + 1)] else [map (offset - 1), value]

def procWriteLogEfuse (b : Bank) (s : EfuseParam) (w : LogWrite) : MacStatus × EfuseParam :=
  match s.readLogEfuseMap b with
  | (.success, s) =>
    if s.logMap w.offset = w.value then (.success, s)
    else if b.physSize ≤ 4 + s.efuseEnd then (.efuseSize, s)
    else s.writeBytes b s.efuseEnd
      (headerBytes b w.offset ++ wordBytes s.logMap w.offset w.value) w.ready
  | r => r

end Rtl8852cu.Efuse
