import Mathlib.Algebra.Ring.Nat
import Mathlib.Algebra.Ring.Int.Defs

/-!
# The header of a firmware image

`phl/hal_g6/mac/mac_ax/fwdl.c`, `fwhdr_parser`: a fixed header of eight words, a header of four words for each section,
perhaps a dynamic header, then the sections, and behind them the signatures of the security
section.  The one that the chip is to use is copied into this section.

Memory is a function on the offsets from `fw` on, the image and what is behind it.  Every access is recorded.  The entries
are a list, what a store behind the table of six would overwrite is not followed.  The chip is the 8852C, the one that is
compiled in, so `is_chip_id` is false of all others; `fw` and `info` are given.
-/

namespace Rtl8852cu.Fwdl

/-- The bytes of memory, from the start of the image on. -/
abbrev Mem := ℕ → UInt8

/-- The offset and the number of bytes of a read or write. -/
abbrev Access := ℕ × ℕ

inductive FwStatus where
  | success | bufSz | cmp | fwBin
  deriving DecidableEq

/-- `le32_to_cpu` of the word at an offset. -/
def le32 (m : Mem) (off : ℕ) : ℕ :=
  (m off).toNat + 2 ^ 8 * (m (off + 1)).toNat + 2 ^ 16 * (m (off + 2)).toNat + 2 ^ 24 * (m (off + 3)).toNat

def setLe32 (m : Mem) (off v : ℕ) : Mem := fun i =>
  if i = off then UInt8.ofNat v
  else if i = off + 1 then UInt8.ofNat (v / 2 ^ 8)
  else if i = off + 2 then UInt8.ofNat (v / 2 ^ 16)
  else if i = off + 3 then UInt8.ofNat (v / 2 ^ 24)
  else m i

/-- `PLTFM_MEMCPY` within memory. -/
def memcpy (m : Mem) (dst src n : ℕ) : Mem := fun i =>
  if dst ≤ i ∧ i < dst + n then m (src + (i - dst)) else m i

def getField (w sh msk : ℕ) : ℕ := (w >>> sh) &&& msk

/-- `SET_CLR_WORD`, of a word of 32 bits. -/
def setClrWord (w v sh msk : ℕ) : ℕ := (w &&& ((2 ^ 32 - 1) ^^^ (msk <<< sh))) ||| ((v &&& msk) <<< sh)

def fwhdrHdrLen : ℕ := 32
def fwhdrSectionLen : ℕ := 16
def fwdlSectionMaxNum : ℕ := 6
def fwdlSecuritySectionConstant : ℕ := 64 + fwdlSectionMaxNum * 32 * 2
def fwdlSecuritySectionType : ℕ := 9
def fwdlSecuritySiglen : ℕ := 512
def fwdlSectionChksumLen : ℕ := 8
def fwdlSectionPerPktLen : ℕ := 2020

/-- `struct fwhdr_section_info`; `addr` is an offset. -/
structure FwhdrSectionInfo where
  redl : Bool
  addr : ℕ
  len : ℕ
  dladdr : ℕ
  mssc : ℕ
  type : ℕ

/-- `struct fw_bin_info`, with the entries that are stored. -/
structure FwBinInfo where
  sectionNum : ℕ
  hdrLen : ℕ
  gitIdx : ℕ
  isFwUsePle : Bool
  dynamicHdrEn : Bool
  dynamicHdrLen : ℕ
  sectionInfo : List FwhdrSectionInfo

/-- What the parser asks for outside of the image. -/
structure FwEnv where
  /-- `get_ple_base`. -/
  pleBase : ℕ
  /-- What `read_efuse` gives of the two bytes, for the section `i`. -/
  efuse : ℕ → Option UInt8 × Option UInt8
  /-- `qta_mode == MAC_AX_QTA_LAMODE`. -/
  laMode : Bool

structure ParserSt where
  mem : Mem
  accesses : List Access
  info : FwBinInfo
  binPtr : ℕ
  fwEnd : ℤ

/-! ### The fixed header -/

def staticLen (sectionNum : ℕ) : ℕ := fwhdrHdrLen + sectionNum * fwhdrSectionLen

/-- `fwhdr_hdr_parser`, which sets the length of the parts that are downloaded. -/
def fwhdrHdrParser (s : ParserSt) : FwStatus × ParserSt :=
  let sectionNum := getField (le32 s.mem 24) 8 0xff
  let hdrLen := getField (le32 s.mem 12) 16 0xff
  let hdrVal := setClrWord (le32 s.mem 28) fwdlSectionPerPktLen 0 0xffff
  let dynamicHdrEn : Bool := getField hdrVal 16 0x1 ≠ 0
  let s := { s with
    mem := setLe32 s.mem 28 hdrVal
    accesses := s.accesses ++ [(24, 4), (12, 4), (28, 4), (28, 4)]
    info := { s.info with sectionNum, hdrLen, dynamicHdrEn } }
  if dynamicHdrEn then
    let dynamicHdrLen := (((hdrLen : ℤ) - staticLen sectionNum) % 2 ^ 32).toNat
    let val32 := le32 s.mem (staticLen sectionNum)
    let s := { s with
      accesses := s.accesses ++ [(staticLen sectionNum, 4)]
      info := { s.info with dynamicHdrLen } }
    if val32 ≠ dynamicHdrLen then (.cmp, s)
    else (.success, { s with
      accesses := s.accesses ++ [(8, 4)]
      info := { s.info with gitIdx := getField (le32 s.mem 8) 0 0xffffffff } })
  else if staticLen sectionNum ≠ hdrLen then (.cmp, s)
  else (.success, { s with
    accesses := s.accesses ++ [(8, 4)]
    info := { s.info with
      dynamicHdrLen := 0
      gitIdx := getField (le32 s.mem 8) 0 0xffffffff } })

/-! ### The sections -/

/-- `fwhdr_section_parser`, of the header at `fw`. -/
def fwhdrSectionParser (m : Mem) (fw addr : ℕ) : FwhdrSectionInfo :=
  let hdrVal := le32 m (fw + 4)
  let type := getField hdrVal 24 0xf
  { redl := getField hdrVal 29 0x1 ≠ 0
    addr
    len := getField hdrVal 0 0xffffff + if getField hdrVal 28 0x1 ≠ 0 then fwdlSectionChksumLen else 0
    dladdr := getField (le32 m fw) 0 0xffffffff
    mssc := if type = fwdlSecuritySectionType then le32 m (fw + 8) else 0
    type }

/-- The words of a section header that are read. -/
def sectionAccesses (sec : FwhdrSectionInfo) (fw : ℕ) : List Access :=
  if sec.type = fwdlSecuritySectionType then [(fw + 4, 4), (fw + 8, 4), (fw, 4)]
  else [(fw + 4, 4), (fw, 4)]

def FwhdrSectionInfo.Signed (sec : FwhdrSectionInfo) : Prop :=
  sec.type = fwdlSecuritySectionType ∧ sec.mssc > 0

instance (sec : FwhdrSectionInfo) : Decidable sec.Signed := inferInstanceAs (Decidable (_ ∧ _))

/-- `otp_key_info_externalPN`, `otp_key_info_customer` and `otp_key_info_serialNum`. -/
def otpKeyInfo : List (ℕ × ℕ × ℕ) := [(0x0, 0x0, 0x0), (0x0, 0x1, 0x1)]

/-- `__mss_index`; `none` is -1. -/
def mssIndex : Option UInt8 × Option UInt8 → Option ℕ
  | (some b1, some b2) =>
    let externalPN := 0xFF - getField b1.toNat 0 0xff
    let customer := 0xF - getField b2.toNat 0 0xf
    let serialNum := 0x7 - getField b2.toNat 4 0x7
    some ((otpKeyInfo.findIdx? fun k => externalPN = k.1 ∧ customer = k.2.1 ∧ serialNum = k.2.2).getD 0)
  | _ => none

/-- What `fwhdr_section_parser` has stored, with the pointers moved. -/
def storeSection (env : FwEnv) (s : ParserSt) (fw : ℕ) (sec : FwhdrSectionInfo) : ParserSt :=
  { s with
    accesses := s.accesses ++ sectionAccesses sec fw
    info := { s.info with
      isFwUsePle := s.info.isFwUsePle || sec.dladdr = env.pleBase
      sectionInfo := s.info.sectionInfo ++ [sec] }
    binPtr := s.binPtr + sec.len
    fwEnd := if sec.Signed then s.fwEnd - (sec.mssc * fwdlSecuritySiglen % 2 ^ 32 : ℕ) else s.fwEnd }

/-- The signature `mssIdx` is copied into its section. -/
def copySignature (s : ParserSt) (sec : FwhdrSectionInfo) (mssIdx : ℕ) : ParserSt :=
  let mssStart := sec.addr + fwdlSecuritySectionConstant
  let mssSelected := s.binPtr + mssIdx * fwdlSecuritySiglen
  { s with
    mem := memcpy s.mem mssStart mssSelected fwdlSecuritySiglen
    accesses := s.accesses ++ [(mssSelected, fwdlSecuritySiglen), (mssStart, fwdlSecuritySiglen)] }

/-- The section whose header is the `i`-th. -/
def sectionAt (s : ParserSt) (i : ℕ) : FwhdrSectionInfo :=
  fwhdrSectionParser s.mem (staticLen i) s.binPtr

/-- A round of the loop over the sections. -/
def parseSection (env : FwEnv) (s : ParserSt) (i : ℕ) : FwStatus × ParserSt :=
  let sec := sectionAt s i
  let s := storeSection env s (staticLen i) sec
  if sec.Signed then
    match mssIndex (env.efuse i) with
    | none => (.fwBin, s)
    | some mssIdx => (.success, copySignature s sec mssIdx)
  else (.success, s)

def parseSections (env : FwEnv) : List ℕ → ParserSt → FwStatus × ParserSt
  | [], s => (.success, s)
  | i :: is, s =>
    match parseSection env s i with
    | (.success, s) => parseSections env is s
    | r => r

/-! ### The image -/

inductive DleRsvdInfo where
  | none | fw | laMode
  deriving DecidableEq

/-- `get_dle_rsvd_info`: outside of the LA mode there is no reserved size, so it succeeds. -/
def getDleRsvdInfo (env : FwEnv) : DleRsvdInfo := if env.laMode then .laMode else .none

def fwhdrParser (env : FwEnv) (fw : Mem) (len : ℕ) (info : FwBinInfo) : FwStatus × ParserSt :=
  let s : ParserSt := ⟨fw, [], { info with sectionInfo := [] }, 0, len⟩
  if len = 0 then (.bufSz, s)
  else match fwhdrHdrParser s with
    | (.success, s) =>
      let s := { s with
        binPtr := s.info.hdrLen
        info := { s.info with isFwUsePle := false } }
      match parseSections env (List.range s.info.sectionNum) s with
      | (.success, s) =>
        if getDleRsvdInfo env ≠ .fw ∧ s.info.isFwUsePle then (.fwBin, s)
        else if s.fwEnd ≠ s.binPtr then (.fwBin, s)
        else (.success, s)
      | r => r
    | r => r

end Rtl8852cu.Fwdl
