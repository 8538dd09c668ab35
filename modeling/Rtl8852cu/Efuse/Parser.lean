import Rtl8852cu.Lib.Scan
import Mathlib.Logic.Function.Basic

/-!
# Reading a logical map off an efuse

`phl/hal_g6/mac/mac_ax/efuse.c`, `eeprom_parser`: a physical map is a list of entries from its start on.
An entry has a header of one or two bytes, the number of a block of eight bytes and a bit for each of
its four words that is clear when the word is there, and then these words.  A cell that was never
written is `0xFF`, and so is the place where the next header goes.

A buffer is a function on the offsets; what it has behind its size is what stands there in memory.  The parser
reads the second byte of a header without a test, which may be the first behind the map.
-/

namespace Rtl8852cu.Efuse

open Lib

/-- What `bank_efuse_info` and `hw_info` say of a bank.  `B_AX_EF_ADDR_MSK` has 11 bits. -/
structure Bank where
  physSize : ℕ
  logSize : ℕ
  efuseStart : ℕ
  secCtrlSize : ℕ
  /-- `log_efuse_size == bt_log_efuse_size`. -/
  isBt : Bool
  /-- `dv_sel == DAV`. -/
  dav : Bool
  physSize_pos : 0 < physSize
  physSize_le : physSize ≤ 2048
  logSize_even : 2 ∣ logSize
  logSize_le : logSize ≤ if isBt then 1024 else 2048

/-- The banks of `switch_efuse_bank_8852c`. -/
def wifiBank : Bank :=
  ⟨1216, 2048, 0, 4, false, false, by decide, by decide, by decide, by decide⟩

def davBank : Bank := ⟨96, 16, 0, 4, false, true, by decide, by decide, by decide, by decide⟩

def btBank : Bank :=
  ⟨512, 1024, 0x600, 4, true, false, by decide, by decide, by decide, by decide⟩

/-- The bytes of a map, by their offsets. -/
abbrev Bytes := ℕ → UInt8

/-- `enum mac_ax_efuse_parser_cfg`. -/
inductive ParserCfg where
  | map | mask

/-- What is behind a scan: the logical map, `efuse_end`, and whether the scan was left between the two
bytes of a header. -/
structure Parsed where
  log : Bytes
  efuseEnd : ℕ
  lone : Bool

/-- A header: none, the first byte of one only, or an entry with its words from `idx` on. -/
inductive Header where
  | blank
  | lone
  | entry (blkIdx wordEn : UInt8) (idx : ℕ)

variable (b : Bank) (cfg : ParserCfg) (phy : Bytes)

def readHeader (idx : ℕ) : Header :=
  let hdr := phy idx
  if hdr = 0xff then .blank
  else if b.isBt ∧ hdr &&& 0xF ≠ 0xF then .entry ((hdr &&& 0xF0) >>> 4) (hdr &&& 0x0F) (idx + 1)
  else
    let hdr2 := phy (idx + 1)
    if hdr2 = 0xff then .lone
    else if b.isBt then
      .entry ((((hdr2 &&& 0xF0) >>> 4) <<< 3) + (((hdr &&& 0xF0) >>> 4) >>> 1)) (hdr2 &&& 0x0F)
        (idx + 2)
    else .entry (((hdr2 &&& 0xF0) >>> 4) ||| ((hdr &&& 0x0F) <<< 4)) (hdr2 &&& 0x0F) (idx + 2)

/-- A byte of an entry: the mask is 0 where there is one. -/
def ParserCfg.byte : ParserCfg → UInt8 → UInt8
  | .map, value8 => value8
  | .mask, _ => 0x00

/-- The word `i` of a block, at `idx`. -/
def readWord (blkIdx : UInt8) (i : ℕ) (p : ℕ × Bytes) : Option (ℕ × Bytes) :=
  let eepromIdx := blkIdx.toNat * 8 + i * 2
  if eepromIdx + 1 > b.logSize then none
  else
    let logMap := Function.update p.2 eepromIdx (cfg.byte (phy p.1))
    if p.1 + 1 > b.physSize - 1 then none
    else
      let logMap := Function.update logMap (eepromIdx + 1) (cfg.byte (phy (p.1 + 1)))
      if p.1 + 2 > b.physSize then none
      else some (p.1 + 2, logMap)

/-- The words of an entry, those of `is`. -/
def readWords (blkIdx wordEn : UInt8) : List ℕ → ℕ × Bytes → Option (ℕ × Bytes)
  | [], p => some p
  | i :: is, p =>
    if (wordEn >>> UInt8.ofNat i) &&& 1 = 0 then
      match readWord b cfg phy blkIdx i p with
      | none => none
      | some p => readWords blkIdx wordEn is p
    else readWords blkIdx wordEn is p

/-- One round of the loop of `eeprom_parser`. -/
def nextEntry (idx : ℕ) (logMap : Bytes) : Found Bytes Parsed :=
  if idx ≥ b.physSize then .stop ⟨logMap, idx, false⟩
  else match readHeader b phy idx with
    | .blank => .stop ⟨logMap, idx, false⟩
    | .lone => .stop ⟨logMap, idx + 1, true⟩
    | .entry blkIdx wordEn idx' =>
      if idx' ≥ b.physSize - 1 then .fail
      else match readWords b cfg phy blkIdx wordEn [0, 1, 2, 3] (idx', logMap) with
        | none => .fail
        | some (idx'', logMap) => .go idx'' logMap

/-- `sec_ctrl_size`. -/
def Bank.secCtrl : ℕ := if b.isBt then 0 else b.secCtrlSize

/-- `eeprom_parser`; `none` is `MACEFUSEPARSE`. -/
def eepromParser : Option Parsed :=
  scan (nextEntry b cfg phy) (b.physSize + 1) b.secCtrl fun _ => 0xFF

/-! ### A round reads what it passes -/

variable {b cfg phy} (phy' : Bytes) {idx idx' : ℕ} {logMap logMap' : Bytes} {blkIdx wordEn : UInt8}

theorem readHeader_entry (h : readHeader b phy idx = .entry blkIdx wordEn idx') :
    idx < idx' ∧ ((∀ i < idx', phy' i = phy i) → readHeader b phy' idx = .entry blkIdx wordEn idx') := by
  unfold readHeader at h
  simp only at h
  split at h
  · cases h
  rename_i hblank
  split at h
  · rename_i hone
    cases h
    refine ⟨Nat.lt_succ_self idx, fun hsame => ?_⟩
    unfold readHeader
    simp only
    rw [hsame idx (Nat.lt_succ_self idx), if_neg hblank, if_pos hone]
  · rename_i hone
    have hnext : idx' = idx + 2 := by
      split at h
      · cases h
      · split at h <;> cases h <;> rfl
    subst hnext
    refine ⟨by omega, fun hsame => ?_⟩
    unfold readHeader
    simp only
    rw [hsame idx (by omega), hsame (idx + 1) (by omega), if_neg hblank, if_neg hone]; exact h

theorem readWord_some {i : ℕ} {p p' : ℕ × Bytes} (h : readWord b cfg phy blkIdx i p = some p') :
    p.1 < p'.1 ∧ ((∀ j < p'.1, phy' j = phy j) → readWord b cfg phy' blkIdx i p = some p') := by
  unfold readWord at h
  simp only at h
  split at h
  · cases h
  rename_i hlog
  split at h
  · cases h
  rename_i hphy
  split at h
  · cases h
  rename_i hphy'
  rw [Option.some.injEq] at h
  subst h
  refine ⟨?_, fun hsame => ?_⟩
  · show p.1 < p.1 + 2; omega
  · unfold readWord
    simp only
    rw [hsame p.1 (Nat.lt_add_of_pos_right (by decide)),
      hsame (p.1 + 1) (Nat.add_lt_add_left (by decide) _), if_neg hlog, if_neg hphy, if_neg hphy']

theorem readWords_some {is : List ℕ} {p p' : ℕ × Bytes} (h : readWords b cfg phy blkIdx wordEn is p = some p') :
    p.1 ≤ p'.1 ∧ ((∀ j < p'.1, phy' j = phy j) → readWords b cfg phy' blkIdx wordEn is p = some p') := by
  induction is generalizing p with
  | nil =>
    cases h
    exact ⟨Nat.le_refl _, fun _ => rfl⟩
  | cons i is ih =>
    unfold readWords at h
    split at h
    · rename_i hvalid
      split at h
      · cases h
      · rename_i q hword
        obtain ⟨hle, hrest⟩ := ih h
        obtain ⟨hlt, hsame⟩ := readWord_some phy' hword
        refine ⟨by omega, fun heq => ?_⟩
        unfold readWords
        rw [if_pos hvalid, hsame fun j hj => heq j (Nat.lt_of_lt_of_le hj hle)]; exact hrest heq
    · rename_i hvalid
      obtain ⟨hle, hrest⟩ := ih h
      refine ⟨hle, fun heq => ?_⟩
      unfold readWords
      rw [if_neg hvalid]; exact hrest heq

theorem nextEntry_go (h : nextEntry b cfg phy idx logMap = .go idx' logMap') :
    idx < idx' ∧ idx < b.physSize ∧ ((∀ i < idx', phy' i = phy i) →
      nextEntry b cfg phy' idx logMap = .go idx' logMap') := by
  unfold nextEntry at h
  split at h
  · cases h
  rename_i hsize
  split at h
  · cases h
  · cases h
  · rename_i blkIdx wordEn idx₁ hhead
    split at h
    · cases h
    rename_i hidx
    split at h
    · cases h
    · rename_i hwords
      cases h
      obtain ⟨hlt, hhead'⟩ := readHeader_entry phy' hhead
      obtain ⟨hle, hwords'⟩ := readWords_some phy' hwords
      refine ⟨Nat.lt_of_lt_of_le hlt hle, by omega, fun hsame => ?_⟩
      unfold nextEntry
      rw [if_neg hsize, hhead' fun i hi => hsame i (Nat.lt_of_lt_of_le hi hle)]
      simp only
      rw [if_neg hidx, hwords' hsame]

theorem nextEntry_stop {p : Parsed} (h : nextEntry b cfg phy idx logMap = .stop p) :
    p.log = logMap ∧ (p.lone = false → p.efuseEnd = idx) := by
  unfold nextEntry at h
  split at h
  · cases h; exact ⟨rfl, fun _ => rfl⟩
  · split at h
    · cases h; exact ⟨rfl, fun _ => rfl⟩
    · cases h; exact ⟨rfl, fun hlone => nomatch hlone⟩
    · split at h
      · cases h
      · split at h <;> cases h

theorem eepromParser_eq_some {p : Parsed} (h : eepromParser b cfg phy = some p) :
    ∃ e, Scans (nextEntry b cfg phy) b.secCtrl (fun _ => 0xFF) e p.log ∧ nextEntry b cfg phy e p.log = .stop p := by
  obtain ⟨e, log, hscans, hstop⟩ := scan_eq_some h
  obtain rfl := (nextEntry_stop hstop).1
  exact ⟨e, hscans, hstop⟩

theorem eepromParser_of_scans {e : ℕ} {log : Bytes} {p : Parsed}
    (h : Scans (nextEntry b cfg phy) b.secCtrl (fun _ => 0xFF) e log)
    (hstop : nextEntry b cfg phy e log = .stop p) : eepromParser b cfg phy = some p :=
  h.scan b.physSize (fun _ _ _ _ hgo => (nextEntry_go phy hgo).imp_right And.left) hstop (by omega)
    (by omega)

end Rtl8852cu.Efuse
