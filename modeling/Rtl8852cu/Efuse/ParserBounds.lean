import Rtl8852cu.Efuse.Parser
import Mathlib.Data.List.Basic

/-!
# Where the parser of an efuse map reads and writes

`eeprom_parser` again, with maps of any two sizes and every access recorded.

The sizes are far from what 32 bits hold.
-/

namespace Rtl8852cu.Efuse

open Lib

/-- What `bank_efuse_info` and `hw_info` say of the maps. -/
structure MapSizes where
  phyMapSize : ℕ
  logMapSize : ℕ
  btLogEfuseSize : ℕ
  secCtrlEfuseSize : ℕ

def MapSizes.isBt (s : MapSizes) : Bool := decide (s.logMapSize = s.btLogEfuseSize)

/-- `sec_ctrl_size`, the place of the first entry. -/
def MapSizes.start (s : MapSizes) : ℕ := if s.isBt then 0 else s.secCtrlEfuseSize

inductive MapAccess where
  | readPhy (idx : ℕ)
  | writeLog (idx : ℕ)
deriving DecidableEq, Repr

def MapAccess.Inside (s : MapSizes) : MapAccess → Prop
  | .readPhy idx => idx < s.phyMapSize
  | .writeLog idx => idx < s.logMapSize

instance (s : MapSizes) (a : MapAccess) : Decidable (a.Inside s) := by
  cases a <;> exact inferInstanceAs (Decidable (_ < _))

/-- The header of an entry is one byte. -/
def OneByte (s : MapSizes) (phy : Bytes) (idx : ℕ) : Prop := s.isBt = true ∧ phy idx &&& 0xF ≠ 0xF

instance (s : MapSizes) (phy : Bytes) (idx : ℕ) : Decidable (OneByte s phy idx) := inferInstanceAs (Decidable (_ ∧ _))

variable (s : MapSizes) (cfg : ParserCfg) (phy : Bytes)

/-- The header at a place, with its reads. -/
def headerAt (idx : ℕ) : Header × List MapAccess :=
  let hdr := phy idx
  if hdr = 0xff then (.blank, [.readPhy idx])
  else if OneByte s phy idx then (.entry ((hdr &&& 0xF0) >>> 4) (hdr &&& 0x0F) (idx + 1), [.readPhy idx])
  else
    let hdr2 := phy (idx + 1)
    let acc := [.readPhy idx, .readPhy (idx + 1)]
    if hdr2 = 0xff then (.lone, acc)
    else if s.isBt then
      (.entry ((((hdr2 &&& 0xF0) >>> 4) <<< 3) + (((hdr &&& 0xF0) >>> 4) >>> 1)) (hdr2 &&& 0x0F) (idx + 2), acc)
    else (.entry (((hdr2 &&& 0xF0) >>> 4) ||| ((hdr &&& 0x0F) <<< 4)) (hdr2 &&& 0x0F) (idx + 2), acc)

/-- The accesses for one byte of a word. -/
def byteAccesses (idx eepromIdx : ℕ) : List MapAccess :=
  match cfg with
  | .map => [.readPhy idx, .writeLog eepromIdx]
  | .mask => [.writeLog eepromIdx]

/-- `eeprom_idx` of a word. -/
def eepromIdx (blkIdx : UInt8) (i : ℕ) : ℕ := blkIdx.toNat * 8 + i * 2

/-- The word `i` of a block, at `p.1`. -/
def wordAt (blkIdx : UInt8) (i : ℕ) (p : ℕ × Bytes) : Option (ℕ × Bytes) × List MapAccess :=
  let k := eepromIdx blkIdx i
  if k + 1 > s.logMapSize then (none, [])
  else
    let logMap := Function.update p.2 k (cfg.byte (phy p.1))
    let acc := byteAccesses cfg p.1 k
    if p.1 + 1 > s.phyMapSize - 1 then (none, acc)
    else
      let logMap := Function.update logMap (k + 1) (cfg.byte (phy (p.1 + 1)))
      let acc := acc ++ byteAccesses cfg (p.1 + 1) (k + 1)
      if p.1 + 2 > s.phyMapSize then (none, acc) else (some (p.1 + 2, logMap), acc)

/-- `valid == 1`: the word `i` is there. -/
def WordValid (wordEn : UInt8) (i : ℕ) : Prop := (wordEn >>> UInt8.ofNat i) &&& 1 = 0

instance (wordEn : UInt8) (i : ℕ) : Decidable (WordValid wordEn i) := inferInstanceAs (Decidable (_ = _))

/-- The words of an entry that are there, of those in `is`. -/
def wordsAt (blkIdx wordEn : UInt8) : List ℕ → ℕ × Bytes → Option (ℕ × Bytes) × List MapAccess
  | [], p => (some p, [])
  | i :: is, p =>
    if WordValid wordEn i then
      match wordAt s cfg phy blkIdx i p with
      | (none, acc) => (none, acc)
      | (some p, acc) =>
        let r := wordsAt blkIdx wordEn is p
        (r.1, acc ++ r.2)
    else wordsAt blkIdx wordEn is p

def roundAt (idx : ℕ) (logMap : Bytes) : Found Bytes Parsed × List MapAccess :=
  if idx ≥ s.phyMapSize then (.stop ⟨logMap, idx, false⟩, [])
  else
    match headerAt s phy idx with
    | (.blank, acc) => (.stop ⟨logMap, idx, false⟩, acc)
    | (.lone, acc) => (.stop ⟨logMap, idx + 1, true⟩, acc)
    | (.entry blkIdx wordEn idx', acc) =>
      if idx' ≥ s.phyMapSize - 1 then (.fail, acc)
      else
        match wordsAt s cfg phy blkIdx wordEn [0, 1, 2, 3] (idx', logMap) with
        | (none, acc') => (.fail, acc ++ acc')
        | (some (idx'', logMap), acc') => (.go idx'' logMap, acc ++ acc')

/-- The rounds from `idx` on; `none` where `fuel` does not do for them. -/
def eepromLoop : ℕ → ℕ → Bytes → Option (Option Parsed × List MapAccess)
  | 0, _, _ => none
  | fuel + 1, idx, logMap =>
    match roundAt s cfg phy idx logMap with
    | (.stop p, acc) => some (some p, acc)
    | (.fail, acc) => some (none, acc)
    | (.go idx' logMap', acc) => (eepromLoop fuel idx' logMap').map fun r => (r.1, acc ++ r.2)

/-- `eeprom_parser`; the answer `none` is `MACEFUSEPARSE`. -/
def eepromRun : Option (Option Parsed × List MapAccess) :=
  eepromLoop s cfg phy (s.phyMapSize + 1) s.start fun _ => 0xFF

/-! ### The parser of a bank -/

def Bank.sizes (b : Bank) : MapSizes :=
  ⟨b.physSize, b.logSize, if b.isBt then b.logSize else b.logSize + 1, b.secCtrlSize⟩

variable {s cfg phy}

theorem Bank.sizes_isBt (b : Bank) : b.sizes.isBt = b.isBt := by
  unfold MapSizes.isBt Bank.sizes
  cases b.isBt with
  | true => exact decide_eq_true rfl
  | false => exact decide_eq_false (Nat.succ_ne_self _).symm

theorem headerAt_bank (b : Bank) (idx : ℕ) : (headerAt b.sizes phy idx).1 = readHeader b phy idx := by
  have hone : OneByte b.sizes phy idx ↔ b.isBt ∧ phy idx &&& 0xF ≠ 0xF := by
    unfold OneByte
    rw [b.sizes_isBt]
  unfold headerAt readHeader
  dsimp only
  by_cases hblank : phy idx = 0xff
  · rw [if_pos hblank, if_pos hblank]
  rw [if_neg hblank, if_neg hblank]
  by_cases h : OneByte b.sizes phy idx
  · rw [if_pos h, if_pos (hone.mp h)]
  rw [if_neg h, if_neg (mt hone.mpr h), b.sizes_isBt]
  split
  · rfl
  · split
    · rfl
    · rfl

theorem wordAt_bank (b : Bank) (blkIdx : UInt8) (i : ℕ) (p : ℕ × Bytes) :
    (wordAt b.sizes cfg phy blkIdx i p).1 = readWord b cfg phy blkIdx i p := by
  unfold wordAt readWord Bank.sizes eepromIdx
  dsimp only
  split
  · rfl
  · split
    · rfl
    · split
      · rfl
      · rfl

theorem wordsAt_bank (b : Bank) (blkIdx wordEn : UInt8) (is : List ℕ) (p : ℕ × Bytes) :
    (wordsAt b.sizes cfg phy blkIdx wordEn is p).1 = readWords b cfg phy blkIdx wordEn is p := by
  induction is generalizing p with
  | nil => rfl
  | cons i is ih =>
    unfold wordsAt readWords
    rw [← wordAt_bank]
    by_cases hvalid : WordValid wordEn i
    · rw [if_pos hvalid, if_pos (show (wordEn >>> UInt8.ofNat i) &&& 1 = 0 from hvalid)]
      generalize wordAt b.sizes cfg phy blkIdx i p = r
      obtain ⟨r, acc⟩ := r
      cases r with
      | none => rfl
      | some q => exact ih q
    · rw [if_neg hvalid, if_neg (show ¬ (wordEn >>> UInt8.ofNat i) &&& 1 = 0 from hvalid)]
      exact ih p

theorem roundAt_bank (b : Bank) (idx : ℕ) (logMap : Bytes) :
    (roundAt b.sizes cfg phy idx logMap).1 = nextEntry b cfg phy idx logMap := by
  unfold roundAt nextEntry
  rw [← headerAt_bank]
  by_cases hidx : idx ≥ b.physSize
  · rw [if_pos hidx, if_pos (show idx ≥ b.sizes.phyMapSize from hidx)]
  rw [if_neg hidx, if_neg (show ¬ idx ≥ b.sizes.phyMapSize from hidx)]
  generalize headerAt b.sizes phy idx = r
  obtain ⟨r, acc⟩ := r
  cases r with
  | blank => rfl
  | lone => rfl
  | entry blkIdx wordEn idx' =>
    dsimp only
    rw [← wordsAt_bank]
    by_cases hend : idx' ≥ b.physSize - 1
    · rw [if_pos hend, if_pos (show idx' ≥ b.sizes.phyMapSize - 1 from hend)]
    rw [if_neg hend, if_neg (show ¬ idx' ≥ b.sizes.phyMapSize - 1 from hend)]
    generalize wordsAt b.sizes cfg phy blkIdx wordEn [0, 1, 2, 3] (idx', logMap) = r
    obtain ⟨r, acc'⟩ := r
    cases r with
    | none => rfl
    | some q => rfl

variable {r : Option Parsed} {acc : List MapAccess}

theorem eepromRun_eq (b : Bank) (h : eepromRun b.sizes cfg phy = some (r, acc)) : eepromParser b cfg phy = r := by
  have hloop : ∀ fuel idx logMap r acc, eepromLoop b.sizes cfg phy fuel idx logMap = some (r, acc) →
      scan (nextEntry b cfg phy) fuel idx logMap = r := by
    intro fuel
    induction fuel with
    | zero => nofun
    | succ fuel ih =>
      intro idx logMap r acc h
      unfold eepromLoop at h
      unfold scan
      rw [← roundAt_bank]
      generalize roundAt b.sizes cfg phy idx logMap = x at h ⊢
      obtain ⟨x, acc'⟩ := x
      cases x with
      | stop p =>
        cases h
        rfl
      | fail =>
        cases h
        rfl
      | go idx' logMap' =>
        obtain ⟨⟨r', acc''⟩, hr, he⟩ := Option.map_eq_some_iff.mp h
        cases he
        exact ih _ _ _ _ hr
  have hstart : b.sizes.start = b.secCtrl := by
    unfold MapSizes.start Bank.secCtrl
    rw [b.sizes_isBt]; rfl
  unfold eepromRun at h
  rw [hstart] at h; exact hloop _ _ _ _ _ h

/-! ### The places that are passed -/

/-- **The words fit**, of those in `is`, from `idx` on.  One that starts at the end of the physical map is not read, and none
has its second byte behind the logical map. -/
def WordsFit (s : MapSizes) (cfg : ParserCfg) (blkIdx wordEn : UInt8) : List ℕ → ℕ → Prop
  | [], _ => True
  | i :: is, idx =>
    if WordValid wordEn i then
      eepromIdx blkIdx i + 1 ≤ s.logMapSize → (cfg = .map → idx < s.phyMapSize) ∧
          (idx + 1 < s.phyMapSize → eepromIdx blkIdx i + 1 < s.logMapSize ∧ WordsFit s cfg blkIdx wordEn is (idx + 2))
    else WordsFit s cfg blkIdx wordEn is idx

/-- **What is found at a place fits**: the header is not cut off, and the words fit. -/
structure PlaceFits (s : MapSizes) (cfg : ParserCfg) (phy : Bytes) (idx : ℕ) : Prop where
  header : idx < s.phyMapSize → phy idx ≠ 0xff → OneByte s phy idx ∨ idx + 1 < s.phyMapSize
  words : ∀ blkIdx wordEn idx', idx < s.phyMapSize → (headerAt s phy idx).1 = .entry blkIdx wordEn idx' →
    idx' < s.phyMapSize - 1 → WordsFit s cfg blkIdx wordEn [0, 1, 2, 3] idx'

/-- The entries from the start to `idx` are passed. -/
def Passed (s : MapSizes) (cfg : ParserCfg) (phy : Bytes) (idx : ℕ) : Prop :=
  ∃ logMap, Scans (fun idx logMap => (roundAt s cfg phy idx logMap).1) s.start (fun _ => 0xFF) idx logMap

def MapFits (s : MapSizes) (cfg : ParserCfg) (phy : Bytes) : Prop := ∀ idx, Passed s cfg phy idx → PlaceFits s cfg phy idx

/-- The end of the physical map cuts off the entry at a place. -/
def CutOff (s : MapSizes) (phy : Bytes) (idx : ℕ) : Prop :=
  idx < s.phyMapSize ∧ phy idx ≠ 0xff ∧ (¬ OneByte s phy idx ∧ s.phyMapSize ≤ idx + 1 ∨
      ∃ blkIdx wordEn idx', (headerAt s phy idx).1 = .entry blkIdx wordEn idx' ∧
        s.phyMapSize < idx' + 2 * ([0, 1, 2, 3].countP fun i => WordValid wordEn i))

/-- **The parser comes to its end, is in both maps, and fails where an entry is cut off.** -/
def ReadsSafely (s : MapSizes) (cfg : ParserCfg) (phy : Bytes) : Prop :=
  ∃ r acc, eepromRun s cfg phy = some (r, acc) ∧ (∀ a ∈ acc, a.Inside s) ∧
    ((∃ idx, Passed s cfg phy idx ∧ CutOff s phy idx) → r = none)

/-! ### A round -/

variable {idx idx' : ℕ} {logMap logMap' : Bytes} {blkIdx wordEn : UInt8}

theorem byteAccesses_inside {k : ℕ} :
    (∀ a ∈ byteAccesses cfg idx k, a.Inside s) ↔ (cfg = .map → idx < s.phyMapSize) ∧ k < s.logMapSize := by
  cases cfg with
  | map =>
    unfold byteAccesses
    rw [List.forall_mem_cons, List.forall_mem_singleton]
    exact and_congr ⟨fun h _ => h, fun h => h rfl⟩ Iff.rfl
  | mask =>
    unfold byteAccesses
    rw [List.forall_mem_singleton]; exact ⟨fun h => ⟨nofun, h⟩, fun h => h.2⟩

theorem wordAt_some {i : ℕ} {p p' : ℕ × Bytes} (h : (wordAt s cfg phy blkIdx i p).1 = some p') :
    p'.1 = p.1 + 2 ∧ p'.1 ≤ s.phyMapSize := by
  unfold wordAt at h
  dsimp only at h
  split at h
  · cases h
  · split at h
    · cases h
    · split at h
      · cases h
      · rename_i hle
        cases h
        exact ⟨rfl, Nat.not_lt.mp hle⟩

theorem wordsAt_some {is : List ℕ} {p p' : ℕ × Bytes} (h : (wordsAt s cfg phy blkIdx wordEn is p).1 = some p') :
    p'.1 = p.1 + 2 * (is.countP fun i => WordValid wordEn i) ∧ (p.1 ≤ s.phyMapSize → p'.1 ≤ s.phyMapSize) := by
  induction is generalizing p with
  | nil =>
    cases h
    exact ⟨rfl, id⟩
  | cons i is ih =>
    unfold wordsAt at h
    by_cases hvalid : WordValid wordEn i
    · rw [if_pos hvalid] at h
      rw [List.countP_cons_of_pos (p := fun i => decide (WordValid wordEn i)) (decide_eq_true hvalid)]
      cases hr : wordAt s cfg phy blkIdx i p with
      | mk r acc =>
        rw [hr] at h
        cases r with
        | none => cases h
        | some q =>
          obtain ⟨h1, h2⟩ := ih h
          obtain ⟨h3, h4⟩ := wordAt_some (by rw [hr])
          exact ⟨by omega, fun _ => h2 h4⟩
    · rw [if_neg hvalid] at h
      rw [List.countP_cons_of_neg (p := fun i => decide (WordValid wordEn i)) (by rw [decide_eq_true_iff]; exact hvalid)]
      exact ih h

theorem wordsAt_inside {is : List ℕ} (p : ℕ × Bytes) :
    (∀ a ∈ (wordsAt s cfg phy blkIdx wordEn is p).2, a.Inside s) ↔ WordsFit s cfg blkIdx wordEn is p.1 := by
  induction is generalizing p with
  | nil => exact iff_of_true nofun trivial
  | cons i is ih =>
    unfold wordsAt WordsFit
    by_cases hvalid : WordValid wordEn i
    swap
    · rw [if_neg hvalid, if_neg hvalid]; exact ih p
    rw [if_pos hvalid, if_pos hvalid]
    unfold wordAt
    dsimp only
    by_cases hlog : eepromIdx blkIdx i + 1 > s.logMapSize
    · rw [if_pos hlog]; exact iff_of_true nofun fun h => absurd h (Nat.not_le.mpr hlog)
    rw [if_neg hlog, imp_iff_right (Nat.not_lt.mp hlog)]
    by_cases hend : p.1 + 1 > s.phyMapSize - 1
    · rw [if_pos hend]
      dsimp only
      rw [byteAccesses_inside]
      exact and_congr_right fun _ => iff_of_true (by omega) fun h => by omega
    · rw [if_neg hend, if_neg (show ¬ p.1 + 2 > s.phyMapSize by omega)]
      dsimp only
      rw [List.forall_mem_append, List.forall_mem_append, byteAccesses_inside, byteAccesses_inside, ih,
        imp_iff_right (show p.1 + 1 < s.phyMapSize by omega)]
      constructor
      · rintro ⟨⟨⟨h1, -⟩, -, h2⟩, h3⟩; exact ⟨h1, h2, h3⟩
      · rintro ⟨h1, h2, h3⟩; exact ⟨⟨⟨h1, by omega⟩, fun _ => by omega, h2⟩, h3⟩

theorem headerAt_entry (h : (headerAt s phy idx).1 = .entry blkIdx wordEn idx') :
    phy idx ≠ 0xff ∧ (OneByte s phy idx ∧ idx' = idx + 1 ∨ ¬ OneByte s phy idx ∧ idx' = idx + 2) := by
  unfold headerAt at h
  dsimp only at h
  split at h
  · cases h
  rename_i hblank
  split at h
  · rename_i hone
    cases h
    exact ⟨hblank, Or.inl ⟨hone, rfl⟩⟩
  · rename_i hone
    refine ⟨hblank, Or.inr ⟨hone, ?_⟩⟩
    split at h
    · cases h
    · split at h
      · cases h; rfl
      · cases h; rfl

theorem headerAt_inside (hidx : idx < s.phyMapSize) :
    (∀ a ∈ (headerAt s phy idx).2, a.Inside s) ↔ (phy idx ≠ 0xff → OneByte s phy idx ∨ idx + 1 < s.phyMapSize) := by
  have htwo : (∀ a ∈ [MapAccess.readPhy idx, .readPhy (idx + 1)], a.Inside s) ↔ idx + 1 < s.phyMapSize := by
    rw [List.forall_mem_cons, List.forall_mem_singleton]; exact and_iff_right hidx
  unfold headerAt
  dsimp only
  by_cases hblank : phy idx = 0xff
  · rw [if_pos hblank]
    refine iff_of_true ?_ fun h => absurd hblank h
    rw [List.forall_mem_singleton]; exact hidx
  rw [if_neg hblank, imp_iff_right hblank]
  by_cases hone : OneByte s phy idx
  · rw [if_pos hone]
    refine iff_of_true ?_ (Or.inl hone)
    rw [List.forall_mem_singleton]; exact hidx
  · rw [if_neg hone, or_iff_right hone]
    split
    · exact htwo
    · split
      · exact htwo
      · exact htwo

theorem roundAt_inside (logMap : Bytes) :
    (∀ a ∈ (roundAt s cfg phy idx logMap).2, a.Inside s) ↔ PlaceFits s cfg phy idx := by
  unfold roundAt
  by_cases hidx : idx ≥ s.phyMapSize
  · rw [if_pos hidx]
    exact iff_of_true nofun ⟨fun h => absurd h (Nat.not_lt.mpr hidx), fun _ _ _ h => absurd h (Nat.not_lt.mpr hidx)⟩
  have hlt := Nat.not_le.mp hidx
  have hhead : (∀ a ∈ (headerAt s phy idx).2, a.Inside s) ↔ (phy idx ≠ 0xff → OneByte s phy idx ∨ idx + 1 < s.phyMapSize) :=
    headerAt_inside hlt
  rw [if_neg hidx]
  cases hr : headerAt s phy idx with
  | mk r acc =>
    rw [hr] at hhead
    have hsingle : ∀ {x : Found Bytes Parsed × List MapAccess}, x.2 = acc →
        (∀ blkIdx wordEn idx', r = .entry blkIdx wordEn idx' → s.phyMapSize - 1 ≤ idx') →
        ((∀ a ∈ x.2, a.Inside s) ↔ PlaceFits s cfg phy idx) := by
      intro x hx hno
      rw [hx, hhead]
      refine ⟨fun h => ⟨fun _ => h, fun blkIdx wordEn idx' _ he hend => ?_⟩, fun h => h.header hlt⟩
      rw [hr] at he; exact absurd hend (Nat.not_lt.mpr (hno _ _ _ he))
    cases r with
    | blank => exact hsingle rfl nofun
    | lone => exact hsingle rfl nofun
    | entry blkIdx wordEn idx' =>
      dsimp only
      by_cases hend : idx' ≥ s.phyMapSize - 1
      · rw [if_pos hend]
        refine hsingle rfl fun _ _ _ he => ?_
        cases he
        exact hend
      rw [if_neg hend]
      have hboth : ∀ {x : Found Bytes Parsed × List MapAccess},
          x.2 = acc ++ (wordsAt s cfg phy blkIdx wordEn [0, 1, 2, 3] (idx', logMap)).2 →
          ((∀ a ∈ x.2, a.Inside s) ↔ PlaceFits s cfg phy idx) := by
        intro x hx
        rw [hx, List.forall_mem_append, hhead, wordsAt_inside]
        constructor
        · rintro ⟨h1, h2⟩
          refine ⟨fun _ => h1, fun _ _ _ _ he _ => ?_⟩
          rw [hr] at he
          cases he
          exact h2
        · exact fun h => ⟨h.header hlt, h.words _ _ _ hlt (by rw [hr]) (Nat.not_le.mp hend)⟩
      generalize wordsAt s cfg phy blkIdx wordEn [0, 1, 2, 3] (idx', logMap) = y at hboth ⊢
      obtain ⟨y, acc'⟩ := y
      cases y with
      | none => exact hboth rfl
      | some q => exact hboth rfl

theorem roundAt_go (h : (roundAt s cfg phy idx logMap).1 = .go idx' logMap') : idx < idx' ∧ idx < s.phyMapSize := by
  unfold roundAt at h
  by_cases hidx : idx ≥ s.phyMapSize
  · rw [if_pos hidx] at h; cases h
  rw [if_neg hidx] at h
  refine ⟨?_, Nat.not_le.mp hidx⟩
  cases hr : headerAt s phy idx with
  | mk r acc =>
    rw [hr] at h
    cases r with
    | blank => cases h
    | lone => cases h
    | entry blkIdx wordEn idx₁ =>
      dsimp only at h
      have hpos : idx < idx₁ := by
        obtain ⟨-, ⟨-, h1⟩ | ⟨-, h1⟩⟩ := headerAt_entry (s := s) (by rw [hr]) <;> omega
      split at h
      · cases h
      · cases hw : wordsAt s cfg phy blkIdx wordEn [0, 1, 2, 3] (idx₁, logMap) with
        | mk y acc' =>
          rw [hw] at h
          cases y with
          | none => cases h
          | some q =>
            obtain ⟨h1, -⟩ := wordsAt_some (by rw [hw])
            cases h
            dsimp only at h1; omega

theorem roundAt_cutOff (hfits : PlaceFits s cfg phy idx) (hcut : CutOff s phy idx) (logMap : Bytes) :
    (roundAt s cfg phy idx logMap).1 = .fail := by
  obtain ⟨hidx, hblank, hcut⟩ := hcut
  rcases hcut with ⟨htwo, hend⟩ | ⟨blkIdx, wordEn, idx', he, hcut⟩
  · rcases hfits.header hidx hblank with hone | hlt
    · exact absurd hone htwo
    · omega
  unfold roundAt
  rw [if_neg (Nat.not_le.mpr hidx)]
  cases hr : headerAt s phy idx with
  | mk r acc =>
    rw [hr] at he
    cases he
    dsimp only
    split
    · rfl
    · cases hw : wordsAt s cfg phy blkIdx wordEn [0, 1, 2, 3] (idx', logMap) with
      | mk y acc' =>
        cases y with
        | none => rfl
        | some q =>
          obtain ⟨h1, h2⟩ := wordsAt_some (by rw [hw])
          dsimp only at h1 h2; omega

/-! ### The loop -/

theorem eepromLoop_some {fuel : ℕ} (hfuel : s.phyMapSize < fuel + idx) (hpos : 0 < fuel) (logMap : Bytes) :
    ∃ r, eepromLoop s cfg phy fuel idx logMap = some r := by
  induction fuel generalizing idx logMap with
  | zero => exact absurd hpos (Nat.lt_irrefl 0)
  | succ fuel ih =>
    unfold eepromLoop
    cases hr : roundAt s cfg phy idx logMap with
    | mk r acc =>
      cases r with
      | stop p => exact ⟨_, rfl⟩
      | fail => exact ⟨_, rfl⟩
      | go idx' logMap' =>
        obtain ⟨h1, h2⟩ := roundAt_go (s := s) (by rw [hr])
        obtain ⟨r, hr⟩ := ih (show s.phyMapSize < fuel + idx' by omega) (by omega) logMap'
        exact ⟨_, Option.map_eq_some_iff.mpr ⟨r, hr, rfl⟩⟩

theorem eepromLoop_inside {fuel : ℕ} (h : eepromLoop s cfg phy fuel idx logMap = some (r, acc)) :
    (∀ a ∈ acc, a.Inside s) ↔
      ∀ e log, Scans (fun idx logMap => (roundAt s cfg phy idx logMap).1) idx logMap e log → PlaceFits s cfg phy e := by
  induction fuel generalizing idx logMap r acc with
  | zero => cases h
  | succ fuel ih =>
    unfold eepromLoop at h
    have hround : (∀ a ∈ (roundAt s cfg phy idx logMap).2, a.Inside s) ↔ PlaceFits s cfg phy idx := roundAt_inside logMap
    cases hr : roundAt s cfg phy idx logMap with
    | mk x acc' =>
      rw [hr] at h hround
      have hlast : (∀ idx' logMap', x ≠ .go idx' logMap') → acc = acc' → ((∀ a ∈ acc, a.Inside s) ↔
          ∀ e log, Scans (fun idx logMap => (roundAt s cfg phy idx logMap).1) idx logMap e log → PlaceFits s cfg phy e) := by
        rintro hno rfl
        rw [hround]
        refine ⟨fun hfits e log hscans => ?_, fun h => h idx logMap (.refl idx logMap)⟩
        cases hscans with
        | refl => exact hfits
        | step hgo _ =>
          rw [hr] at hgo; exact absurd hgo (hno _ _)
      cases x with
      | stop p =>
        cases h
        exact hlast nofun rfl
      | fail =>
        cases h
        exact hlast nofun rfl
      | go idx' logMap' =>
        obtain ⟨⟨r', acc''⟩, hrest, he⟩ := Option.map_eq_some_iff.mp h
        cases he
        rw [List.forall_mem_append, hround, ih hrest]
        constructor
        · rintro ⟨hfits, hall⟩ e log hscans
          cases hscans with
          | refl => exact hfits
          | step hgo hscans =>
            rw [hr] at hgo
            cases hgo
            exact hall e log hscans
        · intro hall
          refine ⟨hall idx logMap (.refl idx logMap), fun e log hscans => hall e log (.step ?_ hscans)⟩
          rw [hr]

theorem eepromLoop_fail {fuel e : ℕ} {log : Bytes}
    (hscans : Scans (fun idx logMap => (roundAt s cfg phy idx logMap).1) idx logMap e log)
    (hfail : (roundAt s cfg phy e log).1 = .fail) (h : eepromLoop s cfg phy fuel idx logMap = some (r, acc)) : r = none := by
  induction hscans generalizing fuel r acc with
  | refl idx logMap =>
    cases fuel with
    | zero => cases h
    | succ fuel =>
      unfold eepromLoop at h
      cases hr : roundAt s cfg phy idx logMap with
      | mk x acc' =>
        rw [hr] at h hfail
        cases hfail
        cases h
        rfl
  | @step idx idx' e logMap logMap' log hgo _ ih =>
    cases fuel with
    | zero => cases h
    | succ fuel =>
      unfold eepromLoop at h
      cases hr : roundAt s cfg phy idx logMap with
      | mk x acc' =>
        rw [hr] at h hgo
        cases hgo
        obtain ⟨⟨r', acc''⟩, hrest, he⟩ := Option.map_eq_some_iff.mp h
        cases he
        exact ih hfail hrest

/-- **The parser stays in the maps, exactly where what it passes fits.** -/
theorem eeprom_safe_iff (s : MapSizes) (cfg : ParserCfg) (phy : Bytes) : ReadsSafely s cfg phy ↔ MapFits s cfg phy := by
  obtain ⟨⟨r, acc⟩, hrun⟩ : ∃ r, eepromRun s cfg phy = some r := eepromLoop_some (by omega) (by omega) _
  have hinside := eepromLoop_inside hrun
  constructor
  · rintro ⟨r', acc', hrun', hin, -⟩ idx ⟨logMap, hscans⟩
    cases hrun.symm.trans hrun'
    exact hinside.mp hin idx logMap hscans
  · intro hfits
    refine ⟨r, acc, hrun, hinside.mpr fun e log hscans => hfits e ⟨log, hscans⟩, ?_⟩
    rintro ⟨idx, ⟨logMap, hscans⟩, hcut⟩
    exact eepromLoop_fail hscans (roundAt_cutOff (hfits idx ⟨logMap, hscans⟩) hcut logMap) hrun

/-- **The run of the parser**: it ends, with the map that the scan of the bank finds. -/
theorem eepromRun_bank (b : Bank) (cfg : ParserCfg) (phy : Bytes) :
    (eepromRun b.sizes cfg phy).map (·.1) = some (eepromParser b cfg phy) := by
  obtain ⟨⟨r, acc⟩, hrun⟩ : ∃ r, eepromRun b.sizes cfg phy = some r := eepromLoop_some (by omega) (by omega) _
  rw [hrun, Option.map_some, eepromRun_eq b hrun]

/-- A map of 96 bytes: entries with no words, and one of two words at 92. -/
def lastWordMap : Bytes := fun i => if i = 93 then 0x0C else if i % 2 = 1 then 0x0F else 0x00

/-- The second word starts where the map ends. -/
theorem lastWord_outside : ¬ ReadsSafely ⟨96, 16, 1024, 4⟩ .map lastWordMap := by
  rintro ⟨r, acc, h, hin, -⟩
  have hmem : (eepromRun ⟨96, 16, 1024, 4⟩ .map lastWordMap).map (fun r => decide (.readPhy 96 ∈ r.2)) = some true := by
    decide
  rw [h, Option.map_some, Option.some.injEq, decide_eq_true_iff] at hmem
  exact absurd (hin _ hmem) (by decide)

end Rtl8852cu.Efuse
