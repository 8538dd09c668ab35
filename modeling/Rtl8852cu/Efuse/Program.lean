import Rtl8852cu.Efuse.Write

/-!
# Programming a map

`proc_pg_efuse_by_map`: the words of an image that a mask selects are appended to the physical map, an entry
for each block of eight bytes.  Words that the map has already are taken off the mask, the cells
that are left are counted, and then the entries are written.

A byte of a mask is for two blocks, the first one in its high half.  `pg_sim` is not set here.
-/

namespace Rtl8852cu.Efuse

/-- `struct mac_ax_pg_efuse_info`, with what the callers have checked of it. -/
structure PgEfuseInfo (b : Bank) where
  efuseMap : Bytes
  efuseMask : Bytes
  mapSize : ℕ
  /-- `efuse_map_size == bt_log_efuse_size`. -/
  isBt : Bool
  mapSize_dvd : 16 ∣ mapSize
  mapSize_le : mapSize ≤ b.logSize
  isBt_eq : isBt = b.isBt

variable {b : Bank} (info : PgEfuseInfo b)

/-! ### The mask -/

/-- `clr_bit`, of the word at `j` in 16 bytes. -/
def clrBit : ℕ → UInt8
  | 0 => 0x10
  | 2 => 0x20
  | 4 => 0x40
  | 6 => 0x80
  | 8 => 0x01
  | 10 => 0x02
  | 12 => 0x04
  | 14 => 0x08
  | _ => 0

/-- A round of the inner loop of `update_eeprom_mask`. -/
def clearWord (map maskMap : Bytes) (i : ℕ) (updatedMask : Bytes) (j : ℕ) : Bytes :=
  let mapOffset := i * 16 + j
  if info.efuseMap mapOffset = map mapOffset ∧ info.efuseMap (mapOffset + 1) = map (mapOffset + 1) ∧
      maskMap mapOffset = 0x00 then
    Function.update updatedMask i (updatedMask i &&& ~~~clrBit j)
  else updatedMask

def PgEfuseInfo.mask : Bytes := fun k => if k < info.mapSize / 16 then info.efuseMask k else 0x00

/-- The loops of `update_eeprom_mask`. -/
def clearMask (map maskMap : Bytes) : Bytes :=
  (List.range (info.mapSize / 16)).foldl
    (fun updatedMask i => [0, 2, 4, 6, 8, 10, 12, 14].foldl (clearWord info map maskMap i) updatedMask)
    info.mask

def updateEepromMask (s : EfuseParam) : MacStatus × EfuseParam × Bytes :=
  match s.readLogEfuseMap b with
  | (.success, s) =>
    match eepromParser b .mask s.phyMap with
    | none => (.efuseParse, s, fun _ => 0x00)
    | some p => (.success, { s with efuseEnd := p.efuseEnd }, clearMask info s.logMap p.log)
  | (ret, s) => (ret, s, fun _ => 0x00)

/-! ### The size -/

/-- `pre_word_en`, as `check_efuse_enough` takes it from the mask. -/
def preWordEnCk (updatedMask : Bytes) (i : ℕ) : UInt8 :=
  if i % 16 > 0 then updatedMask (i / 16) &&& 0x0F else updatedMask (i / 16) >>> 4

/-- What a block adds to `pg_num`. -/
def pgNumAdd (updatedMask : Bytes) (pgNum i : ℕ) : ℕ :=
  let preWordEn := preWordEnCk updatedMask (i * 8)
  if preWordEn > 0 then
    [0, 1, 2, 3].foldl (fun pgNum j => if (preWordEn >>> UInt8.ofNat j) &&& 0x1 > 0 then pgNum + 2 else pgNum)
      (pgNum + 2)
  else pgNum

def pgNum (updatedMask : Bytes) : ℕ :=
  (List.range (info.mapSize / 8)).foldl (pgNumAdd updatedMask) 0

def checkEfuseEnough (s : EfuseParam) (updatedMask : Bytes) : MacStatus :=
  if b.physSize < pgNum info updatedMask + s.efuseEnd then .efuseSize else .success

/-! ### The entries -/

def pgHeader (isBt : Bool) (eepromOffset : ℕ) (wordEn : UInt8) : List UInt8 :=
  if isBt then
    if eepromOffset < bt1bEntrySize then [(UInt8.ofNat (eepromOffset / 8) <<< 4) + wordEn]
    else
      let blkIdx := UInt8.ofNat (eepromOffset / 8 % 8 * 2)
      [(blkIdx <<< 4) ||| 0xF, (UInt8.ofNat (eepromOffset / 8 / 8) <<< 4) + wordEn]
  else
    let blk := UInt8.ofNat (eepromOffset / 8)
    [((blk &&& 0xF0) >>> 4) ||| 0x30, ((blk &&& 0x0F) <<< 4) + wordEn]

/-- The words of a block that go into its entry. -/
def pgWords (map : Bytes) (eepromOffset : ℕ) (preWordEn : UInt8) : List UInt8 :=
  [0, 1, 2, 3].flatMap fun i =>
    if (preWordEn >>> UInt8.ofNat i) &&& 0x1 > 0 then
      [map (eepromOffset + i * 2), map (eepromOffset + i * 2 + 1)]
    else []

def pgBytes (wordEn preWordEn : UInt8) (eepromOffset : ℕ) : List UInt8 :=
  pgHeader info.isBt eepromOffset wordEn ++ pgWords info.efuseMap eepromOffset preWordEn

def procPgEfuse (s : EfuseParam) (wordEn preWordEn : UInt8) (eepromOffset : ℕ) (ready : ℕ → Bool) :
    MacStatus × EfuseParam :=
  let bytes := pgBytes info wordEn preWordEn eepromOffset
  match s.writeBytes b s.efuseEnd bytes ready with
  | (.success, s') => (.success, { s' with efuseEnd := s.efuseEnd + bytes.length })
  | r => r

/-- `pre_word_en`, as `program_efuse` takes it from the mask. -/
def preWordEn (updatedMask : Bytes) (eepromOffset : ℕ) : UInt8 :=
  if eepromOffset / 8 % 2 > 0 then updatedMask (eepromOffset / 16) &&& 0x0F
  else updatedMask (eepromOffset / 16) >>> 4

/-- The loop of `program_efuse` over the blocks; `ready` goes on behind the bytes that were written. -/
def programBlocks (updatedMask : Bytes) : List ℕ → EfuseParam → (ℕ → Bool) → MacStatus × EfuseParam
  | [], s, _ => (.success, s)
  | i :: is, s, ready =>
    let preWordEn := preWordEn updatedMask (i * 8)
    let wordEn := preWordEn ^^^ 0x0F
    if preWordEn > 0 then
      match procPgEfuse info s wordEn preWordEn (i * 8) ready with
      | (.success, s') =>
        programBlocks updatedMask is s' fun k => ready (k + (s'.efuseEnd - s.efuseEnd))
      | r => r
    else programBlocks updatedMask is s ready

def programEfuse (s : EfuseParam) (updatedMask : Bytes) (ready : ℕ → Bool) : MacStatus × EfuseParam :=
  programBlocks info updatedMask (List.range (info.mapSize / 8)) s ready

def procPgEfuseByMap (s : EfuseParam) (ready : ℕ → Bool) : MacStatus × EfuseParam :=
  match updateEepromMask info s with
  | (.success, s, updatedMask) =>
    match checkEfuseEnough info s updatedMask with
    | .success => programEfuse info s updatedMask ready
    | ret => (ret, s)
  | (ret, s, _) => (ret, s)

end Rtl8852cu.Efuse
