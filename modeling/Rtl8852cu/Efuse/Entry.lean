import Rtl8852cu.Efuse.Program

/-!
# Entries

What the parser reads of an entry, for any words in it, and what a sequence of writes leaves in the cells.

* `readHeader_pgHeader`: a header is read as it was written;
* `readWords_overlay`: the words of an entry replace those of its block (`overlay`), and no others;
* `nextEntry_entry`: a round of the parser over an entry;
* `writeBytes_spec`: the cells behind a sequence of writes, also behind one that fails.
-/

namespace Rtl8852cu.Efuse

open Lib
open Function (update update_self update_of_ne)

def At (phy : Bytes) : ℕ → List UInt8 → Prop
  | _, [] => True
  | e, v :: vs => phy e = v ∧ At phy (e + 1) vs

theorem at_append {phy : Bytes} {e : ℕ} {vs ws : List UInt8} :
    At phy e (vs ++ ws) ↔ At phy e vs ∧ At phy (e + vs.length) ws := by
  induction vs generalizing e with
  | nil => exact (true_and _).symm.to_iff
  | cons v vs ih =>
    show phy e = v ∧ At phy (e + 1) (vs ++ ws) ↔ _
    rw [ih, ← and_assoc, List.length_cons, Nat.add_right_comm, Nat.add_assoc]; rfl

/-! ### Headers

What a header is made of and what is read of it, for all blocks and words. -/


theorem bt_header1 : ∀ n < 16, ∀ m < 15,
    let hdr := (UInt8.ofNat n <<< 4) + UInt8.ofNat m
    hdr ≠ 0xff ∧ hdr &&& 0xF ≠ 0xF ∧ (hdr &&& 0xF0) >>> 4 = UInt8.ofNat n ∧ hdr &&& 0x0F = UInt8.ofNat m := by decide

theorem wlan_header {n m : ℕ} (hn : n < 256) (hm : m < 15) :
    let blk := UInt8.ofNat n
    let hdr := ((blk &&& 0xF0) >>> 4) ||| 0x30
    let hdr2 := ((blk &&& 0x0F) <<< 4) + UInt8.ofNat m
    hdr ≠ 0xff ∧ hdr2 ≠ 0xff ∧ ((hdr2 &&& 0xF0) >>> 4) ||| ((hdr &&& 0x0F) <<< 4) = blk ∧
      hdr2 &&& 0x0F = UInt8.ofNat m := by
  have hfirst : ∀ n < 256,
      let hdr := ((UInt8.ofNat n &&& 0xF0) >>> 4) ||| 0x30
      hdr ≠ 0xff ∧ UInt8.ofNat n &&& 0x0F = UInt8.ofNat (n % 16) ∧
        UInt8.ofNat (n % 16) ||| ((hdr &&& 0x0F) <<< 4) = UInt8.ofNat n := by decide +kernel
  obtain ⟨hne, hlow, hblk⟩ := hfirst n hn
  obtain ⟨hne2, -, hhigh, hmask⟩ := bt_header1 (n % 16) (Nat.mod_lt _ (by omega)) m hm
  simp only at *
  rw [hlow, hhigh]; exact ⟨hne, hne2, hblk, hmask⟩


theorem bt_header2 {n m : ℕ} (hn : n < 128) (hm : m < 15) :
    let hdr := (UInt8.ofNat (n % 8 * 2) <<< 4) ||| 0xF
    let hdr2 := (UInt8.ofNat (n / 8) <<< 4) + UInt8.ofNat m
    hdr ≠ 0xff ∧ hdr &&& 0xF = 0xF ∧ hdr2 ≠ 0xff ∧
      (((hdr2 &&& 0xF0) >>> 4) <<< 3) + (((hdr &&& 0xF0) >>> 4) >>> 1) = UInt8.ofNat n ∧
      hdr2 &&& 0x0F = UInt8.ofNat m := by
  have hfirst : ∀ n < 128,
      let hdr := (UInt8.ofNat (n % 8 * 2) <<< 4) ||| 0xF
      hdr ≠ 0xff ∧ hdr &&& 0xF = 0xF ∧
        (UInt8.ofNat (n / 8) <<< 3) + (((hdr &&& 0xF0) >>> 4) >>> 1) = UInt8.ofNat n := by decide
  obtain ⟨hne, hone, hblk⟩ := hfirst n hn
  obtain ⟨hne2, -, hhigh, hmask⟩ := bt_header1 (n / 8) (by omega) m hm
  simp only at *
  rw [hhigh]; exact ⟨hne, hone, hne2, hblk, hmask⟩

variable {b : Bank} {phy phy' : Bytes} {e offset : ℕ} {wordEn : UInt8}

theorem readHeader_pgHeader (hoff : offset < b.logSize) (hen : wordEn < 0x0F)
    (hat : At phy e (pgHeader b.isBt offset wordEn)) :
    readHeader b phy e = .entry (UInt8.ofNat (offset / 8)) wordEn
      (e + (pgHeader b.isBt offset wordEn).length) := by
  have hlog := b.logSize_le
  have hm : wordEn.toNat < 15 := hen
  have hofNat : UInt8.ofNat wordEn.toNat = wordEn := UInt8.ofNat_toNat
  unfold pgHeader at hat ⊢
  simp only at hat ⊢
  by_cases hbt : b.isBt
  · rw [if_pos hbt] at hlog
    by_cases h1 : offset < bt1bEntrySize
    · have hn : offset / 8 < 16 := Nat.div_lt_of_lt_mul h1
      obtain ⟨hne, hone, hblk, hmask⟩ := bt_header1 _ hn _ hm
      rw [hofNat] at hne hone hblk hmask
      rw [if_pos hbt, if_pos h1] at hat ⊢
      unfold readHeader
      simp only
      rw [hat.1, if_neg hne, if_pos ⟨hbt, hone⟩, hblk, hmask]; rfl
    · have hn : offset / 8 < 128 := by omega
      obtain ⟨hne, hone, hne2, hblk, hmask⟩ := bt_header2 hn hm
      rw [hofNat] at hne2 hblk hmask
      rw [if_pos hbt, if_neg h1] at hat ⊢
      unfold readHeader
      simp only
      rw [hat.1, if_neg hne, if_neg fun h => h.2 hone, hat.2.1, if_neg hne2, if_pos hbt, hblk, hmask]
      rfl
  · rw [if_neg hbt] at hlog
    have hn : offset / 8 < 256 := by omega
    obtain ⟨hne, hne2, hblk, hmask⟩ := wlan_header hn hm
    rw [hofNat] at hne2 hblk hmask
    rw [if_neg hbt] at hat ⊢
    unfold readHeader
    simp only
    rw [hat.1, if_neg hne, if_neg fun h => hbt h.1, hat.2.1, if_neg hne2, if_neg hbt, hblk, hmask]
    rfl

theorem pgHeader_length (isBt : Bool) (offset : ℕ) (wordEn : UInt8) :
    0 < (pgHeader isBt offset wordEn).length ∧ (pgHeader isBt offset wordEn).length ≤ 2 := by
  unfold pgHeader
  simp only
  split
  · split <;> simp
  · simp

/-! ### Words -/

/-- The word `i` is in an entry. -/
def Present (wordEn : UInt8) (i : ℕ) : Prop := (wordEn >>> UInt8.ofNat i) &&& 1 = 0

instance (wordEn : UInt8) (i : ℕ) : Decidable (Present wordEn i) :=
  inferInstanceAs (Decidable (_ = _))

def wordCells (wordEn : UInt8) : List ℕ → ℕ
  | [] => 0
  | i :: is => if Present wordEn i then wordCells wordEn is + 2 else wordCells wordEn is

/-- A map with the words of an entry in it, from the cells `idx` on. -/
def overlay (phy : Bytes) (blk : ℕ) (wordEn : UInt8) : List ℕ → ℕ → Bytes → Bytes
  | [], _, log => log
  | i :: is, idx, log =>
    if Present wordEn i then
      overlay phy blk wordEn is (idx + 2)
        (update (update log (blk * 8 + i * 2) (phy idx)) (blk * 8 + i * 2 + 1)
          (phy (idx + 1)))
    else overlay phy blk wordEn is idx log

variable {idx : ℕ} {log : Bytes}

theorem readWord_fits {blkIdx : UInt8} {i : ℕ}
    (hlog : blkIdx.toNat * 8 + i * 2 < b.logSize) (hidx : idx + 2 ≤ b.physSize) :
    readWord b .map phy blkIdx i (idx, log) = some (idx + 2,
      update (update log (blkIdx.toNat * 8 + i * 2) (phy idx))
        (blkIdx.toNat * 8 + i * 2 + 1) (phy (idx + 1))) := by
  unfold readWord
  simp only
  rw [if_neg (by omega), if_neg (by omega), if_neg (by omega)]; rfl

theorem readWords_overlay {blkIdx : UInt8} (is : List ℕ)
    (hlog : ∀ i ∈ is, Present wordEn i → blkIdx.toNat * 8 + i * 2 < b.logSize)
    (hidx : idx + wordCells wordEn is ≤ b.physSize) :
    readWords b .map phy blkIdx wordEn is (idx, log) =
      some (idx + wordCells wordEn is, overlay phy blkIdx.toNat wordEn is idx log) := by
  induction is generalizing idx log with
  | nil => rfl
  | cons i is ih =>
    have hlog' := fun j hj => hlog j (List.mem_cons_of_mem i hj)
    unfold readWords overlay
    unfold wordCells at hidx ⊢
    by_cases hp : Present wordEn i
    · have hvalid : (wordEn >>> UInt8.ofNat i) &&& 1 = 0 := hp
      rw [if_pos hp] at hidx
      rw [if_pos hp, if_pos hp, if_pos hvalid, readWord_fits (hlog i List.mem_cons_self hp) (by omega)]
      simp only
      rw [ih hlog' (by omega), Nat.add_assoc, Nat.add_comm 2]
    · have hvalid : ¬ (wordEn >>> UInt8.ofNat i) &&& 1 = 0 := hp
      rw [if_neg hp] at hidx
      rw [if_neg hp, if_neg hp, if_neg hvalid]; exact ih hlog' hidx

theorem overlay_other {blk : ℕ} {is : List ℕ} {a : ℕ} (h : ∀ i ∈ is, Present wordEn i → a / 2 ≠ blk * 4 + i) :
    overlay phy blk wordEn is idx log a = log a := by
  induction is generalizing idx log with
  | nil => rfl
  | cons i is ih =>
    have h' := fun j hj => h j (List.mem_cons_of_mem i hj)
    unfold overlay
    by_cases hp : Present wordEn i
    · have hne := h i List.mem_cons_self hp
      rw [if_pos hp, ih h', update_of_ne (by omega), update_of_ne (by omega)]
    · rw [if_neg hp]; exact ih h'

def wordsOf (map : Bytes) (blk : ℕ) (wordEn : UInt8) (is : List ℕ) : List UInt8 :=
  is.flatMap fun i =>
    if Present wordEn i then [map (blk * 8 + i * 2), map (blk * 8 + i * 2 + 1)] else []

theorem wordsOf_length (map : Bytes) (blk : ℕ) (is : List ℕ) :
    (wordsOf map blk wordEn is).length = wordCells wordEn is := by
  induction is with
  | nil => rfl
  | cons i is ih =>
    unfold wordsOf at ih ⊢
    unfold wordCells
    rw [List.flatMap_cons, List.length_append, ih]
    split
    · exact Nat.add_comm _ _
    · exact Nat.zero_add _

theorem overlay_wordsOf {map : Bytes} {blk : ℕ} {is : List ℕ} (hat : At phy idx (wordsOf map blk wordEn is)) (a : ℕ) :
    overlay phy blk wordEn is idx log a =
      if ∃ i ∈ is, Present wordEn i ∧ a / 2 = blk * 4 + i then map a else log a := by
  induction is generalizing idx log with
  | nil => exact (if_neg fun ⟨_, hi, _⟩ => nomatch hi).symm
  | cons i is ih =>
    unfold overlay
    unfold wordsOf at hat
    rw [List.flatMap_cons] at hat
    by_cases hp : Present wordEn i
    · rw [if_pos hp] at hat
      obtain ⟨h0, h1, hrest⟩ := hat
      rw [if_pos hp, ih hrest]
      by_cases hlater : ∃ j ∈ is, Present wordEn j ∧ a / 2 = blk * 4 + j
      · obtain ⟨j, hj, hpj, heq⟩ := hlater
        rw [if_pos ⟨j, hj, hpj, heq⟩, if_pos ⟨j, List.mem_cons_of_mem i hj, hpj, heq⟩]
      · rw [if_neg hlater]
        by_cases ha : a / 2 = blk * 4 + i
        · rw [if_pos ⟨i, List.mem_cons_self, hp, ha⟩]
          have hcase : a = blk * 8 + i * 2 ∨ a = blk * 8 + i * 2 + 1 := by omega
          cases hcase with
          | inl heq =>
            subst heq
            rw [update_of_ne (by omega), update_self, h0]
          | inr heq =>
            subst heq
            rw [update_self, h1]
        · rw [update_of_ne (by omega), update_of_ne (by omega), if_neg]
          rintro ⟨j, hj, hpj, heq⟩
          cases hj with
          | head => exact ha heq
          | tail _ hj => exact hlater ⟨j, hj, hpj, heq⟩
    · rw [if_neg hp] at hat
      rw [if_neg hp, ih hat]
      refine if_congr ⟨?_, ?_⟩ rfl rfl
      · exact fun ⟨j, hj, h⟩ => ⟨j, List.mem_cons_of_mem i hj, h⟩
      · rintro ⟨j, hj, hpj, heq⟩
        cases hj with
        | head => exact absurd hpj hp
        | tail _ hj => exact ⟨j, hj, hpj, heq⟩

theorem four_words : ∀ i < 4, i ∈ [0, 1, 2, 3] := by decide

theorem wordCells_pos (hen : wordEn < 0x0F) : 2 ≤ wordCells wordEn [0, 1, 2, 3] := by
  have hall : ∀ m < 15, 2 ≤ wordCells (UInt8.ofNat m) [0, 1, 2, 3] := by decide
  have h := hall wordEn.toNat hen
  rwa [UInt8.ofNat_toNat] at h

theorem nextEntry_entry {blk : ℕ} (hoff : offset < b.logSize) (hblk : offset / 8 = blk)
    (hen : wordEn < 0x0F) (hat : At phy e (pgHeader b.isBt offset wordEn))
    (hwords : ∀ i < 4, Present wordEn i → blk * 8 + i * 2 < b.logSize)
    (hsize : e + (pgHeader b.isBt offset wordEn).length + wordCells wordEn [0, 1, 2, 3] ≤ b.physSize)
    (log : Bytes) :
    nextEntry b .map phy e log = .go
      (e + (pgHeader b.isBt offset wordEn).length + wordCells wordEn [0, 1, 2, 3])
      (overlay phy blk wordEn [0, 1, 2, 3] (e + (pgHeader b.isBt offset wordEn).length) log) := by
  have hpos := (pgHeader_length b.isBt offset wordEn).1
  have hcells := wordCells_pos hen
  have hblkIdx : (UInt8.ofNat (offset / 8)).toNat = blk := by
    have hlog := b.logSize_le
    rw [UInt8.toNat_ofNat', hblk]
    refine Nat.mod_eq_of_lt ?_
    split at hlog <;> omega
  unfold nextEntry
  rw [if_neg (by omega), readHeader_pgHeader hoff hen hat]
  simp only
  rw [if_neg (by omega), readWords_overlay [0, 1, 2, 3] (fun i hi hp => ?_) hsize, hblkIdx]
  rw [hblkIdx]; exact hwords i (List.mem_range.mp hi) hp

/-- The parser has come to `e`, with `log`. -/
abbrev Logged (b : Bank) (phy : Bytes) (e : ℕ) (log : Bytes) : Prop :=
  Scans (nextEntry b .map phy) b.secCtrl (fun _ => 0xFF) e log

theorem Logged.keep (h : Logged b phy e log) (hsame : ∀ i < e, phy' i = phy i) : Logged b phy' e log :=
  h.congr (fun _ _ _ _ hgo => (nextEntry_go phy' hgo).1)
    fun _ _ _ _ hgo hle => (nextEntry_go phy' hgo).2.2 fun i hi =>
      hsame i (Nat.lt_of_lt_of_le hi hle)

theorem nextEntry_blank (h : b.physSize ≤ e ∨ phy e = 0xFF) (log : Bytes) :
    nextEntry b .map phy e log = .stop ⟨log, e, false⟩ := by
  unfold nextEntry
  by_cases hsize : b.physSize ≤ e
  · exact if_pos hsize
  · rw [if_neg hsize]
    unfold readHeader
    simp only
    rw [if_pos (h.resolve_left hsize)]

theorem Logged.parser (h : Logged b phy e log) (hend : b.physSize ≤ e ∨ phy e = 0xFF) :
    eepromParser b .map phy = some ⟨log, e, false⟩ :=
  eepromParser_of_scans h (nextEntry_blank hend log)

theorem logged_of_parsed {p : Parsed} (h : eepromParser b .map phy = some p) (hlone : p.lone = false) :
    Logged b phy p.efuseEnd p.log := by
  obtain ⟨e, hscans, hstop⟩ := eepromParser_eq_some h
  rw [(nextEntry_stop hstop).2 hlone]; exact hscans

/-! ### Cells -/

namespace EfuseParam

variable {s : EfuseParam}

theorem addr_inj {i j : ℕ} (hi : i < b.physSize) (hj : j < b.physSize) (h : addr b i = addr b j) : i = j := by
  have hle := b.physSize_le
  unfold addr at h; omega

theorem readHwEfuse_update (s : EfuseParam) (value : UInt8) (hoff : offset < b.physSize) :
    readHwEfuse b { s with hw := update s.hw (addr b offset) value } =
      update (s.readHwEfuse b) offset value := by
  funext i
  unfold readHwEfuse
  by_cases hi : i = offset
  · subst hi; simp [hoff]
  · rw [update_of_ne hi]
    by_cases hlt : i < b.physSize
    · rw [if_pos hlt, if_pos hlt]; exact update_of_ne (fun heq => hi (addr_inj hlt hoff heq)) _ _
    · rw [if_neg hlt, if_neg hlt]

theorem writeHwEfuse_spec (s : EfuseParam) (offset : ℕ) (value : UInt8) (ready : Bool) :
    (s.writeHwEfuse b offset value ready).2 = { s with
      phyMapValid := false
      logMapValid := false
      hw := if ready then update s.hw (addr b offset) value else s.hw } := by
  unfold writeHwEfuse
  cases ready with
  | true =>
    simp only [Bool.not_true, Bool.false_and, Bool.false_eq_true, if_false, if_true]
    split <;> rfl
  | false =>
    simp only [Bool.false_eq_true, if_false]
    split
    · rfl
    · split <;> rfl

theorem writeHwEfuse_success {value : UInt8} {ready : Bool}
    (h : (s.writeHwEfuse b offset value ready).1 = .success) : ready ∨ b.dav := by
  unfold writeHwEfuse at h
  split at h
  · cases h
  · rename_i hready
    simpa [or_iff_not_imp_left] using hready

variable {ready : ℕ → Bool}

theorem writeBytes_go {v : UInt8} {vs : List UInt8} (h : (s.writeHwEfuse b offset v (ready 0)).1 = .success) :
    s.writeBytes b offset (v :: vs) ready =
      (s.writeHwEfuse b offset v (ready 0)).2.writeBytes b (offset + 1) vs fun k => ready (k + 1) := by
  rw [writeBytes]
  generalize s.writeHwEfuse b offset v (ready 0) = r at h ⊢
  obtain ⟨ret, s₁⟩ := r
  subst h; rfl

theorem writeBytes_stop {v : UInt8} {vs : List UInt8} (h : (s.writeHwEfuse b offset v (ready 0)).1 ≠ .success) :
    s.writeBytes b offset (v :: vs) ready = s.writeHwEfuse b offset v (ready 0) := by
  rw [writeBytes]
  generalize s.writeHwEfuse b offset v (ready 0) = r at h ⊢
  obtain ⟨ret, s₁⟩ := r
  cases ret with
  | success => exact absurd rfl h
  | efuseParse | efuseSize | efuseWrite => rfl

/-- How many of the bytes are in their cells in the end. -/
def bytesTaken (b : Bank) : EfuseParam → ℕ → List UInt8 → (ℕ → Bool) → ℕ
  | _, _, [], _ => 0
  | s, offset, v :: vs, ready =>
    (if ready 0 then 1 else 0) + if (s.writeHwEfuse b offset v (ready 0)).1 = .success then
        bytesTaken b (s.writeHwEfuse b offset v (ready 0)).2 (offset + 1) vs fun k => ready (k + 1)
      else 0

theorem writeBytes_spec (s : EfuseParam) (vs : List UInt8)
    (hdav : b.dav → ∀ k, ready k) (hoff : offset + vs.length ≤ b.physSize) :
    s.bytesTaken b offset vs ready ≤ vs.length ∧ ((s.writeBytes b offset vs ready).1 = .success →
        s.bytesTaken b offset vs ready = vs.length) ∧
      (vs ≠ [] → (s.writeBytes b offset vs ready).2.phyMapValid = false ∧
        (s.writeBytes b offset vs ready).2.logMapValid = false) ∧
      At ((s.writeBytes b offset vs ready).2.readHwEfuse b) offset
        (vs.take (s.bytesTaken b offset vs ready)) ∧
      ∀ i, i < offset ∨ offset + s.bytesTaken b offset vs ready ≤ i →
        (s.writeBytes b offset vs ready).2.readHwEfuse b i = s.readHwEfuse b i := by
  induction vs generalizing s offset ready with
  | nil => exact ⟨Nat.le_refl _, fun _ => rfl, fun h => absurd rfl h, trivial, fun _ _ => rfl⟩
  | cons v vs ih =>
    rw [List.length_cons] at hoff ⊢
    rw [bytesTaken]
    have hspec : (s.writeHwEfuse b offset v (ready 0)).2 = _ := writeHwEfuse_spec s offset v (ready 0)
    have hread : ready 0 → (s.writeHwEfuse b offset v (ready 0)).2.readHwEfuse b =
        update (s.readHwEfuse b) offset v := by
      intro hready
      rw [hspec, if_pos hready]; exact readHwEfuse_update s v (by omega)
    by_cases hret : (s.writeHwEfuse b offset v (ready 0)).1 = .success
    · have hready : ready 0 := (writeHwEfuse_success hret).elim id fun h => hdav h 0
      rw [writeBytes_go hret, if_pos hret, if_pos hready, Nat.add_comm 1]
      obtain ⟨hn, hall, hvalid, hat, hsame⟩ := ih (s.writeHwEfuse b offset v (ready 0)).2
        (fun h k => hdav h (k + 1)) (by omega : offset + 1 + vs.length ≤ b.physSize)
      refine ⟨by omega, fun h => by rw [hall h], fun _ => ?_, ⟨?_, hat⟩, fun i hi => ?_⟩
      · by_cases hvs : vs = []
        · subst hvs
          unfold writeBytes
          rw [hspec]; exact ⟨rfl, rfl⟩
        · exact hvalid hvs
      · rw [hsame offset (.inl (Nat.lt_succ_self _)), hread hready, update_self]
      · rw [hsame i (by omega), hread hready, update_of_ne (by omega)]
    · rw [writeBytes_stop hret, if_neg hret, Nat.add_zero]
      have hflags : (s.writeHwEfuse b offset v (ready 0)).2.phyMapValid = false ∧
          (s.writeHwEfuse b offset v (ready 0)).2.logMapValid = false := by
        rw [hspec]; exact ⟨rfl, rfl⟩
      by_cases hready : ready 0
      · -- the comparison failed: the byte is in its cell
        rw [if_pos hready]
        refine ⟨by omega, fun h => absurd h hret, fun _ => hflags, ⟨?_, trivial⟩, fun i hi => ?_⟩
        · rw [hread hready, update_self]
        · rw [hread hready, update_of_ne (by omega)]
      · rw [if_neg hready]
        refine ⟨by omega, fun h => absurd h hret, fun _ => hflags, trivial, fun i _ => ?_⟩
        rw [hspec, if_neg hready]; rfl

end EfuseParam

end Rtl8852cu.Efuse
