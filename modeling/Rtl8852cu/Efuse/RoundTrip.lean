import Rtl8852cu.Efuse.Entry
import Rtl8852cu.Lib.Reach

/-!
# What was written is read

* `headerBytes_eq`, `wordBytes_eq`: a write appends an entry with one word, that of its byte;
* `Coherent`: the maps in memory are what the hardware has;
* `write_spec`, `writes_spec`: a write changes its byte of the logical map, and so on for all writes of a run.
-/

namespace Rtl8852cu.Efuse

open Lib
open Function (update update_self update_of_ne)

variable {b : Bank} {offset : ℕ}

/-! ### The entry of a byte -/

theorem bt_blkIdx : ∀ n < 8,
    let hdr : UInt8 := UInt8.ofNat (n * 2) <<< 4
    hdr + 0xF = hdr ||| 0xF := by decide

theorem headerBytes_eq (b : Bank) (offset : ℕ) : headerBytes b offset =
    pgHeader b.isBt offset (oneWordEn (UInt8.ofNat (offset % 8 / 2))) := by
  unfold headerBytes pgHeader
  simp only
  rw [bt_blkIdx (offset / 8 % 8) (Nat.mod_lt _ (by decide))]

theorem oneWordEn_bit : ∀ k < 4, ∀ i < 4, (Present (oneWordEn (UInt8.ofNat k)) i ↔ i = k) := by
  decide

theorem oneWordEn_lt : ∀ k < 4, oneWordEn (UInt8.ofNat k) < 0x0F := by decide

theorem oneWordEn_cells : ∀ k < 4, wordCells (oneWordEn (UInt8.ofNat k)) [0, 1, 2, 3] = 2 := by
  decide

theorem wordBytes_eq (map : Bytes) (offset : ℕ) (value : UInt8) : wordBytes map offset value =
    wordsOf (update map offset value) (offset / 8) (oneWordEn (UInt8.ofNat (offset % 8 / 2)))
      [0, 1, 2, 3] := by
  have hk : offset % 8 / 2 < 4 := by omega
  have hone : wordsOf (update map offset value) (offset / 8)
      (oneWordEn (UInt8.ofNat (offset % 8 / 2))) [0, 1, 2, 3] =
        [update map offset value (offset / 8 * 8 + offset % 8 / 2 * 2),
          update map offset value (offset / 8 * 8 + offset % 8 / 2 * 2 + 1)] := by
    unfold wordsOf
    generalize offset % 8 / 2 = k at hk ⊢
    have hbit := oneWordEn_bit k hk
    simp only [List.flatMap_cons, List.flatMap_nil, hbit 0 (by decide), hbit 1 (by decide),
      hbit 2 (by decide), hbit 3 (by decide)]
    have hcase : k = 0 ∨ k = 1 ∨ k = 2 ∨ k = 3 := by omega
    obtain rfl | rfl | rfl | rfl := hcase <;> rfl
  have hword : offset / 8 * 8 + offset % 8 / 2 * 2 = offset - offset % 2 := by omega
  rw [hone, hword]
  unfold wordBytes
  by_cases h0 : offset % 2 = 0
  · rw [if_pos h0, h0, Nat.sub_zero, update_self, update_of_ne (by omega)]
  · have h1 : offset % 2 = 1 := by omega
    have hsucc : offset - 1 + 1 = offset := by omega
    rw [if_neg h0, h1, hsucc, update_self, update_of_ne (by omega)]

theorem overlay_oneWord {phy : Bytes} {idx : ℕ} {log : Bytes} {value : UInt8}
    (hat : At phy idx (wordBytes log offset value)) :
    overlay phy (offset / 8) (oneWordEn (UInt8.ofNat (offset % 8 / 2))) [0, 1, 2, 3] idx log =
      update log offset value := by
  rw [wordBytes_eq] at hat
  funext a
  rw [overlay_wordsOf hat]
  split
  · rfl
  · rename_i hother
    rw [update_of_ne]
    rintro rfl
    have hk : a % 8 / 2 < 4 := by omega
    exact hother ⟨a % 8 / 2, four_words _ hk, (oneWordEn_bit _ hk _ hk).mpr rfl, by omega⟩

theorem headerBytes_length (b : Bank) (offset : ℕ) :
    0 < (headerBytes b offset).length ∧ (headerBytes b offset).length ≤ 2 := by
  rw [headerBytes_eq]; exact pgHeader_length _ _ _

theorem wordBytes_length (log : Bytes) (offset : ℕ) (value : UInt8) : (wordBytes log offset value).length = 2 := by
  unfold wordBytes
  split <;> rfl

theorem logged_append {phy phy' : Bytes} {e : ℕ} {log : Bytes} (h : Logged b phy e log)
    (hoff : offset < b.logSize) {value : UInt8} (hsize : e + 4 < b.physSize)
    (hsame : ∀ i < e, phy' i = phy i)
    (hat : At phy' e (headerBytes b offset ++ wordBytes log offset value)) :
    Logged b phy' (e + (headerBytes b offset).length + 2) (update log offset value) := by
  have hk : offset % 8 / 2 < 4 := by omega
  have hlen := (headerBytes_length b offset).2
  obtain ⟨hhead, hword⟩ := at_append.mp hat
  rw [headerBytes_eq] at hhead hword hlen ⊢
  have hgo := nextEntry_entry hoff rfl (oneWordEn_lt _ hk) hhead
    (fun i hi hp => by rw [(oneWordEn_bit _ hk i hi).mp hp]; omega)
    (by rw [oneWordEn_cells _ hk]; omega) log
  rw [oneWordEn_cells _ hk, overlay_oneWord hword] at hgo
  exact (h.keep hsame).trans (.step hgo (.refl _ _))

namespace EfuseParam

variable {s : EfuseParam}

/-- What the parser reads of the hardware. -/
def parsed (b : Bank) (s : EfuseParam) : Option Parsed := eepromParser b .map (s.readHwEfuse b)

/-- The maps in memory are those of the hardware. -/
structure Coherent (b : Bank) (s : EfuseParam) : Prop where
  phy : s.phyMapValid → s.phyMap = s.readHwEfuse b
  log : s.logMapValid → ∃ p, s.parsed b = some p ∧ p.log = s.logMap ∧ p.efuseEnd = s.efuseEnd

theorem readLogEfuseMap_spec (hc : s.Coherent b) {p : Parsed} (hp : s.parsed b = some p) :
    ∃ s', s.readLogEfuseMap b = (.success, s') ∧ s'.Coherent b ∧
      s'.readHwEfuse b = s.readHwEfuse b ∧ s'.logMap = p.log ∧ s'.efuseEnd = p.efuseEnd := by
  unfold readLogEfuseMap
  by_cases hlog : s.logMapValid
  · rw [if_pos hlog]
    obtain ⟨p', hp', hplog, hpend⟩ := hc.log hlog
    rw [hp, Option.some.injEq] at hp'
    subst hp'; exact ⟨s, rfl, hc, rfl, hplog.symm, hpend.symm⟩
  · rw [if_neg hlog]
    simp only
    generalize hs₁ : (if s.phyMapValid then s
      else { s with phyMap := s.readHwEfuse b, phyMapValid := true }) = s₁
    have hphy : s₁.phyMap = s.readHwEfuse b ∧ s₁.readHwEfuse b = s.readHwEfuse b := by
      rw [← hs₁]
      by_cases hv : s.phyMapValid
      · rw [if_pos hv]; exact ⟨hc.phy hv, rfl⟩
      · rw [if_neg hv]; exact ⟨rfl, rfl⟩
    have hp₁ : eepromParser b .map s₁.phyMap = some p := by
      rw [hphy.1]; exact hp
    rw [hp₁]
    refine ⟨_, rfl, ⟨fun _ => ?_, fun _ => ⟨p, ?_, rfl, rfl⟩⟩, hphy.2, rfl, rfl⟩
    · exact hphy.1.trans hphy.2.symm
    · show eepromParser b .map (s₁.readHwEfuse b) = some p
      rw [hphy.2]; exact hp

/-! ### Writes -/

/-- A write that changes its byte appends where a header goes, with a blank behind its entry: the parser was not left
between the two bytes of a header. -/
def Appends (b : Bank) (s : EfuseParam) (w : LogWrite) : Prop :=
  ∀ p, s.parsed b = some p → p.log w.offset ≠ w.value → p.lone = false ∧
      s.readHwEfuse b (p.efuseEnd + (headerBytes b w.offset).length + 2) = 0xFF

theorem write_spec (hc : s.Coherent b) {p : Parsed} (hp : s.parsed b = some p) {w : LogWrite}
    (hoff : w.offset < b.logSize) (hdav : b.dav → ∀ k, w.ready k)
    (hok : (procWriteLogEfuse b s w).1 = .success) (happ : s.Appends b w) :
    (procWriteLogEfuse b s w).2.Coherent b ∧ ∃ p', (procWriteLogEfuse b s w).2.parsed b = some p' ∧
        p'.log = update p.log w.offset w.value := by
  obtain ⟨s₁, hs₁, hc₁, hread, hlog, hend⟩ := readLogEfuseMap_spec hc hp
  unfold procWriteLogEfuse at hok ⊢
  rw [hs₁] at hok ⊢
  simp only at hok ⊢
  have hp₁ : s₁.parsed b = some p := by
    unfold parsed
    rw [hread]; exact hp
  by_cases hsame : s₁.logMap w.offset = w.value
  · rw [if_pos hsame]
    refine ⟨hc₁, p, hp₁, ?_⟩
    rw [hlog] at hsame
    rw [← hsame, Function.update_eq_self]
  · rw [if_neg hsame] at hok ⊢
    split at hok
    · cases hok
    · rename_i hsize
      rw [if_neg hsize]
      rw [hlog] at hsame
      obtain ⟨hlone, hblank⟩ := happ p hp hsame
      rw [hlog] at hok ⊢
      rw [hend] at hok hsize ⊢
      have hlen := (headerBytes_length b w.offset).2
      have hlen' : (headerBytes b w.offset ++ wordBytes p.log w.offset w.value).length =
          (headerBytes b w.offset).length + 2 := by
        rw [List.length_append, wordBytes_length]
      obtain ⟨-, hall, hvalid, hat, hkeep⟩ := writeBytes_spec s₁
        (headerBytes b w.offset ++ wordBytes p.log w.offset w.value) hdav
        (by rw [hlen']; omega : p.efuseEnd + (headerBytes b w.offset ++
          wordBytes p.log w.offset w.value).length ≤ b.physSize)
      obtain ⟨hphy', hlog'⟩ := hvalid (List.ne_nil_of_length_pos (by rw [hlen']; omega))
      rw [hall hok, List.take_length] at hat
      rw [hall hok, hlen'] at hkeep
      have hlogged := logged_append (logged_of_parsed hp hlone) hoff (by omega)
        (fun i hi => by rw [hkeep i (.inl hi), hread]) hat
      refine ⟨⟨fun hv => ?_, fun hv => ?_⟩, _, hlogged.parser (.inr ?_), rfl⟩
      · exact nomatch hphy'.symm.trans hv
      · exact nomatch hlog'.symm.trans hv
      · rw [hkeep _ (.inr (by omega)), hread]; exact hblank

def step (b : Bank) (s : EfuseParam) (w : LogWrite) : EfuseParam := (procWriteLogEfuse b s w).2

/-- A write below the size of the logical map that succeeds, with all its cells, and appends. -/
def Writes (b : Bank) (s : EfuseParam) (w : LogWrite) : Prop :=
  w.offset < b.logSize ∧ (∀ k, w.ready k) ∧ (procWriteLogEfuse b s w).1 = .success ∧ s.Appends b w

/-- **The logical map behind a run of writes** is the one before, with the bytes changed in their order. -/
theorem writes_spec (hc : s.Coherent b) {p : Parsed} (hp : s.parsed b = some p)
    {ws : List LogWrite} (hws : Legal (step b) (Writes b) s ws) :
    ∃ p', (ws.foldl (step b) s).parsed b = some p' ∧
      p'.log = ws.foldl (fun log w => update log w.offset w.value) p.log := by
  induction ws generalizing s p with
  | nil => exact ⟨p, hp, rfl⟩
  | cons w ws ih =>
    obtain ⟨⟨hoff, hready, hok, happ⟩, hrest⟩ := hws
    obtain ⟨hc', p', hp', hlog⟩ := write_spec hc hp hoff (fun _ => hready) hok happ
    rw [List.foldl_cons, List.foldl_cons, ← hlog]; exact ih hc' hp' hrest

/-- An efuse with these cells, from its start on, and nothing in memory. -/
def ofCells (b : Bank) (cells : List UInt8) : EfuseParam where
  hw i := cells.getD (i - addr b b.secCtrl) 0xFF
  behind _ := 0xFF
  autoCkEn := true
  phyMap _ := 0
  phyMapValid := false
  logMap _ := 0
  logMapValid := false
  efuseEnd := 0

theorem ofCells_coherent (b : Bank) (cells : List UInt8) : (ofCells b cells).Coherent b :=
  ⟨fun h => (nomatch h), fun h => (nomatch h)⟩

def someWrites : List LogWrite := [⟨1, 0x34, fun _ => true⟩, ⟨0, 0x12, fun _ => true⟩]

theorem writes_spec_some : ∃ p, (someWrites.foldl (step wifiBank) (ofCells wifiBank [])).parsed wifiBank =
    some p ∧ p.log 0 = 0x12 ∧ p.log 1 = 0x34 ∧ p.log 2 = 0xFF := by
  obtain ⟨p, hp⟩ := Option.isSome_iff_exists.mp
    (by decide : ((ofCells wifiBank []).parsed wifiBank).isSome)
  have hblank : ∀ i < 3, p.log i = 0xFF := by
    have hall : ((ofCells wifiBank []).parsed wifiBank).all
      fun p => ∀ i < 3, p.log i = 0xFF := by decide
    rw [hp] at hall; exact of_decide_eq_true hall
  have happends : ∀ s w, (parsed wifiBank s).all (fun p => p.lone = false ∧ s.readHwEfuse wifiBank
      (p.efuseEnd + (headerBytes wifiBank w.offset).length + 2) = 0xFF) → s.Appends wifiBank w := by
    intro s w hall p hp _
    rw [hp] at hall; exact of_decide_eq_true hall
  have hws : Legal (step wifiBank) (Writes wifiBank) (ofCells wifiBank []) someWrites :=
    ⟨⟨by decide, fun _ => rfl, by decide, happends _ _ (by decide)⟩,
      ⟨by decide, fun _ => rfl, by decide, happends _ _ (by decide)⟩, trivial⟩
  obtain ⟨p', hp', hlog⟩ := writes_spec (ofCells_coherent wifiBank []) hp hws
  refine ⟨p', hp', ?_⟩
  rw [hlog]; exact ⟨rfl, rfl, hblank 2 (by decide)⟩

/-- With the first byte of a header alone at the end of the map, the new entry is read from that byte on. -/
theorem lone_misread : ¬ ∀ (b : Bank) (s : EfuseParam) (p : Parsed) (w : LogWrite), s.Coherent b →
    s.parsed b = some p → w.offset < b.logSize → (∀ k, w.ready k) →
    (procWriteLogEfuse b s w).1 = .success →
    ∃ p', (step b s w).parsed b = some p' ∧ p'.log = update p.log w.offset w.value := by
  intro h
  let w : LogWrite := ⟨0, 0x12, fun _ => true⟩
  obtain ⟨p, hp⟩ := Option.isSome_iff_exists.mp
    (by decide : ((ofCells wifiBank [0x30]).parsed wifiBank).isSome)
  obtain ⟨p', hp', hlog⟩ := h wifiBank _ p w (ofCells_coherent wifiBank [0x30]) hp (by decide)
    (fun _ => rfl) (by decide)
  have hall : ((step wifiBank (ofCells wifiBank [0x30]) w).parsed wifiBank).all
      fun p => p.log 0 = 0xFF := by decide
  rw [hp'] at hall
  have hnew : p'.log 0 = 0x12 := by rw [hlog, update_self]
  rw [of_decide_eq_true hall] at hnew; exact absurd hnew (by decide)

end EfuseParam

end Rtl8852cu.Efuse
