import Rtl8852cu.Efuse.Mask
import Rtl8852cu.Efuse.RoundTrip

/-!
# A map that was programmed is read

* `eepromParser_mask`: the parser comes to the same end for a mask as for a map;
* `procPgEfuse_spec`, `programBlocks_spec`: what the entries of blocks replace, and where the map ends then;
* `procPgEfuseByMap_spec`: behind `proc_pg_efuse_by_map` the selected words are those of the image, and no
  cell outside of the bank has changed.
-/

namespace Rtl8852cu.Efuse

open Lib

variable {b : Bank}

section Cfg

variable {phy : Bytes}

/-! ### The two ways to parse -/

theorem readWord_cfg {cfg : ParserCfg} (cfg' : ParserCfg) {blkIdx : UInt8} {i : ℕ} {p p' : ℕ × Bytes}
    (h : readWord b cfg phy blkIdx i p = some p') (log : Bytes) :
    ∃ log', readWord b cfg' phy blkIdx i (p.1, log) = some (p'.1, log') := by
  unfold readWord at h ⊢
  simp only at h ⊢
  split at h
  · cases h
  rename_i hlog
  split at h
  · cases h
  rename_i hphy
  split at h
  · cases h
  rename_i hphy'
  cases h
  rw [if_neg hlog, if_neg hphy, if_neg hphy']; exact ⟨_, rfl⟩

theorem readWords_cfg {cfg : ParserCfg} (cfg' : ParserCfg) {blkIdx wordEn : UInt8} {is : List ℕ} {p p' : ℕ × Bytes}
    (h : readWords b cfg phy blkIdx wordEn is p = some p') (log : Bytes) :
    ∃ log', readWords b cfg' phy blkIdx wordEn is (p.1, log) = some (p'.1, log') := by
  induction is generalizing p log with
  | nil =>
    cases h
    exact ⟨log, rfl⟩
  | cons i is ih =>
    unfold readWords at h ⊢
    split at h
    · rename_i hvalid
      split at h
      · cases h
      · rename_i q hword
        obtain ⟨log₁, hlog₁⟩ := readWord_cfg cfg' hword log
        rw [if_pos hvalid, hlog₁]; exact ih h log₁
    · rename_i hvalid
      rw [if_neg hvalid]; exact ih h log

theorem eepromParser_mask {p q : Parsed} (hp : eepromParser b .map phy = some p)
    (hq : eepromParser b .mask phy = some q) : q.efuseEnd = p.efuseEnd := by
  have hsim : ∃ q', scan (nextEntry b .mask phy) (b.physSize + 1) b.secCtrl (fun _ => 0xFF) =
      some q' ∧ q'.efuseEnd = p.efuseEnd :=
    scan_sim (Q := fun p q : Parsed => q.efuseEnd = p.efuseEnd) ?_ ?_ hp _
  · obtain ⟨q', hq', hend⟩ := hsim
    rw [← Option.some.inj (hq'.symm.trans hq)]; exact hend
  · intro idx log log' idx' log₁ hgo
    unfold nextEntry at hgo ⊢
    split at hgo
    · cases hgo
    rename_i hsize
    rw [if_neg hsize]
    cases hhead : readHeader b phy idx with
    | blank | lone =>
      rw [hhead] at hgo; cases hgo
    | entry blkIdx wordEn idx₁ =>
      rw [hhead] at hgo
      simp only at hgo ⊢
      split at hgo
      · cases hgo
      rename_i hidx
      rw [if_neg hidx]
      split at hgo
      · cases hgo
      · rename_i hwords
        cases hgo
        obtain ⟨log₂, hlog₂⟩ := readWords_cfg .mask hwords log'
        rw [hlog₂]; exact ⟨log₂, rfl⟩
  · intro idx log log' r hstop
    unfold nextEntry at hstop ⊢
    split at hstop
    · rename_i hsize
      cases hstop
      rw [if_pos hsize]; exact ⟨_, rfl, rfl⟩
    rename_i hsize
    rw [if_neg hsize]
    cases hhead : readHeader b phy idx with
    | blank | lone =>
      rw [hhead] at hstop
      cases hstop
      exact ⟨_, rfl, rfl⟩
    | entry blkIdx wordEn idx₁ =>
      rw [hhead] at hstop
      simp only at hstop
      split at hstop
      · cases hstop
      · split at hstop <;> cases hstop

end Cfg

/-! ### One write after the other -/

namespace EfuseParam

theorem writeHwEfuse_setEnd (b : Bank) (s : EfuseParam) (e offset : ℕ) (value : UInt8) (ready : Bool) :
    writeHwEfuse b { s with efuseEnd := e } offset value ready = ((s.writeHwEfuse b offset value ready).1,
        { (s.writeHwEfuse b offset value ready).2 with efuseEnd := e }) := by
  unfold writeHwEfuse
  simp only
  split
  · rfl
  · cases ready with
    | false =>
      simp only [Bool.false_eq_true, if_false]
      split <;> rfl
    | true =>
      simp only [if_true]
      split <;> rfl

theorem writeBytes_setEnd (s : EfuseParam) (e : ℕ) (vs : List UInt8) (ready : ℕ → Bool) :
    writeBytes b { s with efuseEnd := e } offset vs ready =
      ((s.writeBytes b offset vs ready).1, { (s.writeBytes b offset vs ready).2 with efuseEnd := e }) := by
  induction vs generalizing s offset ready with
  | nil => rfl
  | cons v vs ih =>
    have hone := writeHwEfuse_setEnd b s e offset v (ready 0)
    by_cases hret : (s.writeHwEfuse b offset v (ready 0)).1 = .success
    · rw [writeBytes_go hret, writeBytes_go (by rw [hone]; exact hret), hone]
      exact ih _ _
    · rw [writeBytes_stop hret, writeBytes_stop (by rw [hone]; exact hret), hone]

theorem writeBytes_append (s : EfuseParam) (vs ws : List UInt8) (ready : ℕ → Bool) :
    s.writeBytes b offset (vs ++ ws) ready = if (s.writeBytes b offset vs ready).1 = .success then
        (s.writeBytes b offset vs ready).2.writeBytes b (offset + vs.length) ws
          fun k => ready (k + vs.length)
      else s.writeBytes b offset vs ready := by
  induction vs generalizing s offset ready with
  | nil => rfl
  | cons v vs ih =>
    rw [List.cons_append]
    by_cases hret : (s.writeHwEfuse b offset v (ready 0)).1 = .success
    · rw [writeBytes_go hret, writeBytes_go hret, ih, List.length_cons, Nat.add_right_comm, Nat.add_assoc]
      rfl
    · rw [writeBytes_stop hret, writeBytes_stop hret, if_neg hret]

theorem writeBytes_hw (s : EfuseParam) (vs : List UInt8) (ready : ℕ → Bool) {a : ℕ}
    (ha : ∀ i, offset ≤ i → i < offset + vs.length → addr b i ≠ a) :
    (s.writeBytes b offset vs ready).2.hw a = s.hw a := by
  induction vs generalizing s offset ready with
  | nil => rfl
  | cons v vs ih =>
    rw [List.length_cons] at ha
    have hone : (s.writeHwEfuse b offset v (ready 0)).2.hw a = s.hw a := by
      rw [writeHwEfuse_spec]
      simp only
      split
      · exact Function.update_of_ne (ha offset (Nat.le_refl _) (by omega)).symm _ _
      · rfl
    by_cases hret : (s.writeHwEfuse b offset v (ready 0)).1 = .success
    · rw [writeBytes_go hret, ih _ _ fun i hi hlt => ha i (by omega) (by omega)]; exact hone
    · rw [writeBytes_stop hret]; exact hone

end EfuseParam

variable (info : PgEfuseInfo b) {m : Bytes}

theorem programBytes_cons (m : Bytes) (i : ℕ) (is : List ℕ) :
    programBytes info m (i :: is) = blockBytes info m i ++ programBytes info m is :=
  List.flatMap_cons

theorem programBlocks_eq (is : List ℕ) (s : EfuseParam) (ready : ℕ → Bool) : ∃ e, programBlocks info m is s ready =
        ((s.writeBytes b s.efuseEnd (programBytes info m is) ready).1,
          { (s.writeBytes b s.efuseEnd (programBytes info m is) ready).2 with efuseEnd := e }) ∧
      ((programBlocks info m is s ready).1 = .success → e = s.efuseEnd + (programBytes info m is).length) := by
  induction is generalizing s ready with
  | nil => exact ⟨s.efuseEnd, rfl, fun _ => rfl⟩
  | cons i is ih =>
    rw [programBytes_cons, EfuseParam.writeBytes_append, List.length_append]
    by_cases hsel : preWordEn m (i * 8) > 0
    · have hblock : pgBytes info (preWordEn m (i * 8) ^^^ 0x0F) (preWordEn m (i * 8)) (i * 8) =
          blockBytes info m i := (if_pos hsel).symm
      rw [programBlocks, if_pos hsel]
      unfold procPgEfuse
      simp only
      rw [hblock]
      generalize s.writeBytes b s.efuseEnd (blockBytes info m i) ready = r
      obtain ⟨ret, s₁⟩ := r
      cases ret with
      | success =>
        simp only [if_true]
        obtain ⟨e, heq, hend⟩ := ih { s₁ with efuseEnd := s.efuseEnd + (blockBytes info m i).length }
          fun k => ready (k + (s.efuseEnd + (blockBytes info m i).length - s.efuseEnd))
        rw [EfuseParam.writeBytes_setEnd, Nat.add_sub_cancel_left] at heq
        rw [Nat.add_sub_cancel_left] at hend ⊢
        refine ⟨e, heq, fun hok => ?_⟩
        rw [hend hok, Nat.add_assoc]
      | efuseParse | efuseSize | efuseWrite => exact ⟨s₁.efuseEnd, rfl, fun h => nomatch h⟩
    · have hnil : blockBytes info m i = [] := if_neg hsel
      rw [programBlocks, if_neg hsel, hnil]
      obtain ⟨e, heq, hend⟩ := ih s ready
      refine ⟨e, ?_, fun hok => ?_⟩
      · exact heq
      · rw [hend hok, List.length_nil, Nat.zero_add]

/-! ### Blocks -/

variable {phy : Bytes} {blk e : ℕ} {log : Bytes}

/-- The words of a block that a mask selects, from an image. -/
def mergeBlocks (m : Bytes) (is : List ℕ) (log : Bytes) : Bytes := fun a =>
  if a / 8 ∈ is ∧ Selected m (a / 8) (a % 8 / 2) then info.efuseMap a else log a

theorem logged_block (hblk : blk * 8 + 8 ≤ b.logSize)
    (hsize : e + (blockBytes info m blk).length ≤ b.physSize) (hlog : Logged b phy e log)
    (hat : At phy e (blockBytes info m blk)) :
    Logged b phy (e + (blockBytes info m blk).length) fun a =>
      if a / 8 = blk ∧ Selected m blk (a % 8 / 2) then info.efuseMap a else log a := by
  unfold blockBytes at hsize hat ⊢
  by_cases hsel : preWordEn m (blk * 8) > 0
  · rw [if_pos hsel] at hsize hat ⊢
    rw [pgBytes_length] at hsize ⊢
    unfold pgBytes at hat
    rw [info.isBt_eq, pgWords_eq] at hat
    obtain ⟨hhead, hwords⟩ := at_append.mp hat
    have hgo := nextEntry_entry (by omega : blk * 8 < b.logSize) (Nat.mul_div_cancel blk (by decide))
      (headerEn_lt hsel) hhead (fun i hi _ => by omega) (by omega) log
    have hoverlay : overlay phy blk (headerEn m blk) [0, 1, 2, 3]
        (e + (pgHeader b.isBt (blk * 8) (headerEn m blk)).length) log =
          fun a => if a / 8 = blk ∧ Selected m blk (a % 8 / 2) then info.efuseMap a else log a := by
      funext a
      rw [overlay_wordsOf hwords]
      refine if_congr ⟨?_, ?_⟩ rfl rfl
      · rintro ⟨i, hi, hp, heq⟩
        have hi4 : i < 4 := List.mem_range.mp hi
        have hword : a % 8 / 2 = i := by omega
        rw [hword]; exact ⟨by omega, (selected_iff_present m blk hi4).mpr hp⟩
      · rintro ⟨heq, hw⟩
        have hi4 : a % 8 / 2 < 4 := by omega
        exact ⟨a % 8 / 2, four_words _ hi4, (selected_iff_present m blk hi4).mp hw, by omega⟩
    rw [hoverlay, Nat.add_assoc] at hgo; exact hlog.trans (.step hgo (.refl _ _))
  · rw [if_neg hsel]
    have hsame : (fun a => if a / 8 = blk ∧ Selected m blk (a % 8 / 2) then info.efuseMap a
        else log a) = log := by
      funext a
      exact if_neg fun h => not_selected hsel (by omega) h.2
    rw [hsame]; exact hlog

theorem mergeBlocks_cons (m : Bytes) (i : ℕ) (is : List ℕ) (log : Bytes) : mergeBlocks info m is
        (fun a => if a / 8 = i ∧ Selected m i (a % 8 / 2) then info.efuseMap a else log a) =
      mergeBlocks info m (i :: is) log := by
  funext a
  unfold mergeBlocks
  by_cases hsel : Selected m (a / 8) (a % 8 / 2)
  · by_cases hblk : a / 8 = i
    · subst hblk; simp [hsel]
    · simp [hsel, hblk]
  · have hnot : ¬ (a / 8 = i ∧ Selected m i (a % 8 / 2)) := fun h => hsel (h.1 ▸ h.2)
    simp [hsel, hnot]

theorem logged_blocks {is : List ℕ} (his : ∀ i ∈ is, i * 8 + 8 ≤ b.logSize)
    (hsize : e + (programBytes info m is).length ≤ b.physSize) (hlog : Logged b phy e log)
    (hat : At phy e (programBytes info m is)) :
    Logged b phy (e + (programBytes info m is).length) (mergeBlocks info m is log) := by
  induction is generalizing e log with
  | nil =>
    have hsame : mergeBlocks info m [] log = log := by
      funext a
      exact if_neg fun h => nomatch h.1
    rw [hsame]; exact hlog
  | cons i is ih =>
    rw [programBytes_cons] at hsize hat ⊢
    rw [List.length_append] at hsize ⊢
    obtain ⟨hone, hrest⟩ := at_append.mp hat
    have hlog' := logged_block info (his i List.mem_cons_self) (by omega) hlog hone
    have h := ih (fun j hj => his j (List.mem_cons_of_mem i hj)) (by omega) hlog' hrest
    rw [mergeBlocks_cons, Nat.add_assoc] at h; exact h

theorem blockBytes_ne_nil (hsel : preWordEn m (blk * 8) > 0) : blockBytes info m blk ≠ [] := by
  have hpos := (pgHeader_length info.isBt (blk * 8) (headerEn m blk)).1
  refine List.ne_nil_of_length_pos ?_
  unfold blockBytes pgBytes
  rw [if_pos hsel, List.length_append]; omega

/-! ### The whole map -/

namespace EfuseParam

/-- The logical map is valid only when the physical map is. -/
structure InSync (b : Bank) (s : EfuseParam) : Prop extends Coherent b s where
  phyValid : s.logMapValid → s.phyMapValid

variable {s : EfuseParam}

theorem readLogEfuseMap_valid (h : s.logMapValid → s.phyMapValid) : (s.readLogEfuseMap b).2.phyMapValid := by
  unfold readLogEfuseMap
  split
  · rename_i hlog
    exact h hlog
  · simp only
    generalize hs₁ : (if s.phyMapValid then s else _ : EfuseParam) = s₁
    have hv : s₁.phyMapValid := by
      rw [← hs₁]
      split
      · assumption
      · rfl
    split
    · exact hv
    · exact hv

theorem readLogEfuseMap_hw (s : EfuseParam) : (s.readLogEfuseMap b).2.hw = s.hw := by
  unfold readLogEfuseMap
  split
  · rfl
  · simp only
    split <;> split <;> rfl

/-- **No cell outside of the bank is written**, whatever the calls and the hardware do. -/
theorem writes_in_bank (b : Bank) (s : EfuseParam) (ws : List LogWrite) (a : ℕ) :
    (∃ i < b.physSize, addr b i = a) ∨ (ws.foldl (step b) s).hw a = s.hw a := by
  rw [or_iff_not_imp_left]
  intro ha
  induction ws generalizing s with
  | nil => rfl
  | cons w ws ih =>
    rw [List.foldl_cons, ih, ← s.readLogEfuseMap_hw (b := b)]
    unfold step procWriteLogEfuse
    generalize s.readLogEfuseMap b = r
    obtain ⟨ret, s'⟩ := r
    cases ret with
    | success =>
      dsimp only
      split
      · rfl
      split
      · rfl
      · refine writeBytes_hw s' _ _ fun i _ hlt he => ha ⟨i, ?_, he⟩
        have hhead := (headerBytes_length b w.offset).2
        have hword : (wordBytes s'.logMap w.offset w.value).length = 2 := by
          unfold wordBytes
          split
          · rfl
          · rfl
        rw [List.length_append] at hlt
        omega
    | efuseParse | efuseSize | efuseWrite => rfl

end EfuseParam

open EfuseParam

/-- The word with the byte `a` is selected by the mask of an image. -/
def PgEfuseInfo.Selects (a : ℕ) : Prop := Selected info.mask (a / 8) (a % 8 / 2)

instance (a : ℕ) : Decidable (info.Selects a) := inferInstanceAs (Decidable (Selected _ _ _))

theorem PgEfuseInfo.Selects.lt {a : ℕ} (h : info.Selects a) : a / 8 < info.mapSize / 8 := by
  by_contra hge
  have hdvd := info.mapSize_dvd
  have hzero : info.mask (a / 8 / 2) = 0x00 := if_neg (by omega)
  refine not_selected ?_ (by omega) h
  by_cases hpar : a / 8 % 2 = 0
  · rw [preWordEn_high hpar, hzero]; decide
  · rw [preWordEn_low (by omega), hzero]; decide

/-- The image on the words that its mask selects. -/
def PgEfuseInfo.merge (log : Bytes) : Bytes := fun a =>
  if info.Selects a then info.efuseMap a else log a

theorem mergeBlocks_clearMask (info : PgEfuseInfo b) (log maskMap : Bytes) :
    mergeBlocks info (clearMask info log maskMap) (List.range (info.mapSize / 8)) log = info.merge log := by
  funext a
  unfold mergeBlocks PgEfuseInfo.merge
  obtain ⟨hsub, hsame⟩ := clearMask_cleared info log maskMap (a / 8) (a % 8 / 2) (by omega)
  by_cases hsel : info.Selects a
  · rw [if_pos hsel]
    by_cases hm : Selected (clearMask info log maskMap) (a / 8) (a % 8 / 2)
    · rw [if_pos ⟨List.mem_range.mpr (hsel.lt info), hm⟩]
    · rw [if_neg fun h => hm h.2]
      obtain ⟨h0, h1⟩ := hsame hsel hm
      have hcase : a = a / 8 * 8 + a % 8 / 2 * 2 ∨ a = a / 8 * 8 + a % 8 / 2 * 2 + 1 := by omega
      obtain heq | heq := hcase
      · rw [heq]; exact h0.symm
      · rw [heq]; exact h1.symm
  · rw [if_neg hsel, if_neg fun h => hsel (hsub h.2)]

theorem updateEepromMask_spec {s : EfuseParam} (hs : s.InSync b) {p : Parsed} (hp : s.parsed b = some p) :
    (updateEepromMask info s).2.1.readHwEfuse b = s.readHwEfuse b ∧ (updateEepromMask info s).2.1.hw = s.hw ∧
      ((updateEepromMask info s).1 = .success → (updateEepromMask info s).2.1.efuseEnd = p.efuseEnd ∧
          ∃ maskMap, (updateEepromMask info s).2.2 = clearMask info p.log maskMap) := by
  obtain ⟨s₁, hs₁, hc₁, hread, hlog, -⟩ := readLogEfuseMap_spec hs.toCoherent hp
  have hvalid : (s.readLogEfuseMap b).2.phyMapValid := readLogEfuseMap_valid hs.phyValid
  have hhw : (s.readLogEfuseMap b).2.hw = s.hw := readLogEfuseMap_hw s
  rw [hs₁] at hvalid hhw
  simp only at hvalid hhw
  have hphy : s₁.phyMap = s.readHwEfuse b := (hc₁.phy hvalid).trans hread
  unfold updateEepromMask
  rw [hs₁]
  simp only
  rw [hphy]
  cases hq : eepromParser b .mask (s.readHwEfuse b) with
  | none => exact ⟨hread, hhw, fun h => nomatch h⟩
  | some q => exact ⟨hread, hhw, fun _ => ⟨eepromParser_mask hp hq, q.log, by rw [hlog]⟩⟩

/-- The entries go where a header goes, with a blank or the end of the map behind them: the parser was not left between
the two bytes of a header. -/
def PgAppends (s : EfuseParam) : Prop :=
  ∀ p, s.parsed b = some p →
    let bytes := programBytes info (updateEepromMask info s).2.2 (List.range (info.mapSize / 8))
    bytes ≠ [] → p.lone = false ∧ (b.physSize ≤ p.efuseEnd + bytes.length ∨
      s.readHwEfuse b (p.efuseEnd + bytes.length) = 0xFF)

theorem procPgEfuseByMap_success {s : EfuseParam} {ready : ℕ → Bool}
    (h : (procPgEfuseByMap info s ready).1 = .success) :
    (updateEepromMask info s).1 = .success ∧
      checkEfuseEnough info (updateEepromMask info s).2.1 (updateEepromMask info s).2.2 = .success ∧
      procPgEfuseByMap info s ready =
        programEfuse info (updateEepromMask info s).2.1 (updateEepromMask info s).2.2 ready := by
  unfold procPgEfuseByMap at h ⊢
  generalize updateEepromMask info s = r at h ⊢
  obtain ⟨ret, s₁, m⟩ := r
  cases ret with
  | success =>
    simp only at h ⊢
    cases hck : checkEfuseEnough info s₁ m with
    | success => exact ⟨trivial, rfl, rfl⟩
    | efuseParse | efuseSize | efuseWrite =>
      rw [hck] at h; exact nomatch h
  | efuseParse | efuseSize | efuseWrite => exact nomatch h

theorem checkEfuseEnough_success {s : EfuseParam} {m : Bytes} (h : checkEfuseEnough info s m = .success) :
    s.efuseEnd + (programBytes info m (List.range (info.mapSize / 8))).length ≤ b.physSize := by
  have hle := programBytes_le info m
  unfold checkEfuseEnough at h
  split at h
  · cases h
  · omega

theorem procPgEfuseByMap_hw {s : EfuseParam} (hhw : (updateEepromMask info s).2.1.hw = s.hw)
    (ready : ℕ → Bool) {a : ℕ} (ha : ∀ i < b.physSize, addr b i ≠ a) :
    (procPgEfuseByMap info s ready).2.hw a = s.hw a := by
  unfold procPgEfuseByMap
  generalize updateEepromMask info s = r at hhw ⊢
  obtain ⟨ret, s₁, m⟩ := r
  cases ret with
  | success =>
    simp only at hhw ⊢
    cases hck : checkEfuseEnough info s₁ m with
    | success =>
      have hsize := checkEfuseEnough_success info hck
      obtain ⟨e, heq, -⟩ := programBlocks_eq info (m := m) (List.range (info.mapSize / 8)) s₁ ready
      simp only
      unfold programEfuse
      rw [heq, ← hhw]; exact s₁.writeBytes_hw _ ready fun i _ hlt => ha i (by omega)
    | efuseParse | efuseSize | efuseWrite => exact congrFun hhw a
  | efuseParse | efuseSize | efuseWrite => exact congrFun hhw a

theorem block_lt (info : PgEfuseInfo b) : ∀ i ∈ List.range (info.mapSize / 8), i * 8 + 8 ≤ b.logSize := by
  intro i hi
  have hdvd := info.mapSize_dvd
  have hle := info.mapSize_le
  have hlt := List.mem_range.mp hi
  omega

/-- **The programmed map.** The words that the mask selects are those of the image, all others are as they were, and
the map is still accepted.  The estimate is not below what is written, and no cell outside of the bank
has changed, however the programming ends. -/
theorem procPgEfuseByMap_spec {s : EfuseParam} (hs : s.InSync b) {p : Parsed} (hp : s.parsed b = some p)
    {ready : ℕ → Bool} (hdav : b.dav → ∀ k, ready k) (happ : PgAppends info s) :
    ((procPgEfuseByMap info s ready).1 = .success →
      ∃ p', (procPgEfuseByMap info s ready).2.parsed b = some p' ∧ p'.log = info.merge p.log) ∧
    (∀ s m, (programEfuse info s m ready).1 = .success →
      (programEfuse info s m ready).2.efuseEnd ≤ s.efuseEnd + pgNum info m) ∧
    ∀ a, (∀ i < b.physSize, addr b i ≠ a) → (procPgEfuseByMap info s ready).2.hw a = s.hw a := by
  obtain ⟨hread, hhw, hmask⟩ := updateEepromMask_spec info hs hp
  refine ⟨fun hok => ?_, fun s m hok => ?_, fun a ha => procPgEfuseByMap_hw info hhw ready ha⟩
  · obtain ⟨hupdate, hck, heq⟩ := procPgEfuseByMap_success info hok
    obtain ⟨hend, maskMap, hm⟩ := hmask hupdate
    have hsize := checkEfuseEnough_success info hck
    have hmerge := mergeBlocks_clearMask info p.log maskMap
    rw [← hm] at hmerge
    rw [heq] at hok ⊢
    unfold programEfuse at hok ⊢
    obtain ⟨e, hblocks, -⟩ := programBlocks_eq info (m := (updateEepromMask info s).2.2)
      (List.range (info.mapSize / 8)) (updateEepromMask info s).2.1 ready
    have hread' : ∀ s' : EfuseParam, readHwEfuse b { s' with efuseEnd := e } = s'.readHwEfuse b :=
      fun _ => rfl
    rw [hblocks] at hok ⊢
    unfold parsed
    rw [hread']
    rw [hend] at hok hsize ⊢
    obtain ⟨-, hall, -, hat, hkeep⟩ := (updateEepromMask info s).2.1.writeBytes_spec _ hdav hsize
    rw [hall hok, List.take_length] at hat
    rw [hall hok, hread] at hkeep
    generalize readHwEfuse b (writeBytes b (updateEepromMask info s).2.1 p.efuseEnd (programBytes info
      (updateEepromMask info s).2.2 (List.range (info.mapSize / 8))) ready).2 = phy at hat hkeep ⊢
    by_cases hnil : programBytes info (updateEepromMask info s).2.2
        (List.range (info.mapSize / 8)) = []
    · -- nothing to write
      rw [hnil] at hkeep
      have hphy : phy = s.readHwEfuse b := funext fun i => hkeep i (Nat.lt_or_ge i p.efuseEnd)
      refine ⟨p, hphy ▸ hp, ?_⟩
      rw [← hmerge]
      funext a
      refine (if_neg fun ⟨hblk, hsel⟩ => ?_).symm
      have hblock := List.flatMap_eq_nil_iff.mp hnil _ hblk
      exact not_selected (fun h => blockBytes_ne_nil info h hblock) (by omega) hsel
    · obtain ⟨hlone, hblank⟩ := happ p hp hnil
      have hlogged := (logged_of_parsed hp hlone).keep fun i hi => hkeep i (.inl hi)
      have hlog := logged_blocks info (block_lt info) hsize hlogged hat
      rw [hmerge] at hlog
      refine ⟨_, hlog.parser ?_, rfl⟩
      rw [hkeep _ (.inr (Nat.le_refl _))]; exact hblank
  · obtain ⟨e, heq, hend⟩ := programBlocks_eq info (m := m) (List.range (info.mapSize / 8)) s ready
    unfold programEfuse at hok ⊢
    have hle := programBytes_le info m
    rw [heq] at hok ⊢
    have he := hend (by rw [heq]; exact hok)
    show e ≤ _
    omega

/-- An image of the analog die, with its first word selected. -/
def firstWord : PgEfuseInfo davBank where
  efuseMap a := if a = 0 then 0x12 else if a = 1 then 0x34 else 0xFF
  efuseMask i := if i = 0 then 0x10 else 0x00
  mapSize := 16
  isBt := false
  mapSize_dvd := by decide
  mapSize_le := by decide
  isBt_eq := rfl

theorem ofCells_inSync (b : Bank) (cells : List UInt8) : (ofCells b cells).InSync b where
  toCoherent := ofCells_coherent b cells
  phyValid h := nomatch h

/-- The first word, on an efuse with another one. -/
theorem procPgEfuseByMap_spec_some : ∃ p, (procPgEfuseByMap firstWord
    (ofCells davBank [0x30, 0x0D, 0x56, 0x78]) fun _ => true).2.parsed davBank = some p ∧
      p.log 0 = 0x12 ∧ p.log 1 = 0x34 ∧ p.log 2 = 0x56 := by
  obtain ⟨p, hp⟩ := Option.isSome_iff_exists.mp (by decide :
    ((ofCells davBank [0x30, 0x0D, 0x56, 0x78]).parsed davBank).isSome)
  have hold : p.log 2 = 0x56 := by
    have hall : ((ofCells davBank [0x30, 0x0D, 0x56, 0x78]).parsed davBank).all
      fun p => p.log 2 = 0x56 := by decide
    rw [hp] at hall; exact of_decide_eq_true hall
  have happ : PgAppends firstWord (ofCells davBank [0x30, 0x0D, 0x56, 0x78]) := by
    intro q hq bytes _
    have hall : ((ofCells davBank [0x30, 0x0D, 0x56, 0x78]).parsed davBank).all
        fun p => p.lone = false ∧ (ofCells davBank [0x30, 0x0D, 0x56, 0x78]).readHwEfuse davBank
          (p.efuseEnd + (programBytes firstWord (updateEepromMask firstWord
            (ofCells davBank [0x30, 0x0D, 0x56, 0x78])).2.2 (List.range 2)).length) = 0xFF := by
      decide
    rw [hq] at hall
    obtain ⟨hlone, hblank⟩ := of_decide_eq_true hall
    exact ⟨hlone, .inr hblank⟩
  obtain ⟨p', hp', hlog⟩ := (procPgEfuseByMap_spec firstWord (ofCells_inSync davBank _) hp
    (fun _ _ => rfl) happ).1 (by decide)
  refine ⟨p', hp', ?_⟩
  rw [hlog]; exact ⟨if_pos (by decide), if_pos (by decide), (if_neg (by decide)).trans hold⟩

/-- With the first byte of a header alone at the end, the map that was programmed is not accepted. -/
theorem lone_not_accepted : ¬ ∀ (b : Bank) (info : PgEfuseInfo b) (s : EfuseParam) (p : Parsed)
    (ready : ℕ → Bool), s.InSync b → s.parsed b = some p → (∀ k, ready k) →
    (procPgEfuseByMap info s ready).1 = .success → ∃ p', (procPgEfuseByMap info s ready).2.parsed b = some p' ∧
        p'.log = info.merge p.log := by
  intro h
  obtain ⟨p, hp⟩ := Option.isSome_iff_exists.mp (by decide : ((ofCells davBank [0x30]).parsed davBank).isSome)
  obtain ⟨p', hp', -⟩ := h davBank firstWord _ p (fun _ => true) (ofCells_inSync davBank [0x30]) hp
    (fun _ => rfl) (by decide)
  have hnone : ((procPgEfuseByMap firstWord (ofCells davBank [0x30]) fun _ => true).2.parsed
    davBank).isNone := by decide
  rw [hp'] at hnone; exact nomatch hnone

end Rtl8852cu.Efuse
