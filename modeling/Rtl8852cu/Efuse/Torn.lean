import Rtl8852cu.Efuse.PgRoundTrip

/-!
# Writes that are cut off

A write may stop behind any of its bytes: one is not taken, or does not compare, or the power is lost.  Then the cells
have the first bytes of what was to be written.
-/

namespace Rtl8852cu.Efuse

open Lib EfuseParam

variable {b : Bank} {phy : Bytes} {e n offset : ℕ} {wordEn : UInt8} {log : Bytes}

/-! ### What is read of an entry -/

/-- No cell from `e` on was written. -/
def Blank (b : Bank) (phy : Bytes) (e : ℕ) : Prop := ∀ i, e ≤ i → i < b.physSize → phy i = 0xFF

theorem Blank.mono {e' : ℕ} (h : Blank b phy e) (hle : e ≤ e') : Blank b phy e' := fun i hi => h i (by omega)

theorem Blank.stop (h : Blank b phy e) : b.physSize ≤ e ∨ phy e = 0xFF := by
  by_cases hsize : b.physSize ≤ e
  · exact .inl hsize
  · exact .inr (h e (Nat.le_refl _) (by omega))

theorem torn_entry {blk : ℕ} (hoff : offset < b.logSize) (hblk : offset / 8 = blk)
    (hen : wordEn < 0x0F) (hwords : ∀ i < 4, Present wordEn i → blk * 8 + i * 2 < b.logSize)
    {words : List UInt8} (hlen : words.length = wordCells wordEn [0, 1, 2, 3])
    (hsize : e + (pgHeader b.isBt offset wordEn).length + words.length ≤ b.physSize)
    (hn : n ≤ (pgHeader b.isBt offset wordEn).length + words.length)
    (hcut : ¬ (n = 1 ∧ (pgHeader b.isBt offset wordEn).length = 2)) (hlog : Logged b phy e log)
    (hat : At phy e ((pgHeader b.isBt offset wordEn ++ words).take n)) (hblank : Blank b phy (e + n)) :
    ∃ e' log', Logged b phy e' log' ∧ Blank b phy e' ∧
      ∀ a, (∀ i < 4, Present wordEn i → a / 2 ≠ blk * 4 + i) → log' a = log a := by
  have hhdr := pgHeader_length b.isBt offset wordEn
  by_cases h0 : n = 0
  · subst h0; exact ⟨e, log, hlog, hblank, fun _ _ => rfl⟩
  · have hge : (pgHeader b.isBt offset wordEn).length ≤ n := by omega
    rw [List.take_append, List.take_of_length_le hge] at hat
    have hgo := nextEntry_entry hoff hblk hen (at_append.mp hat).1 hwords (by omega) log
    refine ⟨_, _, hlog.trans (.step hgo (.refl _ _)), hblank.mono (by omega), fun a ha => ?_⟩
    exact overlay_other fun i hi hp => ha i (List.mem_range.mp hi) hp

variable (info : PgEfuseInfo b) {m : Bytes}

/-- The first `n` bytes of the blocks end behind the first of two header bytes. -/
def CutsHeader (m : Bytes) : List ℕ → ℕ → Prop
  | [], _ => False
  | i :: is, n =>
    if n < (blockBytes info m i).length then
      n = 1 ∧ (pgHeader b.isBt (i * 8) (headerEn m i)).length = 2
    else CutsHeader m is (n - (blockBytes info m i).length)

theorem torn_blocks {is : List ℕ} (his : ∀ i ∈ is, i * 8 + 8 ≤ b.logSize)
    (hsize : e + (programBytes info m is).length ≤ b.physSize)
    (hn : n ≤ (programBytes info m is).length) (hcut : ¬ CutsHeader info m is n)
    (hlog : Logged b phy e log) (hat : At phy e ((programBytes info m is).take n))
    (hblank : Blank b phy (e + n)) :
    ∃ e' log', Logged b phy e' log' ∧ Blank b phy e' ∧
      ∀ a, ¬ (a / 8 ∈ is ∧ Selected m (a / 8) (a % 8 / 2)) → log' a = log a := by
  induction is generalizing e n log with
  | nil =>
    have h0 : n = 0 := Nat.le_zero.mp hn
    subst h0; exact ⟨e, log, hlog, hblank, fun _ _ => rfl⟩
  | cons i is ih =>
    have hi := his i List.mem_cons_self
    rw [programBytes_cons] at hsize hn hat
    rw [List.length_append] at hsize hn
    unfold CutsHeader at hcut
    by_cases hlt : n < (blockBytes info m i).length
    · -- the block that was cut off
      rw [if_pos hlt] at hcut
      rw [List.take_append_of_le_length (Nat.le_of_lt hlt)] at hat
      have hsel : preWordEn m (i * 8) > 0 := by
        by_contra hsel
        have hnil : blockBytes info m i = [] := if_neg hsel
        rw [hnil] at hlt; exact Nat.not_lt_zero _ hlt
      have hblock : blockBytes info m i = pgHeader b.isBt (i * 8) (headerEn m i) ++
          wordsOf info.efuseMap i (headerEn m i) [0, 1, 2, 3] := by
        unfold blockBytes pgBytes
        rw [if_pos hsel, info.isBt_eq, pgWords_eq]
      rw [hblock, List.length_append] at hsize hlt
      rw [hblock] at hat
      obtain ⟨e', log', hlog', hblank', hother⟩ := torn_entry (by omega : i * 8 < b.logSize)
        (Nat.mul_div_cancel i (by decide)) (headerEn_lt hsel) (fun j hj _ => by omega)
        (wordsOf_length _ _ _) (by omega) (Nat.le_of_lt hlt) hcut hlog hat hblank
      refine ⟨e', log', hlog', hblank', fun a ha => hother a fun j hj hp heq => ha ?_⟩
      have hblk : a / 8 = i := by omega
      have hword : a % 8 / 2 = j := by omega
      rw [hblk, hword]; exact ⟨List.mem_cons_self, (selected_iff_present m i hj).mpr hp⟩
    · rw [if_neg hlt] at hcut
      rw [List.take_append, List.take_of_length_le (Nat.le_of_not_lt hlt)] at hat
      obtain ⟨hone, hrest⟩ := at_append.mp hat
      have hlog₁ := logged_block info hi (by omega) hlog hone
      obtain ⟨e', log', hlog', hblank', hother⟩ := ih (fun j hj => his j (List.mem_cons_of_mem i hj))
        (by omega) (by omega) hcut hlog₁ hrest (hblank.mono (by omega))
      refine ⟨e', log', hlog', hblank', fun a ha => ?_⟩
      rw [hother a fun h => ha ⟨List.mem_cons_of_mem i h.1, h.2⟩]
      have hnot : ¬ (a / 8 = i ∧ Selected m i (a % 8 / 2)) :=
        fun h => ha ⟨h.1 ▸ List.mem_cons_self, h.1 ▸ h.2⟩
      exact if_neg hnot

/-! ### Calls -/

/-- A call that writes to the logical map of the bank. -/
inductive LogOp (b : Bank) where
  | write (w : LogWrite)
  | program (info : PgEfuseInfo b) (ready : ℕ → Bool)

namespace LogOp

def call (s : EfuseParam) : LogOp b → MacStatus × EfuseParam
  | write w => procWriteLogEfuse b s w
  | program info ready => procPgEfuseByMap info s ready

def ready : LogOp b → ℕ → Bool
  | write w => w.ready
  | program _ ready => ready

/-- The state in front of the first write, and the bytes to be written. -/
def prepare (s : EfuseParam) : LogOp b → EfuseParam × List UInt8
  | write w =>
    match s.readLogEfuseMap b with
    | (.success, s) =>
      if s.logMap w.offset = w.value ∨ b.physSize ≤ 4 + s.efuseEnd then (s, [])
      else (s, headerBytes b w.offset ++ wordBytes s.logMap w.offset w.value)
    | (_, s) => (s, [])
  | program info _ =>
    match updateEepromMask info s with
    | (.success, s, updatedMask) =>
      match checkEfuseEnough info s updatedMask with
      | .success => (s, programBytes info updatedMask (List.range (info.mapSize / 8)))
      | _ => (s, [])
    | (_, s, _) => (s, [])

/-- The power is lost behind `n` bytes: the memory is empty afterwards. -/
def lose (s : EfuseParam) (op : LogOp b) (n : ℕ) : EfuseParam :=
  { ((op.prepare s).1.writeBytes b (op.prepare s).1.efuseEnd ((op.prepare s).2.take n)
      fun _ => true).2 with
    phyMapValid := false
    logMapValid := false }

def Addresses : LogOp b → ℕ → Prop
  | write w, a => a / 2 = w.offset / 2
  | program info _, a => info.Selects a

/-- What a call is to make of the logical map. -/
def apply : LogOp b → Bytes → Bytes
  | write w, log => Function.update log w.offset w.value
  | program info _, log => info.merge log

/-- `n` bytes of the call end behind the first of two header bytes. -/
def CutsHeader (s : EfuseParam) : LogOp b → ℕ → Prop
  | write w, n => n = 1 ∧ (headerBytes b w.offset).length = 2
  | program info _, n =>
    Efuse.CutsHeader info (updateEepromMask info s).2.2 (List.range (info.mapSize / 8)) n

def InRange : LogOp b → Prop
  | write w => w.offset < b.logSize
  | program _ _ => True

theorem call_eq (s : EfuseParam) (op : LogOp b) :
    ∃ e, (op.call s).2 = { ((op.prepare s).1.writeBytes b (op.prepare s).1.efuseEnd (op.prepare s).2
        op.ready).2 with efuseEnd := e } ∧
      ((op.prepare s).2 = [] → e = (op.prepare s).1.efuseEnd) := by
  cases op with
  | write w =>
    unfold call prepare procWriteLogEfuse
    generalize s.readLogEfuseMap b = r
    obtain ⟨ret, s₁⟩ := r
    cases ret with
    | success =>
      simp only
      by_cases hsame : s₁.logMap w.offset = w.value
      · rw [if_pos hsame, if_pos (.inl hsame)]; exact ⟨s₁.efuseEnd, rfl, fun _ => rfl⟩
      · rw [if_neg hsame]
        by_cases hsize : b.physSize ≤ 4 + s₁.efuseEnd
        · rw [if_pos hsize, if_pos (.inr hsize)]; exact ⟨s₁.efuseEnd, rfl, fun _ => rfl⟩
        · rw [if_neg hsize, if_neg (not_or.mpr ⟨hsame, hsize⟩)]
          refine ⟨_, rfl, fun h => ?_⟩
          have hlen := (headerBytes_length b w.offset).1
          rw [(List.append_eq_nil_iff.mp h).1] at hlen; exact absurd hlen (Nat.lt_irrefl 0)
    | efuseParse | efuseSize | efuseWrite => exact ⟨s₁.efuseEnd, rfl, fun _ => rfl⟩
  | program info ready =>
    rcases hr : updateEepromMask info s with ⟨ret, s₁, m⟩
    cases ret with
    | success =>
      cases hck : checkEfuseEnough info s₁ m with
      | success =>
        simp only [call, prepare, procPgEfuseByMap, hr, hck]
        obtain ⟨e, heq, hend⟩ := programBlocks_eq info (m := m) (List.range (info.mapSize / 8)) s₁ ready
        refine ⟨e, congrArg Prod.snd heq, fun hnil => ?_⟩
        rw [hnil] at hend heq; exact hend (congrArg Prod.fst heq)
      | efuseParse | efuseSize | efuseWrite =>
        simp only [call, prepare, procPgEfuseByMap, hr, hck]; exact ⟨s₁.efuseEnd, rfl, fun _ => rfl⟩
    | efuseParse | efuseSize | efuseWrite =>
      simp only [call, prepare, procPgEfuseByMap, hr]; exact ⟨s₁.efuseEnd, rfl, fun _ => rfl⟩

end LogOp

/-- The map ends where all cells are blank, and the memory agrees with it. -/
structure Clean (b : Bank) (s : EfuseParam) (e : ℕ) (map : Bytes) : Prop extends InSync b s where
  logged : Logged b (s.readHwEfuse b) e map
  blank : Blank b (s.readHwEfuse b) e

variable {s : EfuseParam}

theorem Clean.parsed (h : Clean b s e log) : s.parsed b = some ⟨log, e, false⟩ := h.logged.parser h.blank.stop

theorem Clean.keep {s' : EfuseParam} (h : Clean b s e log)
    (hread : s'.readHwEfuse b = s.readHwEfuse b) (hs : s'.InSync b) : Clean b s' e log where
  toInSync := hs
  logged := hread ▸ h.logged
  blank := hread ▸ h.blank

theorem inSync_of_invalid (hphy : s.phyMapValid = false) (hlog : s.logMapValid = false) : s.InSync b where
  phy h := nomatch hphy.symm.trans h
  log h := nomatch hlog.symm.trans h
  phyValid h := nomatch hlog.symm.trans h

theorem Clean.read (h : Clean b s e log) : ∃ s₁, s.readLogEfuseMap b = (.success, s₁) ∧ Clean b s₁ e log ∧
      s₁.readHwEfuse b = s.readHwEfuse b ∧ s₁.logMap = log ∧ s₁.efuseEnd = e := by
  obtain ⟨s₁, hs₁, hc, hread, hlog, hend⟩ := readLogEfuseMap_spec h.toCoherent h.parsed
  have hvalid : (s.readLogEfuseMap b).2.phyMapValid := readLogEfuseMap_valid h.phyValid
  rw [hs₁] at hvalid; exact ⟨s₁, hs₁, h.keep hread ⟨hc, fun _ => hvalid⟩, hread, hlog, hend⟩

theorem updateEepromMask_clean (h : Clean b s e log) {s₁ : EfuseParam} (hs₁ : s.readLogEfuseMap b = (.success, s₁)) :
    ∃ ret m, updateEepromMask info s = (ret, s₁, m) := by
  obtain ⟨s₂, hs₂, hclean, hread, -, hend⟩ := h.read
  obtain rfl : s₁ = s₂ := by
    rw [hs₁] at hs₂; exact (Prod.mk.inj hs₂).2
  have hvalid : (s.readLogEfuseMap b).2.phyMapValid := readLogEfuseMap_valid h.phyValid
  rw [hs₁] at hvalid
  have hphy : s₁.phyMap = s.readHwEfuse b := (hclean.phy hvalid).trans hread
  unfold updateEepromMask
  rw [hs₁]
  simp only
  cases hq : eepromParser b .mask s₁.phyMap with
  | none => exact ⟨_, _, rfl⟩
  | some q =>
    rw [hphy] at hq
    have hend' : q.efuseEnd = s₁.efuseEnd := (eepromParser_mask h.parsed hq).trans hend.symm
    simp only
    rw [hend']; exact ⟨_, _, rfl⟩

namespace LogOp

theorem prepare_spec (h : Clean b s e log) (op : LogOp b) :
    Clean b (op.prepare s).1 e log ∧ (op.prepare s).1.readHwEfuse b = s.readHwEfuse b ∧
      ((op.prepare s).2 ≠ [] → (op.prepare s).1.efuseEnd = e ∧ e + (op.prepare s).2.length ≤ b.physSize) := by
  obtain ⟨s₁, hs₁, hclean, hread, hlog, hend⟩ := h.read
  cases op with
  | write w =>
    have hlen : (headerBytes b w.offset ++ wordBytes s₁.logMap w.offset w.value).length ≤ 4 := by
      have hhdr := (headerBytes_length b w.offset).2
      rw [List.length_append, wordBytes_length]; omega
    simp only [prepare, hs₁]
    split
    · exact ⟨hclean, hread, fun hne => absurd rfl hne⟩
    · rename_i hnot
      rw [not_or] at hnot; exact ⟨hclean, hread, fun _ => ⟨hend, by simp only; omega⟩⟩
  | program info ready =>
    obtain ⟨ret, m, hupdate⟩ := updateEepromMask_clean info h hs₁
    cases ret with
    | success =>
      cases hck : checkEfuseEnough info s₁ m with
      | success =>
        have hsize := checkEfuseEnough_success info hck
        rw [hend] at hsize
        simp only [prepare, hupdate, hck]; exact ⟨hclean, hread, fun _ => ⟨hend, hsize⟩⟩
      | efuseParse | efuseSize | efuseWrite =>
        simp only [prepare, hupdate, hck]; exact ⟨hclean, hread, fun hne => absurd rfl hne⟩
    | efuseParse | efuseSize | efuseWrite =>
      simp only [prepare, hupdate]; exact ⟨hclean, hread, fun hne => absurd rfl hne⟩

theorem prepare_write (h : Clean b s e log) (w : LogWrite) (hne : ((write w : LogOp b).prepare s).2 ≠ []) :
    ((write w : LogOp b).prepare s).2 = headerBytes b w.offset ++ wordBytes log w.offset w.value := by
  obtain ⟨s₁, hs₁, -, -, hlog, -⟩ := h.read
  unfold prepare at hne ⊢
  simp only [hs₁] at hne ⊢
  by_cases hnot : s₁.logMap w.offset = w.value ∨ b.physSize ≤ 4 + s₁.efuseEnd
  · rw [if_pos hnot] at hne; exact absurd rfl hne
  · rw [if_neg hnot, hlog]

theorem prepare_program (h : Clean b s e log) (info : PgEfuseInfo b) (ready : ℕ → Bool)
    (hne : ((program info ready).prepare s).2 ≠ []) :
    ∃ maskMap, (updateEepromMask info s).2.2 = clearMask info log maskMap ∧ ((program info ready).prepare s).2 =
        programBytes info (clearMask info log maskMap) (List.range (info.mapSize / 8)) := by
  obtain ⟨-, -, hmask⟩ := updateEepromMask_spec info h.toInSync h.parsed
  unfold prepare at hne ⊢
  simp only at hne ⊢
  generalize updateEepromMask info s = r at hmask hne ⊢
  obtain ⟨ret, s₁, m⟩ := r
  cases ret with
  | success =>
    obtain ⟨-, maskMap, hm⟩ := hmask rfl
    simp only at hm hne ⊢
    subst hm
    cases hck : checkEfuseEnough info s₁ (clearMask info log maskMap) with
    | success => exact ⟨maskMap, rfl, rfl⟩
    | efuseParse | efuseSize | efuseWrite =>
      rw [hck] at hne; exact absurd rfl hne
  | efuseParse | efuseSize | efuseWrite => exact absurd rfl hne

/-- A call, and the byte behind which the power is lost, if it is. -/
abbrev Attempt (b : Bank) := LogOp b × Option ℕ

def step (b : Bank) (s : EfuseParam) (x : Attempt b) : EfuseParam :=
  match x.2 with
  | none => (x.1.call s).2
  | some n => x.1.lose s n

/-- The bytes of a call that are in their cells in the end. -/
def taken (s : EfuseParam) (x : Attempt b) : ℕ :=
  match x.2 with
  | none =>
    (x.1.prepare s).1.bytesTaken b (x.1.prepare s).1.efuseEnd (x.1.prepare s).2 x.1.ready
  | some n =>
    (x.1.prepare s).1.bytesTaken b (x.1.prepare s).1.efuseEnd ((x.1.prepare s).2.take n) fun _ => true

/-- A call that is let in, on a die that reports its errors or has none, and that does not end between the two bytes of
a header. -/
def Sound (b : Bank) (s : EfuseParam) (x : Attempt b) : Prop :=
  x.1.InRange ∧ (b.dav → ∀ k, x.1.ready k) ∧ ¬ x.1.CutsHeader s (taken s x)

theorem step_cells (h : Clean b s e log) {x : Attempt b} (hdav : b.dav → ∀ k, x.1.ready k)
    (hne : (x.1.prepare s).2 ≠ []) :
    (step b s x).InSync b ∧ taken s x ≤ (x.1.prepare s).2.length ∧
      At ((step b s x).readHwEfuse b) e ((x.1.prepare s).2.take (taken s x)) ∧
      ∀ i, i < e ∨ e + taken s x ≤ i → (step b s x).readHwEfuse b i = s.readHwEfuse b i := by
  obtain ⟨-, hread, hfits⟩ := prepare_spec h x.1
  obtain ⟨hend, hsize⟩ := hfits hne
  obtain ⟨op, cut⟩ := x
  cases cut with
  | none =>
    obtain ⟨e', hcall, -⟩ := op.call_eq s
    have hspec := (op.prepare s).1.writeBytes_spec (op.prepare s).2 hdav
      (by rw [hend]; exact hsize : (op.prepare s).1.efuseEnd + _ ≤ _)
    obtain ⟨hn, -, hvalid, hat, hkeep⟩ := hspec
    obtain ⟨hphy, hlog⟩ := hvalid hne
    rw [hend] at hcall hphy hlog hat hkeep hn
    rw [hread] at hkeep
    unfold step taken
    simp only
    rw [hend, hcall]; exact ⟨inSync_of_invalid hphy hlog, hn, hat, hkeep⟩
  | some k =>
    have hle : ((op.prepare s).2.take k).length ≤ (op.prepare s).2.length := by
      rw [List.length_take]; exact Nat.min_le_right _ _
    have hfit : (op.prepare s).1.efuseEnd + ((op.prepare s).2.take k).length ≤ b.physSize := by
      rw [hend]; exact Nat.le_trans (Nat.add_le_add_left hle e) hsize
    have hall : b.dav → ∀ _ : ℕ, true = true := fun _ _ => rfl
    obtain ⟨hn, -, -, hat, hkeep⟩ := (op.prepare s).1.writeBytes_spec ((op.prepare s).2.take k) hall hfit
    rw [List.take_take, Nat.min_eq_left (by rw [List.length_take] at hn; omega)] at hat
    rw [hread] at hkeep
    rw [hend] at hat hkeep hn
    unfold step taken
    simp only
    rw [hend]
    unfold lose
    rw [hend]; exact ⟨inSync_of_invalid rfl rfl, Nat.le_trans hn hle, hat, hkeep⟩

theorem step_nothing (h : Clean b s e log) {x : Attempt b} (hnil : (x.1.prepare s).2 = []) :
    Clean b (step b s x) e log := by
  obtain ⟨hclean, hread, -⟩ := prepare_spec h x.1
  obtain ⟨op, cut⟩ := x
  cases cut with
  | none =>
    obtain ⟨e', hcall, he'⟩ := op.call_eq s
    rw [he' hnil, hnil] at hcall
    unfold step
    simp only
    rw [hcall]; exact hclean
  | some k =>
    refine h.keep ?_ (inSync_of_invalid rfl rfl)
    unfold step lose
    simp only
    rw [hnil, List.take_nil]; exact hread

theorem step_clean (h : Clean b s e log) {x : Attempt b} (hx : Sound b s x) :
    ∃ e' log', Clean b (step b s x) e' log' ∧ ∀ a, ¬ x.1.Addresses a → log' a = log a := by
  obtain ⟨hrange, hdav, hcut⟩ := hx
  by_cases hne : (x.1.prepare s).2 = []
  · exact ⟨e, log, step_nothing h hne, fun _ _ => rfl⟩
  · obtain ⟨-, -, hfits⟩ := prepare_spec h x.1
    obtain ⟨hend, hsize⟩ := hfits hne
    obtain ⟨hsync, hn, hat, hkeep⟩ := step_cells h hdav hne
    have hlogged : Logged b ((step b s x).readHwEfuse b) e log :=
      h.logged.keep fun i hi => hkeep i (.inl hi)
    have hblank : Blank b ((step b s x).readHwEfuse b) (e + taken s x) := fun i hi hlt => by
      rw [hkeep i (.inr hi)]; exact h.blank i (by omega) hlt
    obtain ⟨op, cut⟩ := x
    cases op with
    | write w =>
      have hoff : w.offset < b.logSize := hrange
      have hk : w.offset % 8 / 2 < 4 := by omega
      have hbytes := prepare_write h w hne
      have hlen : (wordBytes log w.offset w.value).length =
          wordCells (oneWordEn (UInt8.ofNat (w.offset % 8 / 2))) [0, 1, 2, 3] := by
        rw [wordBytes_length, oneWordEn_cells _ hk]
      have hcut' : ¬ (taken s (write w, cut) = 1 ∧ (headerBytes b w.offset).length = 2) := hcut
      simp only at hat hn hsize
      rw [hbytes] at hat hn hsize
      rw [headerBytes_eq] at hat hn hsize hcut'
      rw [List.length_append] at hn hsize
      obtain ⟨e', log', hlog', hblank', hother⟩ := torn_entry hoff rfl (oneWordEn_lt _ hk)
        (fun i hi hp => by rw [(oneWordEn_bit _ hk i hi).mp hp]; omega) hlen (by omega) hn hcut' hlogged hat
        hblank
      refine ⟨e', log', ⟨hsync, hlog', hblank'⟩, fun a ha => hother a fun i hi hp heq => ha ?_⟩
      show a / 2 = w.offset / 2
      rw [(oneWordEn_bit _ hk i hi).mp hp] at heq; omega
    | program info ready =>
      obtain ⟨maskMap, hm, hbytes⟩ := prepare_program h info ready hne
      have hcut' : ¬ Efuse.CutsHeader info (updateEepromMask info s).2.2
          (List.range (info.mapSize / 8)) (taken s (program info ready, cut)) := hcut
      rw [hm] at hcut'
      simp only at hat hn hsize
      rw [hbytes] at hat hn hsize
      obtain ⟨e', log', hlog', hblank', hother⟩ := torn_blocks info (block_lt info) hsize hn hcut'
        hlogged hat hblank
      refine ⟨e', log', ⟨hsync, hlog', hblank'⟩, fun a ha => hother a fun hsel => ha ?_⟩
      exact (clearMask_cleared info log maskMap (a / 8) (a % 8 / 2) (by omega)).1 hsel.2

theorem call_success (h : Clean b s e log) {op : LogOp b} (hrange : op.InRange)
    (hdav : b.dav → ∀ k, op.ready k) (hok : (op.call s).1 = .success) :
    ∃ p, (op.call s).2.parsed b = some p ∧ p.log = op.apply log := by
  cases op with
  | write w =>
    have happ : s.Appends b w := by
      intro p hp hne
      rw [h.parsed] at hp
      cases hp
      refine ⟨rfl, ?_⟩
      obtain ⟨s₁, hs₁, -, -, hlog, hend⟩ := h.read
      have hsize : ¬ b.physSize ≤ 4 + s₁.efuseEnd := by
        intro hle
        unfold call procWriteLogEfuse at hok
        simp only [hs₁] at hok
        rw [hlog, if_neg hne, if_pos hle] at hok; exact nomatch hok
      have hlen := (headerBytes_length b w.offset).2
      exact h.blank _ (by simp only; omega) (by simp only; omega)
    obtain ⟨-, p, hp, hlog⟩ := write_spec h.toCoherent h.parsed hrange hdav hok happ
    exact ⟨p, hp, hlog⟩
  | program info ready =>
    have happ : PgAppends info s := by
      intro p hp bytes _
      rw [h.parsed] at hp
      cases hp
      exact ⟨rfl, (h.blank.mono (Nat.le_add_right e bytes.length)).stop⟩
    exact (procPgEfuseByMap_spec info h.toInSync h.parsed hdav happ).1 hok

/-- **A run of attempts.** The map that is parsed behind each of them differs from the one before in the words of this
attempt only, and is what the call is to make of it when it succeeds. -/
theorem torn_run (h : Clean b s e log) {xs : List (Attempt b)} (hxs : Legal (step b) (Sound b) s xs)
    {pre : List (Attempt b)} {x : Attempt b} (hpre : pre ++ [x] <+: xs) :
    ∃ p p', (pre.foldl (step b) s).parsed b = some p ∧ (step b (pre.foldl (step b) s) x).parsed b = some p' ∧
      (x.2 = none → (x.1.call (pre.foldl (step b) s)).1 = .success → p'.log = x.1.apply p.log) ∧
      ∀ a, ¬ x.1.Addresses a → p'.log a = p.log a := by
  have hstart : ∃ e log, Clean b s e log := ⟨e, log, h⟩
  have hclean : ∃ e log, Clean b (pre.foldl (step b) s) e log :=
    hxs.keeps (B := fun _ _ => False) (J := fun s => ∃ e log, Clean b s e log) hstart
      (fun s x ⟨e, log, h⟩ hx _ => by
        obtain ⟨e', log', h', -⟩ := step_clean h hx
        exact ⟨e', log', h'⟩)
      (fun _ _ _ => id) ((List.prefix_append pre [x]).trans hpre)
  have hx := hxs.last hpre
  generalize pre.foldl (step b) s = s₁ at hclean hx ⊢
  obtain ⟨e₁, log₁, h₁⟩ := hclean
  obtain ⟨e₂, log₂, h₂, hother⟩ := step_clean h₁ hx
  refine ⟨_, _, h₁.parsed, h₂.parsed, fun hcut hok => ?_, hother⟩
  obtain ⟨op, cut⟩ := x
  cases hcut
  obtain ⟨p, hp, hlog⟩ := call_success h₁ hx.1 hx.2.1 hok
  have heq : some p = some ⟨log₂, e₂, false⟩ := hp.symm.trans h₂.parsed
  rw [← Option.some.inj heq]; exact hlog

theorem ofCells_clean (b : Bank) : Clean b (ofCells b []) b.secCtrl fun _ => 0xFF where
  toInSync := ofCells_inSync b []
  logged := .refl _ _
  blank i _ hlt := by
    unfold readHwEfuse; exact if_pos hlt

/-- A byte that is written when the hardware takes the first `n` cells only, and then once more. -/
def again (n : ℕ) : List (Attempt wifiBank) :=
  [(write ⟨0, 0x12, fun k => decide (k < n)⟩, none), (write ⟨0, 0x12, fun _ => true⟩, none)]

/-- Cut off behind its header. -/
theorem torn_run_some : ∃ p, ((again 2).foldl (step wifiBank) (ofCells wifiBank [])).parsed wifiBank =
    some p ∧ p.log 0 = 0x12 := by
  have hdav : wifiBank.dav → ∀ ready : ℕ → Bool, ∀ k, ready k := fun h => nomatch h
  have hruns : Legal (step wifiBank) (Sound wifiBank) (ofCells wifiBank []) (again 2) :=
    ⟨⟨(by decide : 0 < 2048), fun h => hdav h _, fun h => absurd h.1 (by decide)⟩,
      ⟨(by decide : 0 < 2048), fun h => hdav h _, fun h => absurd h.1 (by decide)⟩, trivial⟩
  obtain ⟨p, p', -, hp', hlog, -⟩ := torn_run (ofCells_clean wifiBank) hruns
    (List.prefix_refl ((again 2).take 1 ++ [(again 2).get ⟨1, by decide⟩]))
  refine ⟨p', hp', ?_⟩
  rw [hlog rfl (by decide)]
  show Function.update p.log 0 0x12 0 = 0x12
  exact Function.update_self 0 0x12 p.log

/-- Cut off between the two bytes of its header, the write is not read when it is made again. -/
theorem torn_header_misread : ¬ ∀ (b : Bank) (s : EfuseParam) (e : ℕ) (log : Bytes) (pre : List (Attempt b))
    (x : Attempt b), Clean b s e log →
    (∀ y ∈ pre ++ [x], y.1.InRange ∧ (b.dav → ∀ k, y.1.ready k)) →
    ∃ p p', (pre.foldl (step b) s).parsed b = some p ∧ (step b (pre.foldl (step b) s) x).parsed b = some p' ∧
      (x.2 = none → (x.1.call (pre.foldl (step b) s)).1 = .success → p'.log = x.1.apply p.log) ∧
      ∀ a, ¬ x.1.Addresses a → p'.log a = p.log a := by
  intro h
  have hdav : wifiBank.dav → ∀ ready : ℕ → Bool, ∀ k, ready k := fun h => nomatch h
  obtain ⟨p, p', -, hp', hlog, -⟩ := h wifiBank _ _ _ ((again 1).take 1)
    (write ⟨0, 0x12, fun _ => true⟩, none) (ofCells_clean wifiBank) fun y hy => by
      have hrange : y.1.InRange := by
        simp only [again, List.take, List.cons_append, List.nil_append, List.mem_cons,
          List.not_mem_nil, or_false] at hy
        obtain rfl | rfl := hy
        · exact (by decide : 0 < 2048)
        · exact (by decide : 0 < 2048)
      exact ⟨hrange, fun h => hdav h _⟩
  have hall : ((step wifiBank (((again 1).take 1).foldl (step wifiBank) (ofCells wifiBank []))
      (write ⟨0, 0x12, fun _ => true⟩, none)).parsed wifiBank).all fun p => p.log 0 = 0xFF := by
    decide
  rw [hp'] at hall
  have hnew : p'.log 0 = 0x12 := by
    rw [hlog rfl (by decide)]
    show Function.update p.log 0 0x12 0 = 0x12
    exact Function.update_self 0 0x12 p.log
  rw [of_decide_eq_true hall] at hnew; exact absurd hnew (by decide)

end LogOp

end Rtl8852cu.Efuse
