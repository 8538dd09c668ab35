import Rtl8852cu.Fwdl.SectionsDownload
import Rtl8852cu.Lib.WrapMem

/-!
# The writer of the chip's memory

`phl/hal_g6/mac/mac_ax/fwdl.c`, `__write_memory`: two words are written at the start and read back, as a probe; then the
bytes are copied and go out word by word through the window of indirect access, in segments of `ROMDL_SEG_LEN`. The
count of what is left of a segment is taken down by four, and only zero ends it.
-/

namespace Rtl8852cu.Fwdl

open Lib

/-- The codes that are returned by `__write_memory`. -/
inductive WriteRet
  | success
  | ioErrInSec
  | memRo
  | noBuf
  deriving DecidableEq, Repr

def rAxFilterModelAddr : ℕ := 0x0C04
def rAxIndirAccessEntry : ℕ := 0x40000
def romdlSegLen : ℕ := 0x40000

/-- Where the window is, the memory of the chip, and what was read of the buffer. -/
structure IndSt where
  filter : BitVec 32
  mem : BitVec 32 → UInt8
  reads : List Access

/-- `MAC_REG_W32`: where the window is, or a word in it; no other register is followed. -/
def IndSt.regW32 (s : IndSt) (addr : ℕ) (val : BitVec 32) : IndSt :=
  if addr = rAxFilterModelAddr then { s with filter := val }
  else if rAxIndirAccessEntry ≤ addr ∧ addr < rAxIndirAccessEntry + romdlSegLen then
    { s with mem := putBytes s.mem (s.filter + BitVec.ofNat 32 (addr - rAxIndirAccessEntry)) 4 (wordBytes val) }
  else s

/-- The inner loop of `__write_memory`; `none` where the fuel does not do. -/
def writeSeg (content : Mem) : ℕ → IndSt → ℕ → ℕ → ℕ → Option (IndSt × ℕ)
  | 0, _, _, _, _ => none
  | fuel + 1, s, segBytes, writeAddr, index =>
    if segBytes = 0 then some (s, index)
    else
      let s := { s with reads := s.reads ++ [(index, 4)] }
      let s := s.regW32 writeAddr (BitVec.ofNat 32 (le32 content index))
      writeSeg content fuel s ((segBytes + 2 ^ 32 - 4) % 2 ^ 32) ((writeAddr + 4) % 2 ^ 32) ((index + 4) % 2 ^ 32)

/-- The outer loop of `__write_memory`. -/
def writeSegs (content : Mem) (segFuel : ℕ) : ℕ → IndSt → BitVec 32 → ℕ → ℕ → Option IndSt
  | 0, _, _, _, _ => none
  | fuel + 1, s, targetAddr, dlSize, index =>
    if dlSize = 0 then some s
    else
      let s := s.regW32 rAxFilterModelAddr targetAddr
      let segSize := if romdlSegLen ≤ dlSize then romdlSegLen else dlSize
      match writeSeg content segFuel s segSize rAxIndirAccessEntry index with
      | none => none
      | some (s, index) =>
        writeSegs content segFuel fuel s (targetAddr + BitVec.ofNat 32 segSize) (dlSize - segSize) index

/-- `is_sec_ic`, what the two words of the probe are read back as, and whether `PLTFM_MALLOC` has the memory. -/
structure WriteEnv where
  isSecIc : Bool
  val0 : BitVec 32
  val1 : BitVec 32
  malloc : Bool

/-- `__write_memory`. The copy of the buffer has its bytes, and behind them what the heap has there. -/
def writeMemory (env : WriteEnv) (content : Mem) (s : IndSt) (addr : BitVec 32) (len fuel : ℕ) :
    Option (WriteRet × IndSt) :=
  if env.isSecIc = true then some (.ioErrInSec, s)
  else
    let s := s.regW32 rAxFilterModelAddr addr
    let s := s.regW32 rAxIndirAccessEntry 0xAAAAAAAA#32
    let s := s.regW32 (rAxIndirAccessEntry + 4) 0xBBBBBBBB#32
    if env.val0 ≠ 0xAAAAAAAA#32 then some (.memRo, s)
    else if env.val1 ≠ 0xBBBBBBBB#32 then some (.memRo, s)
    else if env.malloc = false then some (.noBuf, s)
    else
      let s := { s with reads := s.reads ++ [(0, len)] }
      (writeSegs content fuel fuel s addr len 0).map fun s => (.success, s)

/-! ### A word -/

variable {content : Mem} {s s' : IndSt}

@[simp] theorem regW32_filter (s : IndSt) (val : BitVec 32) :
    s.regW32 rAxFilterModelAddr val = { s with filter := val } := if_pos rfl

theorem regW32_window (s : IndSt) {o : ℕ} (ho : o < romdlSegLen) (val : BitVec 32) :
    s.regW32 (rAxIndirAccessEntry + o) val =
      { s with mem := putBytes s.mem (s.filter + BitVec.ofNat 32 o) 4 (wordBytes val) } := by
  unfold IndSt.regW32
  have hne : rAxIndirAccessEntry + o ≠ rAxFilterModelAddr := by
    unfold rAxIndirAccessEntry rAxFilterModelAddr; omega
  rw [if_neg hne, if_pos ⟨Nat.le_add_right _ _, Nat.add_lt_add_left ho _⟩, Nat.add_sub_cancel_left]

theorem wordBytes_le32 (m : Mem) (off : ℕ) : ∀ i < 4, wordBytes (BitVec.ofNat 32 (le32 m off)) i = m (off + i) := by
  have h0 := (m off).toNat_lt
  have h1 := (m (off + 1)).toNat_lt
  have h2 := (m (off + 2)).toNat_lt
  have h3 := (m (off + 3)).toNat_lt
  intro i hi
  rw [← UInt8.toNat_inj, wordBytes, UInt8.toNat_ofNat', BitVec.toNat_ofNat]
  unfold le32
  obtain rfl | rfl | rfl | rfl : i = 0 ∨ i = 1 ∨ i = 2 ∨ i = 3 := by omega
  · simp only [Nat.add_zero]; omega
  · omega
  · omega
  · omega

/-- The `n` bytes of the buffer from `index` on were written at `a`, and none behind them was read. -/
structure Wrote (content : Mem) (s : IndSt) (a : BitVec 32) (n index : ℕ) (s' : IndSt) : Prop where
  mem : s'.mem = putBytes s.mem a n (fun i => content (index + i))
  reads : ∀ r ∈ s'.reads, r ∈ s.reads ∨ r.1 + r.2 ≤ index + n

theorem Wrote.nil (s : IndSt) (a : BitVec 32) (index : ℕ) : Wrote content s a 0 index s where
  mem := putBytes_zero.symm
  reads _ hr := .inl hr

variable {n index : ℕ}

theorem Wrote.trans {s'' : IndSt} {a : BitVec 32} {k : ℕ} (h : Wrote content s a n index s')
    (h' : Wrote content s' (a + BitVec.ofNat 32 n) k (index + n) s'') (hn : n + k ≤ 2 ^ 32) :
    Wrote content s a (n + k) index s'' where
  mem := by
    rw [h'.mem, h.mem, ← putBytes_append hn]
    exact putBytes_congr fun i _ => congrArg content (Nat.add_assoc index n i)
  reads r hr := by
    rcases h'.reads r hr with hr | hr
    · rcases h.reads r hr with hr | hr
      · exact .inl hr
      · exact .inr (by omega)
    · exact .inr (by omega)

theorem wrote_word (s : IndSt) {o : ℕ} (ho : o < romdlSegLen) : Wrote content s (s.filter + BitVec.ofNat 32 o) 4 index
      (IndSt.regW32 { s with reads := s.reads ++ [(index, 4)] } (rAxIndirAccessEntry + o)
        (BitVec.ofNat 32 (le32 content index))) := by
  rw [regW32_window _ ho]
  refine ⟨putBytes_congr (wordBytes_le32 content index), fun r hr => ?_⟩
  rcases List.mem_append.mp hr with hr | hr
  · exact .inl hr
  · rw [List.mem_singleton.mp hr]; exact .inr (Nat.le_refl _)

/-! ### A segment -/

variable {segBytes : ℕ}

theorem writeSeg_stuck (fuel : ℕ) (s : IndSt) (h : ¬ 4 ∣ segBytes) (writeAddr index : ℕ) :
    writeSeg content fuel s segBytes writeAddr index = none := by
  induction fuel generalizing s segBytes writeAddr index with
  | zero => rfl
  | succ fuel ih =>
    have hne : segBytes ≠ 0 := by
      rintro rfl
      exact h (Nat.dvd_zero 4)
    rw [writeSeg, if_neg hne]; exact ih _ (by omega) _ _

theorem writeSeg_isSome (content : Mem) (fuel : ℕ) (s : IndSt) (h4 : 4 ∣ segBytes) (hlt : segBytes < 2 ^ 32)
    (hfuel : segBytes < fuel) (writeAddr index : ℕ) :
    (writeSeg content fuel s segBytes writeAddr index).isSome = true := by
  induction fuel generalizing s segBytes writeAddr index with
  | zero => omega
  | succ fuel ih =>
    rw [writeSeg]
    by_cases hz : segBytes = 0
    · rw [if_pos hz]; rfl
    rw [if_neg hz]; exact ih _ (by omega) (by omega) (by omega) _ _

theorem writeSeg_spec {fuel : ℕ} {o index' : ℕ}
    (h : writeSeg content fuel s segBytes (rAxIndirAccessEntry + o) index = some (s', index')) (h4 : 4 ∣ segBytes)
    (ho : o + segBytes ≤ romdlSegLen) (hindex : index + segBytes < 2 ^ 32) :
    Wrote content s (s.filter + BitVec.ofNat 32 o) segBytes index s' ∧ index' = index + segBytes := by
  induction fuel generalizing s segBytes o index with
  | zero => exact absurd h nofun
  | succ fuel ih =>
    rw [writeSeg] at h
    by_cases hz : segBytes = 0
    · rw [if_pos hz] at h
      cases h
      subst hz; exact ⟨.nil _ _ _, rfl⟩
    obtain ⟨n, rfl⟩ : ∃ n, segBytes = 4 + n := ⟨segBytes - 4, by omega⟩
    have hlen : romdlSegLen = 0x40000 := rfl
    have hentry : rAxIndirAccessEntry = 0x40000 := rfl
    have hseg : (4 + n + 2 ^ 32 - 4) % 2 ^ 32 = n := by omega
    have haddr : (rAxIndirAccessEntry + o + 4) % 2 ^ 32 = rAxIndirAccessEntry + (o + 4) := by omega
    have hidx : (index + 4) % 2 ^ 32 = index + 4 := Nat.mod_eq_of_lt (by omega)
    rw [if_neg hz, hseg, haddr, hidx] at h
    have hword : Wrote content s _ 4 index _ := wrote_word s (show o < romdlSegLen by omega)
    obtain ⟨hrest, hindex'⟩ := ih h (by omega) (by omega) (by omega)
    rw [regW32_window _ (by omega)] at hword hrest
    have hnext : s.filter + BitVec.ofNat 32 (o + 4) = s.filter + BitVec.ofNat 32 o + BitVec.ofNat 32 4 := by
      rw [BitVec.ofNat_add, BitVec.add_assoc]
    rw [hnext] at hrest; exact ⟨hword.trans hrest (by omega), by omega⟩

/-! ### All segments -/

theorem segSize_le (hn : n ≠ 0) :
    0 < (if romdlSegLen ≤ n then romdlSegLen else n) ∧ (if romdlSegLen ≤ n then romdlSegLen else n) ≤ n ∧
      (if romdlSegLen ≤ n then romdlSegLen else n) ≤ romdlSegLen := by
  have hlen : romdlSegLen = 0x40000 := rfl
  split <;> omega

theorem four_dvd_segSize : 4 ∣ n ↔ 4 ∣ (if romdlSegLen ≤ n then romdlSegLen else n) ∧
      4 ∣ n - (if romdlSegLen ≤ n then romdlSegLen else n) := by
  have hlen : romdlSegLen = 0x40000 := rfl
  split <;> omega

theorem writeSegs_stuck (segFuel fuel : ℕ) (s : IndSt) (target : BitVec 32) (h : ¬ 4 ∣ n) (index : ℕ) :
    writeSegs content segFuel fuel s target n index = none := by
  induction fuel generalizing s target n index with
  | zero => rfl
  | succ fuel ih =>
    have hne : n ≠ 0 := by
      rintro rfl
      exact h (Nat.dvd_zero 4)
    rw [writeSegs, if_neg hne]
    simp only
    by_cases hseg : 4 ∣ (if romdlSegLen ≤ n then romdlSegLen else n)
    · split
      · rfl
      · exact ih _ _ (fun hrest => h (four_dvd_segSize.mpr ⟨hseg, hrest⟩)) _
    · rw [writeSeg_stuck _ _ hseg]

theorem writeSegs_isSome (content : Mem) {segFuel : ℕ} (hsegFuel : romdlSegLen < segFuel) (fuel : ℕ) (s : IndSt) (target : BitVec 32)
    (h4 : 4 ∣ n) (hfuel : n < fuel) (index : ℕ) :
    (writeSegs content segFuel fuel s target n index).isSome = true := by
  induction fuel generalizing s target n index with
  | zero => omega
  | succ fuel ih =>
    rw [writeSegs]
    by_cases hz : n = 0
    · rw [if_pos hz]; rfl
    rw [if_neg hz]
    simp only
    obtain ⟨hpos, hle, hseg⟩ := segSize_le hz
    obtain ⟨hd, hd'⟩ := four_dvd_segSize.mp h4
    have hlen : romdlSegLen = 0x40000 := rfl
    obtain ⟨r, hr⟩ := Option.isSome_iff_exists.mp (writeSeg_isSome content segFuel
      (s.regW32 rAxFilterModelAddr target) hd (by omega) (by omega) rAxIndirAccessEntry index)
    rw [hr]; exact ih _ _ hd' (by omega) _

theorem writeSegs_spec {segFuel fuel : ℕ} {target : BitVec 32}
    (h : writeSegs content segFuel fuel s target n index = some s') (h4 : 4 ∣ n) (hindex : index + n < 2 ^ 32) :
    Wrote content s target n index s' := by
  induction fuel generalizing s target n index with
  | zero => exact absurd h nofun
  | succ fuel ih =>
    rw [writeSegs] at h
    by_cases hz : n = 0
    · rw [if_pos hz] at h
      cases h
      subst hz; exact .nil _ _ _
    rw [if_neg hz] at h
    simp only [regW32_filter] at h
    obtain ⟨hpos, hle, hseg⟩ := segSize_le hz
    obtain ⟨hd, hd'⟩ := four_dvd_segSize.mp h4
    generalize (if romdlSegLen ≤ n then romdlSegLen else n) = seg at h hpos hle hseg hd hd'
    split at h
    · exact absurd h nofun
    · next s₁ index₁ hrun =>
      obtain ⟨hfirst, rfl⟩ := writeSeg_spec (o := 0) hrun hd (by omega) (by omega)
      have hrest := ih h hd' (by omega)
      rw [BitVec.add_zero] at hfirst
      have hwrote := hfirst.trans hrest (by omega)
      rw [Nat.add_sub_cancel' hle] at hwrote; exact ⟨hwrote.mem, hwrote.reads⟩

/-! ### The writer -/

def probeByte (i : ℕ) : UInt8 := if i < 4 then 0xAA else 0xBB

def afterProbe (s : IndSt) (addr : BitVec 32) : IndSt :=
  { s with filter := addr, mem := putBytes s.mem addr 8 probeByte }

theorem afterProbe_eq (s : IndSt) (addr : BitVec 32) :
    ((s.regW32 rAxFilterModelAddr addr).regW32 rAxIndirAccessEntry 0xAAAAAAAA#32).regW32 (rAxIndirAccessEntry + 4)
      0xBBBBBBBB#32 = afterProbe s addr := by
  have hfirst := regW32_window { s with filter := addr } (o := 0) (by decide) 0xAAAAAAAA#32
  rw [Nat.add_zero] at hfirst
  rw [regW32_filter, hfirst, regW32_window _ (by decide)]
  simp only [BitVec.add_zero, afterProbe, IndSt.mk.injEq, and_true, true_and]
  have haa : putBytes s.mem addr 4 (wordBytes 0xAAAAAAAA#32) = putBytes s.mem addr 4 probeByte :=
    putBytes_congr (by decide)
  have hbb (mem : BitVec 32 → UInt8) (a : BitVec 32) :
      putBytes mem a 4 (wordBytes 0xBBBBBBBB#32) = putBytes mem a 4 (fun i => probeByte (4 + i)) :=
    putBytes_congr (by decide)
  rw [haa, hbb, putBytes_append (by decide)]

/-- The writer does not come to its copy. -/
def WriteEnv.Refuses (env : WriteEnv) : Prop :=
  env.isSecIc = true ∨ env.val0 ≠ 0xAAAAAAAA#32 ∨ env.val1 ≠ 0xBBBBBBBB#32 ∨ env.malloc = false

/-- A call ends, reads nothing behind the `len` bytes of the buffer, and where it returns `MACSUCCESS` memory has these
at `addr` and is otherwise as it was. -/
def MemoryWritten (env : WriteEnv) (content : Mem) (filter : BitVec 32) (mem : BitVec 32 → UInt8) (addr : BitVec 32)
    (len : ℕ) : Prop :=
  ∃ fuel ret s, writeMemory env content ⟨filter, mem, []⟩ addr len fuel = some (ret, s) ∧
    (∀ r ∈ s.reads, r.1 + r.2 ≤ len) ∧ (ret = .success → s.mem = putBytes mem addr len content)

/-- The buffer hides the probe, or memory had it behind the buffer before. -/
def ProbeHidden (mem : BitVec 32 → UInt8) (addr : BitVec 32) (len : ℕ) : Prop :=
  ∀ i, len ≤ i → i < 8 → mem (addr + BitVec.ofNat 32 i) = probeByte i

theorem writeMemory_refused (content : Mem) {env : WriteEnv} (h : env.Refuses) (s : IndSt) (addr : BitVec 32) (len fuel : ℕ) :
    ∃ ret s', writeMemory env content s addr len fuel = some (ret, s') ∧ ret ≠ .success ∧ s'.reads = s.reads := by
  unfold writeMemory
  simp only [afterProbe_eq]
  by_cases hsec : env.isSecIc = true
  · exact ⟨_, _, if_pos hsec, nofun, rfl⟩
  rw [if_neg hsec]
  by_cases h0 : env.val0 = 0xAAAAAAAA#32
  · rw [if_neg (not_not.mpr h0)]
    by_cases h1 : env.val1 = 0xBBBBBBBB#32
    · rw [if_neg (not_not.mpr h1)]
      have hmalloc : env.malloc = false := by
        rcases h with h | h | h | h
        · exact absurd h hsec
        · exact absurd h0 h
        · exact absurd h1 h
        · exact h
      exact ⟨_, _, if_pos hmalloc, nofun, rfl⟩
    · exact ⟨_, _, if_pos h1, nofun, rfl⟩
  · exact ⟨_, _, if_pos h0, nofun, rfl⟩

theorem writeMemory_copies (content : Mem) {env : WriteEnv} (h : ¬ env.Refuses) (s : IndSt) (addr : BitVec 32) (len fuel : ℕ) :
    writeMemory env content s addr len fuel =
      (writeSegs content fuel fuel { afterProbe s addr with reads := s.reads ++ [(0, len)] } addr len 0).map
        fun s => (.success, s) := by
  obtain ⟨hsec, h⟩ := not_or.mp h
  obtain ⟨h0, h⟩ := not_or.mp h
  obtain ⟨h1, hmalloc⟩ := not_or.mp h
  unfold writeMemory
  simp only [afterProbe_eq]
  rw [if_neg hsec, if_neg h0, if_neg h1, if_neg hmalloc]; rfl

theorem memoryWritten_iff (env : WriteEnv) (content : Mem) (filter : BitVec 32) (mem : BitVec 32 → UInt8)
    (addr : BitVec 32) {len : ℕ} (hlen : len < 2 ^ 32) :
    MemoryWritten env content filter mem addr len ↔ env.Refuses ∨ 4 ∣ len ∧ ProbeHidden mem addr len := by
  by_cases href : env.Refuses
  · refine ⟨fun _ => .inl href, fun _ => ?_⟩
    obtain ⟨ret, s, hrun, hret, hreads⟩ := writeMemory_refused content href ⟨filter, mem, []⟩ addr len 0
    refine ⟨0, ret, s, hrun, fun r hr => ?_, fun h => absurd h hret⟩
    rw [hreads] at hr; cases hr
  have hcopies (fuel : ℕ) := writeMemory_copies content href ⟨filter, mem, []⟩ addr len fuel
  by_cases h4 : 4 ∣ len
  · -- the loops end, and what is in memory then is the buffer over the probe
    have hspec {fuel : ℕ} {ret : WriteRet} {s : IndSt}
        (hrun : writeMemory env content ⟨filter, mem, []⟩ addr len fuel = some (ret, s)) :
        ret = .success ∧ (∀ r ∈ s.reads, r.1 + r.2 ≤ len) ∧
          s.mem = putBytes (putBytes mem addr 8 probeByte) addr len content := by
      rw [hcopies, Option.map_eq_some_iff] at hrun
      obtain ⟨s', hrun, heq⟩ := hrun
      cases heq
      have hwrote := writeSegs_spec hrun h4 (by omega)
      refine ⟨rfl, fun r hr => ?_, ?_⟩
      · rcases hwrote.reads r hr with hr | hr
        · rw [List.mem_singleton.mp hr]
          simp only
          omega
        · omega
      · rw [hwrote.mem]; exact putBytes_congr fun i _ => congrArg content (Nat.zero_add i)
    have hhidden : putBytes (putBytes mem addr 8 probeByte) addr len content = putBytes mem addr len content ↔
        ProbeHidden mem addr len := putBytes_over_iff (by decide)
    constructor
    · rintro ⟨fuel, ret, s, hrun, -, hmem⟩
      obtain ⟨hret, -, hmem'⟩ := hspec hrun
      exact .inr ⟨h4, hhidden.mp (hmem' ▸ hmem hret)⟩
    · intro h
      obtain ⟨-, hprobe⟩ := h.resolve_left href
      have hsome := writeSegs_isSome content (show romdlSegLen < len + romdlSegLen + 1 by omega)
        (len + romdlSegLen + 1) { afterProbe ⟨filter, mem, []⟩ addr with reads := [] ++ [(0, len)] } addr h4 (by omega) 0
      obtain ⟨s, hs⟩ := Option.isSome_iff_exists.mp hsome
      have hrun : writeMemory env content ⟨filter, mem, []⟩ addr len (len + romdlSegLen + 1) = some (.success, s) := by
        rw [hcopies, hs]; rfl
      obtain ⟨-, hreads, hmem⟩ := hspec hrun
      exact ⟨_, _, _, hrun, hreads, fun _ => hmem.trans (hhidden.mpr hprobe)⟩
  · constructor
    · rintro ⟨fuel, ret, s, hrun, -⟩
      rw [hcopies, writeSegs_stuck _ _ _ _ h4] at hrun; exact absurd hrun nofun
    · intro h; exact absurd (h.resolve_left href).1 h4

/-- **A section of any content and length goes to the chip as it should, as packets and through the window, exactly when
its last packet does with the short descriptor and the writer is refused, or writes whole words that hide the probe.** -/
theorem fwdl_write_iff (usb : Bool) (env : WriteEnv) (content : Mem) (filter : BitVec 32) (mem : BitVec 32 → UInt8)
    (addr len : BitVec 32) :
    SectionSent usb content len.toNat ∧ MemoryWritten env content filter mem addr len.toNat ↔
      LastFits usb len.toNat ∧ (env.Refuses ∨ 4 ∣ len.toNat ∧ ProbeHidden mem addr len.toNat) := by
  rw [sectionSent_iff, memoryWritten_iff env content filter mem addr len.isLt]

/-- On USB a section of 496 bytes is not sent, and a buffer of six bytes is never written to the end. -/
theorem sections_stuck : ¬ SectionSent true (fun _ => 0) 496 ∧
      ¬ MemoryWritten ⟨false, 0xAAAAAAAA#32, 0xBBBBBBBB#32, true⟩ (fun _ => 0) 0 (fun _ => 0) 0 6 := by
  rw [sectionSent_iff]
  refine ⟨by decide, ?_⟩
  rintro ⟨fuel, ret, s, hrun, -⟩
  have hnot : ¬ WriteEnv.Refuses ⟨false, 0xAAAAAAAA#32, 0xBBBBBBBB#32, true⟩ := by
    rintro (h | h | h | h)
    · exact absurd h nofun
    · exact absurd rfl h
    · exact absurd rfl h
    · exact absurd h nofun
  rw [writeMemory_copies _ hnot, writeSegs_stuck _ _ _ _ (by decide)] at hrun
  exact absurd hrun nofun

end Rtl8852cu.Fwdl
