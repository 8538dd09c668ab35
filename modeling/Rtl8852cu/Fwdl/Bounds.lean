import Rtl8852cu.Fwdl.Parser
import Mathlib.Algebra.Order.BigOperators.Group.List
import Mathlib.Algebra.Order.Group.Nat

/-!
# When the parser of a firmware image stays inside of it

The parser compares sizes at the end of its walk only, and nothing bounds the number of sections.

* `SectionsFit`: what the walk over the section headers touches is inside of the image, and the table of
  `struct fw_bin_info` has room.
* `parseSections_within`: so it is, exactly then.
* `parseSections_eq`: what the walk leaves, in terms of `sectionsOf`.
* `fwhdrParser_safe_iff`: the accesses, the table and the lengths of the whole parser.
-/

namespace Rtl8852cu.Fwdl

/-! ### The fields of the fixed header -/

def secNum (fw : Mem) : ℕ := getField (le32 fw 24) 8 0xff
def fwhdrSz (fw : Mem) : ℕ := getField (le32 fw 12) 16 0xff
def dynHdr (fw : Mem) : Bool := getField (le32 fw 28) 16 0x1 ≠ 0

/-- The length behind the section headers, as 32 bits have it. -/
def restLen (fw : Mem) : ℕ := (((fwhdrSz fw : ℤ) - staticLen (secNum fw)) % 2 ^ 32).toNat

/-- The length in the header is the one of its parts. -/
def HeaderAgrees (fw : Mem) : Prop :=
  if dynHdr fw then le32 fw (staticLen (secNum fw)) = restLen fw
  else staticLen (secNum fw) = fwhdrSz fw

instance (fw : Mem) : Decidable (HeaderAgrees fw) := by unfold HeaderAgrees; infer_instance

/-- The image with the length of the parts filled in. -/
def filled (fw : Mem) : Mem := setLe32 fw 28 (setClrWord (le32 fw 28) fwdlSectionPerPktLen 0 0xffff)

/-! ### The sections of an image -/

/-- The sections that the headers `is` describe, the first one at `ptr`; `none` where no key can be selected. -/
def sectionsOf (env : FwEnv) : List ℕ → Mem → ℕ → Option (List FwhdrSectionInfo)
  | [], _, _ => some []
  | i :: is, m, ptr =>
    let sec := fwhdrSectionParser m (staticLen i) ptr
    if sec.Signed then
      match mssIndex (env.efuse i) with
      | none => none
      | some idx =>
        (sectionsOf env is (memcpy m (ptr + fwdlSecuritySectionConstant)
          (ptr + sec.len + idx * fwdlSecuritySiglen) fwdlSecuritySiglen) (ptr + sec.len)).map (sec :: ·)
    else (sectionsOf env is m (ptr + sec.len)).map (sec :: ·)

/-- **The walk stays inside**: there is an entry for each section, its header is in the image, and so are a selected
signature and the place it is copied to. -/
def SectionsFit (env : FwEnv) (len : ℕ) : List ℕ → Mem → ℕ → Prop
  | [], _, _ => True
  | i :: is, m, ptr =>
    let sec := fwhdrSectionParser m (staticLen i) ptr
    i < fwdlSectionMaxNum ∧
    staticLen i + (if sec.type = fwdlSecuritySectionType then 12 else 8) ≤ len ∧
    if sec.Signed then
      match mssIndex (env.efuse i) with
      | none => True
      | some idx =>
        ptr + fwdlSecuritySectionConstant + fwdlSecuritySiglen ≤ len ∧
        ptr + sec.len + idx * fwdlSecuritySiglen + fwdlSecuritySiglen ≤ len ∧
        SectionsFit env len is (memcpy m (ptr + fwdlSecuritySectionConstant)
          (ptr + sec.len + idx * fwdlSecuritySiglen) fwdlSecuritySiglen) (ptr + sec.len)
    else SectionsFit env len is m (ptr + sec.len)

/-- Sections one behind the other, from `ptr` on. -/
def Consecutive : ℕ → List FwhdrSectionInfo → Prop
  | _, [] => True
  | ptr, sec :: secs => sec.addr = ptr ∧ Consecutive (ptr + sec.len) secs

def sectionBytes (secs : List FwhdrSectionInfo) : ℕ := (secs.map (·.len)).sum

def signatureBytes (secs : List FwhdrSectionInfo) : ℕ := (secs.map (·.mssc * fwdlSecuritySiglen)).sum

def signatureBytes32 (secs : List FwhdrSectionInfo) : ℕ :=
  (secs.map (·.mssc * fwdlSecuritySiglen % 2 ^ 32)).sum

/-! ### What the parser is to do -/

/-- Every access is inside of `len` bytes. -/
def InBounds (len : ℕ) (accesses : List Access) : Prop := ∀ a ∈ accesses, a.1 + a.2 ≤ len

/-- **The image is accounted for**: header, sections and signatures. -/
structure Accounted (len : ℕ) (info : FwBinInfo) : Prop where
  header : staticLen info.sectionNum + info.dynamicHdrLen = info.hdrLen
  consecutive : Consecutive info.hdrLen info.sectionInfo
  inside : ∀ sec ∈ info.sectionInfo, sec.addr + sec.len ≤ len
  total : info.hdrLen + sectionBytes info.sectionInfo + signatureBytes info.sectionInfo = len

/-- No access is outside, no entry is behind the table, and an image that is taken is accounted for. -/
structure Safe (len : ℕ) (r : FwStatus × ParserSt) : Prop where
  inBounds : InBounds len r.2.accesses
  room : r.2.info.sectionInfo.length ≤ fwdlSectionMaxNum
  accounted : r.1 = .success → Accounted len r.2.info

/-- **The images that are parsed safely.** -/
def Fits (env : FwEnv) (fw : Mem) (len : ℕ) : Prop :=
  len = 0 ∨ (fwhdrHdrLen ≤ len ∧ (dynHdr fw → staticLen (secNum fw) + 4 ≤ len) ∧ (HeaderAgrees fw →
        SectionsFit env len (List.range (secNum fw)) (filled fw) (fwhdrSz fw) ∧
        ∀ secs, sectionsOf env (List.range (secNum fw)) (filled fw) (fwhdrSz fw) = some secs →
          (∀ sec ∈ secs, sec.dladdr ≠ env.pleBase) →
          fwhdrSz fw + sectionBytes secs + signatureBytes32 secs = len →
          staticLen (secNum fw) ≤ fwhdrSz fw ∧ ∀ sec ∈ secs, sec.mssc * fwdlSecuritySiglen < 2 ^ 32))

/-! ### The fixed header is parsed -/

theorem le32_setLe32 {m : Mem} {off off' v : ℕ} (h : off + 4 ≤ off' ∨ off' + 4 ≤ off) :
    le32 (setLe32 m off v) off' = le32 m off' := by
  have e : ∀ k < 4, setLe32 m off v (off' + k) = m (off' + k) := by
    intro k hk
    unfold setLe32
    rw [if_neg (by omega), if_neg (by omega), if_neg (by omega), if_neg (by omega)]
  have e0 := e 0 (by omega)
  rw [Nat.add_zero] at e0
  simp only [le32, e0, e 1 (by omega), e 2 (by omega), e 3 (by omega)]

theorem getField_filled (w : ℕ) :
    getField (setClrWord w fwdlSectionPerPktLen 0 0xffff) 16 0x1 = getField w 16 0x1 := by
  unfold getField setClrWord
  rw [Nat.shiftRight_or_distrib, Nat.shiftRight_and_distrib]
  have hv : ((fwdlSectionPerPktLen &&& 0xffff) <<< 0) >>> 16 = 0 := by decide
  rw [hv, Nat.or_zero, Nat.and_assoc]; rfl

/-- The words of the fixed header that are touched before the lengths are compared. -/
def hdrAccesses (fw : Mem) : List Access :=
  [(24, 4), (12, 4), (28, 4), (28, 4)] ++ if dynHdr fw then [(staticLen (secNum fw), 4)] else []

variable {s : ParserSt}

theorem fwhdrHdrParser_eq (hacc : s.accesses = []) : ∃ s', (fwhdrHdrParser s).2 = s' ∧
      ((fwhdrHdrParser s).1 = .success ↔ HeaderAgrees s.mem) ∧
      s'.accesses = hdrAccesses s.mem ++ (if HeaderAgrees s.mem then [(8, 4)] else []) ∧
      s'.mem = filled s.mem ∧ s'.fwEnd = s.fwEnd ∧
      s'.info.sectionInfo = s.info.sectionInfo ∧
      s'.info.sectionNum = secNum s.mem ∧ s'.info.hdrLen = fwhdrSz s.mem ∧
      (HeaderAgrees s.mem → s'.info.dynamicHdrLen = if dynHdr s.mem then restLen s.mem else 0) := by
  have hval : le32 (filled s.mem) (staticLen (secNum s.mem)) = le32 s.mem (staticLen (secNum s.mem)) := by
    refine le32_setLe32 (.inl ?_)
    have : fwhdrHdrLen = 32 := rfl
    unfold staticLen; omega
  refine ⟨_, rfl, ?_⟩
  by_cases hd : getField (le32 s.mem 28) 16 0x1 ≠ 0
  · have hdyn : dynHdr s.mem = true := by simpa [dynHdr] using hd
    by_cases ha : le32 s.mem (staticLen (secNum s.mem)) = restLen s.mem
    · simp_all [fwhdrHdrParser, HeaderAgrees, hdrAccesses, getField_filled, filled, secNum, fwhdrSz, restLen]
    · simp_all [fwhdrHdrParser, HeaderAgrees, hdrAccesses, getField_filled, filled, secNum, fwhdrSz, restLen]
  · have hdyn : dynHdr s.mem = false := by simpa [dynHdr] using hd
    by_cases ha : staticLen (secNum s.mem) = fwhdrSz s.mem
    · simp_all [fwhdrHdrParser, HeaderAgrees, hdrAccesses, getField_filled, filled, secNum, fwhdrSz]
    · simp_all [fwhdrHdrParser, HeaderAgrees, hdrAccesses, getField_filled, filled, secNum, fwhdrSz]

/-! ### The walk over the sections -/

@[simp] theorem inBounds_append {len : ℕ} {l l' : List Access} :
    InBounds len (l ++ l') ↔ InBounds len l ∧ InBounds len l' := List.forall_mem_append

@[simp] theorem inBounds_cons {len : ℕ} {a : Access} {l : List Access} :
    InBounds len (a :: l) ↔ a.1 + a.2 ≤ len ∧ InBounds len l := List.forall_mem_cons

@[simp] theorem inBounds_nil {len : ℕ} : InBounds len [] := fun _ h => (nomatch h)

variable {sec : FwhdrSectionInfo}

theorem inBounds_sectionAccesses {len fw : ℕ} : InBounds len (sectionAccesses sec fw) ↔
      fw + (if sec.type = fwdlSecuritySectionType then 12 else 8) ≤ len := by
  unfold sectionAccesses
  split
  · simp only [inBounds_cons, inBounds_nil, and_true]; omega
  · simp only [inBounds_cons, inBounds_nil, and_true]; omega

/-- What a state has done is inside, the table has room. -/
def Within (len : ℕ) (s : ParserSt) : Prop :=
  InBounds len s.accesses ∧ s.info.sectionInfo.length ≤ fwdlSectionMaxNum

variable {env : FwEnv} {len : ℕ}

theorem within_storeSection {fw : ℕ} : Within len (storeSection env s fw sec) ↔
      Within len s ∧ s.info.sectionInfo.length < fwdlSectionMaxNum ∧
        fw + (if sec.type = fwdlSecuritySectionType then 12 else 8) ≤ len := by
  simp only [Within, storeSection, inBounds_append, inBounds_sectionAccesses, List.length_append,
    List.length_singleton]
  constructor
  · rintro ⟨⟨ha, hh⟩, hl⟩; exact ⟨⟨ha, by omega⟩, by omega, hh⟩
  · rintro ⟨⟨ha, -⟩, hl, hh⟩; exact ⟨⟨ha, hh⟩, by omega⟩

theorem within_copySignature {idx : ℕ} : Within len (copySignature s sec idx) ↔
      Within len s ∧ sec.addr + fwdlSecuritySectionConstant + fwdlSecuritySiglen ≤ len ∧
        s.binPtr + idx * fwdlSecuritySiglen + fwdlSecuritySiglen ≤ len := by
  simp only [Within, copySignature, inBounds_append, inBounds_cons, inBounds_nil, and_true]
  constructor
  · rintro ⟨⟨ha, hs, hd⟩, hl⟩; exact ⟨⟨ha, hl⟩, hd, hs⟩
  · rintro ⟨⟨ha, hl⟩, hd, hs⟩; exact ⟨⟨ha, hs, hd⟩, hl⟩

theorem parseSections_within (n : ℕ) : ∀ {s : ParserSt} {k : ℕ}, s.info.sectionInfo.length = k →
    (Within len (parseSections env (List.range' k n) s).2 ↔
      Within len s ∧ SectionsFit env len (List.range' k n) s.mem s.binPtr) := by
  induction n with
  | zero =>
    intro s k _
    simp [parseSections, SectionsFit]
  | succ n ih =>
    intro s k hk
    have hlen : ∀ sec, (storeSection env s (staticLen k) sec).info.sectionInfo.length = k + 1 := by
      simp [storeSection, hk]
    rw [List.range'_succ, parseSections, SectionsFit, parseSection]
    show _ ↔ _ ∧ k < fwdlSectionMaxNum ∧ _
    have hat : sectionAt s k = fwhdrSectionParser s.mem (staticLen k) s.binPtr := rfl
    rw [hat]
    by_cases hs : (fwhdrSectionParser s.mem (staticLen k) s.binPtr).Signed
    · rcases hx : mssIndex (env.efuse k) with _ | idx
      · simp only [hs, if_true, within_storeSection, hk, and_true]
      · simp only [hs, if_true]
        rw [ih (by exact hlen _), within_copySignature, within_storeSection, hk]
        simp only [copySignature, storeSection, fwhdrSectionParser, and_assoc]
    · simp only [hs, if_false]
      rw [ih (hlen _), within_storeSection, hk]
      simp only [storeSection, and_assoc]

theorem mssc_of_not_signed {m : Mem} {fw addr : ℕ} (h : ¬ (fwhdrSectionParser m fw addr).Signed) :
    (fwhdrSectionParser m fw addr).mssc = 0 := by
  by_cases ht : (fwhdrSectionParser m fw addr).type = fwdlSecuritySectionType
  · by_contra h0; exact h ⟨ht, Nat.pos_of_ne_zero h0⟩
  · exact if_neg ht

theorem parseSections_fails (is : List ℕ) : ∀ {s : ParserSt},
    sectionsOf env is s.mem s.binPtr = none → (parseSections env is s).1 ≠ .success := by
  induction is with
  | nil => exact fun h => (nomatch h)
  | cons i is ih =>
    intro s h
    have hat : sectionAt s i = fwhdrSectionParser s.mem (staticLen i) s.binPtr := rfl
    rw [parseSections, parseSection, hat]
    rw [sectionsOf] at h
    by_cases hs : (fwhdrSectionParser s.mem (staticLen i) s.binPtr).Signed
    · rcases hx : mssIndex (env.efuse i) with _ | idx
      · simp only [hs, if_true]; exact fun h => (nomatch h)
      · simp only [hs, hx, if_true, Option.map_eq_none_iff] at h ⊢; exact ih h
    · simp only [hs, if_false, Option.map_eq_none_iff] at h ⊢; exact ih h

/-- What a walk over `secs` changes. -/
structure Walked (env : FwEnv) (s s' : ParserSt) (secs : List FwhdrSectionInfo) : Prop where
  sectionNum : s'.info.sectionNum = s.info.sectionNum
  hdrLen : s'.info.hdrLen = s.info.hdrLen
  dynamicHdrLen : s'.info.dynamicHdrLen = s.info.dynamicHdrLen
  sectionInfo : s'.info.sectionInfo = s.info.sectionInfo ++ secs
  usePle : s'.info.isFwUsePle = true ↔ s.info.isFwUsePle = true ∨ ∃ sec ∈ secs, sec.dladdr = env.pleBase
  binPtr : s'.binPtr = s.binPtr + sectionBytes secs
  fwEnd : s'.fwEnd = s.fwEnd - signatureBytes32 secs

theorem Walked.refl (s : ParserSt) : Walked env s s [] :=
  ⟨rfl, rfl, rfl, (List.append_nil _).symm, by simp, rfl, (sub_zero _).symm⟩

variable {s' : ParserSt} {secs : List FwhdrSectionInfo}

theorem Walked.trans {s'' : ParserSt} {secs' : List FwhdrSectionInfo}
    (h : Walked env s s' secs) (h' : Walked env s' s'' secs') : Walked env s s'' (secs ++ secs') where
  sectionNum := h'.sectionNum.trans h.sectionNum
  hdrLen := h'.hdrLen.trans h.hdrLen
  dynamicHdrLen := h'.dynamicHdrLen.trans h.dynamicHdrLen
  sectionInfo := by rw [h'.sectionInfo, h.sectionInfo, List.append_assoc]
  usePle := by
    rw [h'.usePle, h.usePle]
    simp only [List.mem_append, or_and_right, exists_or, or_assoc]
  binPtr := by
    rw [h'.binPtr, h.binPtr]
    simp [sectionBytes, Nat.add_assoc]
  fwEnd := by
    rw [h'.fwEnd, h.fwEnd]
    simp only [signatureBytes32, List.map_append, List.sum_append]; omega

theorem walked_storeSection (env : FwEnv) (s : ParserSt) (i : ℕ) :
    Walked env s (storeSection env s (staticLen i) (sectionAt s i)) [sectionAt s i] := by
  refine ⟨rfl, rfl, rfl, rfl, ?_, ?_, ?_⟩
  · simp [storeSection]
  · simp [storeSection, sectionBytes]
  · by_cases hs : (sectionAt s i).Signed
    · simp [storeSection, signatureBytes32, hs]
    · have h0 : (sectionAt s i).mssc = 0 := mssc_of_not_signed hs
      simp [storeSection, signatureBytes32, hs, h0]

theorem Walked.copySignature {idx : ℕ} (h : Walked env s s' secs) : Walked env s (copySignature s' sec idx) secs :=
  ⟨h.sectionNum, h.hdrLen, h.dynamicHdrLen, h.sectionInfo, h.usePle, h.binPtr, h.fwEnd⟩

theorem parseSections_walked (env : FwEnv) (is : List ℕ) : ∀ {s : ParserSt} {secs : List FwhdrSectionInfo},
    sectionsOf env is s.mem s.binPtr = some secs →
      (parseSections env is s).1 = .success ∧ Walked env s (parseSections env is s).2 secs := by
  induction is with
  | nil =>
    rintro s _ ⟨⟩
    exact ⟨rfl, .refl s⟩
  | cons i is ih =>
    intro s secs h
    have hstep := walked_storeSection env s i
    rw [sectionsOf] at h
    rw [parseSections, parseSection]
    by_cases hs : (sectionAt s i).Signed
    · rcases hx : mssIndex (env.efuse i) with _ | idx
      · rw [sectionAt] at hs
        simp only [hs, hx, if_true, reduceCtorEq] at h
      · have hs' := hs
        rw [sectionAt] at hs'
        simp only [hs', hx, if_true, Option.map_eq_some_iff] at h
        obtain ⟨rest, hr, rfl⟩ := h
        simp only [hs, if_true]
        obtain ⟨hok, hw⟩ := ih (s := copySignature (storeSection env s (staticLen i) (sectionAt s i))
          (sectionAt s i) idx) hr
        exact ⟨hok, hstep.copySignature.trans hw⟩
    · have hs' := hs
      rw [sectionAt] at hs'
      simp only [hs', if_false, Option.map_eq_some_iff] at h
      obtain ⟨rest, hr, rfl⟩ := h
      simp only [hs, if_false]
      obtain ⟨hok, hw⟩ := ih (s := storeSection env s (staticLen i) (sectionAt s i)) hr
      exact ⟨hok, hstep.trans hw⟩

theorem sectionsOf_consecutive (is : List ℕ) : ∀ {m : Mem} {ptr : ℕ} {secs : List FwhdrSectionInfo},
    sectionsOf env is m ptr = some secs → Consecutive ptr secs := by
  induction is with
  | nil =>
    rintro m ptr _ ⟨⟩
    trivial
  | cons i is ih =>
    intro m ptr secs h
    rw [sectionsOf] at h
    by_cases hs : (fwhdrSectionParser m (staticLen i) ptr).Signed
    · rcases hx : mssIndex (env.efuse i) with _ | idx
      · simp only [hs, hx, if_true, reduceCtorEq] at h
      · simp only [hs, hx, if_true, Option.map_eq_some_iff] at h
        obtain ⟨rest, hr, rfl⟩ := h
        exact ⟨rfl, ih hr⟩
    · simp only [hs, if_false, Option.map_eq_some_iff] at h
      obtain ⟨rest, hr, rfl⟩ := h
      exact ⟨rfl, ih hr⟩

theorem Consecutive.le_end : ∀ {ptr : ℕ}, Consecutive ptr secs →
    ∀ sec ∈ secs, sec.addr + sec.len ≤ ptr + sectionBytes secs := by
  induction secs with
  | nil => exact fun _ _ h => (nomatch h)
  | cons s secs ih =>
    intro ptr h sec hm
    have hsum : sectionBytes (s :: secs) = s.len + sectionBytes secs := by simp [sectionBytes]
    rcases List.mem_cons.1 hm with rfl | hm
    · have := h.1; omega
    · have := ih h.2 sec hm; omega

theorem signatureBytes32_le (secs : List FwhdrSectionInfo) : signatureBytes32 secs ≤ signatureBytes secs :=
  List.sum_le_sum fun _ _ => Nat.mod_le _ _

theorem signatureBytes32_eq_iff :
    signatureBytes32 secs = signatureBytes secs ↔ ∀ sec ∈ secs, sec.mssc * fwdlSecuritySiglen < 2 ^ 32 := by
  induction secs with
  | nil => simp [signatureBytes32, signatureBytes]
  | cons s secs ih =>
    have hle := signatureBytes32_le secs
    have hle' := Nat.mod_le (s.mssc * fwdlSecuritySiglen) (2 ^ 32)
    have e32 : signatureBytes32 (s :: secs) = s.mssc * fwdlSecuritySiglen % 2 ^ 32 + signatureBytes32 secs := by
      simp [signatureBytes32]
    have e : signatureBytes (s :: secs) = s.mssc * fwdlSecuritySiglen + signatureBytes secs := by
      simp [signatureBytes]
    rw [List.forall_mem_cons, ← ih, e32, e]
    constructor
    · intro h; exact ⟨by omega, by omega⟩
    · rintro ⟨hlt, heq⟩; rw [Nat.mod_eq_of_lt hlt, heq]

/-! ### The whole parser -/

/-- The state that the walk starts with. -/
def walkStart (s : ParserSt) : ParserSt :=
  { s with
    binPtr := s.info.hdrLen
    info := { s.info with isFwUsePle := false } }

/-- The state that the parser starts with. -/
def parserStart (fw : Mem) (len : ℕ) (info : FwBinInfo) : ParserSt :=
  ⟨fw, [], { info with sectionInfo := [] }, 0, len⟩

variable {fw : Mem}

theorem fwhdrParser_of_not_agrees {info : FwBinInfo} (h0 : len ≠ 0)
    (h : (fwhdrHdrParser (parserStart fw len info)).1 ≠ .success) :
    fwhdrParser env fw len info = fwhdrHdrParser (parserStart fw len info) := by
  unfold fwhdrParser
  rw [if_neg h0]
  show _ = fwhdrHdrParser ⟨fw, [], { info with sectionInfo := [] }, 0, len⟩
  rcases hr : fwhdrHdrParser ⟨fw, [], { info with sectionInfo := [] }, 0, len⟩ with ⟨st, s'⟩
  rw [parserStart, hr] at h
  cases st with
  | success => exact absurd rfl h
  | bufSz | cmp | fwBin => rfl

theorem fwhdrParser_of_agrees (env : FwEnv) {info : FwBinInfo} (h0 : len ≠ 0)
    (h : (fwhdrHdrParser (parserStart fw len info)).1 = .success)
    (hs : s = walkStart (fwhdrHdrParser (parserStart fw len info)).2) :
    (fwhdrParser env fw len info).2 = (parseSections env (List.range s.info.sectionNum) s).2 ∧
    ((fwhdrParser env fw len info).1 = .success ↔ (parseSections env (List.range s.info.sectionNum) s).1 = .success ∧
      (parseSections env (List.range s.info.sectionNum) s).2.info.isFwUsePle = false ∧
      (parseSections env (List.range s.info.sectionNum) s).2.fwEnd =
        (parseSections env (List.range s.info.sectionNum) s).2.binPtr) := by
  have hple : getDleRsvdInfo env ≠ .fw := by
    unfold getDleRsvdInfo
    split <;> simp
  unfold fwhdrParser
  rw [if_neg h0]
  rcases hr : fwhdrHdrParser (parserStart fw len info) with ⟨st, s'⟩
  rw [hr] at h hs
  subst hs h
  rw [parserStart] at hr
  simp only [hr]
  rcases hp : parseSections env (List.range s'.info.sectionNum) (walkStart s') with ⟨st, s''⟩
  rw [walkStart] at hp
  simp only [walkStart, hp]
  cases st with
  | success =>
    by_cases hu : s''.info.isFwUsePle = true
    · simp [hple, hu]
    · by_cases he : s''.fwEnd = s''.binPtr
      · simp [hu, he]
      · simp [hu, he]
  | bufSz | cmp | fwBin => simp

theorem inBounds_hdrAccesses : InBounds len (hdrAccesses fw) ↔
      fwhdrHdrLen ≤ len ∧ (dynHdr fw → staticLen (secNum fw) + 4 ≤ len) := by
  have h32 : fwhdrHdrLen = 32 := rfl
  unfold hdrAccesses
  cases dynHdr fw with
  | false =>
    simp only [Bool.false_eq_true, if_false, inBounds_append, inBounds_cons, inBounds_nil, false_imp_iff, and_true]
    omega
  | true =>
    simp only [if_true, inBounds_append, inBounds_cons, inBounds_nil, true_imp_iff, and_true]; omega

theorem header_iff (ha : HeaderAgrees fw) :
    staticLen (secNum fw) + (if dynHdr fw then restLen fw else 0) = fwhdrSz fw ↔
      staticLen (secNum fw) ≤ fwhdrSz fw := by
  unfold HeaderAgrees at ha
  have hsz : fwhdrSz fw ≤ 255 := Nat.and_le_right
  by_cases hd : dynHdr fw = true
  · rw [if_pos hd]
    unfold restLen; omega
  · rw [if_neg hd] at ha ⊢; omega

theorem walked_accounted_iff (hw : Walked env s s' secs)
    (hnil : s.info.sectionInfo = []) (hptr : s.binPtr = s.info.hdrLen) (hfwd : s.fwEnd = len)
    (hc : Consecutive s.info.hdrLen secs) (hfw : s'.fwEnd = s'.binPtr) :
    Accounted len s'.info ↔ staticLen s.info.sectionNum + s.info.dynamicHdrLen = s.info.hdrLen ∧
        ∀ sec ∈ secs, sec.mssc * fwdlSecuritySiglen < 2 ^ 32 := by
  have hsec : s'.info.sectionInfo = secs := by rw [hw.sectionInfo, hnil, List.nil_append]
  have hadd : s.info.hdrLen + sectionBytes secs + signatureBytes32 secs = len := by
    have h1 := hw.binPtr
    have h2 := hw.fwEnd
    omega
  rw [← signatureBytes32_eq_iff]
  constructor
  · rintro ⟨hh, -, -, ht⟩
    rw [hw.sectionNum, hw.dynamicHdrLen, hw.hdrLen] at hh
    rw [hsec, hw.hdrLen] at ht; exact ⟨hh, by omega⟩
  · rintro ⟨hh, heq⟩
    refine ⟨?_, ?_, ?_, ?_⟩
    · rw [hw.sectionNum, hw.dynamicHdrLen, hw.hdrLen]; exact hh
    · rw [hsec, hw.hdrLen]; exact hc
    · rw [hsec]
      intro sec hm
      have := hc.le_end sec hm
      omega
    · rw [hsec, hw.hdrLen]; omega

/-- **The parser is safe on an image exactly where it fits**: at least the fixed header is there, at most six
sections are described, what the walk reads and copies is inside, and lengths that add up do so without a product
that wraps or sections that lie over the headers. -/
theorem fwhdrParser_safe_iff (env : FwEnv) (fw : Mem) (len : ℕ) (info : FwBinInfo) :
    Safe len (fwhdrParser env fw len info) ↔ Fits env fw len := by
  by_cases h0 : len = 0
  · subst h0
    exact ⟨fun _ => .inl rfl, fun _ => ⟨inBounds_nil, Nat.zero_le _, fun h => (nomatch h)⟩⟩
  rw [Fits, or_iff_right h0]
  obtain ⟨s', hs', hok, hacc, hmem, hend, hsec, hnum, hhdr, hdyn⟩ :=
    fwhdrHdrParser_eq (s := parserStart fw len info) rfl
  by_cases ha : HeaderAgrees fw
  · have hstart := fwhdrParser_of_agrees env h0 (hok.2 ha) rfl
    rw [hs'] at hstart
    obtain ⟨hst, hsucc⟩ := hstart
    have hnum' : (walkStart s').info.sectionNum = secNum fw := hnum
    rw [hnum'] at hst hsucc
    have hnil : (walkStart s').info.sectionInfo = [] := hsec
    have hacc' : (walkStart s').accesses = hdrAccesses fw ++ [(8, 4)] := by
      rw [if_pos (by exact ha)] at hacc; exact hacc
    have hmem' : (walkStart s').mem = filled fw := hmem
    have hptr' : (walkStart s').binPtr = fwhdrSz fw := hhdr
    have hwithin : Within len (fwhdrParser env fw len info).2 ↔
        (fwhdrHdrLen ≤ len ∧ (dynHdr fw → staticLen (secNum fw) + 4 ≤ len)) ∧
          SectionsFit env len (List.range (secNum fw)) (filled fw) (fwhdrSz fw) := by
      rw [hst, List.range_eq_range', parseSections_within _ (by rw [hnil]; rfl), Within, hacc', hmem', hptr',
        inBounds_append, inBounds_hdrAccesses, inBounds_cons, hnil]
      have h32 : fwhdrHdrLen = 32 := rfl
      constructor
      · rintro ⟨⟨⟨hh, -, -⟩, -⟩, hf⟩; exact ⟨hh, hf⟩
      · rintro ⟨hh, hf⟩; exact ⟨⟨⟨hh, by omega, inBounds_nil⟩, Nat.zero_le _⟩, hf⟩
    rcases hsecs : sectionsOf env (List.range (secNum fw)) (filled fw) (fwhdrSz fw) with _ | secs
    · have hfail : (fwhdrParser env fw len info).1 ≠ .success := fun h =>
        parseSections_fails _ (by rw [hmem', hptr']; exact hsecs) (hsucc.1 h).1
      constructor
      · intro h
        obtain ⟨⟨h1, h2⟩, hf⟩ := hwithin.1 ⟨h.inBounds, h.room⟩
        exact ⟨h1, h2, fun _ => ⟨hf, fun _ h => (nomatch h)⟩⟩
      · rintro ⟨h1, h2, hf⟩
        obtain ⟨hin, hroom⟩ := hwithin.2 ⟨⟨h1, h2⟩, (hf ha).1⟩
        exact ⟨hin, hroom, fun h => absurd h hfail⟩
    · obtain ⟨hpok, hw⟩ := parseSections_walked env _
        (s := walkStart s') (by rw [hmem', hptr']; exact hsecs)
      rw [← hst] at hw hsucc
      have hple : (fwhdrParser env fw len info).2.info.isFwUsePle = false ↔
          ∀ sec ∈ secs, sec.dladdr ≠ env.pleBase := by
        rw [← Bool.not_eq_true, hw.usePle]
        simp [walkStart]
      have hends : (fwhdrParser env fw len info).2.fwEnd = (fwhdrParser env fw len info).2.binPtr ↔
          fwhdrSz fw + sectionBytes secs + signatureBytes32 secs = len := by
        have hfwd : (walkStart s').fwEnd = len := hend
        have h1 := hw.binPtr
        have h2 := hw.fwEnd
        rw [hptr'] at h1
        rw [hfwd] at h2; omega
      have hacct : (fwhdrParser env fw len info).2.fwEnd = (fwhdrParser env fw len info).2.binPtr →
          (Accounted len (fwhdrParser env fw len info).2.info ↔
            staticLen (secNum fw) ≤ fwhdrSz fw ∧ ∀ sec ∈ secs, sec.mssc * fwdlSecuritySiglen < 2 ^ 32) := by
        intro hfw
        have hhdr' : (walkStart s').info.hdrLen = fwhdrSz fw := hhdr
        have hdyn' : (walkStart s').info.dynamicHdrLen = if dynHdr fw then restLen fw else 0 := hdyn ha
        rw [walked_accounted_iff hw hnil rfl hend (by rw [hhdr']; exact sectionsOf_consecutive _ hsecs) hfw, hnum',
          hdyn', hhdr', header_iff ha]
      rw [hpok, hple, hends] at hsucc
      constructor
      · intro h
        obtain ⟨⟨h1, h2⟩, hf⟩ := hwithin.1 ⟨h.inBounds, h.room⟩
        refine ⟨h1, h2, fun _ => ⟨hf, ?_⟩⟩
        rintro _ ⟨⟩ hp he
        exact (hacct (hends.2 he)).1 (h.accounted (hsucc.2 ⟨rfl, hp, he⟩))
      · rintro ⟨h1, h2, hf⟩
        obtain ⟨hfit, hsize⟩ := hf ha
        obtain ⟨hin, hroom⟩ := hwithin.2 ⟨⟨h1, h2⟩, hfit⟩
        refine ⟨hin, hroom, fun h => ?_⟩
        obtain ⟨-, hp, he⟩ := hsucc.1 h
        exact (hacct (hends.2 he)).2 (hsize secs rfl hp he)
  · have hne : (fwhdrHdrParser (parserStart fw len info)).1 ≠ .success := fun h => ha (hok.1 h)
    rw [fwhdrParser_of_not_agrees h0 hne]
    rw [if_neg (by exact ha), List.append_nil] at hacc
    constructor
    · intro h
      obtain ⟨h1, h2⟩ := inBounds_hdrAccesses.1 (hacc ▸ hs' ▸ h.inBounds)
      exact ⟨h1, h2, fun h => absurd h ha⟩
    · rintro ⟨h1, h2, -⟩
      refine ⟨?_, ?_, fun h => absurd h hne⟩
      · rw [hs', hacc]; exact inBounds_hdrAccesses.2 ⟨h1, h2⟩
      · rw [hs', hsec]; exact Nat.zero_le _

/-- Seven empty sections, behind a header that is long enough for them. -/
def sevenSections : Mem := fun i => if i = 14 then 144 else if i = 25 then 7 else 0

/-- **The table has six entries**: the seventh section of an image is stored behind it, and the image is taken. -/
theorem sevenSections_not_safe :
    ¬ ∀ (env : FwEnv) (fw : Mem) (len : ℕ) (info : FwBinInfo), Safe len (fwhdrParser env fw len info) := by
  intro h
  have hroom := (h ⟨1, fun _ => (none, none), false⟩ sevenSections 144 ⟨0, 0, 0, false, false, 0, []⟩).room
  revert hroom
  decide

end Rtl8852cu.Fwdl
