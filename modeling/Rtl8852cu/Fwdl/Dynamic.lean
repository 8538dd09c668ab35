import Rtl8852cu.Fwdl.Bounds
import Mathlib.Data.List.TakeWhile

/-!
# The dynamic header of a firmware image

`phl/hal_g6/mac/mac_ax/fwdl.c`, `mac_get_dynamic_hdr_ax`: behind the section headers there are a length, a count, and as many
records of a length and a type.  A first pass adds the lengths up, a second one copies what the records of the capabilities
hold.
-/

namespace Rtl8852cu.Fwdl

def fwdlDynamicHdrFwcap : ℕ := 1
def macWlanfwCapMaxSize : ℕ := 48

/-- `le16_to_cpu` of the half word at an offset. -/
def le16 (m : Mem) (off : ℕ) : ℕ := (m off).toNat + 2 ^ 8 * (m (off + 1)).toNat

/-- What `mac_get_dynamic_hdr_ax` returns; `ret` is what `fwhdr_hdr_parser` returns. -/
inductive DynStatus where
  | parsed (ret : FwStatus)
  | cmp
  | noBuf
  | noItem
  deriving DecidableEq

/-- The head of a record, and its offset. -/
structure DynRecord where
  off : ℕ
  len : ℕ
  type : ℕ
  deriving DecidableEq

/-- `dynamic_section_len` and `dynamic_section_type`. -/
def recordAt (m : Mem) (off : ℕ) : DynRecord := ⟨off, le16 m off, (m (off + 2)).toNat⟩

def DynRecord.accesses (r : DynRecord) : List Access := [(r.off, 2), (r.off + 2, 1)]

structure SumSt where
  accesses : List Access
  visited : List DynRecord
  totalLen : ℕ

/-- What the second pass has done; a copy has the offset and the number of bytes. -/
structure CapSt where
  accesses : List Access
  visited : List DynRecord
  copies : List Access
  capSize : ℕ

def sumRecords (m : Mem) : ℕ → ℕ → SumSt → SumSt
  | 0, _, s => s
  | n + 1, off, s =>
    let r := recordAt m off
    sumRecords m n (off + r.len) ⟨s.accesses ++ r.accesses, s.visited ++ [r], (s.totalLen + r.len) % 2 ^ 32⟩

/-- The second pass.  The length is an `int` where it is compared, and 32 bits where it is the one of a copy. -/
def parseRecords (m : Mem) : ℕ → ℕ → CapSt → DynStatus × CapSt
  | 0, _, s => (.parsed .success, s)
  | n + 1, off, s =>
    let r := recordAt m off
    let s := { s with accesses := s.accesses ++ r.accesses, visited := s.visited ++ [r] }
    if r.type = fwdlDynamicHdrFwcap then
      if (r.len : ℤ) - 4 > macWlanfwCapMaxSize then (.noBuf, s)
      else
        let size := (((r.len : ℤ) - 4) % 2 ^ 32).toNat
        parseRecords m n (off + r.len) { s with
          accesses := s.accesses ++ [(off + 4, size)]
          copies := s.copies ++ [(off + 4, size)]
          capSize := size }
    else (.noItem, s)

def roundTotal (n : ℕ) : ℕ := if n % 16 ≠ 0 then (n + (16 - n % 16)) % 2 ^ 32 else n

/-- What is done with the dynamic header. -/
structure DynHdr where
  ret : DynStatus
  accesses : List Access
  first : List DynRecord
  second : List DynRecord
  copies : List Access
  capSize : ℕ

/-- `mac_get_dynamic_hdr_ax`.  Its accesses are those behind `fwhdr_hdr_parser`. -/
def macGetDynamicHdr (fw : Mem) : DynHdr :=
  let (ret, p) := fwhdrHdrParser ⟨fw, [], ⟨0, 0, 0, false, false, 0, []⟩, 0, 0⟩
  if ret ≠ .success then ⟨.parsed ret, [], [], [], [], 0⟩
  else if p.info.dynamicHdrEn = false then ⟨.parsed .success, [], [], [], [], 0⟩
  else
    let content := staticLen p.info.sectionNum
    let dynamicHdrLen := le32 p.mem content
    let dynamicHdrCount := le32 p.mem (content + 4)
    let sum := sumRecords p.mem dynamicHdrCount (content + 8) ⟨[(content, 4), (content + 4, 4)], [], 8⟩
    if roundTotal sum.totalLen ≠ dynamicHdrLen then ⟨.cmp, sum.accesses, sum.visited, [], [], 0⟩
    else
      let (ret, caps) := parseRecords p.mem dynamicHdrCount (content + 8) ⟨sum.accesses, [], [], 0⟩
      ⟨ret, caps.accesses, sum.visited, caps.visited, caps.copies, caps.capSize⟩

/-! ### The records of an image -/

/-- `n` records one behind the other. -/
def records (m : Mem) : ℕ → ℕ → List DynRecord
  | 0, _ => []
  | n + 1, off => recordAt m off :: records m n (off + (recordAt m off).len)

/-- A record that the second pass copies. -/
def DynRecord.Copied (r : DynRecord) : Bool :=
  decide (r.type = fwdlDynamicHdrFwcap) && decide (r.len ≤ macWlanfwCapMaxSize + 4)

def DynRecord.copy (r : DynRecord) : Access := (r.off + 4, (((r.len : ℤ) - 4) % 2 ^ 32).toNat)

def recordBytes (rs : List DynRecord) : ℕ := (rs.map (·.len)).sum

variable {m : Mem} {n off : ℕ}

theorem sumRecords_eq (s : SumSt) (hs : s.totalLen < 2 ^ 32) :
    sumRecords m n off s = ⟨s.accesses ++ (records m n off).flatMap (·.accesses), s.visited ++ records m n off,
      (s.totalLen + recordBytes (records m n off)) % 2 ^ 32⟩ := by
  induction n generalizing off s with
  | zero =>
    unfold sumRecords records recordBytes
    rw [List.flatMap_nil, List.append_nil, List.append_nil, List.map_nil, List.sum_nil, Nat.add_zero, Nat.mod_eq_of_lt hs]
  | succ n ih =>
    unfold sumRecords records
    rw [ih _ (Nat.mod_lt _ (by decide)), List.flatMap_cons, List.append_assoc, List.append_assoc, List.singleton_append]
    unfold recordBytes
    rw [List.map_cons, List.sum_cons, Nat.mod_add_mod, Nat.add_assoc]

/-- What the second pass does with the records `rs`. -/
structure Parsed (rs : List DynRecord) (s : CapSt) (r : DynStatus × CapSt) : Prop where
  visited : ∃ seen, seen <+: rs ∧ r.2.visited = s.visited ++ seen ∧ (r.1 = .parsed .success → seen = rs) ∧
    (∀ c ∈ rs.takeWhile (·.Copied), c ∈ seen) ∧ ∀ a, a ∈ r.2.accesses ↔ a ∈ s.accesses ∨ a ∈ seen.flatMap (·.accesses) ∨
      a ∈ (rs.takeWhile (·.Copied)).map (·.copy)
  copies : r.2.copies = s.copies ++ (rs.takeWhile (·.Copied)).map (·.copy)
  capSize : r.2.capSize = (((rs.takeWhile (·.Copied)).map (·.copy.2)).getLast?).getD s.capSize

theorem Parsed.nil (s : CapSt) : Parsed [] s (.parsed .success, s) where
  visited := ⟨[], List.nil_prefix, (List.append_nil _).symm, fun _ => rfl, nofun, fun a => by
    rw [List.flatMap_nil, List.takeWhile_nil, List.map_nil]
    simp only [List.not_mem_nil, or_false]⟩
  copies := (List.append_nil _).symm
  capSize := rfl

variable {r : DynRecord}

theorem Parsed.stop {rs : List DynRecord} (hr : r.Copied = false) (s : CapSt) {ret : DynStatus}
    (hret : ret ≠ .parsed .success) :
    Parsed (r :: rs) s (ret, { s with accesses := s.accesses ++ r.accesses, visited := s.visited ++ [r] }) := by
  have htake : (r :: rs).takeWhile (·.Copied) = [] := List.takeWhile_cons_of_neg (by rw [hr]; exact Bool.false_ne_true)
  refine ⟨⟨[r], ⟨rs, rfl⟩, rfl, fun h => absurd h hret, fun c hc => ?_, fun a => ?_⟩, ?_, ?_⟩
  · rw [htake] at hc; cases hc
  · rw [htake, List.flatMap_singleton, List.map_nil, List.mem_append]
    simp only [List.not_mem_nil, or_false]
  · rw [htake]; exact (List.append_nil _).symm
  · rw [htake]; rfl

theorem Parsed.cons {rs : List DynRecord} (hr : r.Copied = true) {s : CapSt} {x : DynStatus × CapSt}
    (h : Parsed rs { s with
      accesses := s.accesses ++ r.accesses ++ [r.copy]
      visited := s.visited ++ [r]
      copies := s.copies ++ [r.copy]
      capSize := r.copy.2 } x) : Parsed (r :: rs) s x := by
  obtain ⟨seen, hseen, hvisited, hall, hmem, hacc⟩ := h.visited
  have htake : (r :: rs).takeWhile (·.Copied) = r :: rs.takeWhile (·.Copied) := List.takeWhile_cons_of_pos hr
  refine ⟨⟨r :: seen, (List.prefix_cons_inj r).mpr hseen, ?_, fun hx => by rw [hall hx], fun c hc => ?_, fun a => ?_⟩,
    ?_, ?_⟩
  · rw [hvisited, List.append_assoc, List.singleton_append]
  · rw [htake] at hc
    rcases List.mem_cons.mp hc with rfl | hc
    · exact List.mem_cons_self
    · exact List.mem_cons_of_mem r (hmem c hc)
  · rw [hacc, htake, List.flatMap_cons, List.map_cons]
    simp only [List.mem_append, List.mem_cons, List.not_mem_nil, or_false]
    constructor
    · rintro (((h | h) | h) | h | h)
      · exact .inl h
      · exact .inr (.inl (.inl h))
      · exact .inr (.inr (.inl h))
      · exact .inr (.inl (.inr h))
      · exact .inr (.inr (.inr h))
    · rintro (h | (h | h) | h | h)
      · exact .inl (.inl (.inl h))
      · exact .inl (.inl (.inr h))
      · exact .inr (.inl h)
      · exact .inl (.inr h)
      · exact .inr (.inr h)
  · rw [h.copies, htake, List.map_cons, List.append_assoc, List.singleton_append]
  · rw [h.capSize, htake, List.map_cons]
    cases hlast : ((rs.takeWhile (·.Copied)).map (·.copy.2)).getLast? with
    | none =>
      rw [List.getLast?_eq_none_iff.mp hlast]; rfl
    | some c =>
      rw [List.getLast?_cons, hlast]; rfl

theorem parseRecords_eq (s : CapSt) : Parsed (records m n off) s (parseRecords m n off s) := by
  induction n generalizing off s with
  | zero => exact .nil s
  | succ n ih =>
    have hcopied : (recordAt m off).Copied = (decide ((recordAt m off).type = fwdlDynamicHdrFwcap) &&
        decide ((recordAt m off).len ≤ macWlanfwCapMaxSize + 4)) := rfl
    unfold parseRecords records
    dsimp only
    by_cases htype : (recordAt m off).type = fwdlDynamicHdrFwcap
    · rw [if_pos htype]
      by_cases hlen : ((recordAt m off).len : ℤ) - 4 > macWlanfwCapMaxSize
      · rw [if_pos hlen]
        refine .stop ?_ s nofun
        rw [hcopied, decide_eq_false (show ¬ (recordAt m off).len ≤ macWlanfwCapMaxSize + 4 by omega), Bool.and_false]
      · rw [if_neg hlen]
        refine .cons ?_ (ih _)
        rw [hcopied, decide_eq_true htype, decide_eq_true (show (recordAt m off).len ≤ macWlanfwCapMaxSize + 4 by omega)]
        rfl
    · rw [if_neg htype]
      refine .stop ?_ s nofun
      rw [hcopied, decide_eq_false htype, Bool.false_and]

/-! ### Where the records are -/

theorem le16_lt (m : Mem) (off : ℕ) : le16 m off < 2 ^ 16 := by
  have h1 := (m off).toNat_lt
  have h2 := (m (off + 1)).toNat_lt
  unfold le16; omega

theorem records_off (h : r ∈ records m n off) :
    off ≤ r.off ∧ r.off + r.len ≤ off + recordBytes (records m n off) := by
  induction n generalizing off with
  | zero => cases h
  | succ n ih =>
    have hoff : (recordAt m off).off = off := rfl
    unfold records at h
    unfold records recordBytes
    rw [List.map_cons, List.sum_cons]
    rcases List.mem_cons.mp h with rfl | h
    · omega
    · have := ih h
      unfold recordBytes at this; omega

theorem recordBytes_le {hi : ℕ} (h : ∀ r ∈ records m n off, r.off + 3 ≤ hi) (hoff : off ≤ hi) :
    off + recordBytes (records m n off) ≤ hi + 2 ^ 16 := by
  induction n generalizing off with
  | zero =>
    unfold records recordBytes
    rw [List.map_nil, List.sum_nil]; omega
  | succ n ih =>
    have hlen : (recordAt m off).len < 2 ^ 16 := le16_lt m off
    unfold records recordBytes at *
    rw [List.map_cons, List.sum_cons, ← Nat.add_assoc]
    cases n with
    | zero =>
      unfold records
      rw [List.map_nil, List.sum_nil]; omega
    | succ n =>
      have hnext : off + (recordAt m off).len + 3 ≤ hi := h (recordAt m (off + (recordAt m off).len)) (by
        unfold records; exact List.mem_cons_of_mem _ List.mem_cons_self)
      exact ih (fun r hr => h r (List.mem_cons_of_mem _ hr)) (by omega)

theorem le_roundTotal {t : ℕ} (h : t < 2 ^ 32 - 16) : t ≤ roundTotal t := by
  unfold roundTotal
  split
  · rw [Nat.mod_eq_of_lt (by omega)]; omega
  · exact le_rfl

/-! ### What is to hold -/

/-- **The passes are in the area from `lo` to `hi`, see the same records, and copy what the buffer holds.** -/
structure Sound (lo hi : ℕ) (d : DynHdr) : Prop where
  inside : ∀ a ∈ d.accesses, lo ≤ a.1 ∧ a.1 + a.2 ≤ hi
  same : d.second <+: d.first ∧ (d.ret = .parsed .success → d.second = d.first)
  room : ∀ c ∈ d.copies, c.2 ≤ macWlanfwCapMaxSize ∧
    ∃ r ∈ d.second, r.type = fwdlDynamicHdrFwcap ∧ r.off + 4 = c.1 ∧ r.len = c.2 + 4
  capSize : d.capSize = ((d.copies.map (·.2)).getLast?).getD 0

/-- The records of an image, from behind the length and the count. -/
def imageRecords (fw : Mem) : List DynRecord :=
  records (filled fw) (le32 (filled fw) (staticLen (secNum fw) + 4)) (staticLen (secNum fw) + 8)

/-- **The images whose dynamic header is read soundly**: all heads are in the header, and where the lengths agree no record
that is copied is shorter than its head. -/
def RecordsFit (fw : Mem) : Prop :=
  dynHdr fw = true → staticLen (secNum fw) + 8 ≤ fwhdrSz fw ∧ (∀ r ∈ imageRecords fw, r.off + 3 ≤ fwhdrSz fw) ∧
      (roundTotal ((8 + recordBytes (imageRecords fw)) % 2 ^ 32) = restLen fw →
        ∀ r ∈ (imageRecords fw).takeWhile (·.Copied), 4 ≤ r.len)

theorem dynamicHdrEn_eq (s : ParserSt) : (fwhdrHdrParser s).2.info.dynamicHdrEn = dynHdr s.mem := by
  unfold fwhdrHdrParser dynHdr
  simp only [getField_filled]
  split
  · split
    · rfl
    · rfl
  · split
    · rfl
    · rfl

/-! ### The function -/

variable {fw : Mem}

/-- The accesses of the first pass, with those to the length and the count. -/
def firstAccesses (fw : Mem) : List Access :=
  [(staticLen (secNum fw), 4), (staticLen (secNum fw) + 4, 4)] ++ (imageRecords fw).flatMap (·.accesses)

theorem macGetDynamicHdr_off (hagree : HeaderAgrees fw) (hdyn : dynHdr fw = false) :
    macGetDynamicHdr fw = ⟨.parsed .success, [], [], [], [], 0⟩ := by
  obtain ⟨p, hp, hret, -⟩ := fwhdrHdrParser_eq (s := ⟨fw, [], ⟨0, 0, 0, false, false, 0, []⟩, 0, 0⟩) rfl
  have hen := dynamicHdrEn_eq ⟨fw, [], ⟨0, 0, 0, false, false, 0, []⟩, 0, 0⟩
  unfold macGetDynamicHdr
  generalize fwhdrHdrParser _ = x at hp hret hen ⊢
  obtain ⟨ret, q⟩ := x
  dsimp only at hp hret hen ⊢
  rw [if_neg (not_not.mpr (hret.mpr hagree)), if_pos (hen.trans hdyn)]

theorem macGetDynamicHdr_on (hagree : HeaderAgrees fw) (hdyn : dynHdr fw = true) : macGetDynamicHdr fw =
      if roundTotal ((8 + recordBytes (imageRecords fw)) % 2 ^ 32) ≠ restLen fw then
        ⟨.cmp, firstAccesses fw, imageRecords fw, [], [], 0⟩
      else
        let x := parseRecords (filled fw) (le32 (filled fw) (staticLen (secNum fw) + 4)) (staticLen (secNum fw) + 8)
          ⟨firstAccesses fw, [], [], 0⟩
        ⟨x.1, x.2.accesses, imageRecords fw, x.2.visited, x.2.copies, x.2.capSize⟩ := by
  obtain ⟨p, hp, hret, -, hmem, -, -, hnum, -⟩ :=
    fwhdrHdrParser_eq (s := ⟨fw, [], ⟨0, 0, 0, false, false, 0, []⟩, 0, 0⟩) rfl
  have hen := dynamicHdrEn_eq ⟨fw, [], ⟨0, 0, 0, false, false, 0, []⟩, 0, 0⟩
  have hlen : le32 (filled fw) (staticLen (secNum fw)) = restLen fw := by
    have hrest : le32 fw (staticLen (secNum fw)) = restLen fw := by
      unfold HeaderAgrees at hagree
      rwa [if_pos hdyn] at hagree
    rw [← hrest]
    refine le32_setLe32 (.inl ?_)
    have : fwhdrHdrLen = 32 := rfl
    unfold staticLen; omega
  unfold macGetDynamicHdr
  generalize fwhdrHdrParser _ = x at hp hret hen ⊢
  obtain ⟨ret, q⟩ := x
  dsimp only at hp hret hen hmem hnum ⊢
  subst hp
  rw [if_neg (not_not.mpr (hret.mpr hagree)), if_neg (by rw [hen, hdyn]; exact Bool.noConfusion), hmem, hnum, hlen,
    sumRecords_eq _ (show 8 < 2 ^ 32 by decide)]
  rfl

theorem fwhdrSz_le (fw : Mem) : fwhdrSz fw ≤ 0xff := Nat.and_le_right

theorem imageRecords_inside (hhi : staticLen (secNum fw) + 8 ≤ fwhdrSz fw)
    (hheads : ∀ r ∈ imageRecords fw, r.off + 3 ≤ fwhdrSz fw)
    (hlen : roundTotal ((8 + recordBytes (imageRecords fw)) % 2 ^ 32) = restLen fw)
    (hr : r ∈ imageRecords fw) : staticLen (secNum fw) + 8 ≤ r.off ∧ r.off + r.len ≤ fwhdrSz fw := by
  have hsz := fwhdrSz_le fw
  have hle := recordBytes_le hheads hhi
  have hbytes : recordBytes (imageRecords fw) < 2 ^ 32 - 32 := by
    unfold imageRecords; omega
  have hround := le_roundTotal (t := (8 + recordBytes (imageRecords fw)) % 2 ^ 32) (by omega)
  rw [hlen] at hround
  have hrest : restLen fw = fwhdrSz fw - staticLen (secNum fw) := by
    unfold restLen; omega
  have hoff := records_off hr
  unfold imageRecords at hround hbytes; omega

theorem firstAccesses_inside : (∀ a ∈ firstAccesses fw, staticLen (secNum fw) ≤ a.1 ∧ a.1 + a.2 ≤ fwhdrSz fw) ↔
      staticLen (secNum fw) + 8 ≤ fwhdrSz fw ∧ ∀ r ∈ imageRecords fw, r.off + 3 ≤ fwhdrSz fw := by
  have hoff : ∀ r ∈ imageRecords fw, staticLen (secNum fw) + 8 ≤ r.off := fun r hr => (records_off hr).1
  unfold firstAccesses
  rw [List.forall_mem_append, List.forall_mem_cons, List.forall_mem_singleton, List.forall_mem_flatMap]
  dsimp only
  refine and_congr (by omega) (forall₂_congr fun r hr => ?_)
  have := hoff r hr
  unfold DynRecord.accesses
  rw [List.forall_mem_cons, List.forall_mem_singleton]
  dsimp only; omega

theorem copy_size (hcopied : r.Copied = true) : r.copy.2 ≤ macWlanfwCapMaxSize ↔ 4 ≤ r.len := by
  have hlen : r.len ≤ macWlanfwCapMaxSize + 4 := of_decide_eq_true (Bool.and_elim_right hcopied)
  have hmax : macWlanfwCapMaxSize = 48 := rfl
  unfold DynRecord.copy; omega

theorem copy_len (hcopied : r.Copied = true) (h : 4 ≤ r.len) : r.len = r.copy.2 + 4 := by
  have hlen : r.len ≤ macWlanfwCapMaxSize + 4 := of_decide_eq_true (Bool.and_elim_right hcopied)
  have hmax : macWlanfwCapMaxSize = 48 := rfl
  unfold DynRecord.copy; omega

/-- **The dynamic header is read soundly, exactly where the records fit.** -/
theorem dynamic_hdr_sound_iff (fw : Mem) (hagree : HeaderAgrees fw) :
    Sound (staticLen (secNum fw)) (fwhdrSz fw) (macGetDynamicHdr fw) ↔ RecordsFit fw := by
  unfold RecordsFit
  cases hdyn : dynHdr fw with
  | false =>
    rw [macGetDynamicHdr_off hagree hdyn]
    exact iff_of_true ⟨nofun, ⟨List.nil_prefix, fun _ => rfl⟩, nofun, rfl⟩ nofun
  | true =>
    rw [macGetDynamicHdr_on hagree hdyn, eq_self_iff_true, true_imp_iff]
    by_cases hlen : roundTotal ((8 + recordBytes (imageRecords fw)) % 2 ^ 32) = restLen fw
    swap
    · -- the lengths do not agree: nothing is copied
      rw [if_pos hlen]
      constructor
      · intro h
        obtain ⟨h1, h2⟩ := firstAccesses_inside.mp h.inside
        exact ⟨h1, h2, fun he => absurd he hlen⟩
      · rintro ⟨h1, h2, -⟩
        exact ⟨firstAccesses_inside.mpr ⟨h1, h2⟩, ⟨List.nil_prefix, nofun⟩, nofun, rfl⟩
    rw [if_neg (not_not.mpr hlen)]
    have hparsed : Parsed (imageRecords fw) ⟨firstAccesses fw, [], [], 0⟩ (parseRecords (filled fw)
        (le32 (filled fw) (staticLen (secNum fw) + 4)) (staticLen (secNum fw) + 8) ⟨firstAccesses fw, [], [], 0⟩) :=
      parseRecords_eq ⟨firstAccesses fw, [], [], 0⟩
    generalize parseRecords _ _ _ _ = x at hparsed ⊢
    obtain ⟨seen, hseen, hvisited, hall, hmem, hacc⟩ := hparsed.visited
    have hcopies : x.2.copies = ((imageRecords fw).takeWhile (·.Copied)).map (·.copy) := hparsed.copies
    constructor
    · intro h
      obtain ⟨h1, h2⟩ := firstAccesses_inside.mp fun a ha => h.inside a ((hacc a).mpr (.inl ha))
      refine ⟨h1, h2, fun _ r hr => (copy_size (List.mem_takeWhile_imp hr)).mp (h.room r.copy ?_).1⟩
      dsimp only
      rw [hcopies]; exact List.mem_map_of_mem hr
    · rintro ⟨h1, h2, hshort⟩
      have hfour := hshort hlen
      have hin := firstAccesses_inside.mpr ⟨h1, h2⟩
      refine ⟨fun a ha => ?_, ⟨?_, ?_⟩, fun c hc => ?_, ?_⟩
      · rcases (hacc a).mp ha with ha | ha | ha
        · exact hin a ha
        · obtain ⟨r, hr, har⟩ := List.mem_flatMap.mp ha
          exact hin a (List.mem_append_right _ (List.mem_flatMap.mpr ⟨r, hseen.subset hr, har⟩))
        · obtain ⟨r, hr, rfl⟩ := List.mem_map.mp ha
          have hrec := imageRecords_inside h1 h2 hlen ((List.takeWhile_prefix _).subset hr)
          have hsize := copy_len (List.mem_takeWhile_imp hr) (hfour r hr)
          unfold DynRecord.copy at hsize ⊢; omega
      · dsimp only
        rw [hvisited]; exact hseen
      · dsimp only
        intro hx
        rw [hvisited]; exact hall hx
      · dsimp only at hc
        rw [hcopies] at hc
        obtain ⟨r, hr, rfl⟩ := List.mem_map.mp hc
        have hcopied := List.mem_takeWhile_imp hr
        refine ⟨(copy_size hcopied).mpr (hfour r hr), r, ?_, of_decide_eq_true (Bool.and_elim_left hcopied), rfl,
          copy_len hcopied (hfour r hr)⟩
        dsimp only
        rw [hvisited]; exact hmem r hr
      · dsimp only
        rw [hcopies, hparsed.capSize, List.map_map]; rfl

/-- An image with no section, and a dynamic header with one record of capabilities, of `len` bytes. -/
def capImage (len : UInt8) : Mem := fun i =>
  if i = 14 then 48 else if i = 30 then 1 else if i = 32 then 16 else if i = 36 then 1 else if i = 40 then len
  else if i = 42 then 1 else 0

theorem capImage_sound : Sound 32 48 (macGetDynamicHdr (capImage 8)) :=
  (dynamic_hdr_sound_iff (capImage 8) (by decide)).mpr (by unfold RecordsFit; decide)

/-- The record is shorter than its head: as many bytes are copied as 32 bits have of -2. -/
theorem capImage_wraps : HeaderAgrees (capImage 2) ∧
      ¬ Sound (staticLen (secNum (capImage 2))) (fwhdrSz (capImage 2)) (macGetDynamicHdr (capImage 2)) := by
  have hcopies : (macGetDynamicHdr (capImage 2)).copies = [(44, 2 ^ 32 - 2)] := by decide
  refine ⟨by decide, fun h => ?_⟩
  have := (h.room _ (hcopies ▸ List.mem_singleton_self _)).1
  exact absurd this (by decide)

end Rtl8852cu.Fwdl
