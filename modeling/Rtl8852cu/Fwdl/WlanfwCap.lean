import Rtl8852cu.Fwdl.Dynamic
import Rtl8852cu.Lib.Slice

/-!
# The capabilities of the firmware

`phl/hal_g6/mac/mac_ax/fwofld.c`, `mac_get_wlanfw_cap`: the capabilities that the dynamic header has are blocks behind a
length each; the first one with the magic code has records of a module and a length in words, and these are copied into
`struct rtw_wcpu_cap_t`. The records are compared with the length of the block, the block with nothing.

The buffer is in memory from 0 on, the machine is little-endian, and what is only printed is not read.
-/

namespace Rtl8852cu.Fwdl

open Lib

def macWlanfwCapMagicCode : ℕ := 0xFCABFCAB
/-- `sizeof(struct mac_wlanfw_cap_hdr)` -/
def wlanfwCapHdrLen : ℕ := 5
/-- `sizeof(struct rtw_wcpu_cap_t)` -/
def wcpuCapLen : ℕ := 28

/-- The place in `struct rtw_wcpu_cap_t` and the size of what a module has. -/
def capModule (modId : ℕ) : Option (ℕ × ℕ) :=
  if modId = 0xAC then some (0, 16)
  else if modId = 0xBB then some (16, 4)
  else if modId = 0xFF then some (20, 4)
  else if modId = 0xBC then some (24, 4)
  else none

inductive CapRet where
  | success
  | noItem
  | bufSz
  deriving DecidableEq, Repr

/-- `*wcpu_cap`, what was read of the buffer, and what was written of `*wcpu_cap`. -/
structure WcpuSt where
  cap : Mem
  reads : List Access
  writes : List Access

/-- `PLTFM_MEMSET` of `*wcpu_cap`. -/
def WcpuSt.clear (s : WcpuSt) : WcpuSt :=
  { s with
    cap := fun i => if i < wcpuCapLen then 0 else s.cap i
    writes := s.writes ++ [(0, wcpuCapLen)] }

/-- The loop over the records, `n` of them, with `blk` bytes of the block left from `content` on. -/
def capMods (m : Mem) : ℕ → ℕ → ℕ → WcpuSt → CapRet × WcpuSt
  | 0, _, _, s => (.success, s)
  | n + 1, content, blk, s =>
    if blk < 2 then (.noItem, s.clear)
    else
      let modId := (m content).toNat
      let capLen := (m (content + 1)).toNat * 4
      let s := { s with reads := s.reads ++ [(content, 1), (content + 1, 1)] }
      if capLen > blk - 2 then (.noItem, s.clear)
      else
        match capModule modId with
        | none => (.noItem, s.clear)
        | some (target, definedCapLen) =>
          let lenToCp := if capLen < definedCapLen then capLen else definedCapLen
          capMods m n (content + 2 + capLen) (blk - 2 - capLen)
            { cap := copy s.cap target m (content + 2) lenToCp
              reads := s.reads ++ [(content + 2, lenToCp)]
              writes := s.writes ++ [(target, lenToCp)] }

/-- The loop over the blocks, from `offset` on; `none` where the fuel does not do. -/
def capBlocks (m : Mem) (size : ℕ) : ℕ → ℕ → WcpuSt → Option (CapRet × WcpuSt)
  | 0, _, _ => none
  | fuel + 1, offset, s =>
    if offset < size then
      let blk := (m offset).toNat
      let s := { s with reads := s.reads ++ [(offset, 1)] }
      if blk < wlanfwCapHdrLen then capBlocks m size fuel (offset + 1 + blk) s
      else
        let s := { s with reads := s.reads ++ [(offset + 1, 4)] }
        if le32 m (offset + 1) ≠ macWlanfwCapMagicCode then capBlocks m size fuel (offset + 1 + blk) s
        else
          let s := { s with reads := s.reads ++ [(offset + 5, 1)] }
          some (capMods m (m (offset + 5)).toNat (offset + 6) (blk - wlanfwCapHdrLen) s)
    else some (.noItem, s)

/-- `mac_get_wlanfw_cap`, into a structure that was `cap` before. -/
def macGetWlanfwCap (m : Mem) (size : ℕ) (cap : Mem) (fuel : ℕ) : Option (CapRet × WcpuSt) :=
  let s := (WcpuSt.mk cap [] []).clear
  if size > macWlanfwCapMaxSize then some (.bufSz, s) else capBlocks m size fuel 0 s

/-! ### The blocks and the records -/

/-- The block at an offset has the magic code. -/
def Magic (m : Mem) (off : ℕ) : Prop :=
  wlanfwCapHdrLen ≤ (m off).toNat ∧ le32 m (off + 1) = macWlanfwCapMagicCode

instance (m : Mem) (off : ℕ) : Decidable (Magic m off) := inferInstanceAs (Decidable (_ ∧ _))

/-- The blocks before the first one with the magic code, and that one. -/
def capWalk (m : Mem) (size off : ℕ) : List ℕ × Option ℕ :=
  if off < size then
    if Magic m off then ([], some off)
    else
      let r := capWalk m size (off + 1 + (m off).toNat)
      (off :: r.1, r.2)
  else ([], none)
termination_by size - off
decreasing_by omega

structure CapRecord where
  off : ℕ
  modId : ℕ
  capLen : ℕ
  deriving DecidableEq

def capRecordAt (m : Mem) (off : ℕ) : CapRecord := ⟨off, (m off).toNat, (m (off + 1)).toNat * 4⟩

/-- The bytes of a record that are copied. -/
def CapRecord.lenToCp (r : CapRecord) : ℕ :=
  match capModule r.modId with
  | none => 0
  | some p => if r.capLen < p.2 then r.capLen else p.2

/-- How the records of a block end: all are there, there is no room for the head of one, or the one at an offset is too long
or of no known module. -/
inductive CapEnd where
  | done
  | noSpace
  | bad (off : ℕ)
  deriving DecidableEq

/-- The well-formed records among `n` of them in `blk` bytes from an offset on, and what ends them. -/
def capRecords (m : Mem) : ℕ → ℕ → ℕ → List CapRecord × CapEnd
  | 0, _, _ => ([], .done)
  | n + 1, off, blk =>
    if blk < 2 then ([], .noSpace)
    else
      let r := capRecordAt m off
      if r.capLen > blk - 2 ∨ capModule r.modId = none then ([], .bad off)
      else
        let rest := capRecords m n (off + 2 + r.capLen) (blk - 2 - r.capLen)
        (r :: rest.1, rest.2)

/-- What is read of a block before the magic code is found. -/
def blockReads (m : Mem) (off : ℕ) : List Access :=
  if (m off).toNat < wlanfwCapHdrLen then [(off, 1)] else [(off, 1), (off + 1, 4)]

def CapRecord.reads (r : CapRecord) : List Access := [(r.off, 1), (r.off + 1, 1), (r.off + 2, r.lenToCp)]

def CapEnd.reads : CapEnd → List Access
  | .bad off => [(off, 1), (off + 1, 1)]
  | _ => []

def CapRecord.put (m : Mem) (cap : Mem) (r : CapRecord) : Mem :=
  match capModule r.modId with
  | none => cap
  | some p => copy cap p.1 m (r.off + 2) r.lenToCp

/-- Where the copy of a record goes to. -/
def CapRecord.write (r : CapRecord) : Access :=
  match capModule r.modId with
  | none => (0, 0)
  | some p => (p.1, r.lenToCp)

variable {m : Mem} {size off n blk fuel : ℕ} {s : WcpuSt}

theorem capWalk_magic (hlt : off < size) (h : Magic m off) : capWalk m size off = ([], some off) := by
  unfold capWalk
  rw [if_pos hlt, if_pos h]

theorem capWalk_skip (hlt : off < size) (h : ¬ Magic m off) :
    capWalk m size off = (off :: (capWalk m size (off + 1 + (m off).toNat)).1,
      (capWalk m size (off + 1 + (m off).toNat)).2) := by
  conv_lhs => unfold capWalk
  rw [if_pos hlt, if_neg h]

theorem capWalk_end (hle : ¬ off < size) : capWalk m size off = ([], none) := by
  unfold capWalk
  rw [if_neg hle]

theorem capBlocks_skip (hlt : off < size) (h : ¬ Magic m off) : capBlocks m size (fuel + 1) off s =
      capBlocks m size fuel (off + 1 + (m off).toNat) { s with reads := s.reads ++ blockReads m off } := by
  unfold blockReads
  rw [capBlocks, if_pos hlt]
  by_cases hshort : (m off).toNat < wlanfwCapHdrLen
  · simp only [if_pos hshort]
  · have hno : le32 m (off + 1) ≠ macWlanfwCapMagicCode := fun hm => h ⟨Nat.le_of_not_lt hshort, hm⟩
    simp only [if_neg hshort, if_pos hno, List.append_assoc, List.singleton_append]

theorem capBlocks_eq (hfuel : size - off < fuel) : capBlocks m size fuel off s =
      let s' : WcpuSt := { s with reads := s.reads ++ (capWalk m size off).1.flatMap (blockReads m) }
      match (capWalk m size off).2 with
      | none => some (.noItem, s')
      | some b => some (capMods m (m (b + 5)).toNat (b + 6) ((m b).toNat - wlanfwCapHdrLen)
          { s' with reads := s'.reads ++ [(b, 1), (b + 1, 4), (b + 5, 1)] }) := by
  induction fuel generalizing off s with
  | zero => omega
  | succ fuel ih =>
    by_cases hlt : off < size
    · by_cases hmagic : Magic m off
      · rw [capWalk_magic hlt hmagic]
        unfold capBlocks
        rw [if_pos hlt]
        simp only [if_neg (Nat.not_lt.mpr hmagic.1), if_neg (not_not.mpr hmagic.2), List.flatMap_nil, List.append_nil,
          List.append_assoc, List.cons_append, List.nil_append]
      · rw [capBlocks_skip hlt hmagic, capWalk_skip hlt hmagic, ih (by omega)]
        simp only [List.flatMap_cons, List.append_assoc]
    · unfold capBlocks
      rw [if_neg hlt, capWalk_end hlt]
      simp only [List.flatMap_nil, List.append_nil]

theorem capRecords_noSpace (h : blk < 2) : capRecords m (n + 1) off blk = ([], .noSpace) := if_pos h

theorem capRecords_bad (h : ¬ blk < 2) (hbad : (m (off + 1)).toNat * 4 > blk - 2 ∨ capModule (m off).toNat = none) :
    capRecords m (n + 1) off blk = ([], .bad off) := by
  unfold capRecords
  rw [if_neg h]; exact if_pos hbad

variable {p : ℕ × ℕ}

theorem capRecords_good (h : ¬ blk < 2) (hlen : ¬ (m (off + 1)).toNat * 4 > blk - 2)
    (hmod : capModule (m off).toNat = some p) :
    capRecords m (n + 1) off blk =
      (capRecordAt m off :: (capRecords m n (off + 2 + (m (off + 1)).toNat * 4) (blk - 2 - (m (off + 1)).toNat * 4)).1,
        (capRecords m n (off + 2 + (m (off + 1)).toNat * 4) (blk - 2 - (m (off + 1)).toNat * 4)).2) := by
  have hgood : ¬ ((m (off + 1)).toNat * 4 > blk - 2 ∨ capModule (m off).toNat = none) := by
    rw [hmod]
    rintro (h | h)
    · exact hlen h
    · cases h
  conv_lhs => unfold capRecords
  rw [if_neg h]; exact if_neg hgood

theorem capRecordAt_eq (hmod : capModule (m off).toNat = some p) :
    (capRecordAt m off).lenToCp = (if (m (off + 1)).toNat * 4 < p.2 then (m (off + 1)).toNat * 4 else p.2) ∧
      (∀ cap, (capRecordAt m off).put m cap = copy cap p.1 m (off + 2) (capRecordAt m off).lenToCp) ∧
      (capRecordAt m off).write = (p.1, (capRecordAt m off).lenToCp) := by
  have hmod' : capModule (capRecordAt m off).modId = some p := hmod
  refine ⟨?_, fun cap => ?_, ?_⟩
  · unfold CapRecord.lenToCp
    rw [hmod']; rfl
  · unfold CapRecord.put
    rw [hmod']; rfl
  · unfold CapRecord.write; rw [hmod']

theorem capMods_eq :
    capMods m n off blk s =
      let w := capRecords m n off blk
      let s' : WcpuSt :=
        { cap := w.1.foldl (fun cap r => r.put m cap) s.cap
          reads := s.reads ++ w.1.flatMap (·.reads) ++ w.2.reads
          writes := s.writes ++ w.1.map (·.write) }
      if w.2 = .done then (.success, s') else (.noItem, s'.clear) := by
  induction n generalizing off blk s with
  | zero =>
    unfold capMods capRecords
    simp only [if_true, List.foldl_nil, List.flatMap_nil, List.map_nil, List.append_nil, CapEnd.reads]
  | succ n ih =>
    rw [capMods]
    by_cases hspace : blk < 2
    · rw [capRecords_noSpace hspace]
      simp only [if_pos hspace, reduceCtorEq, if_false, List.foldl_nil, List.flatMap_nil, List.map_nil,
        List.append_nil, CapEnd.reads]
    simp only [if_neg hspace]
    by_cases hlen : (m (off + 1)).toNat * 4 > blk - 2
    · rw [capRecords_bad hspace (.inl hlen)]
      simp only [if_pos hlen, reduceCtorEq, if_false, List.foldl_nil, List.flatMap_nil, List.map_nil,
        List.append_nil, CapEnd.reads]
    cases hmod : capModule (m off).toNat with
    | none =>
      rw [capRecords_bad hspace (.inr hmod)]
      simp only [if_neg hlen, reduceCtorEq, if_false, List.foldl_nil, List.flatMap_nil, List.map_nil,
        List.append_nil, CapEnd.reads]
    | some p =>
      obtain ⟨hcopy, hput, hwrite⟩ := capRecordAt_eq hmod
      have hreads : (capRecordAt m off).reads = [(off, 1), (off + 1, 1), (off + 2, (capRecordAt m off).lenToCp)] := rfl
      rw [capRecords_good hspace hlen hmod]
      simp only [if_neg hlen, ← hcopy, ih, List.foldl_cons, List.flatMap_cons, List.map_cons, hput, hwrite, hreads,
        List.append_assoc, List.cons_append, List.nil_append]

/-! ### Where the records are -/

theorem lenToCp_le (r : CapRecord) : r.lenToCp ≤ r.capLen := by
  unfold CapRecord.lenToCp
  split
  · exact Nat.zero_le _
  · split <;> omega

theorem capRecords_inside : (∀ r ∈ (capRecords m n off blk).1, r.off + 2 + r.capLen ≤ off + blk) ∧
    ∀ o, (capRecords m n off blk).2 = .bad o → o + 2 ≤ off + blk := by
  induction n generalizing off blk with
  | zero => exact ⟨nofun, nofun⟩
  | succ n ih =>
    by_cases hspace : blk < 2
    · rw [capRecords_noSpace hspace]; exact ⟨nofun, nofun⟩
    by_cases hbad : (m (off + 1)).toNat * 4 > blk - 2 ∨ capModule (m off).toNat = none
    · rw [capRecords_bad hspace hbad]
      refine ⟨nofun, fun o ho => ?_⟩
      cases ho
      omega
    · obtain ⟨hlen, hmod⟩ := not_or.mp hbad
      obtain ⟨p, hp⟩ := Option.ne_none_iff_exists'.mp hmod
      rw [capRecords_good hspace hlen hp]
      obtain ⟨hrecs, hend⟩ := @ih (off + 2 + (m (off + 1)).toNat * 4) (blk - 2 - (m (off + 1)).toNat * 4)
      refine ⟨fun r hr => ?_, fun o ho => ?_⟩
      · rcases List.mem_cons.mp hr with rfl | hr
        · have hcap : (capRecordAt m off).capLen = (m (off + 1)).toNat * 4 := rfl
          have hoff : (capRecordAt m off).off = off := rfl
          omega
        · have := hrecs r hr; omega
      · have := hend o ho; omega

theorem capRecords_known : ∀ r ∈ (capRecords m n off blk).1, ∃ p, capModule r.modId = some p := by
  induction n generalizing off blk with
  | zero => exact nofun
  | succ n ih =>
    by_cases hspace : blk < 2
    · rw [capRecords_noSpace hspace]; exact nofun
    by_cases hbad : (m (off + 1)).toNat * 4 > blk - 2 ∨ capModule (m off).toNat = none
    · rw [capRecords_bad hspace hbad]; exact nofun
    · obtain ⟨hlen, hmod⟩ := not_or.mp hbad
      obtain ⟨p, hp⟩ := Option.ne_none_iff_exists'.mp hmod
      rw [capRecords_good hspace hlen hp]
      intro r hr
      rcases List.mem_cons.mp hr with rfl | hr
      · exact ⟨p, hp⟩
      · exact ih r hr

variable {b : ℕ}

theorem capModule_disjoint {a : ℕ} {q : ℕ × ℕ} (hp : capModule a = some p) (hq : capModule b = some q) (hne : a ≠ b) :
    p.1 + p.2 ≤ q.1 ∨ q.1 + q.2 ≤ p.1 := by
  unfold capModule at hp hq
  split_ifs at hp hq <;> cases hp <;> cases hq <;> omega

theorem capModule_le {a : ℕ} (hp : capModule a = some p) : p.1 + p.2 ≤ wcpuCapLen := by
  unfold capModule at hp
  split_ifs at hp <;> cases hp <;> decide

variable {r : CapRecord}

theorem lenToCp_le_size (hp : capModule r.modId = some p) : r.lenToCp ≤ p.2 := by
  unfold CapRecord.lenToCp
  rw [hp]
  simp only
  split <;> omega

theorem write_eq (hp : capModule r.modId = some p) : r.write = (p.1, r.lenToCp) := by
  unfold CapRecord.write
  rw [hp]

theorem put_eq (hp : capModule r.modId = some p) (cap : Mem) :
    r.put m cap = copy cap p.1 m (r.off + 2) r.lenToCp := by
  unfold CapRecord.put
  rw [hp]

theorem foldl_put_last {pre post : List CapRecord} (hp : capModule r.modId = some p)
    (hknown : ∀ r' ∈ post, ∃ q, capModule r'.modId = some q) (hlast : ∀ r' ∈ post, r'.modId ≠ r.modId) (cap : Mem)
    {i : ℕ} (hi : i < r.lenToCp) :
    (pre ++ r :: post).foldl (fun cap r => r.put m cap) cap (p.1 + i) = m (r.off + 2 + i) := by
  have hsize := lenToCp_le_size hp
  rw [List.foldl_append, List.foldl_cons]
  have hnow : r.put m (pre.foldl (fun cap r => r.put m cap) cap) (p.1 + i) = m (r.off + 2 + i) := by
    rw [put_eq hp]
    unfold copy
    rw [if_pos (by omega), Nat.add_sub_cancel_left]
  generalize r.put m (pre.foldl (fun cap r => r.put m cap) cap) = cap' at hnow ⊢
  induction post generalizing cap' with
  | nil => exact hnow
  | cons r' post ih =>
    rw [List.foldl_cons]
    refine ih (fun x hx => hknown x (List.mem_cons_of_mem _ hx)) (fun x hx => hlast x (List.mem_cons_of_mem _ hx)) _ ?_
    obtain ⟨q, hq⟩ := hknown r' List.mem_cons_self
    have hapart := capModule_disjoint hp hq (hlast r' List.mem_cons_self).symm
    have hsize' := lenToCp_le_size hq
    rw [put_eq hq]
    unfold copy
    rw [if_neg (by omega), hnow]

/-! ### What is to hold -/

/-- The records of the block with the magic code. -/
def magicRecords (m : Mem) (b : ℕ) : List CapRecord × CapEnd :=
  capRecords m (m (b + 5)).toNat (b + 6) ((m b).toNat - wlanfwCapHdrLen)

/-- The first block with the magic code is completely inside of the buffer, and has as many well-formed records of known
modules as it says. -/
def CapsGiven (m : Mem) (size : ℕ) : Prop :=
  ∃ b, (capWalk m size 0).2 = some b ∧ b + 1 + (m b).toNat ≤ size ∧ (magicRecords m b).2 = .done

/-- **Only the buffer is read, and only the structure is written; the call succeeds exactly when the capabilities are given,
and then every module has what its last record has, while the structure is zero where it does not.** -/
structure CapRight (m : Mem) (size : ℕ) (r : CapRet × WcpuSt) : Prop where
  inside : ∀ a ∈ r.2.reads, a.1 + a.2 ≤ size
  writes : ∀ w ∈ r.2.writes, w.1 + w.2 ≤ wcpuCapLen
  success_iff : r.1 = .success ↔ CapsGiven m size
  fields : r.1 = .success → ∀ b, (capWalk m size 0).2 = some b → ∀ pre x post,
    (magicRecords m b).1 = pre ++ x :: post → (∀ x' ∈ post, x'.modId ≠ x.modId) →
      ∀ i < x.lenToCp, r.2.cap (x.write.1 + i) = m (x.off + 2 + i)
  zero : r.1 ≠ .success → ∀ i < wcpuCapLen, r.2.cap i = 0

/-- The records of a block that is cut off end in one that is not well-formed before the buffer does. -/
def StopsInside (m : Mem) (size b : ℕ) : Prop :=
  (magicRecords m b).2 ≠ .done ∧ (∀ r ∈ (magicRecords m b).1, r.off + 2 + r.lenToCp ≤ size) ∧
    ∀ o, (magicRecords m b).2 = .bad o → o + 2 ≤ size

/-- **The buffers that are read rightly**: every block that is long enough for a magic code has it inside of the buffer, and
the first one that has the code is inside as a whole, or cut off behind a record that is not well-formed. -/
def BlocksFit (m : Mem) (size : ℕ) : Prop :=
  (∀ off ∈ (capWalk m size 0).1, wlanfwCapHdrLen ≤ (m off).toNat → off + 5 ≤ size) ∧
    ∀ b, (capWalk m size 0).2 = some b → b + 6 ≤ size ∧ (b + 1 + (m b).toNat ≤ size ∨ StopsInside m size b)

/-! ### The function -/

theorem blockReads_inside (hwalk : ∀ x ∈ (capWalk m size off).1, x < size) :
    (∀ a ∈ (capWalk m size off).1.flatMap (blockReads m), a.1 + a.2 ≤ size) ↔
      ∀ x ∈ (capWalk m size off).1, wlanfwCapHdrLen ≤ (m x).toNat → x + 5 ≤ size := by
  simp only [List.mem_flatMap]
  constructor
  · intro h x hx hlen
    have hmem : (x + 1, 4) ∈ blockReads m x := by
      unfold blockReads
      rw [if_neg (Nat.not_lt.mpr hlen)]; exact List.mem_cons_of_mem _ List.mem_cons_self
    exact h (x + 1, 4) ⟨x, hx, hmem⟩
  · rintro h a ⟨x, hx, ha⟩
    have hlt := hwalk x hx
    unfold blockReads at ha
    by_cases hlen : (m x).toNat < wlanfwCapHdrLen
    · rw [if_pos hlen, List.mem_singleton] at ha
      subst ha; exact hlt
    · rw [if_neg hlen] at ha
      have hfit := h x hx (Nat.le_of_not_lt hlen)
      simp only [List.mem_cons, List.not_mem_nil, or_false] at ha
      rcases ha with rfl | rfl
      · exact hlt
      · exact hfit

theorem capWalk_lt : (∀ x ∈ (capWalk m size off).1, x < size) ∧ ∀ b, (capWalk m size off).2 = some b → b < size ∧ Magic m b := by
  induction off using capWalk.induct m size with
  | case1 off hlt hmagic =>
    rw [capWalk_magic hlt hmagic]
    refine ⟨nofun, fun b hb => ?_⟩
    obtain rfl := Option.some.inj hb
    exact ⟨hlt, hmagic⟩
  | case2 off hlt hmagic ih =>
    rw [capWalk_skip hlt hmagic]
    refine ⟨fun x hx => ?_, ih.2⟩
    rcases List.mem_cons.mp hx with rfl | hx
    · exact hlt
    · exact ih.1 x hx
  | case3 off hlt =>
    rw [capWalk_end hlt]; exact ⟨nofun, nofun⟩

theorem recordReads_inside (m : Mem) (size b : ℕ) :
    (∀ a ∈ (magicRecords m b).1.flatMap (·.reads) ++ (magicRecords m b).2.reads, a.1 + a.2 ≤ size) ↔
      (∀ r ∈ (magicRecords m b).1, r.off + 2 + r.lenToCp ≤ size) ∧
        ∀ o, (magicRecords m b).2 = .bad o → o + 2 ≤ size := by
  simp only [List.mem_append, List.mem_flatMap]
  constructor
  · intro h
    refine ⟨fun r hr => ?_, fun o ho => ?_⟩
    · exact h (r.off + 2, r.lenToCp) (.inl ⟨r, hr, by unfold CapRecord.reads; simp⟩)
    · exact h (o + 1, 1) (.inr (by rw [ho]; unfold CapEnd.reads; simp))
  · rintro ⟨hrecs, hend⟩ a (⟨r, hr, ha⟩ | ha)
    · have hfit := hrecs r hr
      unfold CapRecord.reads at ha
      simp only [List.mem_cons, List.not_mem_nil, or_false] at ha
      rcases ha with rfl | rfl | rfl
      · simp only; omega
      · simp only; omega
      · exact hfit
    · cases he : (magicRecords m b).2 with
      | done =>
        rw [he] at ha; cases ha
      | noSpace =>
        rw [he] at ha; cases ha
      | bad o =>
        have hfit := hend o he
        rw [he] at ha
        unfold CapEnd.reads at ha
        simp only [List.mem_cons, List.not_mem_nil, or_false] at ha
        rcases ha with rfl | rfl
        · simp only; omega
        · exact hfit

theorem records_of_inside (hlen : wlanfwCapHdrLen ≤ (m b).toNat) (hin : b + 1 + (m b).toNat ≤ size) :
    (∀ r ∈ (magicRecords m b).1, r.off + 2 + r.lenToCp ≤ size) ∧ ∀ o, (magicRecords m b).2 = .bad o → o + 2 ≤ size := by
  obtain ⟨hrecs, hend⟩ := @capRecords_inside m (b + 6) (m (b + 5)).toNat ((m b).toNat - wlanfwCapHdrLen)
  unfold wlanfwCapHdrLen at *
  refine ⟨fun r hr => ?_, fun o ho => ?_⟩
  · have := hrecs r hr
    have := lenToCp_le r
    omega
  · have := hend o ho; omega

theorem clear_cap (s : WcpuSt) {i : ℕ} (hi : i < wcpuCapLen) : s.clear.cap i = 0 := if_pos hi

theorem foundReads_inside (m : Mem) (size b : ℕ) :
    (∀ a ∈ (capWalk m size 0).1.flatMap (blockReads m) ++ [(b, 1), (b + 1, 4), (b + 5, 1)] ++
        (magicRecords m b).1.flatMap (·.reads) ++ (magicRecords m b).2.reads, a.1 + a.2 ≤ size) ↔
      ((∀ x ∈ (capWalk m size 0).1, wlanfwCapHdrLen ≤ (m x).toNat → x + 5 ≤ size) ∧ b + 6 ≤ size) ∧
        (∀ r ∈ (magicRecords m b).1, r.off + 2 + r.lenToCp ≤ size) ∧
          ∀ o, (magicRecords m b).2 = .bad o → o + 2 ≤ size := by
  have hhead : (∀ a ∈ [((b, 1) : Access), (b + 1, 4), (b + 5, 1)], a.1 + a.2 ≤ size) ↔ b + 6 ≤ size := by
    simp only [List.forall_mem_cons, List.not_mem_nil, false_implies, implies_true, and_true]; omega
  rw [List.append_assoc, List.forall_mem_append, recordReads_inside, List.forall_mem_append,
    blockReads_inside capWalk_lt.1, hhead]

theorem recordWrites_inside (m : Mem) (b : ℕ) {w : Access}
    (hw : w ∈ [((0, wcpuCapLen) : Access)] ++ (magicRecords m b).1.map (·.write)) : w.1 + w.2 ≤ wcpuCapLen := by
  rcases List.mem_append.mp hw with hw | hw
  · obtain rfl := List.mem_singleton.mp hw; exact Nat.le_refl _
  · obtain ⟨r, hr, rfl⟩ := List.mem_map.mp hw
    obtain ⟨p, hp⟩ := capRecords_known r hr
    have hplace := capModule_le hp
    have hsize := lenToCp_le_size hp
    rw [write_eq hp]
    simp only
    omega

theorem capsGiven_iff (hwalk : (capWalk m size 0).2 = some b) :
    CapsGiven m size ↔ b + 1 + (m b).toNat ≤ size ∧ (magicRecords m b).2 = .done := by
  constructor
  · rintro ⟨b', hb', hin, hdone⟩
    obtain rfl := Option.some.inj (hwalk.symm.trans hb')
    exact ⟨hin, hdone⟩
  · exact fun ⟨hin, hdone⟩ => ⟨b, hwalk, hin, hdone⟩

theorem blocksFit_iff (hwalk : (capWalk m size 0).2 = some b) :
    BlocksFit m size ↔ (∀ x ∈ (capWalk m size 0).1, wlanfwCapHdrLen ≤ (m x).toNat → x + 5 ≤ size) ∧ b + 6 ≤ size ∧
      (b + 1 + (m b).toNat ≤ size ∨ StopsInside m size b) := by
  unfold BlocksFit
  refine and_congr_right fun _ => ⟨fun h => h b hwalk, fun h b' hb' => ?_⟩
  obtain rfl := Option.some.inj (hwalk.symm.trans hb')
  exact h

theorem done_right {s : WcpuSt} (hwalk : (capWalk m size 0).2 = some b)
    (hmagic : wlanfwCapHdrLen ≤ (m b).toNat) (hdone : (magicRecords m b).2 = .done)
    (hreads : s.reads = (capWalk m size 0).1.flatMap (blockReads m) ++ [(b, 1), (b + 1, 4), (b + 5, 1)] ++
      (magicRecords m b).1.flatMap (·.reads) ++ (magicRecords m b).2.reads)
    (hwrites : s.writes = [(0, wcpuCapLen)] ++ (magicRecords m b).1.map (·.write)) {cap : Mem}
    (hcap : s.cap = (magicRecords m b).1.foldl (fun cap r => r.put m cap) cap) :
    CapRight m size (.success, s) ↔ BlocksFit m size := by
  rw [blocksFit_iff hwalk]
  constructor
  · intro h
    have hinside := h.inside
    rw [hreads, foundReads_inside] at hinside
    obtain ⟨hin, -⟩ := (capsGiven_iff hwalk).mp (h.success_iff.mp rfl)
    exact ⟨hinside.1.1, hinside.1.2, .inl hin⟩
  · rintro ⟨hblocks, hhead, hin | ⟨hnot, -⟩⟩
    · refine ⟨?_, ?_, iff_of_true rfl ((capsGiven_iff hwalk).mpr ⟨hin, hdone⟩), fun _ b' hb' pre x post hsplit hlast i hi => ?_,
        fun hne => absurd rfl hne⟩
      · rw [hreads, foundReads_inside]; exact ⟨⟨hblocks, hhead⟩, records_of_inside hmagic hin⟩
      · rw [hwrites]; exact fun w => recordWrites_inside m b
      · obtain rfl := Option.some.inj (hwalk.symm.trans hb')
        have hknown : ∀ r ∈ pre ++ x :: post, ∃ p, capModule r.modId = some p := by
          rw [← hsplit]; exact capRecords_known
        obtain ⟨p, hp⟩ := hknown x (by simp)
        rw [write_eq hp, hcap, hsplit]
        exact foldl_put_last hp (fun r hr => hknown r (by simp [hr])) hlast _ hi
    · exact absurd hdone hnot

theorem stopped_right {s : WcpuSt} (hwalk : (capWalk m size 0).2 = some b)
    (hmagic : wlanfwCapHdrLen ≤ (m b).toNat) (hnot : (magicRecords m b).2 ≠ .done)
    (hreads : s.reads = (capWalk m size 0).1.flatMap (blockReads m) ++ [(b, 1), (b + 1, 4), (b + 5, 1)] ++
      (magicRecords m b).1.flatMap (·.reads) ++ (magicRecords m b).2.reads)
    (hwrites : s.writes = [(0, wcpuCapLen)] ++ (magicRecords m b).1.map (·.write)) :
    CapRight m size (.noItem, s.clear) ↔ BlocksFit m size := by
  have hclear : s.clear.reads = s.reads := rfl
  have hclear' : s.clear.writes = s.writes ++ [(0, wcpuCapLen)] := rfl
  rw [blocksFit_iff hwalk]
  constructor
  · intro h
    have hinside := h.inside
    simp only at hinside
    rw [hclear, hreads, foundReads_inside] at hinside
    exact ⟨hinside.1.1, hinside.1.2, .inr ⟨hnot, hinside.2⟩⟩
  · rintro ⟨hblocks, hhead, hcase⟩
    have hrecs : (∀ r ∈ (magicRecords m b).1, r.off + 2 + r.lenToCp ≤ size) ∧
        ∀ o, (magicRecords m b).2 = .bad o → o + 2 ≤ size := by
      rcases hcase with hin | ⟨-, hrecs⟩
      · exact records_of_inside hmagic hin
      · exact hrecs
    refine ⟨?_, fun w hw => ?_, iff_of_false nofun ?_, nofun, fun _ i hi => clear_cap _ hi⟩
    · simp only
      rw [hclear, hreads, foundReads_inside]; exact ⟨⟨hblocks, hhead⟩, hrecs⟩
    · simp only at hw
      rw [hclear', hwrites] at hw
      rcases List.mem_append.mp hw with hw | hw
      · exact recordWrites_inside m b hw
      · obtain rfl := List.mem_singleton.mp hw; exact Nat.le_refl _
    · rw [capsGiven_iff hwalk]; exact fun h => hnot h.2

/-- **The capabilities of the firmware are read rightly from exactly these buffers.** -/
theorem wlanfw_cap_iff (m : Mem) (size : ℕ) (hsize : size ≤ macWlanfwCapMaxSize) (cap : Mem) :
    (∃ r, macGetWlanfwCap m size cap (size + 1) = some r ∧ CapRight m size r) ↔ BlocksFit m size := by
  obtain ⟨hvisited, hfound⟩ := @capWalk_lt m size 0
  have hblocks := blockReads_inside hvisited
  unfold macGetWlanfwCap
  simp only
  rw [if_neg (Nat.not_lt.mpr hsize), capBlocks_eq (by omega)]
  cases hwalk : (capWalk m size 0).2 with
  | none =>
    simp only [Option.some.injEq, exists_eq_left']
    constructor
    · intro h
      refine ⟨hblocks.mp h.inside, fun b hb => ?_⟩
      rw [hwalk] at hb; cases hb
    · intro h
      refine ⟨hblocks.mpr h.1, ?_, ?_, nofun, fun _ i hi => clear_cap _ hi⟩
      · intro w hw
        obtain rfl := List.mem_singleton.mp hw
        exact Nat.le_refl _
      · refine iff_of_false nofun ?_
        rintro ⟨b, hb, -⟩
        rw [hwalk] at hb; cases hb
  | some b =>
    simp only [Option.some.injEq, exists_eq_left']
    obtain ⟨hlt, hmagic⟩ := hfound b hwalk
    rw [capMods_eq]
    change CapRight m size (if (magicRecords m b).2 = .done then _ else _) ↔ _
    by_cases hdone : (magicRecords m b).2 = .done
    · rw [if_pos hdone]; exact done_right hwalk hmagic.1 hdone rfl rfl rfl
    · rw [if_neg hdone]; exact stopped_right hwalk hmagic.1 hdone rfl rfl

/-- A block of 46 zeros, and the length of a second one as the last byte of a full buffer. -/
def lengthLast : Mem := fun i => if i = 0 then 46 else if i = 47 then 200 else 0

/-- **The magic code of the second block is read behind the buffer.** -/
theorem lengthLast_read_behind : ∃ r, macGetWlanfwCap lengthLast macWlanfwCapMaxSize (fun _ => 0) 49 = some r ∧
    ¬ CapRight lengthLast macWlanfwCapMaxSize r := by
  refine ⟨_, rfl, fun h => ?_⟩
  have hbehind := h.inside (48, 4) (by decide)
  exact absurd hbehind (by decide)

/-- The magic code, and a record of the BB with one word. -/
def oneRecord : Mem := fun i => [11, 0xAB, 0xFC, 0xAB, 0xFC, 1, 0xBB, 1, 1, 2, 3, 4].getD i 0

theorem oneRecord_right : ∃ r, macGetWlanfwCap oneRecord 12 (fun _ => 0) 13 = some r ∧ CapRight oneRecord 12 r := by
  have hwalk : capWalk oneRecord 12 0 = ([], some 0) := capWalk_magic (by decide) (by decide)
  refine (wlanfw_cap_iff oneRecord 12 (by decide) (fun _ => 0)).mpr ?_
  rw [blocksFit_iff (congrArg Prod.snd hwalk), hwalk]; exact ⟨nofun, by decide, .inl (by decide)⟩

end Rtl8852cu.Fwdl
