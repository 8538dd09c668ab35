import Mathlib.Algebra.Ring.Nat
import Mathlib.Data.Nat.Bitwise

/-!
# Half words and words in the order of the host

Memory is bytes at addresses.  `ByteOrder.read16` and `write16` are what a machine of either order does with a half word,
`htons` turns a half word between the order of the machine and that of the network, `be16` is the half word that the
network sees.

* `read16_eq`, `be16_write16_same`, `be16_write16_disjoint`: the accesses of a machine, as the network sees them;
* `read16_eq_htons_iff`, `read32_eq_htonl_iff`: comparing with a constant.
-/

namespace Rtl8852cu.Lib

/-- The byte order of the machine. -/
inductive ByteOrder where
  | little
  | big
deriving DecidableEq, Repr

abbrev ByteMem := ℕ → BitVec 8

/-- The half word at an address, the most significant byte first. -/
def be16 (m : ByteMem) (a : ℕ) : BitVec 16 := m a ++ m (a + 1)

/-- The word at an address, the most significant byte first. -/
def be32 (m : ByteMem) (a : ℕ) : BitVec 32 := be16 m a ++ be16 m (a + 2)

/-- The two bytes of a half word exchanged. -/
def swap16 (w : BitVec 16) : BitVec 16 := w.extractLsb' 0 8 ++ w.extractLsb' 8 8

/-- The bytes of a word in the opposite order. -/
def swap32 (w : BitVec 32) : BitVec 32 := swap16 (w.extractLsb' 0 16) ++ swap16 (w.extractLsb' 16 16)

namespace ByteOrder

/-- `htons`, and `ntohs`. -/
def htons : ByteOrder → BitVec 16 → BitVec 16
  | little, w => swap16 w
  | big, w => w

/-- `htonl`, and `ntohl`. -/
def htonl : ByteOrder → BitVec 32 → BitVec 32
  | little, w => swap32 w
  | big, w => w

/-- The half word that the machine reads. -/
def read16 : ByteOrder → ByteMem → ℕ → BitVec 16
  | little, m, a => m (a + 1) ++ m a
  | big, m, a => m a ++ m (a + 1)

/-- The word that the machine reads. -/
def read32 : ByteOrder → ByteMem → ℕ → BitVec 32
  | little, m, a => read16 little m (a + 2) ++ read16 little m a
  | big, m, a => read16 big m a ++ read16 big m (a + 2)

/-- The machine stores a half word. -/
def write16 : ByteOrder → ByteMem → ℕ → BitVec 16 → ByteMem
  | little, m, a, w => fun i => if i = a then w.extractLsb' 0 8 else if i = a + 1 then w.extractLsb' 8 8 else m i
  | big, m, a, w => fun i => if i = a then w.extractLsb' 8 8 else if i = a + 1 then w.extractLsb' 0 8 else m i

end ByteOrder

variable {e : ByteOrder} {m : ByteMem} {a b : ℕ} {w : BitVec 16}

theorem swap16_append (x y : BitVec 8) : swap16 (x ++ y) = y ++ x := by
  unfold swap16
  rw [BitVec.extractLsb'_append_eq_left, BitVec.extractLsb'_append_eq_right]

theorem append_inj {n k : ℕ} {x x' : BitVec n} {y y' : BitVec k} : x ++ y = x' ++ y' ↔ x = x' ∧ y = y' := by
  constructor
  · intro h
    have hx := congrArg (BitVec.extractLsb' k n) h
    have hy := congrArg (BitVec.extractLsb' 0 k) h
    rw [BitVec.extractLsb'_append_eq_left, BitVec.extractLsb'_append_eq_left] at hx
    rw [BitVec.extractLsb'_append_eq_right, BitVec.extractLsb'_append_eq_right] at hy
    exact ⟨hx, hy⟩
  · rintro ⟨rfl, rfl⟩; rfl

@[simp] theorem swap16_swap16 (w : BitVec 16) : swap16 (swap16 w) = w := by
  unfold swap16
  rw [BitVec.extractLsb'_append_eq_left, BitVec.extractLsb'_append_eq_right, BitVec.extractLsb'_append_extractLsb']

theorem swap16_inj {w w' : BitVec 16} : swap16 w = swap16 w' ↔ w = w' := by
  constructor
  · intro h; rw [← swap16_swap16 w, h, swap16_swap16]
  · rintro rfl; rfl

@[simp] theorem htons_htons (w : BitVec 16) : e.htons (e.htons w) = w := by
  cases e with
  | little => exact swap16_swap16 w
  | big => rfl

theorem htons_inj {w w' : BitVec 16} : e.htons w = e.htons w' ↔ w = w' := by
  constructor
  · intro h; rw [← htons_htons (e := e) w, h, htons_htons]
  · rintro rfl; rfl

theorem htons_and (w w' : BitVec 16) : e.htons (w &&& w') = e.htons w &&& e.htons w' := by
  cases e with
  | big => rfl
  | little =>
    show swap16 (w &&& w') = swap16 w &&& swap16 w'
    unfold swap16
    rw [BitVec.extractLsb'_and, BitVec.extractLsb'_and, ← BitVec.and_append]

theorem htons_or (w w' : BitVec 16) : e.htons (w ||| w') = e.htons w ||| e.htons w' := by
  cases e with
  | big => rfl
  | little =>
    show swap16 (w ||| w') = swap16 w ||| swap16 w'
    unfold swap16
    rw [BitVec.extractLsb'_or, BitVec.extractLsb'_or, ← BitVec.or_append]

theorem htons_zero : e.htons 0 = 0 := by cases e <;> rfl

theorem read16_eq : e.read16 m a = e.htons (be16 m a) := by
  cases e with
  | little => exact (swap16_append _ _).symm
  | big => rfl

theorem read16_eq_htons_iff : e.read16 m a = e.htons w ↔ be16 m a = w := by
  rw [read16_eq, htons_inj]

theorem read32_eq_htonl_iff {w : BitVec 32} : e.read32 m a = e.htonl w ↔ be32 m a = w := by
  cases e with
  | big => exact Iff.rfl
  | little =>
    have hread : ByteOrder.read32 .little m a = swap16 (be16 m (a + 2)) ++ swap16 (be16 m a) := by
      show ByteOrder.read16 .little m (a + 2) ++ ByteOrder.read16 .little m a = (_ : BitVec (16 + 16))
      rw [read16_eq, read16_eq]; rfl
    have hw : w.extractLsb' 16 16 ++ w.extractLsb' 0 16 = w := BitVec.extractLsb'_append_extractLsb'
    show ByteOrder.read32 .little m a = swap32 w ↔ _
    rw [hread]
    unfold swap32
    rw [append_inj, (swap16_inj : _ ↔ be16 m (a + 2) = _), (swap16_inj : _ ↔ be16 m a = _)]
    conv_rhs => rw [← hw]
    unfold be32
    rw [append_inj, and_comm]

theorem toNat_bytes (x y : BitVec 8) : (x ++ y).toNat = 2 ^ 8 * x.toNat + y.toNat := by
  rw [BitVec.toNat_append, ← Nat.shiftLeft_add_eq_or_of_lt y.isLt, Nat.shiftLeft_eq, Nat.mul_comm]

theorem toNat_be16 : (be16 m a).toNat = 2 ^ 8 * (m a).toNat + (m (a + 1)).toNat := toNat_bytes _ _

theorem write16_apply (i : ℕ) : e.write16 m a w i =
      if i = a then (e.htons w).extractLsb' 8 8 else if i = a + 1 then (e.htons w).extractLsb' 0 8 else m i := by
  cases e with
  | big => rfl
  | little =>
    show (if i = a then w.extractLsb' 0 8 else if i = a + 1 then w.extractLsb' 8 8 else m i) =
      if i = a then (swap16 w).extractLsb' 8 8 else if i = a + 1 then (swap16 w).extractLsb' 0 8 else m i
    unfold swap16
    rw [BitVec.extractLsb'_append_eq_left, BitVec.extractLsb'_append_eq_right]

/-- **The half word that is stored**, as the network sees it. -/
theorem be16_write16_same : be16 (e.write16 m a w) a = e.htons w := by
  unfold be16
  rw [write16_apply, write16_apply, if_pos rfl, if_neg (Nat.succ_ne_self a), if_pos rfl, BitVec.extractLsb'_append_extractLsb']

theorem write16_of_ne (h : b ≠ a) (h' : b ≠ a + 1) : e.write16 m a w b = m b := by
  rw [write16_apply, if_neg h, if_neg h']

theorem be16_write16_disjoint (h : b + 2 ≤ a ∨ a + 2 ≤ b) : be16 (e.write16 m a w) b = be16 m b := by
  unfold be16
  rw [write16_of_ne (by omega) (by omega), write16_of_ne (by omega) (by omega)]

end Rtl8852cu.Lib
