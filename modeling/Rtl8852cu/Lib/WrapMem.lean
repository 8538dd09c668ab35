import Mathlib.Algebra.Ring.Nat

/-!
# Memory whose addresses wrap

Memory is a function on the addresses of a width; what is put at an address goes on at the first one behind the last.

* `putBytes`: memory with the first bytes of a sequence at an address;
* `putBytes_append`: what is put behind it;
* `putBytes_over_iff`: when what was put before shows no more.
-/

namespace Rtl8852cu.Lib

variable {w : ℕ}

/-- The first `n` values of `c` at `a`. -/
def putBytes (mem : BitVec w → UInt8) (a : BitVec w) (n : ℕ) (c : ℕ → UInt8) : BitVec w → UInt8 := fun x =>
  if (x - a).toNat < n then c (x - a).toNat else mem x

/-- The bytes of a word, the least significant one first. -/
def wordBytes (v : BitVec 32) (i : ℕ) : UInt8 := UInt8.ofNat (v.toNat / 2 ^ (8 * i))

variable {mem : BitVec w → UInt8} {a : BitVec w} {n k : ℕ} {c d : ℕ → UInt8}

theorem putBytes_zero : putBytes mem a 0 c = mem := rfl

theorem putBytes_congr (h : ∀ i < n, c i = d i) : putBytes mem a n c = putBytes mem a n d := by
  funext x
  unfold putBytes
  by_cases hx : (x - a).toNat < n
  · rw [if_pos hx, if_pos hx, h _ hx]
  · rw [if_neg hx, if_neg hx]

theorem toNat_sub_add (x a : BitVec w) (n : ℕ) :
    (x - (a + BitVec.ofNat w n)).toNat = ((x - a).toNat + (2 ^ w - n % 2 ^ w)) % 2 ^ w := by
  have hassoc : x - (a + BitVec.ofNat w n) = x - a - BitVec.ofNat w n := by
    rw [BitVec.sub_eq_add_neg, BitVec.neg_add, BitVec.sub_eq_add_neg, BitVec.sub_eq_add_neg, BitVec.sub_eq_add_neg,
      BitVec.add_assoc]
  rw [hassoc, BitVec.toNat_sub, BitVec.toNat_ofNat, Nat.add_comm]

/-- **What is put behind it goes on with it.** -/
theorem putBytes_append (h : n + k ≤ 2 ^ w) :
    putBytes (putBytes mem a n c) (a + BitVec.ofNat w n) k (fun i => c (n + i)) = putBytes mem a (n + k) c := by
  funext x
  have hlt := (x - a).isLt
  unfold putBytes
  rw [toNat_sub_add]
  by_cases hk : k = 0
  · subst hk; rw [if_neg (Nat.not_lt_zero _), Nat.add_zero]
  have hmod : n % 2 ^ w = n := Nat.mod_eq_of_lt (by omega)
  rw [hmod]
  by_cases hx : (x - a).toNat < n
  · have hback : ((x - a).toNat + (2 ^ w - n)) % 2 ^ w = (x - a).toNat + (2 ^ w - n) := Nat.mod_eq_of_lt (by omega)
    rw [hback, if_neg (by omega), if_pos hx, if_pos (by omega)]
  · have hback : ((x - a).toNat + (2 ^ w - n)) % 2 ^ w = (x - a).toNat - n := by
      rw [Nat.mod_eq_sub_mod (by omega), Nat.mod_eq_of_lt (by omega)]; omega
    rw [hback, if_neg hx]
    by_cases hxk : (x - a).toNat - n < k
    · rw [if_pos hxk, if_pos (by omega)]; exact congrArg c (Nat.add_sub_cancel' (by omega))
    · rw [if_neg hxk, if_neg (by omega)]

/-- What was put before shows no more where it was there already. -/
theorem putBytes_over_iff (h : n ≤ 2 ^ w) : putBytes (putBytes mem a n c) a k d = putBytes mem a k d ↔
      ∀ i, k ≤ i → i < n → mem (a + BitVec.ofNat w i) = c i := by
  constructor
  · intro heq i hki hin
    have hi : (a + BitVec.ofNat w i - a).toNat = i := by
      rw [BitVec.add_comm, BitVec.add_sub_cancel, BitVec.toNat_ofNat, Nat.mod_eq_of_lt (by omega)]
    have hat := congrFun heq (a + BitVec.ofNat w i)
    unfold putBytes at hat
    rw [hi, if_neg (Nat.not_lt.mpr hki), if_pos hin, if_neg (Nat.not_lt.mpr hki)] at hat
    exact hat.symm
  · intro hold
    funext x
    unfold putBytes
    by_cases hx : (x - a).toNat < k
    · rw [if_pos hx, if_pos hx]
    · rw [if_neg hx, if_neg hx]
      by_cases hxn : (x - a).toNat < n
      · have hback : a + BitVec.ofNat w (x - a).toNat = x := by
          rw [BitVec.ofNat_toNat, BitVec.setWidth_eq, BitVec.add_comm, BitVec.sub_add_cancel]
        rw [if_pos hxn, ← hold _ (by omega) hxn, hback]
      · rw [if_neg hxn]

end Rtl8852cu.Lib
