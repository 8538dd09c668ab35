import Mathlib.Algebra.Order.Ring.Nat

/-!
# Ciphers that add a stream of blocks

The blocks come out of a state that steps from block to block.

* `addBlock`, `length_addBlock`, `addBlock_addBlock`;
* `addStream`: whole blocks first, and what is left; `length_addStream`;
* `addStream_addStream`: added twice, it is gone.
-/

namespace Rtl8852cu.Lib

variable {σ : Type*} {w : ℕ}

/-- Bytes with those of a block added. -/
def addBlock (b : Vector UInt8 w) (d : List UInt8) : List UInt8 := d.zipWith (· ^^^ ·) b.toList

/-- `n` whole blocks, and what is left. -/
def addBlocks (out : σ → Vector UInt8 w) (next : σ → σ) : ℕ → σ → List UInt8 → List UInt8
  | 0, s, d => addBlock (out s) d
  | n + 1, s, d => addBlock (out s) (d.take w) ++ addBlocks out next n (next s) (d.drop w)

def addStream (out : σ → Vector UInt8 w) (next : σ → σ) (s : σ) (d : List UInt8) : List UInt8 :=
  addBlocks out next (d.length / w) s d

variable {b : Vector UInt8 w} {out : σ → Vector UInt8 w} {next : σ → σ} {d : List UInt8}

theorem length_addBlock (h : d.length ≤ w) : (addBlock b d).length = d.length := by
  unfold addBlock
  rw [List.length_zipWith, Vector.length_toList, Nat.min_eq_left h]

theorem addBlock_addBlock (h : d.length ≤ w) : addBlock b (addBlock b d) = d := by
  have hlen : (addBlock b (addBlock b d)).length = d.length := by
    rw [length_addBlock (by rwa [length_addBlock h]), length_addBlock h]
  refine List.ext_getElem hlen fun i hi hi' => ?_
  simp only [addBlock, List.getElem_zipWith, UInt8.xor_assoc, UInt8.xor_self, UInt8.xor_zero]

theorem length_addBlocks {n : ℕ} (s : σ) (h : n * w ≤ d.length) (h' : d.length < (n + 1) * w) :
    (addBlocks out next n s d).length = d.length := by
  induction n generalizing s d with
  | zero => exact length_addBlock (by omega)
  | succ n ih =>
    rw [Nat.succ_mul] at h
    rw [Nat.succ_mul (n + 1)] at h'
    unfold addBlocks
    rw [List.length_append, length_addBlock (List.length_take_le _ _), ih _ (by rw [List.length_drop]; omega)
      (by rw [List.length_drop]; omega), List.length_take, List.length_drop]
    omega

theorem addBlocks_addBlocks {n : ℕ} (s : σ) (h : n * w ≤ d.length) (h' : d.length < (n + 1) * w) :
    addBlocks out next n s (addBlocks out next n s d) = d := by
  induction n generalizing s d with
  | zero => exact addBlock_addBlock (by omega)
  | succ n ih =>
    rw [Nat.succ_mul] at h
    rw [Nat.succ_mul (n + 1)] at h'
    have htake : (d.take w).length ≤ w := List.length_take_le _ _
    have hlen : (addBlock (out s) (d.take w)).length = w := by
      rw [length_addBlock htake, List.length_take]; omega
    have heq : addBlocks out next (n + 1) s d =
        addBlock (out s) (d.take w) ++ addBlocks out next n (next s) (d.drop w) := rfl
    rw [heq, addBlocks, List.take_left' hlen, List.drop_left' hlen, addBlock_addBlock htake, ih _ (by rw [List.length_drop]; omega)
      (by rw [List.length_drop]; omega), List.take_append_drop]

variable (s : σ) (d : List UInt8)

theorem length_addStream (hw : 0 < w) : (addStream out next s d).length = d.length :=
  length_addBlocks s (Nat.div_mul_le_self _ _) (Nat.lt_div_mul_add hw |>.trans_eq (Nat.succ_mul _ _).symm)

/-- **The stream added twice leaves what there was.** -/
theorem addStream_addStream (hw : 0 < w) : addStream out next s (addStream out next s d) = d := by
  unfold addStream
  rw [show (addBlocks out next (d.length / w) s d).length = d.length from length_addStream s d hw]
  exact addBlocks_addBlocks s (Nat.div_mul_le_self _ _) (Nat.lt_div_mul_add hw |>.trans_eq (Nat.succ_mul _ _).symm)

end Rtl8852cu.Lib
