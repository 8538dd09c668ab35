import Mathlib.Algebra.Ring.Nat

/-!
# Words and length headers in bytes

* `le32`, `readLe32`: a word in four bytes, the least first;
* `frame`: a body behind its length; `unframe`: the bodies of a sequence of frames;
* `unframe_frames`: framing and unframing.
-/

namespace Rtl8852cu.Lib

/-- A word, the least byte first. -/
def le32 (n : ℕ) : List UInt8 :=
  [UInt8.ofNat n, UInt8.ofNat (n / 2 ^ 8), UInt8.ofNat (n / 2 ^ 16), UInt8.ofNat (n / 2 ^ 24)]

def readLe32 (b0 b1 b2 b3 : UInt8) : ℕ :=
  b0.toNat + 2 ^ 8 * b1.toNat + 2 ^ 16 * b2.toNat + 2 ^ 24 * b3.toNat

theorem length_le32 (n : ℕ) : (le32 n).length = 4 := rfl

theorem readLe32_le32 {n : ℕ} (hn : n < 2 ^ 32) :
    readLe32 (UInt8.ofNat n) (UInt8.ofNat (n / 2 ^ 8)) (UInt8.ofNat (n / 2 ^ 16)) (UInt8.ofNat (n / 2 ^ 24)) = n := by
  unfold readLe32
  simp only [UInt8.toNat_ofNat']; omega

/-- A body behind its length. -/
def frame (body : List UInt8) : List UInt8 := le32 body.length ++ body

theorem length_frame (body : List UInt8) : (frame body).length = 4 + body.length := by
  unfold frame
  rw [List.length_append, length_le32]

/-- The bodies of at most `fuel` frames. -/
def unframeN : ℕ → List UInt8 → Option (List (List UInt8))
  | _, [] => some []
  | fuel + 1, b0 :: b1 :: b2 :: b3 :: rest =>
    if rest.length < readLe32 b0 b1 b2 b3 then none
    else (unframeN fuel (rest.drop (readLe32 b0 b1 b2 b3))).map (rest.take (readLe32 b0 b1 b2 b3) :: ·)
  | _, _ => none

/-- The bodies of a sequence of frames. -/
def unframe (bs : List UInt8) : Option (List (List UInt8)) := unframeN bs.length bs

theorem unframeN_frame {body : List UInt8} (hlen : body.length < 2 ^ 32) (fuel : ℕ) (rest : List UInt8) :
    unframeN (fuel + 1) (frame body ++ rest) = (unframeN fuel rest).map (body :: ·) := by
  unfold frame le32
  simp only [List.cons_append, List.nil_append, unframeN]
  rw [readLe32_le32 hlen, if_neg, List.take_left, List.drop_left]
  rw [List.length_append]; omega

theorem unframeN_frames {bodies : List (List UInt8)} (hlen : ∀ b ∈ bodies, b.length < 2 ^ 32) {fuel : ℕ}
    (hfuel : bodies.length ≤ fuel) : unframeN fuel (bodies.flatMap frame) = some bodies := by
  induction bodies generalizing fuel with
  | nil =>
    rw [List.flatMap_nil]
    unfold unframeN; rfl
  | cons body bodies ih =>
    obtain ⟨fuel, rfl⟩ : ∃ n, fuel = n + 1 := ⟨fuel - 1, by rw [List.length_cons] at hfuel; omega⟩
    rw [List.flatMap_cons, unframeN_frame (hlen body List.mem_cons_self), ih]
    · rfl
    · exact fun b hb => hlen b (List.mem_cons_of_mem body hb)
    · rw [List.length_cons] at hfuel; omega

theorem length_frames (bodies : List (List UInt8)) : bodies.length ≤ (bodies.flatMap frame).length := by
  induction bodies with
  | nil => exact le_rfl
  | cons body bodies ih =>
    rw [List.flatMap_cons, List.length_append, length_frame, List.length_cons]; omega

/-- **Framing and unframing.** -/
theorem unframe_frames {bodies : List (List UInt8)} (hlen : ∀ b ∈ bodies, b.length < 2 ^ 32) :
    unframe (bodies.flatMap frame) = some bodies :=
  unframeN_frames hlen (length_frames bodies)

end Rtl8852cu.Lib
