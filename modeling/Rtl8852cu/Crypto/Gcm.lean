import Rtl8852cu.Crypto.Ccm

/-!
# GCM

`aes-gcm.c`, over any block cipher.

* `gfMult`, `ghash`; `aesGcmAe`, `aesGcmAd`; `aesGcm`: what is opened is what was sealed.
-/

namespace Rtl8852cu.Crypto

open Lib

/-- `WPA_GET_BE32` -/
def getBe32 (b : Block) (k : ℕ) : BitVec 32 :=
  let byte (i : ℕ) : BitVec 8 := (b.toList.getD i 0).toBitVec
  byte k ++ byte (k + 1) ++ byte (k + 2) ++ byte (k + 3)

/-- `WPA_PUT_BE32` -/
def putBe32 (b : Block) (k : ℕ) (v : BitVec 32) : Block := b.mapFinIdx fun i x _ =>
  if k ≤ i ∧ i < k + 4 then ⟨v.extractLsb' (8 * (k + 3 - i)) 8⟩ else x

/-- `inc32` -/
def inc32 (b : Block) : Block := putBe32 b (16 - 4) (getBe32 b (16 - 4) + 1#32)

/-- `shift_right_block` -/
def shiftRightBlock (v : Block) : Block :=
  let shift (v : Block) (k : ℕ) (carry : UInt8) : Block :=
    putBe32 v k (if carry &&& 1 ≠ 0 then getBe32 v k >>> 1 ||| 0x80000000#32 else getBe32 v k >>> 1)
  shift (shift (shift (shift v 12 v[11]) 8 v[7]) 4 v[3]) 0 0

/-- A bit of `x` in the multiplication: `z` and `v`. -/
def gfStep (p : Block × Block) (bit : Bool) : Block × Block :=
  let (z, v) := p
  let z := if bit then xorAesBlock z v else z
  let s := shiftRightBlock v
  (z, if v[15] &&& 1 ≠ 0 then s.set 0 (s[0] ^^^ 0xe1) else s)

/-- `gf_mult` -/
def gfMult (x y : Block) : Block :=
  ((x.toList.flatMap fun b => (List.range 8).map fun j => b.toBitVec.getLsbD (7 - j)).foldl gfStep (.replicate 16 0, y)).1

/-- The loop over whole blocks, and the padded one behind them. -/
def ghashLoop (h : Block) : ℕ → List UInt8 → Block → Block
  | 0, x, y => if x.length ≠ 0 then gfMult (xorAesBlock y (blockOf x)) h else y
  | n + 1, x, y => ghashLoop h n (x.drop 16) (gfMult (xorAesBlock y (blockOf (x.take 16))) h)

/-- `ghash` -/
def ghash (h : Block) (x : List UInt8) (y : Block) : Block := ghashLoop h (x.length / 16) x y

/-- Two numbers, `WPA_PUT_BE64`. -/
def lenBuf (a b : ℕ) : List UInt8 :=
  (List.range 8).map (fun i => UInt8.ofNat (a / 256 ^ (7 - i))) ++ (List.range 8).map fun i => UInt8.ofNat (b / 256 ^ (7 - i))

/-- `aes_gctr` -/
def aesGctr (aes : Block → Block) (icb : Block) (x : List UInt8) : List UInt8 := addStream aes inc32 icb x

/-- `aes_gcm_prepare_j0` -/
def aesGcmPrepareJ0 (iv : List UInt8) (h : Block) : Block :=
  if iv.length = 12 then (blockOf iv).set 15 1
  else ghash h (lenBuf 0 (iv.length * 8)) (ghash h iv (.replicate 16 0))

/-- `aes_gcm_gctr` -/
def aesGcmGctr (aes : Block → Block) (j0 : Block) (inp : List UInt8) : List UInt8 := aesGctr aes (inc32 j0) inp

/-- `aes_gcm_ghash` -/
def aesGcmGhash (h : Block) (aad crypt : List UInt8) : Block :=
  ghash h (lenBuf (aad.length * 8) (crypt.length * 8)) (ghash h crypt (ghash h aad (.replicate 16 0)))

variable (init : KeySetup) (key iv : List UInt8)

/-- `aes_gcm_ae`: the ciphertext and the tag. -/
def aesGcmAe (plain aad : List UInt8) : Option (List UInt8 × List UInt8) :=
  (init key).map fun aes =>
    let h := aes (.replicate 16 0)
    let j0 := aesGcmPrepareJ0 iv h
    let crypt := aesGcmGctr aes j0 plain
    (crypt, aesGctr aes j0 (aesGcmGhash h aad crypt).toList)

/-- `aes_gcm_ad` -/
def aesGcmAd (crypt aad tag : List UInt8) : Option (List UInt8) :=
  (init key).bind fun aes =>
    let h := aes (.replicate 16 0)
    let j0 := aesGcmPrepareJ0 iv h
    let plain := aesGcmGctr aes j0 crypt
    let t := aesGctr aes j0 (aesGcmGhash h aad crypt).toList
    if osMemcmpConst (tag.take 16) t ≠ 0 then none else some plain

/-! ### What is opened -/

variable {init key iv} {aes : Block → Block}

theorem aesGcmGctr_aesGcmGctr (j0 : Block) (d : List UInt8) : aesGcmGctr aes j0 (aesGcmGctr aes j0 d) = d :=
  addStream_addStream _ d (by decide)

theorem length_aesGctr (b : Block) (d : List UInt8) : (aesGctr aes b d).length = d.length :=
  length_addStream b d (by decide)

theorem aesGcmAe_iff (plain aad crypt tag : List UInt8) : aesGcmAe init key iv plain aad = some (crypt, tag) ↔
    tag.length = 16 ∧ aesGcmAd init key iv crypt aad tag = some plain := by
  unfold aesGcmAe aesGcmAd
  cases init key with
  | none => simp only [Option.map_none, Option.bind_none, reduceCtorEq, and_false]
  | some aes =>
    dsimp only [Option.map_some, Option.bind_some]
    generalize aesGcmPrepareJ0 iv (aes (.replicate 16 0)) = j0
    have hlen (s : Block) : (aesGctr aes j0 s.toList).length = 16 := by rw [length_aesGctr, Vector.length_toList]
    rw [Option.some.injEq, Prod.mk.injEq]
    constructor
    · rintro ⟨rfl, rfl⟩
      refine ⟨hlen _, ?_⟩
      rw [aesGcmGctr_aesGcmGctr, List.take_of_length_le (hlen _).le,
        if_neg (not_not.mpr ((osMemcmpConst_eq_zero_iff rfl).mpr rfl))]
    · rintro ⟨htag, h⟩
      split at h
      · cases h
      · rename_i hcmp
        cases h
        rw [not_not, List.take_of_length_le htag.le, osMemcmpConst_eq_zero_iff (htag.trans (hlen _).symm)] at hcmp
        rw [aesGcmGctr_aesGcmGctr]
        exact ⟨rfl, hcmp.symm⟩

/-- GCM with a key. -/
def aesGcm (init : KeySetup) (key : List UInt8) : Aead where
  micLen := 16
  ae := aesGcmAe init key
  ad iv crypt aad tag := aesGcmAd init key iv crypt aad tag
  ae_iff _ := aesGcmAe_iff
  length_ae h := by
    unfold aesGcmAe at h
    obtain ⟨aes, -, heq⟩ := Option.map_eq_some_iff.mp h
    cases heq
    exact length_aesGctr _ _

end Rtl8852cu.Crypto
