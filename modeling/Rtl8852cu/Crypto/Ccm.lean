import Rtl8852cu.Lib.Keystream

/-!
# CCM

`aes-ccm.c`, over any block cipher: `aes` is the key that `aes_encrypt_init` has expanded.

* `Block`, `osMemcmpConst`, `Aead`: what CCM and GCM share;
* `aesCcmAe`, `aesCcmAd`; `aesCcm`: what is opened is what was sealed.
-/

namespace Rtl8852cu.Crypto

open Lib

abbrev Block := Vector UInt8 16

/-- The bytes of a block, with zeros behind them. -/
def blockOf (d : List UInt8) : Block := .ofFn fun i => d.getD i 0

/-- `xor_aes_block`, `xor_block` -/
def xorAesBlock (dst src : Block) : Block := dst.zipWith (· ^^^ ·) src

/-- `WPA_PUT_BE16` -/
def putBe16 (b : Block) (k v : ℕ) : Block := (b.setIfInBounds k (UInt8.ofNat (v / 256))).setIfInBounds (k + 1) (UInt8.ofNat v)

/-- `os_memcmp_const` -/
def osMemcmpConst (a b : List UInt8) : UInt8 := (a.zipWith (· ^^^ ·) b).foldl (· ||| ·) 0

/-- A cipher that authenticates, with its key: only what was sealed is opened, and all of it. -/
structure Aead where
  /-- The bytes of the MIC. -/
  micLen : ℕ
  /-- The nonce, the plain text and the AAD. -/
  ae : List UInt8 → List UInt8 → List UInt8 → Option (List UInt8 × List UInt8)
  /-- The nonce, the ciphertext, the AAD and the MIC. -/
  ad : List UInt8 → List UInt8 → List UInt8 → List UInt8 → Option (List UInt8)
  ae_iff : ∀ nonce plain aad crypt mic, ae nonce plain aad = some (crypt, mic) ↔
    mic.length = micLen ∧ ad nonce crypt aad mic = some plain
  length_ae : ∀ {nonce plain aad crypt mic}, ae nonce plain aad = some (crypt, mic) → crypt.length = plain.length

/-! ### `aes-ccm.c` -/

variable (aes : Block → Block)

/-- `aes_ccm_auth_start` -/
def aesCcmAuthStart (M L : ℕ) (nonce aad : List UInt8) (plainLen : ℕ) : Block :=
  let flags : UInt8 := (if aad.length ≠ 0 then (0x40 : UInt8) else 0) ||| UInt8.ofNat (((M - 2) / 2) <<< 3) ||| UInt8.ofNat (L - 1)
  let b := putBe16 (blockOf (flags :: nonce.take (15 - L))) (16 - L) plainLen
  let x := aes b
  if aad.length = 0 then x
  else
    let aadBuf := UInt8.ofNat (aad.length / 256) :: UInt8.ofNat aad.length :: aad
    let x := aes (xorAesBlock (blockOf (aadBuf.take 16)) x)
    if aad.length > 16 - 2 then aes (xorAesBlock (blockOf (aadBuf.drop 16)) x) else x

/-- The loop over whole blocks, and the padded one behind them. -/
def aesCcmAuthLoop : ℕ → List UInt8 → Block → Block
  | 0, data, x => if data.length ≠ 0 then aes (xorAesBlock x (blockOf data)) else x
  | n + 1, data, x => aesCcmAuthLoop n (data.drop 16) (aes (xorAesBlock x (blockOf (data.take 16))))

/-- `aes_ccm_auth` -/
def aesCcmAuth (data : List UInt8) (x : Block) : Block := aesCcmAuthLoop aes (data.length / 16) data x

/-- `aes_ccm_encr_start`: the counter is put in later. -/
def aesCcmEncrStart (L : ℕ) (nonce : List UInt8) : Block := blockOf (UInt8.ofNat (L - 1) :: nonce.take (15 - L))

/-- `aes_ccm_encr`: the blocks are those of the counters from 1 on. -/
def aesCcmEncr (inp : List UInt8) (a : Block) : List UInt8 :=
  addStream (fun i => aes (putBe16 a (16 - 2) i)) (· + 1) 1 inp

/-- `aes_ccm_encr_auth` -/
def aesCcmEncrAuth (M : ℕ) (x a : Block) : List UInt8 := addBlock (aes (putBe16 a (16 - 2) 0)) (x.toList.take M)

/-- `aes_ccm_decr_auth` -/
def aesCcmDecrAuth (M : ℕ) (a : Block) (auth : List UInt8) : List UInt8 :=
  addBlock (aes (putBe16 a (16 - 2) 0)) (auth.take M)

/-- What `aes_encrypt_init` makes of a key: nothing without memory, or for a length that AES has no keys of. -/
abbrev KeySetup := List UInt8 → Option (Block → Block)

variable (init : KeySetup) (key nonce : List UInt8) (M : ℕ)

/-- `aes_ccm_ae`: the ciphertext and the MIC. -/
def aesCcmAe (plain aad : List UInt8) : Option (List UInt8 × List UInt8) :=
  if aad.length > 30 ∨ M > 16 then none
  else (init key).map fun aes =>
    let x := aesCcmAuthStart aes M 2 nonce aad plain.length
    let x := aesCcmAuth aes plain x
    let a := aesCcmEncrStart 2 nonce
    (aesCcmEncr aes plain a, aesCcmEncrAuth aes M x a)

/-- `aes_ccm_ad` -/
def aesCcmAd (crypt aad auth : List UInt8) : Option (List UInt8) :=
  if aad.length > 30 ∨ M > 16 then none
  else (init key).bind fun aes =>
    let a := aesCcmEncrStart 2 nonce
    let t := aesCcmDecrAuth aes M a auth
    let plain := aesCcmEncr aes crypt a
    let x := aesCcmAuthStart aes M 2 nonce aad crypt.length
    let x := aesCcmAuth aes plain x
    if osMemcmpConst (x.toList.take M) t ≠ 0 then none else some plain

/-! ### What is opened -/

theorem foldl_or_eq_zero (l : List UInt8) (r : UInt8) : l.foldl (· ||| ·) r = 0 ↔ r = 0 ∧ ∀ b ∈ l, b = 0 := by
  induction l generalizing r with
  | nil => simp only [List.foldl_nil, List.not_mem_nil, false_implies, implies_true, and_true]
  | cons b l ih => rw [List.foldl_cons, ih, UInt8.or_eq_zero_iff, List.forall_mem_cons, and_assoc]

theorem osMemcmpConst_eq_zero_iff {a b : List UInt8} (h : a.length = b.length) : osMemcmpConst a b = 0 ↔ a = b := by
  unfold osMemcmpConst
  rw [foldl_or_eq_zero]
  induction a generalizing b with
  | nil => cases b with
    | nil => simp
    | cons y b => cases h
  | cons x a ih =>
    cases b with
    | nil => cases h
    | cons y b =>
      rw [List.zipWith_cons_cons, List.forall_mem_cons, UInt8.xor_eq_zero_iff, List.cons_eq_cons, ← ih (Nat.succ.inj h)]
      simp only [true_and]

variable {aes init key nonce M}

theorem aesCcmEncr_aesCcmEncr (d : List UInt8) (a : Block) : aesCcmEncr aes (aesCcmEncr aes d a) a = d :=
  addStream_addStream 1 d (by decide)

theorem length_aesCcmEncr (d : List UInt8) (a : Block) : (aesCcmEncr aes d a).length = d.length :=
  length_addStream 1 d (by decide)

theorem length_take_block (x : Block) (hM : M ≤ 16) : (x.toList.take M).length = M := by
  rw [List.length_take, Vector.length_toList, Nat.min_eq_left hM]

theorem aesCcm_mic_iff (x a : Block) {auth : List UInt8} (hM : M ≤ 16) (h : auth.length = M) :
    osMemcmpConst (x.toList.take M) (aesCcmDecrAuth aes M a auth) = 0 ↔ aesCcmEncrAuth aes M x a = auth := by
  have hx := length_take_block x hM
  unfold aesCcmDecrAuth aesCcmEncrAuth
  rw [List.take_of_length_le h.le, osMemcmpConst_eq_zero_iff (by rw [hx, length_addBlock (by omega), h])]
  constructor
  · intro heq
    rw [heq]
    exact addBlock_addBlock (by omega)
  · intro heq
    rw [← heq]
    exact (addBlock_addBlock (by omega)).symm

theorem aesCcmAe_iff (plain aad crypt mic : List UInt8) : aesCcmAe init key nonce M plain aad = some (crypt, mic) ↔
    mic.length = M ∧ aesCcmAd init key nonce M crypt aad mic = some plain := by
  unfold aesCcmAe aesCcmAd
  split
  · simp only [reduceCtorEq, and_false]
  rename_i hM
  have hM : M ≤ 16 := by omega
  cases init key with
  | none => simp only [Option.map_none, Option.bind_none, reduceCtorEq, and_false]
  | some aes =>
    dsimp only [Option.map_some, Option.bind_some]
    rw [Option.some.injEq, Prod.mk.injEq]
    constructor
    · rintro ⟨rfl, rfl⟩
      have hlen : (aesCcmEncrAuth aes M (aesCcmAuth aes plain (aesCcmAuthStart aes M 2 nonce aad plain.length))
          (aesCcmEncrStart 2 nonce)).length = M := by
        have hx := length_take_block (aesCcmAuth aes plain (aesCcmAuthStart aes M 2 nonce aad plain.length)) hM
        unfold aesCcmEncrAuth
        rw [length_addBlock (by omega), hx]
      refine ⟨hlen, ?_⟩
      rw [aesCcmEncr_aesCcmEncr, length_aesCcmEncr, if_neg (not_not.mpr ((aesCcm_mic_iff _ _ hM hlen).mpr rfl))]
    · rintro ⟨hlen, h⟩
      split at h
      · cases h
      · rename_i hcmp
        cases h
        rw [not_not, aesCcm_mic_iff _ _ hM hlen] at hcmp
        rw [aesCcmEncr_aesCcmEncr, length_aesCcmEncr]
        exact ⟨rfl, hcmp⟩

/-- CCM with a key. -/
def aesCcm (init : KeySetup) (key : List UInt8) (M : ℕ) : Aead where
  micLen := M
  ae nonce plain aad := aesCcmAe init key nonce M plain aad
  ad nonce crypt aad auth := aesCcmAd init key nonce M crypt aad auth
  ae_iff _ := aesCcmAe_iff
  length_ae h := by
    unfold aesCcmAe at h
    split at h
    · cases h
    · obtain ⟨aes, -, heq⟩ := Option.map_eq_some_iff.mp h
      cases heq
      exact length_aesCcmEncr _ _

end Rtl8852cu.Crypto
