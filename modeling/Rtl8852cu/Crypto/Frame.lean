import Mathlib.Data.List.GetD
import Rtl8852cu.Crypto.Gcm
import Rtl8852cu.Lib.Slice

/-!
# Frames that are encrypted in software

`ccmp.c`, `gcmp.c` and `rtw_swcrypto.c`.  Of CCMP and GCMP there is one definition, with what they differ in as a `Suite`.

* `Suite.aadNonce`, `Suite.encrypt`, `Suite.decrypt`; `rtwCcmpEncrypt`, `rtwCcmpDecrypt` and those of GCMP, in place;
* `decryptInPlace_iff`: what is decrypted, and to what;
* `ccmpAadNonce_iff`: what of a header is authenticated.
-/

namespace Rtl8852cu.Crypto

open Lib

abbrev Mem := ℕ → UInt8

/-- Memory that starts with the bytes of a list. -/
def listMem (l : List UInt8) : Mem := fun i => l.getD i 0

/-- `le_to_host16` -/
def getLe16 (m : Mem) (a : ℕ) : BitVec 16 := (m (a + 1)).toBitVec ++ (m a).toBitVec

/-- `WPA_PUT_LE16` -/
def putLe16 (v : BitVec 16) : List UInt8 := [⟨v.extractLsb' 0 8⟩, ⟨v.extractLsb' 8 8⟩]

def isData (fc : BitVec 16) : Bool := fc &&& 0x000c#16 = 0x0008#16

def isMgmt (fc : BitVec 16) : Bool := fc &&& 0x000c#16 = 0x0000#16

def isQos (fc : BitVec 16) : Bool := isData fc && fc &&& 0x00f0#16 &&& 0x0080#16 ≠ 0#16

def isAddr4 (fc : BitVec 16) : Bool := fc &&& 0x0300#16 = 0x0300#16

/-- What CCMP and GCMP differ in. -/
structure Suite where
  /-- What is set in the frame control: `WLAN_FC_ISWEP`, or nothing. -/
  wep : BitVec 16
  /-- Whether the nonce starts with the priority. -/
  flags : Bool
  wep_eq : wep = 0x4000#16 ∨ wep = 0#16

def ccmp : Suite := ⟨0x4000#16, true, .inl rfl⟩

def gcmp : Suite := ⟨0#16, false, .inr rfl⟩

/-- The frame control in the AAD. -/
def Suite.aadFc (S : Suite) (fc : BitVec 16) : BitVec 16 :=
  let fc' := if isData fc then fc &&& ~~~0x0070#16 else fc
  let fc' := if isQos fc then fc' &&& ~~~0x8000#16 else fc'
  fc' &&& ~~~0x3800#16 ||| S.wep

/-- `ccmp_aad_nonce` and `gcmp_aad_nonce`: the AAD and the nonce; `spp` is the mode `RTW_AMSDU_MODE_SPP`. -/
def Suite.aadNonce (S : Suite) (spp : Bool) (hdr data : Mem) : List UInt8 × List UInt8 :=
  let fc := getLe16 hdr 0
  let qc := hdr (24 + if isAddr4 fc then 6 else 0)
  let prio : UInt8 := if isQos fc then qc &&& 0x0f else if isMgmt fc then 0x10 else 0
  (putLe16 (S.aadFc fc) ++ slice hdr 4 18 ++ putLe16 (getLe16 hdr 22 &&& ~~~0xfff0#16) ++
      (if isAddr4 fc then slice hdr 24 6 else []) ++
      (if isQos fc then [if spp then qc &&& ~~~0x70 else qc &&& ~~~0x70 &&& ~~~0x80, 0] else []),
    (if S.flags then [prio] else []) ++ slice hdr 10 6 ++ [data 7, data 6, data 5, data 4, data 1, data 0])

/-- `hdr->frame_control |= …` -/
def Suite.mark (S : Suite) (m : Mem) : Mem := copy m 0 (listMem (putLe16 (getLe16 m 0 ||| S.wep))) 0 2

/-- `ccmp_encrypt`, `ccmp_256_encrypt` and `gcmp_encrypt`: the new frame; `mem` is whether there is memory for it. -/
def Suite.encrypt (S : Suite) (A : Aead) (spp mem : Bool) (frame : Mem) (len hdrlen : ℕ) (pn : Option Mem) (keyid : ℕ) :
    Option (List UInt8) :=
  if len < hdrlen ∨ hdrlen < 24 ∨ mem = false then none
  else
    let plen := len - hdrlen
    let iv := match pn with
      | none => slice frame hdrlen 8
      | some pn => [pn 5, pn 4, 0, (0x20 : UInt8) ||| UInt8.ofNat (keyid <<< 6), pn 3, pn 2, pn 1, pn 0]
    let pdata := if pn.isNone then hdrlen + 8 else hdrlen
    let crypt := slice (S.mark frame) 0 hdrlen ++ iv
    let (aad, nonce) := S.aadNonce spp (listMem crypt) fun i => listMem crypt (hdrlen + i)
    (A.ae nonce (slice frame pdata plen) aad).map fun (c, mic) => crypt ++ c ++ mic

/-- `ccmp_decrypt`, `ccmp_256_decrypt` and `gcmp_decrypt` -/
def Suite.decrypt (S : Suite) (A : Aead) (spp mem : Bool) (hdr data : Mem) (dataLen : ℕ) : Option (List UInt8) :=
  if dataLen < 8 + A.micLen ∨ mem = false then none
  else
    let mlen := dataLen - 8 - A.micLen
    let (aad, nonce) := S.aadNonce spp hdr data
    A.ad nonce (slice data 8 mlen) aad (slice data (8 + mlen) A.micLen)

/-! ### `rtw_swcrypto.c` -/

/-- The new frame is copied back. -/
def Suite.encryptInPlace (S : Suite) (A : Aead) (spp mem : Bool) (hdrlen : ℕ) (frame : Mem) (plen : ℕ) : Option Mem :=
  (S.encrypt A spp mem frame (hdrlen + plen) hdrlen none 0).map fun enc => copy frame 0 (listMem enc) 0 enc.length

/-- The plain text is copied back; `plen` counts the header. -/
def Suite.decryptInPlace (S : Suite) (A : Aead) (spp mem : Bool) (hdrlen : ℕ) (frame : Mem) (plen : ℕ) : Option Mem :=
  (S.decrypt A spp mem frame (fun i => frame (hdrlen + i)) (plen - hdrlen)).map fun plain =>
    copy frame (hdrlen + 8) (listMem plain) 0 plain.length

variable (init : KeySetup) (spp mem : Bool) (key : Mem) (keyLen hdrlen : ℕ) (frame : Mem) (plen : ℕ)

/-- `_rtw_ccmp_encrypt` -/
def rtwCcmpEncrypt : Option Mem :=
  if keyLen = 16 then ccmp.encryptInPlace (aesCcm init (slice key 0 16) 8) spp mem hdrlen frame plen
  else if keyLen = 32 then ccmp.encryptInPlace (aesCcm init (slice key 0 32) 16) spp mem hdrlen frame plen
  else none

/-- `_rtw_ccmp_decrypt` -/
def rtwCcmpDecrypt : Option Mem :=
  if keyLen = 16 then ccmp.decryptInPlace (aesCcm init (slice key 0 16) 8) spp mem hdrlen frame plen
  else if keyLen = 32 then ccmp.decryptInPlace (aesCcm init (slice key 0 32) 16) spp mem hdrlen frame plen
  else none

/-- `_rtw_gcmp_encrypt` -/
def rtwGcmpEncrypt : Option Mem :=
  gcmp.encryptInPlace (aesGcm init (slice key 0 keyLen)) spp mem hdrlen frame plen

/-- `_rtw_gcmp_decrypt` -/
def rtwGcmpDecrypt : Option Mem :=
  gcmp.decryptInPlace (aesGcm init (slice key 0 keyLen)) spp mem hdrlen frame plen

/-! ### What is decrypted, and to what -/

theorem getLe16_of_slice {m : Mem} {a : ℕ} {v : BitVec 16} (h : slice m a 2 = putLe16 v) : getLe16 m a = v := by
  obtain ⟨h0, h1⟩ : m a = ⟨v.extractLsb' 0 8⟩ ∧ m (a + 1) = ⟨v.extractLsb' 8 8⟩ := by
    simpa only [slice, putLe16, List.range'_succ, List.range'_zero, List.map_cons, List.map_nil, List.cons.injEq, and_true] using h
  unfold getLe16
  rw [h0, h1, BitVec.extractLsb'_append_extractLsb'_eq_extractLsb' (by omega)]
  exact BitVec.extractLsb'_eq_self

theorem putLe16_getLe16 (m : Mem) (a : ℕ) : putLe16 (getLe16 m a) = slice m a 2 := by
  unfold putLe16 getLe16
  rw [BitVec.extractLsb'_append_eq_right, BitVec.extractLsb'_append_eq_left]; rfl

variable (S : Suite) {A : Aead} {spp mem : Bool} {hdrlen plen : ℕ} {m m' : Mem} {d d' : Mem}

theorem getLe16_mark (m : Mem) : getLe16 (S.mark m) 0 = getLe16 m 0 ||| S.wep := by
  apply getLe16_of_slice
  unfold Suite.mark
  rw [slice_copy]
  rfl

theorem mark_of_le (m : Mem) {i : ℕ} (h : 2 ≤ i) : S.mark m i = m i := by
  unfold Suite.mark copy
  rw [if_neg (by omega)]

variable (fc : BitVec 16)

theorem or_wep_and {k : BitVec 16} (hk : 0x4000#16 &&& k = 0#16) : (fc ||| S.wep) &&& k = fc &&& k := by
  have h : S.wep &&& k = 0#16 := by
    rcases S.wep_eq with h | h
    · rw [h, hk]
    · rw [h, BitVec.zero_and]
  rw [BitVec.and_or_distrib_right, h, BitVec.or_zero]

theorem or_wep_keep {k : BitVec 16} (hk : 0x4000#16 &&& k = 0x4000#16) : (fc ||| S.wep) &&& k = fc &&& k ||| S.wep := by
  have h : S.wep &&& k = S.wep := by
    rcases S.wep_eq with h | h
    · rw [h, hk]
    · rw [h, BitVec.zero_and]
  rw [BitVec.and_or_distrib_right, h]

theorem isData_or_wep : isData (fc ||| S.wep) = isData fc := by
  unfold isData
  rw [or_wep_and S fc (by decide)]

theorem isQos_or_wep : isQos (fc ||| S.wep) = isQos fc := by
  unfold isQos
  rw [isData_or_wep, or_wep_and S fc (by decide)]

theorem aadFc_or_wep : S.aadFc (fc ||| S.wep) = S.aadFc fc := by
  unfold Suite.aadFc
  rw [isData_or_wep, isQos_or_wep]
  dsimp only
  have hwep (k : BitVec 16) : k ||| S.wep ||| S.wep = k ||| S.wep := by rw [BitVec.or_assoc, BitVec.or_self]
  split
  · split
    · rw [or_wep_keep S fc (by decide), or_wep_keep S _ (by decide), or_wep_keep S _ (by decide), hwep]
    · rw [or_wep_keep S fc (by decide), or_wep_keep S _ (by decide), hwep]
  · split
    · rw [or_wep_keep S fc (by decide), or_wep_keep S _ (by decide), hwep]
    · rw [or_wep_keep S fc (by decide), hwep]

/-- The AAD and the nonce are made of the header and the eight bytes behind it; that the frame is marked changes nothing. -/
theorem aadNonce_congr (hfc : getLe16 m' 0 = getLe16 m 0 ∨ getLe16 m' 0 = getLe16 m 0 ||| S.wep)
    (hhdr : ∀ i, 2 ≤ i → i < 32 → m' i = m i) (hdata : ∀ i < 8, d' i = d i) : S.aadNonce spp m' d' = S.aadNonce spp m d := by
  have hmgmt : isMgmt (getLe16 m 0 ||| S.wep) = isMgmt (getLe16 m 0) := by
    unfold isMgmt
    rw [or_wep_and S _ (by decide)]
  have haddr4 : isAddr4 (getLe16 m 0 ||| S.wep) = isAddr4 (getLe16 m 0) := by
    unfold isAddr4
    rw [or_wep_and S _ (by decide)]
  obtain ⟨hq, hm, h4, hf⟩ : isQos (getLe16 m' 0) = isQos (getLe16 m 0) ∧ isMgmt (getLe16 m' 0) = isMgmt (getLe16 m 0) ∧
      isAddr4 (getLe16 m' 0) = isAddr4 (getLe16 m 0) ∧ S.aadFc (getLe16 m' 0) = S.aadFc (getLe16 m 0) := by
    rcases hfc with h | h
    · rw [h]
      exact ⟨rfl, rfl, rfl, rfl⟩
    · rw [h, isQos_or_wep, aadFc_or_wep]
      exact ⟨rfl, hmgmt, haddr4, rfl⟩
  have hseq : getLe16 m' 22 = getLe16 m 22 := by
    unfold getLe16
    rw [hhdr 22 (by omega) (by omega), hhdr (22 + 1) (by omega) (by omega)]
  have hslice {a n : ℕ} (ha : 2 ≤ a) (hn : a + n ≤ 32) : slice m' a n = slice m a n :=
    slice_congr fun i hi => hhdr (a + i) (by omega) (by omega)
  unfold Suite.aadNonce
  dsimp only
  rw [hq, hm, h4, hf, hseq, hslice (by omega) (by omega), hslice (a := 24) (by omega) (by omega),
    hslice (a := 10) (by omega) (by omega), hdata 7 (by omega), hdata 6 (by omega), hdata 5 (by omega), hdata 4 (by omega),
    hdata 1 (by omega), hdata 0 (by omega), hhdr (24 + if isAddr4 (getLe16 m 0) then 6 else 0) (by omega) (by split <;> omega)]

theorem listMem_slice {a n i : ℕ} (h : i < n) : listMem (slice m a n) i = m (a + i) := by
  unfold listMem slice
  rw [List.getD_eq_getElem _ _ (by rwa [List.length_map, List.length_range']), List.getElem_map, List.getElem_range', Nat.one_mul]

theorem slice_listMem (l : List UInt8) : slice (listMem l) 0 l.length = l := by
  refine List.ext_getElem length_slice fun i hi hi' => ?_
  simp only [slice, listMem, List.getElem_map, List.getElem_range', Nat.one_mul, Nat.zero_add, List.getD_eq_getElem _ _ hi']

theorem copy_list_eq_iff {l : List UInt8} {a : ℕ} : copy m a (listMem l) 0 l.length = m' ↔
    l = slice m' a l.length ∧ ∀ i, i < a ∨ a + l.length ≤ i → m' i = m i := by
  constructor
  · rintro rfl
    refine ⟨?_, fun i hi => if_neg (by omega)⟩
    rw [slice_copy, slice_listMem]
  · rintro ⟨hl, hm⟩
    funext i
    unfold copy
    split
    · rename_i hi
      rw [hl, listMem_slice (by omega)]
      congr 1; omega
    · rw [hm i (by omega)]

theorem encrypt_none (hh : 24 ≤ hdrlen) : S.encrypt A spp true m (hdrlen + plen) hdrlen none 0 =
    (A.ae (S.aadNonce spp m fun i => m (hdrlen + i)).2 (slice m (hdrlen + 8) plen)
      (S.aadNonce spp m fun i => m (hdrlen + i)).1).map fun (c, mic) => slice (S.mark m) 0 (hdrlen + 8) ++ c ++ mic := by
  have hcrypt : slice (S.mark m) 0 hdrlen ++ slice m hdrlen 8 = slice (S.mark m) 0 (hdrlen + 8) := by
    rw [slice_add, Nat.zero_add]
    exact congrArg _ (slice_congr fun i _ => (mark_of_le S m (by omega)).symm)
  have hget {i : ℕ} (hi : i < hdrlen + 8) : listMem (slice (S.mark m) 0 (hdrlen + 8)) i = S.mark m i := by
    rw [listMem_slice hi, Nat.zero_add]
  have hfc : getLe16 (listMem (slice (S.mark m) 0 (hdrlen + 8))) 0 = getLe16 m 0 ||| S.wep := by
    rw [← getLe16_mark]
    unfold getLe16
    rw [hget (by omega), hget (by omega)]
  have haad : S.aadNonce spp (listMem (slice (S.mark m) 0 (hdrlen + 8)))
      (fun i => listMem (slice (S.mark m) 0 (hdrlen + 8)) (hdrlen + i)) = S.aadNonce spp m fun i => m (hdrlen + i) :=
    aadNonce_congr S (.inr hfc) (fun i hi hi' => by rw [hget (by omega), mark_of_le S m hi])
      fun i hi => by rw [hget (by omega), mark_of_le S m (by omega)]
  unfold Suite.encrypt
  rw [if_neg (by simp only [reduceCtorEq, or_false]; omega)]
  dsimp only [Option.isNone_none, if_true]
  rw [hcrypt, haad, Nat.add_sub_cancel_left]; rfl

theorem decrypt_frame : S.decrypt A spp true m (fun i => m (hdrlen + i)) (8 + plen + A.micLen) =
    A.ad (S.aadNonce spp m fun i => m (hdrlen + i)).2 (slice m (hdrlen + 8) plen) (S.aadNonce spp m fun i => m (hdrlen + i)).1
      (slice m (hdrlen + 8 + plen) A.micLen) := by
  have hslice (a n : ℕ) : slice (fun i => m (hdrlen + i)) a n = slice m (hdrlen + a) n :=
    slice_congr fun i _ => by rw [Nat.add_assoc]
  unfold Suite.decrypt
  rw [if_neg (by simp only [reduceCtorEq, or_false]; omega)]
  dsimp only
  rw [show 8 + plen + A.micLen - 8 - A.micLen = plen by omega, hslice, hslice, Nat.add_assoc hdrlen]

theorem head_congr (hh : 24 ≤ hdrlen) (h : ∀ i < hdrlen + 8, m' i = m i) :
    S.aadNonce spp m' (fun i => m' (hdrlen + i)) = S.aadNonce spp m (fun i => m (hdrlen + i)) ∧
      slice (S.mark m') 0 (hdrlen + 8) = slice (S.mark m) 0 (hdrlen + 8) := by
  have hfc : getLe16 m' 0 = getLe16 m 0 := by
    unfold getLe16
    rw [h 0 (by omega), h (0 + 1) (by omega)]
  refine ⟨aadNonce_congr S (.inl hfc) (fun i _ hi => h i (by omega)) fun i hi => h _ (by omega), slice_congr fun i hi => ?_⟩
  unfold Suite.mark copy
  rw [hfc, h _ (by omega)]

theorem slice_mark (hh : 24 ≤ hdrlen) (k : ℕ) : slice (S.mark m) 0 (hdrlen + 8 + plen + k) =
    slice (S.mark m) 0 (hdrlen + 8) ++ slice m (hdrlen + 8) plen ++ slice m (hdrlen + 8 + plen) k := by
  have hrest (a n : ℕ) (ha : 2 ≤ a) : slice (S.mark m) a n = slice m a n :=
    slice_congr fun i _ => mark_of_le S m (by omega)
  rw [slice_add, slice_add, Nat.zero_add, Nat.zero_add, hrest (hdrlen + 8) _ (by omega), hrest (hdrlen + 8 + plen) _ (by omega)]

/-- **Decryption in place undoes encryption in place, and nothing else is accepted.** -/
theorem decryptInPlace_iff : 24 ≤ hdrlen ∧ S.decryptInPlace A spp mem hdrlen m (hdrlen + (8 + plen + A.micLen)) = some m' ↔
    (∀ i, i < hdrlen + 8 ∨ hdrlen + 8 + plen ≤ i → m' i = m i) ∧
      S.encryptInPlace A spp mem hdrlen m' plen = some (S.mark m) := by
  unfold Suite.decryptInPlace Suite.encryptInPlace
  rw [Nat.add_sub_cancel_left]
  cases mem with
  | false =>
    rw [show S.decrypt A spp false m (fun i => m (hdrlen + i)) (8 + plen + A.micLen) = none from if_pos (.inr rfl),
      show S.encrypt A spp false m' (hdrlen + plen) hdrlen none 0 = none from if_pos (.inr (.inr rfl))]
    simp only [Option.map_none, reduceCtorEq, and_false]
  | true =>
  by_cases hh : 24 ≤ hdrlen
  swap
  · rw [show S.encrypt A spp true m' (hdrlen + plen) hdrlen none 0 = none from if_pos (.inr (.inl (Nat.not_le.mp hh)))]
    simp only [hh, Option.map_none, reduceCtorEq, false_and, and_false]
  rw [and_iff_right hh, decrypt_frame, encrypt_none S hh, Option.map_map]
  simp only [Option.map_eq_some_iff, copy_list_eq_iff, Prod.exists, Function.comp_apply]
  constructor
  · rintro ⟨p, had, hp, hout⟩
    have hae := (A.ae_iff ..).mpr ⟨length_slice, had⟩
    have hplen : p.length = plen := by rw [← A.length_ae hae, length_slice]
    rw [hplen] at hp hout
    obtain ⟨haad, hmark⟩ := head_congr S hh fun i hi => hout i (.inl hi)
    refine ⟨hout, _, _, by rw [haad, ← hp]; exact hae, ?_⟩
    rw [hmark, ← slice_mark S hh, length_slice]
    refine ⟨rfl, fun i hi => ?_⟩
    rw [mark_of_le S m (by omega), hout i (by omega)]
  · rintro ⟨hout, c, t, hae, hl, -⟩
    obtain ⟨haad, hmark⟩ := head_congr S hh fun i hi => hout i (.inl hi)
    have hc : c.length = plen := by rw [A.length_ae hae, length_slice]
    have ht : t.length = A.micLen := ((A.ae_iff ..).mp hae).1
    rw [List.length_append, List.length_append, length_slice, hc, ht, hmark, slice_mark S hh] at hl
    obtain ⟨hhead, rfl⟩ := List.append_inj' hl (by rw [ht, length_slice])
    obtain ⟨-, rfl⟩ := List.append_inj' hhead (by rw [hc, length_slice])
    rw [haad] at hae
    refine ⟨_, ((A.ae_iff ..).mp hae).2, ?_⟩
    rw [length_slice]
    exact ⟨rfl, hout⟩

theorem mark_gcmp (m : Mem) : gcmp.mark m = m :=
  copy_list_eq_iff.mpr ⟨by rw [show gcmp.wep = 0#16 from rfl, BitVec.or_zero, putLe16_getLe16]; rfl, fun _ _ => rfl⟩

/-- The bytes of the MIC, by the length of the key. -/
def ccmpMic (keyLen : ℕ) : ℕ := if keyLen = 16 then 8 else 16

variable (init : KeySetup) (spp mem : Bool) (key : Mem) (keyLen hdrlen plen : ℕ) (m m' : Mem)

/-- **What software decryption of CCMP accepts**: of a memory `m` it makes `m'` exactly where the two differ in nothing but the
text, and software encryption of `m'` makes `m`, marked as a protected frame. -/
theorem ccmp_decrypts_iff :
    24 ≤ hdrlen ∧ rtwCcmpDecrypt init spp mem key keyLen hdrlen m (hdrlen + (8 + plen + ccmpMic keyLen)) = some m' ↔
      (∀ i, i < hdrlen + 8 ∨ hdrlen + 8 + plen ≤ i → m' i = m i) ∧
        rtwCcmpEncrypt init spp mem key keyLen hdrlen m' plen = some (ccmp.mark m) := by
  unfold rtwCcmpDecrypt rtwCcmpEncrypt ccmpMic
  split
  · exact decryptInPlace_iff ccmp
  split
  · exact decryptInPlace_iff ccmp
  · simp only [reduceCtorEq, and_false]

/-- **What software decryption of GCMP accepts.** -/
theorem gcmp_decrypts_iff :
    24 ≤ hdrlen ∧ rtwGcmpDecrypt init spp mem key keyLen hdrlen m (hdrlen + (8 + plen + 16)) = some m' ↔
      (∀ i, i < hdrlen + 8 ∨ hdrlen + 8 + plen ≤ i → m' i = m i) ∧
        rtwGcmpEncrypt init spp mem key keyLen hdrlen m' plen = some m := by
  have h : _ ∧ rtwGcmpDecrypt init spp mem key keyLen hdrlen m _ = some m' ↔
      _ ∧ rtwGcmpEncrypt init spp mem key keyLen hdrlen m' plen = some (gcmp.mark m) := decryptInPlace_iff gcmp
  rwa [mark_gcmp] at h

/-! ### What of a header is authenticated -/

/-- The frame control without the bits that may change: retry, power management, more data, the protected bit, the lower bits of
a data subtype, and the order bit of a QoS frame. -/
def keptFc (fc : BitVec 16) : BitVec 16 :=
  fc &&& (~~~0x7800#16 &&& (if isData fc then ~~~0x0070#16 else ~~~0#16) &&& (if isQos fc then ~~~0x8000#16 else ~~~0#16))

/-- The QoS control is behind the addresses. -/
def qosControl (hdr : Mem) : UInt8 := hdr (24 + if isAddr4 (getLe16 hdr 0) then 6 else 0)

/-- Two headers are the same but for the duration, the sequence number, and what `keptFc` and the QoS control leave out. -/
structure SameProtected (spp : Bool) (h h' : Mem) : Prop where
  fc : keptFc (getLe16 h 0) = keptFc (getLe16 h' 0)
  addrs : slice h 4 18 = slice h' 4 18
  frag : getLe16 h 22 &&& 0x000f#16 = getLe16 h' 22 &&& 0x000f#16
  addr4 : isAddr4 (getLe16 h 0) → slice h 24 6 = slice h' 24 6
  qos : isQos (getLe16 h 0) → qosControl h &&& (if spp then 0x8f else 0x0f) = qosControl h' &&& if spp then 0x8f else 0x0f

theorem keptFc_and {k : BitVec 16} (h : 0x078f#16 &&& k = k) : keptFc fc &&& k = fc &&& k := by
  have hmask {n : BitVec 16} (hn : n &&& 0x078f#16 = 0x078f#16) : n &&& k = k := by
    rw [← h, ← BitVec.and_assoc, hn]
  unfold keptFc
  rw [BitVec.and_assoc fc]
  congr 1
  split
  · split
    · exact hmask (by decide)
    · exact hmask (by decide)
  · split
    · exact hmask (by decide)
    · exact hmask (by decide)

theorem aadFc_eq : ccmp.aadFc fc = keptFc fc ||| 0x4000#16 := by
  have hwep (k : BitVec 16) : k &&& ~~~0x3800#16 ||| 0x4000#16 = k &&& ~~~0x7800#16 ||| 0x4000#16 := by
    rw [show ~~~0x3800#16 = ~~~0x7800#16 ||| 0x4000#16 from rfl, BitVec.and_or_distrib_left, BitVec.or_assoc]
    congr 1
    ext i hi
    rw [BitVec.getElem_or, BitVec.getElem_and, Bool.or_eq_right_iff_imp.mpr]
    exact fun h => (Bool.and_eq_true_iff.mp h).2
  unfold Suite.aadFc keptFc
  rw [show ccmp.wep = 0x4000#16 from rfl, hwep]
  congr 1
  split
  · split
    · rw [BitVec.and_assoc, BitVec.and_assoc]; rfl
    · rw [BitVec.and_assoc]; rfl
  · split
    · rw [BitVec.and_assoc]; rfl
    · rfl

/-- The kinds of frames are told from the bits that are kept. -/
theorem kind_of_keptFc {fc fc' : BitVec 16} (h : keptFc fc = keptFc fc') :
    isQos fc = isQos fc' ∧ isMgmt fc = isMgmt fc' ∧ isAddr4 fc = isAddr4 fc' := by
  have hand {k : BitVec 16} (hk : 0x078f#16 &&& k = k) : fc &&& k = fc' &&& k := by
    rw [← keptFc_and fc hk, h, keptFc_and fc' hk]
  unfold isQos isData isMgmt isAddr4
  rw [hand (k := 0x000c#16) (by decide), hand (k := 0x0300#16) (by decide), BitVec.and_assoc fc, BitVec.and_assoc fc',
    hand (k := 0x00f0#16 &&& 0x0080#16) (by decide)]
  exact ⟨rfl, rfl, rfl⟩

theorem putLe16_inj {v v' : BitVec 16} (h : putLe16 v = putLe16 v') : v = v' := by
  have hget (v : BitVec 16) : getLe16 (listMem (putLe16 v)) 0 = v := getLe16_of_slice rfl
  rw [← hget v, h, hget]

theorem qos_byte (spp : Bool) (c : UInt8) : (if spp then c &&& ~~~0x70 else c &&& ~~~0x70 &&& ~~~0x80) =
    c &&& if spp then 0x8f else 0x0f := by
  cases spp with
  | false =>
    rw [if_neg Bool.false_ne_true, if_neg Bool.false_ne_true, UInt8.and_assoc]; rfl
  | true => rfl

theorem putLe16_aadFc_iff {fc fc' : BitVec 16} :
    putLe16 (ccmp.aadFc fc) = putLe16 (ccmp.aadFc fc') ↔ keptFc fc = keptFc fc' := by
  have hkept (fc : BitVec 16) : (keptFc fc ||| 0x4000#16) &&& ~~~0x4000#16 = keptFc fc := by
    rw [BitVec.and_or_distrib_right, show 0x4000#16 &&& ~~~0x4000#16 = 0#16 from rfl, BitVec.or_zero]
    unfold keptFc
    rw [BitVec.and_comm (~~~0x7800#16), BitVec.and_assoc fc, BitVec.and_comm _ (~~~0x7800#16)]
    congr 1
    split
    · split
      · rfl
      · rfl
    · split
      · rfl
      · rfl
  rw [aadFc_eq, aadFc_eq]
  constructor
  · intro h
    rw [← hkept fc, putLe16_inj h, hkept]
  · intro h
    rw [h]

/-- **What of a header CCMP authenticates**, and the packet number: other changes leave the AAD and the nonce as they are. -/
theorem ccmpAadNonce_iff (spp : Bool) (h h' d d' : Mem) : ccmp.aadNonce spp h d = ccmp.aadNonce spp h' d' ↔
    SameProtected spp h h' ∧ ∀ i ∈ [0, 1, 4, 5, 6, 7], d i = d' i := by
  unfold Suite.aadNonce
  dsimp only
  rw [qos_byte, qos_byte, Prod.mk.injEq]
  simp only [List.append_assoc]
  constructor
  · rintro ⟨haad, hnonce⟩
    obtain ⟨hfc, haad⟩ := List.append_inj haad rfl
    obtain ⟨haddrs, haad⟩ := List.append_inj haad (by rw [length_slice, length_slice])
    obtain ⟨hfrag, haad⟩ := List.append_inj haad rfl
    have hkept := putLe16_aadFc_iff.mp hfc
    obtain ⟨hq, -, h4⟩ := kind_of_keptFc hkept
    rw [← hq, ← h4] at haad
    obtain ⟨haddr4, hqos⟩ := List.append_inj haad (by
      split
      · rw [length_slice, length_slice]
      · rfl)
    refine ⟨⟨hkept, haddrs, putLe16_inj hfrag, fun hc => ?_, fun hc => ?_⟩, ?_⟩
    · rwa [if_pos hc, if_pos hc] at haddr4
    · rw [if_pos hc, if_pos hc] at hqos
      unfold qosControl
      rw [← h4]
      exact (List.cons.inj hqos).1
    · obtain ⟨-, hnonce⟩ := List.append_inj' hnonce rfl
      obtain ⟨-, hnonce⟩ := List.append_inj hnonce (by rw [length_slice, length_slice])
      simp only [List.cons.injEq, and_true] at hnonce
      simp only [List.forall_mem_cons, List.not_mem_nil, false_implies, implies_true, and_true]
      obtain ⟨h7, h6, h5, h4, h1, h0⟩ := hnonce
      exact ⟨h0, h1, h4, h5, h6, h7⟩
  · rintro ⟨hsame, hd⟩
    obtain ⟨hq, hm, h4⟩ := kind_of_keptFc hsame.fc
    have hta : slice h 10 6 = slice h' 10 6 := by
      have hpart (m : Mem) : slice m 10 6 = ((slice m 4 18).drop 6).take 6 := by
        rw [slice_drop (by omega), slice_take (by omega)]
      rw [hpart, hpart, hsame.addrs]
    simp only [List.forall_mem_cons, List.not_mem_nil, false_implies, implies_true, and_true] at hd
    obtain ⟨h0, h1, h4', h5, h6, h7⟩ := hd
    have hqos := hsame.qos
    unfold qosControl at hqos
    rw [putLe16_aadFc_iff.mpr hsame.fc, hsame.addrs, show ~~~0xfff0#16 = 0x000f#16 from rfl, hsame.frag, ← hq, ← hm, h0, h1, h4',
      h5, h6, h7, hta]
    have h4a : (if isAddr4 (getLe16 h 0) then slice h 24 6 else []) = if isAddr4 (getLe16 h' 0) then slice h' 24 6 else [] := by
      rw [← h4]
      split
      · exact hsame.addr4 ‹_›
      · rfl
    rw [h4a]
    by_cases hc : isQos (getLe16 h 0) = true
    · have hlow : (if spp then 0x8f else 0x0f : UInt8) &&& 0x0f = 0x0f := by
        cases spp with
        | false => rfl
        | true => rfl
      have htid := hqos hc
      rw [if_pos hc, if_pos hc, if_pos hc, if_pos hc, htid, ← hlow, ← UInt8.and_assoc, htid, UInt8.and_assoc]
      exact ⟨rfl, rfl⟩
    · rw [if_neg hc, if_neg hc, if_neg hc, if_neg hc]
      exact ⟨rfl, rfl⟩

end Rtl8852cu.Crypto
