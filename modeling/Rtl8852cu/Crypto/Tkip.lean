import Rtl8852cu.Crypto.Frame

/-!
# TKIP in software

`rtw_security.c`, with RC4 and the ICV; the S-box `_S_` is any function `S`.

* `rtwTkipEncrypt`, `rtwTkipDecrypt`: of one fragment; `tkip_decrypts_iff`;
* `rc4key_iff`: no two packets of a key have one key of RC4.
-/

namespace Rtl8852cu.Crypto

open Lib

/-! ### RC4 and the ICV -/

/-- `struct arc4context` -/
structure Arc4 where
  x : UInt8
  y : UInt8
  state : UInt8 → UInt8

/-- The loop of `arcfour_init` over the key: the state, `stateindex` and `keyindex`. -/
def arcfourInitStep (key : Mem) (keyLen : ℕ) (s : (UInt8 → UInt8) × UInt8 × ℕ) (counter : ℕ) : (UInt8 → UInt8) × UInt8 × ℕ :=
  let (state, stateindex, keyindex) := s
  let t := state (.ofNat counter)
  let stateindex := stateindex + key keyindex + t
  let u := state stateindex
  (Function.update (Function.update state stateindex t) (.ofNat counter) u, stateindex,
    if keyLen ≤ keyindex + 1 then 0 else keyindex + 1)

def arcfourInit (key : List UInt8) : Arc4 :=
  ⟨0, 0, ((List.range 256).foldl (arcfourInitStep (listMem key) key.length) (id, 0, 0)).1⟩

/-- `arcfour_byte`: a byte, and the context after it. -/
def arcfourByte (c : Arc4) : UInt8 × Arc4 :=
  let x := c.x + 1
  let sx := c.state x
  let y := sx + c.y
  let sy := c.state y
  let state := Function.update (Function.update c.state y sx) x sy
  (state (sx + sy), ⟨x, y, state⟩)

def arcfourEncrypt : Arc4 → List UInt8 → List UInt8 × Arc4
  | c, [] => ([], c)
  | c, b :: src =>
    let r := arcfourByte c
    let rest := arcfourEncrypt r.2 src
    ((b ^^^ r.1) :: rest.1, rest.2)

def crc32ReverseBit (data : UInt8) : UInt8 :=
  let l (k mask : UInt8) := data <<< k &&& mask
  let r (k mask : UInt8) := data >>> k &&& mask
  l 7 0x80 ||| l 5 0x40 ||| l 3 0x20 ||| l 1 0x10 ||| r 1 0x08 ||| r 3 0x04 ||| r 5 0x02 ||| r 7 0x01

def getLe32 (m : Mem) (a : ℕ) : BitVec 32 := getLe16 m (a + 2) ++ getLe16 m a

def putLe32 (v : BitVec 32) : List UInt8 := putLe16 (v.extractLsb' 0 16) ++ putLe16 (v.extractLsb' 16 16)

/-- The entries that `crc32_init` fills in: the bytes of a word the other way round. -/
def crc32Table (i : UInt8) : BitVec 32 :=
  let c := (fun c : BitVec 32 => if c &&& 0x80000000#32 ≠ 0#32 then c <<< 1 ^^^ 0x04c11db7#32 else c <<< 1)^[8]
    ((crc32ReverseBit i).toBitVec ++ 0#24)
  getLe32 (listMem ((putLe32 c).reverse.map crc32ReverseBit)) 0

def getcrc32 (buf : List UInt8) : BitVec 32 :=
  ~~~buf.foldl (fun crc b => crc32Table (⟨crc.setWidth 8⟩ ^^^ b) ^^^ crc >>> 8) 0xffffffff#32

/-- A fragment of `length` bytes at `a`, and its ICV behind it. -/
def rc4Encrypt (rc4key : List UInt8) (m : Mem) (a length : ℕ) : Mem :=
  let crc := putLe32 (getcrc32 (slice m a length))
  let payload := arcfourEncrypt (arcfourInit rc4key) (slice m a length)
  let icv := arcfourEncrypt payload.2 crc
  copy (copy m a (listMem payload.1) 0 length) (a + length) (listMem icv.1) 0 4

/-- Whether the ICV at the end of the `length` bytes is right, and the memory. -/
def rc4Decrypt (rc4key : List UInt8) (m : Mem) (a length : ℕ) : Bool × Mem :=
  let m' := copy m a (listMem (arcfourEncrypt (arcfourInit rc4key) (slice m a length)).1) 0 length
  (putLe32 (getcrc32 (slice m' a (length - 4))) = slice m' (a + (length - 4)) 4, m')

/-! ### The key mixing of TKIP -/

/-- `p1k[]` -/
structure P1k where
  k0 : BitVec 16
  k1 : BitVec 16
  k2 : BitVec 16
  k3 : BitVec 16
  k4 : BitVec 16

variable (S : BitVec 16 → BitVec 16) (tk : Mem)

/-- `TK16` -/
def tk16 (n : ℕ) : BitVec 16 := getLe16 tk (2 * n)

def phase1Round (p : P1k) (i : ℕ) : P1k :=
  let k0 := p.k0 + S (p.k4 ^^^ tk16 tk (i % 2))
  let k1 := p.k1 + S (k0 ^^^ tk16 tk (i % 2 + 2))
  let k2 := p.k2 + S (k1 ^^^ tk16 tk (i % 2 + 4))
  let k3 := p.k3 + S (k2 ^^^ tk16 tk (i % 2 + 6))
  let k4 := p.k4 + S (k3 ^^^ tk16 tk (i % 2))
  ⟨k0, k1, k2, k3, k4 + BitVec.ofNat 16 i⟩

def phase1 (ta : Mem) (iv32 : BitVec 32) : P1k :=
  (List.range 8).foldl (phase1Round S tk)
    ⟨iv32.extractLsb' 0 16, iv32.extractLsb' 16 16, getLe16 ta 0, getLe16 ta 2, getLe16 ta 4⟩

/-- `RotR1` -/
def rotR1 (v : BitVec 16) : BitVec 16 := v >>> 1 &&& 0x7FFF#16 ^^^ (v &&& 1#16) <<< 15

/-- `PPK[]` -/
@[ext] structure Ppk extends P1k where
  k5 : BitVec 16

/-- The two sweeps of `phase2`. -/
def ppk (p : P1k) (iv16 : BitVec 16) : Ppk :=
  let k5 := p.k4 + iv16
  let k0 := p.k0 + S (k5 ^^^ tk16 tk 0)
  let k1 := p.k1 + S (k0 ^^^ tk16 tk 1)
  let k2 := p.k2 + S (k1 ^^^ tk16 tk 2)
  let k3 := p.k3 + S (k2 ^^^ tk16 tk 3)
  let k4 := p.k4 + S (k3 ^^^ tk16 tk 4)
  let k5 := k5 + S (k4 ^^^ tk16 tk 5)
  let k0 := k0 + rotR1 (k5 ^^^ tk16 tk 6)
  let k1 := k1 + rotR1 (k0 ^^^ tk16 tk 7)
  let k2 := k2 + rotR1 k1
  let k3 := k3 + rotR1 k2
  let k4 := k4 + rotR1 k3
  let k5 := k5 + rotR1 k4
  ⟨⟨k0, k1, k2, k3, k4⟩, k5⟩

def phase2 (p : P1k) (iv16 : BitVec 16) : List UInt8 :=
  let k := ppk S tk p iv16
  let hi : UInt8 := ⟨iv16.extractLsb' 8 8⟩
  [hi, (hi ||| 0x20) &&& 0x7F, ⟨iv16.extractLsb' 0 8⟩, ⟨((k.k5 ^^^ tk16 tk 0) >>> 1).extractLsb' 0 8⟩] ++
    (putLe16 k.k0 ++ (putLe16 k.k1 ++ (putLe16 k.k2 ++ (putLe16 k.k3 ++ (putLe16 k.k4 ++ putLe16 k.k5)))))

/-- The key of RC4 for a frame with the IV at `a`, by `GET_TKIP_PN`. -/
def tkipKey (ta m : Mem) (a : ℕ) : List UInt8 :=
  phase2 S tk (phase1 S tk ta (getLe32 m (a + 4))) ((m a).toBitVec ++ (m (a + 2)).toBitVec)

/-- A fragment in `rtw_tkip_encrypt`. -/
def rtwTkipEncrypt (ta : Mem) (hdrlen ivLen : ℕ) (m : Mem) (length : ℕ) : Mem :=
  rc4Encrypt (tkipKey S tk ta m hdrlen) m (hdrlen + ivLen) length

/-- `rtw_tkip_decrypt`, with the key of the station or the group. -/
def rtwTkipDecrypt (ta : Mem) (hdrlen ivLen : ℕ) (m : Mem) (len : ℕ) : Bool × Mem :=
  rc4Decrypt (tkipKey S tk ta m hdrlen) m (hdrlen + ivLen) (len - hdrlen - ivLen)

/-! ### What is decrypted, and to what -/

theorem length_arcfourEncrypt (c : Arc4) (d : List UInt8) : (arcfourEncrypt c d).1.length = d.length := by
  induction d generalizing c with
  | nil => rfl
  | cons b d ih => exact congrArg (· + 1) (ih _)

theorem arcfourEncrypt_append (c : Arc4) (d e : List UInt8) : (arcfourEncrypt c (d ++ e)).1 =
    (arcfourEncrypt c d).1 ++ (arcfourEncrypt (arcfourEncrypt c d).2 e).1 := by
  induction d generalizing c with
  | nil => rfl
  | cons b d ih => exact congrArg (List.cons _) (ih _)

theorem arcfourEncrypt_arcfourEncrypt (c : Arc4) (d : List UInt8) :
    (arcfourEncrypt c (arcfourEncrypt c d).1).1 = d := by
  induction d generalizing c with
  | nil => rfl
  | cons b d ih =>
    unfold arcfourEncrypt
    dsimp only
    rw [arcfourEncrypt]
    dsimp only
    rw [UInt8.xor_assoc, UInt8.xor_self, UInt8.xor_zero, ih]

theorem arcfourEncrypt_eq_iff {c : Arc4} {d e : List UInt8} : (arcfourEncrypt c d).1 = e ↔ (arcfourEncrypt c e).1 = d := by
  constructor
  · rintro rfl; exact arcfourEncrypt_arcfourEncrypt c d
  · rintro rfl; exact arcfourEncrypt_arcfourEncrypt c e

theorem rc4Encrypt_eq (k : List UInt8) (m : Mem) (a n : ℕ) : rc4Encrypt k m a n =
    copy m a (listMem (arcfourEncrypt (arcfourInit k) (slice m a n ++ putLe32 (getcrc32 (slice m a n)))).1) 0 (n + 4) := by
  have hlen : (arcfourEncrypt (arcfourInit k) (slice m a n)).1.length = n := by rw [length_arcfourEncrypt, length_slice]
  funext i
  unfold rc4Encrypt
  rw [arcfourEncrypt_append]
  simp only [copy, listMem, Nat.zero_add]
  by_cases hi : a + n ≤ i ∧ i < a + n + 4
  · rw [if_pos hi, if_pos (by omega), List.getD_append_right _ _ _ _ (by omega), hlen]
    congr 1; omega
  · rw [if_neg hi]
    by_cases hi' : a ≤ i ∧ i < a + n
    · rw [if_pos hi', if_pos (by omega), List.getD_append _ _ _ _ (by omega)]
    · rw [if_neg hi', if_neg (by omega)]

variable {k : List UInt8} {m m' : Mem} {a n : ℕ}

theorem rc4Decrypt_iff : rc4Decrypt k m a (n + 4) = (true, m') ↔
    (∀ i, i < a ∨ a + n + 4 ≤ i → m' i = m i) ∧ slice m' (a + n) 4 = putLe32 (getcrc32 (slice m' a n)) ∧
      rc4Encrypt k m' a n = m := by
  have hcopy (m m' : Mem) (d : List UInt8) (hd : d.length = n + 4) :
      copy m a (listMem (arcfourEncrypt (arcfourInit k) d).1) 0 (n + 4) = m' ↔
        (arcfourEncrypt (arcfourInit k) d).1 = slice m' a (n + 4) ∧ ∀ i, i < a ∨ a + n + 4 ≤ i → m' i = m i := by
    have hl : (arcfourEncrypt (arcfourInit k) d).1.length = n + 4 := (length_arcfourEncrypt _ d).trans hd
    have h : copy m a _ 0 (arcfourEncrypt (arcfourInit k) d).1.length = m' ↔ _ := copy_list_eq_iff
    rwa [hl, ← Nat.add_assoc] at h
  unfold rc4Decrypt
  dsimp only
  rw [Prod.mk.injEq, decide_eq_true_iff, Nat.add_sub_cancel, rc4Encrypt_eq, hcopy m' m _ (by rw [List.length_append, length_slice]; rfl)]
  constructor
  · rintro ⟨hicv, hm⟩
    rw [hm] at hicv
    obtain ⟨hpay, hout⟩ := (hcopy m m' _ length_slice).mp hm
    refine ⟨hout, hicv.symm, ?_, fun i hi => (hout i hi).symm⟩
    rw [hicv, ← slice_add]
    exact arcfourEncrypt_eq_iff.mp hpay
  · rintro ⟨hout, hicv, hpay, -⟩
    have hm := (hcopy m m' (slice m a (n + 4)) length_slice).mpr ⟨arcfourEncrypt_eq_iff.mpr (by rw [slice_add, hicv, hpay]), hout⟩
    rw [hm]
    exact ⟨hicv.symm, rfl⟩

variable (S : BitVec 16 → BitVec 16) (tk ta : Mem) (hdrlen plen : ℕ) (m m' : Mem)

/-- **What software decryption of TKIP accepts**: of `m` it makes `m'` exactly where the two differ in nothing but the text and its
ICV, the ICV in `m'` is that of the text, and software encryption of `m'` makes `m`. -/
theorem tkip_decrypts_iff : rtwTkipDecrypt S tk ta hdrlen 8 m (hdrlen + 8 + (plen + 4)) = (true, m') ↔
    (∀ i, i < hdrlen + 8 ∨ hdrlen + 8 + plen + 4 ≤ i → m' i = m i) ∧
      slice m' (hdrlen + 8 + plen) 4 = putLe32 (getcrc32 (slice m' (hdrlen + 8) plen)) ∧
      rtwTkipEncrypt S tk ta hdrlen 8 m' plen = m := by
  unfold rtwTkipDecrypt rtwTkipEncrypt
  rw [show hdrlen + 8 + (plen + 4) - hdrlen - 8 = plen + 4 by omega, rc4Decrypt_iff]
  refine and_congr_right fun hout => ?_
  have hkey : tkipKey S tk ta m' hdrlen = tkipKey S tk ta m hdrlen := by
    unfold tkipKey getLe32 getLe16
    repeat rw [hout _ (by omega)]
  rw [hkey]

/-! ### The key tells the packets apart -/

theorem extract_append (v : BitVec 32) : v.extractLsb' 16 16 ++ v.extractLsb' 0 16 = v := by
  rw [BitVec.extractLsb'_append_extractLsb'_eq_extractLsb' (by omega)]
  exact BitVec.extractLsb'_eq_self

theorem add_inj {n : ℕ} {a b x y : BitVec n} (h : a + x = b + y) (hx : x = y) : a = b := by
  rw [hx] at h; exact (BitVec.add_left_inj y).mp h

/-- Each word was added to what the words before it make, the first one to what the last one makes. -/
theorem phase1Round_inj {p q : P1k} {i : ℕ} (h : phase1Round S tk p i = phase1Round S tk q i) : p = q := by
  obtain ⟨p0, p1, p2, p3, p4⟩ := p
  obtain ⟨q0, q1, q2, q3, q4⟩ := q
  obtain ⟨h0, h1, h2, h3, h4⟩ := (P1k.mk.injEq ..).mp h
  have e4 : p4 = q4 := add_inj (add_inj h4 rfl) (by rw [h3])
  have e3 : p3 = q3 := add_inj h3 (by rw [h2])
  have e2 : p2 = q2 := add_inj h2 (by rw [h1])
  have e1 : p1 = q1 := add_inj h1 (by rw [h0])
  have e0 : p0 = q0 := add_inj h0 (by rw [e4])
  rw [e0, e1, e2, e3, e4]

theorem phase1_inj {ta ta' : Mem} {iv iv' : BitVec 32} (h : phase1 S tk ta iv = phase1 S tk ta' iv') :
    slice ta 0 6 = slice ta' 0 6 ∧ iv = iv' := by
  have hfold (l : List ℕ) {p q : P1k} (hpq : l.foldl (phase1Round S tk) p = l.foldl (phase1Round S tk) q) : p = q := by
    induction l generalizing p q with
    | nil => exact hpq
    | cons i l ih => exact phase1Round_inj S tk (ih hpq)
  obtain ⟨hlo, hhi, h0, h2, h4⟩ := (P1k.mk.injEq ..).mp (hfold _ h)
  constructor
  · rw [show 6 = 2 + 2 + 2 from rfl, slice_add, slice_add, slice_add, slice_add, ← putLe16_getLe16, ← putLe16_getLe16,
      ← putLe16_getLe16, ← putLe16_getLe16, ← putLe16_getLe16, ← putLe16_getLe16, h0, h2, h4]
  · rw [← extract_append iv, ← extract_append iv', hlo, hhi]

/-- The last sweep is undone from its end on, and then the first one. -/
theorem ppk_inj {p q : P1k} {iv : BitVec 16} (h : ppk S tk p iv = ppk S tk q iv) : p = q := by
  obtain ⟨p0, p1, p2, p3, p4⟩ := p
  obtain ⟨q0, q1, q2, q3, q4⟩ := q
  obtain ⟨h', h5⟩ := (Ppk.mk.injEq ..).mp h
  obtain ⟨h0, h1, h2, h3, h4⟩ := (P1k.mk.injEq ..).mp h'
  have h5 := add_inj h5 (by rw [h4])
  have h4 := add_inj h4 (by rw [h3])
  have h3 := add_inj h3 (by rw [h2])
  have h2 := add_inj h2 (by rw [h1])
  have h1 := add_inj h1 (by rw [h0])
  have h0 := add_inj h0 (by rw [h5])
  have e4 : p4 = q4 := add_inj (add_inj h5 (by rw [h4])) rfl
  have e3 : p3 = q3 := add_inj h3 (by rw [h2])
  have e2 : p2 = q2 := add_inj h2 (by rw [h1])
  have e1 : p1 = q1 := add_inj h1 (by rw [h0])
  have e0 : p0 = q0 := add_inj h0 (by rw [e4])
  rw [e0, e1, e2, e3, e4]

theorem phase2_inj {p q : P1k} {iv iv' : BitVec 16} (h : phase2 S tk p iv = phase2 S tk q iv') : p = q ∧ iv = iv' := by
  have hlen (v w : BitVec 16) : (putLe16 v).length = (putLe16 w).length := rfl
  obtain ⟨hkey, rfl⟩ : ppk S tk p iv = ppk S tk q iv' ∧ iv = iv' := by
    unfold phase2 at h
    generalize ppk S tk p iv = u at h ⊢
    generalize ppk S tk q iv' = v at h ⊢
    simp only [List.cons_append, List.nil_append, List.cons.injEq] at h
    obtain ⟨hhi, -, hlo, -, h⟩ := h
    obtain ⟨h0, h⟩ := List.append_inj h (hlen _ _)
    obtain ⟨h1, h⟩ := List.append_inj h (hlen _ _)
    obtain ⟨h2, h⟩ := List.append_inj h (hlen _ _)
    obtain ⟨h3, h⟩ := List.append_inj h (hlen _ _)
    obtain ⟨h4, h5⟩ := List.append_inj h (hlen _ _)
    refine ⟨Ppk.ext (putLe16_inj h0) (putLe16_inj h1) (putLe16_inj h2) (putLe16_inj h3) (putLe16_inj h4) (putLe16_inj h5), ?_⟩
    apply putLe16_inj
    unfold putLe16
    rw [hhi, hlo]
  exact ⟨ppk_inj S tk hkey, rfl⟩

/-- **No two packets of a key have one key of RC4**: it tells the transmitter and the packet number. -/
theorem rc4key_iff (ta ta' : Mem) (iv32 iv32' : BitVec 32) (iv16 iv16' : BitVec 16) :
    phase2 S tk (phase1 S tk ta iv32) iv16 = phase2 S tk (phase1 S tk ta' iv32') iv16' ↔
      slice ta 0 6 = slice ta' 0 6 ∧ iv32 = iv32' ∧ iv16 = iv16' := by
  constructor
  · intro h
    obtain ⟨hp, hiv⟩ := phase2_inj S tk h
    obtain ⟨hta, hiv32⟩ := phase1_inj S tk hp
    exact ⟨hta, hiv32, hiv⟩
  · rintro ⟨hta, rfl, rfl⟩
    rw [show 6 = 2 + 2 + 2 from rfl, slice_add, slice_add, slice_add, slice_add] at hta
    obtain ⟨hta, h4⟩ := List.append_inj hta rfl
    obtain ⟨h0, h2⟩ := List.append_inj hta rfl
    unfold phase1
    rw [getLe16_of_slice (h0.trans (putLe16_getLe16 ta' 0).symm), getLe16_of_slice (h2.trans (putLe16_getLe16 ta' _).symm),
      getLe16_of_slice (h4.trans (putLe16_getLe16 ta' _).symm)]

end Rtl8852cu.Crypto
