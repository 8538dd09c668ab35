import Mathlib.Data.List.Basic
import Rtl8852cu.Crypto.Tkip

/-!
# The MIC of TKIP

`rtw_security.c`, `rtw_seccalctkipmic`.  The same bytes do not make one state of two (`append_inj`), so the MIC tells keys,
priorities and words of the data apart.
-/

namespace Rtl8852cu.Crypto

open Lib

/-- `struct mic_data` -/
structure MicData where
  K0 : BitVec 32
  K1 : BitVec 32
  L : BitVec 32
  R : BitVec 32
  M : BitVec 32
  nBytesInM : ℕ

def secmicclear (d : MicData) : MicData := { d with L := d.K0, R := d.K1, nBytesInM := 0, M := 0 }

def rtwSecmicsetkey (key : Mem) : MicData := secmicclear ⟨getLe32 key 0, getLe32 key 4, 0, 0, 0, 0⟩

/-- What a word that is full does to `L` and `R`. -/
def micBlock (M L R : BitVec 32) : BitVec 32 × BitVec 32 :=
  let L := L ^^^ M
  let R := R ^^^ L.rotateLeft 17
  let L := L + R
  let R := R ^^^ ((L &&& 0xff00ff00#32) >>> 8 ||| (L &&& 0x00ff00ff#32) <<< 8)
  let L := L + R
  let R := R ^^^ L.rotateLeft 3
  let L := L + R
  let R := R ^^^ L.rotateLeft 30
  (L + R, R)

def rtwSecmicappendbyte (d : MicData) (b : UInt8) : MicData :=
  let M := d.M ||| b.toBitVec.setWidth 32 <<< (8 * d.nBytesInM)
  if 4 ≤ d.nBytesInM + 1 then
    let (L, R) := micBlock M d.L d.R
    { d with L := L, R := R, M := 0, nBytesInM := 0 }
  else { d with M := M, nBytesInM := d.nBytesInM + 1 }

def rtwSecmicappend (d : MicData) (src : List UInt8) : MicData := src.foldl rtwSecmicappendbyte d

/-- The MIC, and the state as it is without a message. -/
def rtwSecgetmic (d : MicData) : List UInt8 × MicData :=
  let d := rtwSecmicappend d [0x5a, 0, 0, 0, 0]
  let d := rtwSecmicappend d (List.replicate ((4 - d.nBytesInM) % 4) 0)
  (putLe32 d.L ++ putLe32 d.R, secmicclear d)

/-- DA and SA. -/
def micAddrs (header : Mem) : List UInt8 :=
  let toDs := header 1 &&& 1 ≠ 0
  let fromDs := header 1 &&& 2 ≠ 0
  slice header (if toDs then 16 else 4) 6 ++ slice header (if fromDs then if toDs then 24 else 16 else 10) 6

def rtwSeccalctkipmic (key header : Mem) (data : List UInt8) (pri : UInt8) : List UInt8 :=
  (rtwSecgetmic (rtwSecmicappend (rtwSecmicappend (rtwSecmicappend (rtwSecmicsetkey key) (micAddrs header)) [pri, 0, 0, 0]) data)).1

theorem xor_inj {a b x y : BitVec 32} (h : a ^^^ x = b ^^^ y) (hx : x = y) : a = b := by
  rw [hx] at h
  exact BitVec.xor_left_inj y |>.mp h

/-- The steps are undone from the last one on. -/
theorem micBlock_inj {M M' L L' R R' : BitVec 32} (h : micBlock M L R = micBlock M' L' R') : L ^^^ M = L' ^^^ M' ∧ R = R' := by
  obtain ⟨h8, h7⟩ := (Prod.mk.injEq ..).mp h
  have h6 := add_inj h8 h7
  have h5 := xor_inj h7 (by rw [h6])
  have h4 := add_inj h6 h5
  have h3 := xor_inj h5 (by rw [h4])
  have h2 := add_inj h4 h3
  have h1 := xor_inj h3 (by rw [h2])
  have hL := add_inj h2 h1
  exact ⟨hL, xor_inj h1 (by rw [hL])⟩

def MicData.lr (d : MicData) : BitVec 32 × BitVec 32 := (d.L, d.R)

/-- The same bytes have come after the last word. -/
def SameM (d e : MicData) : Prop := d.M = e.M ∧ d.nBytesInM = e.nBytesInM

variable {d e : MicData}

theorem append_inj (src : List UInt8) (h : SameM d e) : SameM (rtwSecmicappend d src) (rtwSecmicappend e src) ∧
    ((rtwSecmicappend d src).lr = (rtwSecmicappend e src).lr → d.lr = e.lr) := by
  induction src generalizing d e with
  | nil => exact ⟨h, id⟩
  | cons b src ih =>
    have hstep : SameM (rtwSecmicappendbyte d b) (rtwSecmicappendbyte e b) ∧
        ((rtwSecmicappendbyte d b).lr = (rtwSecmicappendbyte e b).lr → d.lr = e.lr) := by
      unfold rtwSecmicappendbyte
      rw [h.1, h.2]
      split
      · refine ⟨⟨rfl, rfl⟩, fun hlr => ?_⟩
        obtain ⟨hL, hR⟩ := micBlock_inj hlr
        exact Prod.ext (xor_inj hL rfl) hR
      · exact ⟨⟨rfl, rfl⟩, id⟩
    exact ⟨(ih hstep.1).1, fun hlr => hstep.2 ((ih hstep.1).2 hlr)⟩

theorem append_append (src src' : List UInt8) : rtwSecmicappend d (src ++ src') = rtwSecmicappend (rtwSecmicappend d src) src' :=
  List.foldl_append

theorem length_putLe32 (v w : BitVec 32) : (putLe32 v).length = (putLe32 w).length := rfl

theorem putLe32_inj {v v' : BitVec 32} (h : putLe32 v = putLe32 v') : v = v' := by
  obtain ⟨hlo, hhi⟩ := List.append_inj h (by unfold putLe16; rfl)
  rw [← extract_append v, ← extract_append v', putLe16_inj hlo, putLe16_inj hhi]

theorem getmic_inj (h : SameM d e) (heq : (rtwSecgetmic d).1 = (rtwSecgetmic e).1) : d.lr = e.lr := by
  unfold rtwSecgetmic at heq
  dsimp only at heq
  have h1 := append_inj [0x5a, 0, 0, 0, 0] h
  generalize rtwSecmicappend d [0x5a, 0, 0, 0, 0] = d₁ at heq h1
  generalize rtwSecmicappend e [0x5a, 0, 0, 0, 0] = e₁ at heq h1
  rw [h1.1.2] at heq
  have h2 := append_inj (List.replicate ((4 - e₁.nBytesInM) % 4) 0) h1.1
  obtain ⟨hL, hR⟩ := List.append_inj heq (length_putLe32 _ _)
  exact h1.2 (h2.2 (Prod.ext (putLe32_inj hL) (putLe32_inj hR)))

/-- Where no byte is left, nothing is. -/
def Sound (d : MicData) : Prop := d.nBytesInM < 4 ∧ (d.nBytesInM = 0 → d.M = 0)

theorem append_sound (src : List UInt8) (h : Sound d) :
    Sound (rtwSecmicappend d src) ∧ (rtwSecmicappend d src).nBytesInM = (d.nBytesInM + src.length) % 4 := by
  induction src generalizing d with
  | nil => exact ⟨h, (Nat.mod_eq_of_lt h.1).symm⟩
  | cons b src ih =>
    have hstep : Sound (rtwSecmicappendbyte d b) ∧ (rtwSecmicappendbyte d b).nBytesInM = (d.nBytesInM + 1) % 4 := by
      have hlt := h.1
      unfold rtwSecmicappendbyte
      dsimp only
      split
      · exact ⟨⟨Nat.zero_lt_succ 3, fun _ => rfl⟩, show 0 = _ by omega⟩
      · refine ⟨⟨show d.nBytesInM + 1 < 4 by omega, fun h0 => ?_⟩, show d.nBytesInM + 1 = _ by omega⟩
        exact absurd h0 (Nat.succ_ne_zero _)
    obtain ⟨hs, hn⟩ := ih hstep.1
    refine ⟨hs, hn.trans ?_⟩
    rw [hstep.2, List.length_cons]; omega

theorem append_word (hn : d.nBytesInM = 0) (h : Sound d) (w : BitVec 32) :
    (rtwSecmicappend d (putLe32 w)).lr = micBlock w d.L d.R := by
  obtain ⟨K0, K1, L, R, M, n⟩ := d
  obtain rfl : n = 0 := hn
  obtain rfl : M = 0 := h.2 rfl
  have hM : 0#32 ||| ((w.extractLsb' 0 16).extractLsb' 0 8).setWidth 32 <<< 0 |||
      ((w.extractLsb' 0 16).extractLsb' 8 8).setWidth 32 <<< 8 ||| ((w.extractLsb' 16 16).extractLsb' 0 8).setWidth 32 <<< 16 |||
      ((w.extractLsb' 16 16).extractLsb' 8 8).setWidth 32 <<< 24 = w := by
    grind
  conv_rhs => rw [← hM]
  rfl

/-- Another word in the place of one. -/
theorem getmic_word_iff (hn : d.nBytesInM = 0) (h : Sound d) {w w' : BitVec 32} {src : List UInt8} :
    (rtwSecgetmic (rtwSecmicappend (rtwSecmicappend d (putLe32 w)) src)).1 =
      (rtwSecgetmic (rtwSecmicappend (rtwSecmicappend d (putLe32 w')) src)).1 ↔ w = w' := by
  refine ⟨fun heq => ?_, fun heq => by rw [heq]⟩
  have hs := append_sound (putLe32 w) h
  have hs' := append_sound (putLe32 w') h
  have hn' : (d.nBytesInM + 4) % 4 = 0 := by omega
  have hsame : SameM (rtwSecmicappend d (putLe32 w)) (rtwSecmicappend d (putLe32 w')) :=
    ⟨(hs.1.2 (hs.2.trans hn')).trans (hs'.1.2 (hs'.2.trans hn')).symm, hs.2.trans hs'.2.symm⟩
  have hkeep := append_inj src hsame
  have hlr := hkeep.2 (getmic_inj hkeep.1 heq)
  rw [append_word hn h, append_word hn h] at hlr
  exact BitVec.xor_right_inj d.L |>.mp (micBlock_inj hlr).1

theorem putLe32_getLe32 (m : Mem) (a : ℕ) : putLe32 (getLe32 m a) = slice m a 4 := by
  unfold putLe32 getLe32
  rw [BitVec.extractLsb'_append_eq_right, BitVec.extractLsb'_append_eq_left, putLe16_getLe16, putLe16_getLe16, ← slice_add]

theorem key_iff (key key' : Mem) : slice key 0 8 = slice key' 0 8 ↔
    getLe32 key 0 = getLe32 key' 0 ∧ getLe32 key 4 = getLe32 key' 4 := by
  rw [show 8 = 4 + 4 from rfl, slice_add, slice_add, ← putLe32_getLe32, ← putLe32_getLe32, ← putLe32_getLe32, ← putLe32_getLe32]
  refine ⟨fun h => ?_, fun ⟨h0, h4⟩ => by rw [h0, h4]⟩
  obtain ⟨h0, h4⟩ := List.append_inj h (length_putLe32 _ _)
  exact ⟨putLe32_inj h0, putLe32_inj h4⟩

theorem length_words (a : List (BitVec 32)) : (a.flatMap putLe32).length = 4 * a.length := by
  induction a with
  | nil => rfl
  | cons w a ih => rw [List.flatMap_cons, List.length_append, ih, List.length_cons, Nat.mul_succ, Nat.add_comm]; rfl

variable (key key' header : Mem) (data : List UInt8) (pri pri' : UInt8) (a : List (BitVec 32)) (w w' : BitVec 32) (b : List UInt8)

/-- **The MIC tells apart** two keys, two priorities, and two values of a word of the data. -/
theorem tkipmic_iff :
    (rtwSeccalctkipmic key header data pri = rtwSeccalctkipmic key' header data pri ↔ slice key 0 8 = slice key' 0 8) ∧
      (rtwSeccalctkipmic key header data pri = rtwSeccalctkipmic key header data pri' ↔ pri = pri') ∧
      (rtwSeccalctkipmic key header (a.flatMap putLe32 ++ (putLe32 w ++ b)) pri =
        rtwSeccalctkipmic key header (a.flatMap putLe32 ++ (putLe32 w' ++ b)) pri ↔ w = w') := by
  have hstart : Sound (rtwSecmicsetkey key) := ⟨Nat.zero_lt_succ 3, fun _ => rfl⟩
  have hkey (key : Mem) : (rtwSecmicsetkey key).lr = (getLe32 key 0, getLe32 key 4) := rfl
  have haddrs := append_sound (micAddrs header) hstart
  have hn : (rtwSecmicappend (rtwSecmicsetkey key) (micAddrs header)).nBytesInM = 0 := by
    rw [haddrs.2, show (rtwSecmicsetkey key).nBytesInM = 0 from rfl]
    unfold micAddrs
    rw [List.length_append, length_slice, length_slice]
  unfold rtwSeccalctkipmic
  refine ⟨⟨fun heq => ?_, fun heq => ?_⟩, ?_, ?_⟩
  · have hset : SameM (rtwSecmicsetkey key) (rtwSecmicsetkey key') := by
      unfold rtwSecmicsetkey secmicclear
      exact ⟨rfl, rfl⟩
    have h₁ := append_inj (micAddrs header) hset
    have h₂ := append_inj [pri, 0, 0, 0] h₁.1
    have h₃ := append_inj data h₂.1
    have hlr := h₁.2 (h₂.2 (h₃.2 (getmic_inj h₃.1 heq)))
    rw [hkey, hkey, Prod.mk.injEq] at hlr
    exact (key_iff key key').mpr hlr
  · obtain ⟨h0, h4⟩ := (key_iff key key').mp heq
    unfold rtwSecmicsetkey
    rw [h0, h4]
  · have hpri (pri : UInt8) : [pri, 0, 0, 0] = putLe32 (getLe32 (listMem [pri]) 0) := by
      rw [putLe32_getLe32]; rfl
    rw [hpri, hpri, getmic_word_iff hn haddrs.1]
    refine ⟨fun h => ?_, fun h => by rw [h]⟩
    have hlist := congrArg putLe32 h
    rw [← hpri, ← hpri] at hlist
    exact (List.cons.inj hlist).1
  · have hpri := append_sound [pri, 0, 0, 0] haddrs.1
    have hwords := append_sound (a.flatMap putLe32) hpri.1
    rw [append_append, append_append, append_append, append_append, getmic_word_iff ?_ hwords.1]
    rw [hwords.2, hpri.2, hn, length_words, show [pri, 0, 0, 0].length = 4 from rfl]
    omega

end Rtl8852cu.Crypto
