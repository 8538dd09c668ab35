import Rtl8852cu.Efuse.Entry

/-!
# The mask that is programmed

* `Selected`: a mask has a bit for a word of a block;
* `clearMask_selected`, `clearMask_same`: a word is off the mask behind `update_eeprom_mask` only if it was, or the
  map has it already;
* `pgWords_eq`: the words of a block that are written are those that its header says;
* `programBytes_le`: `check_efuse_enough` counts at least the bytes that are written.
-/

namespace Rtl8852cu.Efuse

variable {b : Bank} (info : PgEfuseInfo b) {m : Bytes}

/-! ### Bits -/

/-- The word `w` of a block is selected. -/
def Selected (m : Bytes) (blk w : ℕ) : Prop :=
  (preWordEn m (blk * 8) >>> UInt8.ofNat w) &&& 0x1 > 0

instance (m : Bytes) (blk w : ℕ) : Decidable (Selected m blk w) :=
  inferInstanceAs (Decidable (_ > _))

theorem preWordEn_high {blk : ℕ} (h : blk % 2 = 0) : preWordEn m (blk * 8) = m (blk / 2) >>> 4 := by
  unfold preWordEn
  rw [if_neg (by omega)]
  congr 2
  omega

theorem preWordEn_low {blk : ℕ} (h : blk % 2 = 1) : preWordEn m (blk * 8) = m (blk / 2) &&& 0x0F := by
  unfold preWordEn
  rw [if_pos (by omega)]
  congr 2
  omega

theorem preWordEnCk_eq (m : Bytes) (blk : ℕ) : preWordEnCk m (blk * 8) = preWordEn m (blk * 8) := by
  unfold preWordEnCk
  by_cases h : blk % 2 = 0
  · rw [preWordEn_high h, if_neg (by omega)]
    congr 2
    omega
  · rw [preWordEn_low (by omega), if_pos (by omega)]
    congr 2
    omega

theorem nibble_lt : ∀ v < 256, UInt8.ofNat v >>> 4 < 0x10 ∧ UInt8.ofNat v &&& 0x0F < 0x10 := by
  decide +kernel

theorem preWordEn_lt (m : Bytes) (offset : ℕ) : preWordEn m offset < 0x10 := by
  have h := nibble_lt _ (m (offset / 16)).toNat_lt
  rw [UInt8.ofNat_toNat] at h
  unfold preWordEn
  split
  · exact h.2
  · exact h.1

theorem nibble_present : ∀ v < 16, ∀ i < 4,
    ((UInt8.ofNat v >>> UInt8.ofNat i) &&& 0x1 > 0 ↔ Present (UInt8.ofNat v ^^^ 0x0F) i) := by
  decide

theorem nibble_header : ∀ v < 16, UInt8.ofNat v > 0 → UInt8.ofNat v ^^^ 0x0F < 0x0F := by
  decide

theorem nibble_zero : ∀ v < 16, ¬ UInt8.ofNat v > 0 → ∀ i < 4,
    ¬ (UInt8.ofNat v >>> UInt8.ofNat i) &&& 0x1 > 0 := by decide

def headerEn (m : Bytes) (blk : ℕ) : UInt8 := preWordEn m (blk * 8) ^^^ 0x0F

theorem selected_iff_present (m : Bytes) (blk : ℕ) {i : ℕ} (hi : i < 4) :
    Selected m blk i ↔ Present (headerEn m blk) i := by
  have h := nibble_present (preWordEn m (blk * 8)).toNat (preWordEn_lt m (blk * 8)) i hi
  rwa [UInt8.ofNat_toNat] at h

theorem headerEn_lt {blk : ℕ} (h : preWordEn m (blk * 8) > 0) : headerEn m blk < 0x0F := by
  have hlt := nibble_header (preWordEn m (blk * 8)).toNat (preWordEn_lt m (blk * 8))
  rw [UInt8.ofNat_toNat] at hlt; exact hlt h

theorem not_selected {blk i : ℕ} (h : ¬ preWordEn m (blk * 8) > 0) (hi : i < 4) : ¬ Selected m blk i := by
  have hz := nibble_zero (preWordEn m (blk * 8)).toNat (preWordEn_lt m (blk * 8))
  rw [UInt8.ofNat_toNat] at hz; exact hz h i hi

/-! ### `update_eeprom_mask` -/

theorem shifted_bit (v : UInt8) {k : ℕ} (hk : k < 4) :
    (v >>> UInt8.ofNat k) &&& 0x1 > 0 ↔ v.toNat.testBit k = true := by
  have hmod : (UInt8.ofNat k).toNat % 8 = k := by
    rw [UInt8.toNat_ofNat']; omega
  have hpos : ∀ x : ℕ, 0 < x % 2 ↔ x % 2 = 1 := fun x => by omega
  rw [gt_iff_lt, UInt8.lt_iff_toNat_lt, UInt8.toNat_and, UInt8.toNat_shiftRight, hmod, Nat.testBit_eq_decide_div_mod_eq,
    decide_eq_true_iff, Nat.shiftRight_eq_div_pow]
  show 0 < v.toNat / 2 ^ k &&& 1 ↔ _
  rw [Nat.and_one_is_mod, hpos]

theorem testBit_clrBit : ∀ j ∈ [0, 2, 4, 6, 8, 10, 12, 14], ∀ w < 4,
    (~~~clrBit j).toNat.testBit (4 + w) = decide (j ≠ w * 2) ∧
      (~~~clrBit j).toNat.testBit w = decide (j ≠ 8 + w * 2) := by decide

theorem clr_high (v : UInt8) {j w : ℕ} (hj : j ∈ [0, 2, 4, 6, 8, 10, 12, 14]) (hw : w < 4) :
    ((((v &&& ~~~clrBit j) >>> 4) >>> UInt8.ofNat w) &&& 0x1 > 0 ↔
      ((v >>> 4) >>> UInt8.ofNat w) &&& 0x1 > 0 ∧ j ≠ w * 2) := by
  have hhigh : ∀ x : UInt8, (x >>> 4).toNat.testBit w = x.toNat.testBit (4 + w) := fun x => by
    rw [UInt8.toNat_shiftRight]; exact Nat.testBit_shiftRight _
  rw [shifted_bit _ hw, shifted_bit _ hw, hhigh, hhigh, UInt8.toNat_and, Nat.testBit_and,
    (testBit_clrBit j hj w hw).1, Bool.and_eq_true, decide_eq_true_iff]

theorem clr_low (v : UInt8) {j w : ℕ} (hj : j ∈ [0, 2, 4, 6, 8, 10, 12, 14]) (hw : w < 4) :
    ((((v &&& ~~~clrBit j) &&& 0x0F) >>> UInt8.ofNat w) &&& 0x1 > 0 ↔
      ((v &&& 0x0F) >>> UInt8.ofNat w) &&& 0x1 > 0 ∧ j ≠ 8 + w * 2) := by
  have hlow : ∀ w < 4, (0x0F : UInt8).toNat.testBit w = true := by decide
  rw [shifted_bit _ hw, shifted_bit _ hw, UInt8.toNat_and, UInt8.toNat_and, UInt8.toNat_and, Nat.testBit_and,
    Nat.testBit_and, Nat.testBit_and, hlow w hw, (testBit_clrBit j hj w hw).2, Bool.and_true, Bool.and_true,
    Bool.and_eq_true, decide_eq_true_iff]

theorem selected_clr {i j blk w : ℕ} (hj : j ∈ [0, 2, 4, 6, 8, 10, 12, 14]) (hw : w < 4) :
    Selected (Function.update m i (m i &&& ~~~clrBit j)) blk w ↔ Selected m blk w ∧ i * 16 + j ≠ blk * 8 + w * 2 := by
  have hlt : j < 16 := by
    have hall : ∀ j ∈ [0, 2, 4, 6, 8, 10, 12, 14], j < 16 := by decide
    exact hall j hj
  unfold Selected
  by_cases hi : blk / 2 = i
  · by_cases hpar : blk % 2 = 0
    · rw [preWordEn_high hpar, preWordEn_high hpar, hi, Function.update_self, clr_high _ hj hw]
      exact and_congr_right fun _ => by omega
    · rw [preWordEn_low (by omega), preWordEn_low (by omega), hi, Function.update_self, clr_low _ hj hw]
      exact and_congr_right fun _ => by omega
  · have hsame : preWordEn (Function.update m i (m i &&& ~~~clrBit j)) (blk * 8) = preWordEn m (blk * 8) := by
      by_cases hpar : blk % 2 = 0
      · rw [preWordEn_high hpar, preWordEn_high hpar, Function.update_of_ne hi]
      · rw [preWordEn_low (by omega), preWordEn_low (by omega), Function.update_of_ne hi]
    rw [hsame]; exact (and_iff_left (by omega)).symm

/-- A mask from which only words were taken that the map has. -/
def Cleared (map : Bytes) (m m' : Bytes) : Prop :=
  ∀ blk, ∀ w < 4, (Selected m' blk w → Selected m blk w) ∧ (Selected m blk w → ¬ Selected m' blk w →
      info.efuseMap (blk * 8 + w * 2) = map (blk * 8 + w * 2) ∧
        info.efuseMap (blk * 8 + w * 2 + 1) = map (blk * 8 + w * 2 + 1))

variable {info} {map maskMap : Bytes} {m₀ : Bytes}

theorem Cleared.clearWord {i j : ℕ} (h : Cleared info map m₀ m) (hj : j ∈ [0, 2, 4, 6, 8, 10, 12, 14]) :
    Cleared info map m₀ (clearWord info map maskMap i m j) := by
  unfold Efuse.clearWord
  simp only
  split
  · rename_i hsame
    intro blk w hw
    obtain ⟨hsub, hold⟩ := h blk w hw
    rw [selected_clr hj hw]
    refine ⟨fun hsel => hsub hsel.1, fun hsel hnot => ?_⟩
    by_cases hm : Selected m blk w
    · -- it is the word that was compared
      have heq : i * 16 + j = blk * 8 + w * 2 := by
        by_contra hne
        exact hnot ⟨hm, hne⟩
      rw [heq] at hsame; exact ⟨hsame.1, hsame.2.1⟩
    · exact hold hsel hm
  · exact h

theorem Cleared.row (i : ℕ) {js : List ℕ} (hjs : ∀ j ∈ js, j ∈ [0, 2, 4, 6, 8, 10, 12, 14])
    (h : Cleared info map m₀ m) :
    Cleared info map m₀ (js.foldl (Efuse.clearWord info map maskMap i) m) := by
  induction js generalizing m with
  | nil => exact h
  | cons j js ih =>
    rw [List.foldl_cons]
    exact ih (fun k hk => hjs k (List.mem_cons_of_mem j hk)) (h.clearWord (hjs j List.mem_cons_self))

theorem clearMask_cleared (info : PgEfuseInfo b) (map maskMap : Bytes) :
    Cleared info map info.mask (clearMask info map maskMap) := by
  have hrows : ∀ (is : List ℕ) (m : Bytes), Cleared info map info.mask m →
      Cleared info map info.mask (is.foldl (fun updatedMask i =>
        [0, 2, 4, 6, 8, 10, 12, 14].foldl (clearWord info map maskMap i) updatedMask) m) := by
    intro is
    induction is with
    | nil => exact fun _ h => h
    | cons i is ih => exact fun m h => ih _ (h.row i fun _ hj => hj)
  exact hrows _ _ fun blk w _ => ⟨id, fun hsel hnot => absurd hsel hnot⟩

/-! ### What is written -/

variable (info)

theorem pgWords_eq (map m : Bytes) (blk : ℕ) :
    pgWords map (blk * 8) (preWordEn m (blk * 8)) = wordsOf map blk (headerEn m blk) [0, 1, 2, 3] := by
  have h : ∀ i < 4, (preWordEn m (blk * 8) >>> UInt8.ofNat i) &&& 0x1 > 0 ↔
      Present (headerEn m blk) i := fun i hi => selected_iff_present m blk hi
  unfold pgWords wordsOf
  simp only [List.flatMap_cons, List.flatMap_nil, h 0 (by decide), h 1 (by decide), h 2 (by decide), h 3 (by decide)]

/-- The bytes of a block, and those of the blocks `is`. -/
def blockBytes (m : Bytes) (blk : ℕ) : List UInt8 :=
  if preWordEn m (blk * 8) > 0 then
    pgBytes info (headerEn m blk) (preWordEn m (blk * 8)) (blk * 8)
  else []

def programBytes (m : Bytes) (is : List ℕ) : List UInt8 := is.flatMap (blockBytes info m)

theorem pgBytes_length (m : Bytes) (blk : ℕ) :
    (pgBytes info (headerEn m blk) (preWordEn m (blk * 8)) (blk * 8)).length =
      (pgHeader b.isBt (blk * 8) (headerEn m blk)).length + wordCells (headerEn m blk) [0, 1, 2, 3] := by
  unfold pgBytes
  rw [List.length_append, pgWords_eq, wordsOf_length, info.isBt_eq]

theorem foldl_words (m : Bytes) (blk : ℕ) {is : List ℕ} (his : ∀ i ∈ is, i < 4) (n : ℕ) : is.foldl (fun pgNum j =>
      if (preWordEn m (blk * 8) >>> UInt8.ofNat j) &&& 0x1 > 0 then pgNum + 2 else pgNum) n =
      n + wordCells (headerEn m blk) is := by
  induction is generalizing n with
  | nil => rfl
  | cons i is ih =>
    have hi : (preWordEn m (blk * 8) >>> UInt8.ofNat i) &&& 0x1 > 0 ↔ Present (headerEn m blk) i :=
      selected_iff_present m blk (his i List.mem_cons_self)
    rw [List.foldl_cons, ih fun j hj => his j (List.mem_cons_of_mem i hj)]
    simp only [wordCells]
    by_cases hp : Present (headerEn m blk) i
    · rw [if_pos (hi.mpr hp), if_pos hp]; omega
    · rw [if_neg (mt hi.mp hp), if_neg hp]

theorem le_pgNumAdd (m : Bytes) (n blk : ℕ) : n + (blockBytes info m blk).length ≤ pgNumAdd m n blk := by
  unfold pgNumAdd blockBytes
  rw [preWordEnCk_eq]
  simp only
  split
  · have hlen := (pgHeader_length b.isBt (blk * 8) (headerEn m blk)).2
    rw [pgBytes_length, foldl_words m blk (by decide)]; omega
  · exact Nat.le_refl _

theorem programBytes_le (m : Bytes) :
    (programBytes info m (List.range (info.mapSize / 8))).length ≤ pgNum info m := by
  have hfold : ∀ (is : List ℕ) (n : ℕ), n + (programBytes info m is).length ≤ is.foldl (pgNumAdd m) n := by
    intro is
    induction is with
    | nil => exact fun n => Nat.le_refl _
    | cons i is ih =>
      intro n
      have hstep := le_pgNumAdd info m n i
      have hrest := ih (pgNumAdd m n i)
      unfold programBytes at hrest ⊢
      rw [List.flatMap_cons, List.length_append, List.foldl_cons]; omega
  have h := hfold (List.range (info.mapSize / 8)) 0
  rwa [Nat.zero_add] at h

end Rtl8852cu.Efuse
