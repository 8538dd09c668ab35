import Rtl8852cu.Mcc.Optimal

/-!
# The pattern of two clients

The times that `_mcc_calculate_2_clients_pattern` and `_mcc_calc_2_clients_worsecase_pattern` store, of eight bits each.
-/

namespace Rtl8852cu.Mcc

structure BcnTimes where
  tobR : ℤ
  toaR : ℤ
  tobA : ℤ
  toaA : ℤ

def clientsValues (refDur anoDur : ℕ) (offset : ℤ) : BcnTimes :=
  let intvl := (refDur + anoDur) % 65536
  let tobR := s16 (clientsLoop (s16 refDur) (s16 anoDur) offset (intvl - 5) earlyRxBcnT 0 - 1)
  let toaR := s16 (s16 refDur - tobR)
  let tobA := s16 (offset - toaR)
  ⟨tobR, toaR, tobA, s16 (s16 anoDur - tobA)⟩

/-- The stored times are the computed ones. -/
structure Unchanged (v : BcnTimes) (m : Pattern) : Prop where
  tobR : m.tobR = v.tobR
  toaR : m.toaR = v.toaR
  tobA : m.tobA = v.tobA
  toaA : m.toaA = v.toaA

/-- They are, and the beacons have their margins. -/
structure ClientsRight (v : BcnTimes) (m : Pattern) : Prop extends Unchanged v m where
  earlyR : earlyRxBcnT ≤ m.tobR
  minR : minRxBcnT ≤ m.toaR
  earlyA : earlyRxBcnT ≤ m.tobA
  minA : minRxBcnT ≤ m.toaA

def Feasible (refDur anoDur : ℕ) (offset t : ℤ) : Prop :=
  5 ≤ t ∧ t + 10 ≤ refDur ∧ 5 ≤ offset - (refDur - t) ∧ offset - (refDur - t) + 10 ≤ anoDur

namespace Search

variable (s : Search)

/-- The loop goes on from this one: of those up to it, no sum is larger than the one before, if that one is not 0. -/
def Accepted (t : ℤ) : Prop :=
  s.Fits t ∧ ∀ u, s.Fits u → s.Fits (u + 1) → u + 1 ≤ t → s.sum u = 0 ∨ s.sum (u + 1) ≤ s.sum u

def LastAccepted (t : ℤ) : Prop := s.Accepted t ∧ ¬ s.Accepted (t + 1)

def TimesFit (t : ℤ) : Prop := t < 256 ∧ s.toaR t < 256 ∧ s.tobA t < 256 ∧ s.toaA t < 256

variable {s} {k t u : ℤ}

theorem Accepted.before (ht : s.Accepted t) (hu : s.Fits u) (hut : u ≤ t) : s.Accepted u :=
  ⟨hu, fun v hv hv' hlt => ht.2 v hv hv' (by omega)⟩

theorem LastAccepted.unique (ht : s.LastAccepted t) (he : s.Exact k) (hsmall : s.ref.dur + s.ano.dur ≤ 1024)
    (hu : s.LastAccepted u) : t = u := by
  have hle : ∀ {a b : ℤ}, s.LastAccepted a → s.LastAccepted b → ¬ a < b := fun {a b} ha hb hlt => by
    have hwa := (fits_iff he hsmall).mp ha.1.1
    have hwb := (fits_iff he hsmall).mp hb.1.1
    have hnext := (fits_iff he hsmall).mpr (hwa.between hwb (show a ≤ a + 1 by omega) (by omega))
    exact ha.2 (hb.1.before hnext (by omega))
  have h1 := hle ht hu
  have h2 := hle hu ht
  omega

end Search

/-! ### The loop -/

variable {refDur anoDur : ℕ} {offset k t u sumLast : ℤ} {n : ℕ}

theorem clientsLoop_succ (he : (clientsSearch refDur anoDur offset).Exact k) (h5 : 5 ≤ t) (h1024 : t ≤ 1024) :
    clientsLoop (s16 refDur) (s16 anoDur) offset (n + 1) t sumLast = if refDur - t < 10 then t
      else if t + k < 5 then clientsLoop (s16 refDur) (s16 anoDur) offset n (t + 1) sumLast
      else if anoDur - k - t < 10 then t
      else if sumLast ≠ 0 ∧ (clientsSearch refDur anoDur offset).sum t > sumLast then t
      else clientsLoop (s16 refDur) (s16 anoDur) offset n (t + 1) ((clientsSearch refDur anoDur offset).sum t) := by
  have htoaR : s16 (s16 refDur - t) = refDur - t := he.toaR t h5 h1024
  have htobA : s16 (offset - (refDur - t)) = t + k := by
    have h := he.tobA t h5 h1024
    unfold Search.tobA at h
    rw [he.toaR t h5 h1024] at h
    rw [← h]
    show _ = s16 (offset - (refDur - t) - 0)
    rw [Int.sub_zero]
  have htoaA : s16 (s16 anoDur - (t + k)) = anoDur - k - t := by
    have h := he.toaA t h5 h1024
    unfold Search.toaA at h
    rw [he.tobA t h5 h1024] at h; exact h
  have hsum : (clientsSearch refDur anoDur offset).sum t = s16 (sixSquares t (refDur - t) (t + k) (anoDur - k - t)) := by
    unfold Search.sum
    dsimp only
    rw [he.toaR t h5 h1024, he.tobA t h5 h1024, he.toaA t h5 h1024]; rfl
  rw [hsum]
  conv_lhs => unfold clientsLoop
  dsimp only
  rw [htoaR, htobA, htoaA]; rfl

theorem clientsLoop_fits (he : (clientsSearch refDur anoDur offset).Exact k) (hsmall : refDur + anoDur ≤ 1024)
    (ht : (clientsSearch refDur anoDur offset).Window k t) :
    clientsLoop (s16 refDur) (s16 anoDur) offset (n + 1) t sumLast =
      if sumLast ≠ 0 ∧ (clientsSearch refDur anoDur offset).sum t > sumLast then t
      else clientsLoop (s16 refDur) (s16 anoDur) offset n (t + 1) ((clientsSearch refDur anoDur offset).sum t) := by
  have hminR : t + 10 ≤ refDur := ht.minR
  have hearlyA := ht.earlyA
  have hminA : t + k + 10 ≤ anoDur := ht.minA
  rw [clientsLoop_succ he ht.early (ht.le hsmall), if_neg (by omega), if_neg (by omega), if_neg (by omega)]

theorem window_of_margins (h5 : 5 ≤ t) (hR : t + 10 ≤ refDur) (hb : 5 ≤ t + k) (hA : t + k + 10 ≤ anoDur) :
    (clientsSearch refDur anoDur offset).Window k t :=
  Search.window_of_unlimited ⟨rfl, rfl⟩ h5 hR hb hA

section

variable (he : (clientsSearch refDur anoDur offset).Exact k) (hsmall : refDur + anoDur ≤ 1024)

include he hsmall

theorem clientsLoop_skip (h5 : 5 ≤ t)
    (hnot : ¬ (clientsSearch refDur anoDur offset).Window k t) (hu : (clientsSearch refDur anoDur offset).Window k u)
    (htu : t < u) :
    clientsLoop (s16 refDur) (s16 anoDur) offset (n + 1) t sumLast =
      clientsLoop (s16 refDur) (s16 anoDur) offset n (t + 1) sumLast := by
  have hminR : u + 10 ≤ refDur := hu.minR
  have hminA : u + k + 10 ≤ anoDur := hu.minA
  rw [clientsLoop_succ he h5 (by omega), if_neg (by omega)]
  split
  · rfl
  · exact absurd (window_of_margins h5 (by omega) (by omega) (by omega)) hnot

theorem clientsLoop_end (ht : (clientsSearch refDur anoDur offset).Window k t) (hnot :
    ¬ (clientsSearch refDur anoDur offset).Window k (t + 1)) :
    clientsLoop (s16 refDur) (s16 anoDur) offset n (t + 1) sumLast = t + 1 := by
  cases n with
  | zero => rfl
  | succ n =>
    have hearly := ht.early
    have hminR : t + 10 ≤ refDur := ht.minR
    have hearlyA := ht.earlyA
    rw [clientsLoop_succ he (by omega) (by omega)]
    split
    · rfl
    rename_i hR
    rw [if_neg (by omega)]
    split
    · rfl
    · exact absurd (window_of_margins (by omega) (by omega) (by omega) (by omega)) hnot

theorem clientsLoop_climb (ht : (clientsSearch refDur anoDur offset).Window k t) (hn : t + n = refDur + anoDur)
    (hbefore : ∀ u, (clientsSearch refDur anoDur offset).Fits u → (clientsSearch refDur anoDur offset).Fits (u + 1) →
      u + 1 < t → (clientsSearch refDur anoDur offset).sum u = 0 ∨
        (clientsSearch refDur anoDur offset).sum (u + 1) ≤ (clientsSearch refDur anoDur offset).sum u)
    (hlast : (sumLast = 0 ∧ ∀ v, (clientsSearch refDur anoDur offset).Window k v → t ≤ v) ∨
      (clientsSearch refDur anoDur offset).Window k (t - 1) ∧ sumLast = (clientsSearch refDur anoDur offset).sum (t - 1)) :
    (clientsSearch refDur anoDur offset).LastAccepted
      (clientsLoop (s16 refDur) (s16 anoDur) offset n t sumLast - 1) := by
  have hiff : ∀ t, (clientsSearch refDur anoDur offset).Fits t ↔ (clientsSearch refDur anoDur offset).Window k t :=
    fun t => Search.fits_iff he hsmall
  induction n generalizing t sumLast with
  | zero =>
    have hR : t + 10 ≤ refDur := ht.minR
    omega
  | succ n ih =>
    rw [clientsLoop_fits he hsmall ht]
    by_cases hrise : sumLast ≠ 0 ∧ (clientsSearch refDur anoDur offset).sum t > sumLast
    · rw [if_pos hrise]
      rcases hlast with ⟨hz, -⟩ | ⟨hprev, rfl⟩
      · exact absurd hz hrise.1
      have hback : t - 1 + 1 = t := by omega
      refine ⟨⟨(hiff _).mpr hprev, fun u hu hu' hlt => hbefore u hu hu' (by omega)⟩, fun hacc => ?_⟩
      rw [hback] at hacc
      have hstep := hacc.2 (t - 1) ((hiff _).mpr hprev) (by rw [hback]; exact hacc.1) (by omega)
      rw [hback] at hstep
      rcases hstep with hz | hle
      · exact hrise.1 hz
      · omega
    · rw [if_neg hrise]
      have hbefore' : ∀ u, (clientsSearch refDur anoDur offset).Fits u →
          (clientsSearch refDur anoDur offset).Fits (u + 1) → u + 1 < t + 1 →
          (clientsSearch refDur anoDur offset).sum u = 0 ∨
            (clientsSearch refDur anoDur offset).sum (u + 1) ≤ (clientsSearch refDur anoDur offset).sum u := by
        intro u hu hu' hlt
        rcases Int.lt_or_eq_of_le (show u + 1 ≤ t by omega) with hlt | rfl
        · exact hbefore u hu hu' hlt
        · rcases hlast with ⟨-, hfirst⟩ | ⟨-, rfl⟩
          · have := hfirst u ((hiff u).mp hu); omega
          · rw [Int.add_sub_cancel] at hrise
            by_contra hno
            obtain ⟨hne, hgt⟩ := not_or.mp hno
            exact hrise ⟨hne, Int.not_le.mp hgt⟩
      by_cases hnext : (clientsSearch refDur anoDur offset).Window k (t + 1)
      · exact ih hnext (by omega) hbefore' (.inr (by rw [Int.add_sub_cancel]; exact ⟨ht, rfl⟩))
      · rw [clientsLoop_end he hsmall ht hnext, Int.add_sub_cancel]
        exact ⟨⟨(hiff t).mpr ht, fun u hu hu' hlt => hbefore' u hu hu' (by omega)⟩, fun hacc =>
          hnext ((hiff _).mp hacc.1)⟩

end
variable (refDur anoDur offset) in
/-- Some `tob_r` has the margins. -/
def HasPlace : Prop := ∃ t, Feasible refDur anoDur offset t

variable (refDur anoDur offset) in
/-- The durations fit into two bytes each, and so do the times of the one that the loop goes on from last. -/
structure TimesShort : Prop where
  ref : refDur ≤ 510
  ano : anoDur ≤ 510
  times : ∀ t, (clientsSearch refDur anoDur offset).LastAccepted t → (clientsSearch refDur anoDur offset).TimesFit t

theorem fits_of_feasible (hR : refDur ≤ 510) (hA : anoDur ≤ 510) (h : Feasible refDur anoDur offset t) :
    (clientsSearch refDur anoDur offset).Fits t := by
  obtain ⟨h5, hminR, hearlyA, hminA⟩ := h
  have htoaR : (clientsSearch refDur anoDur offset).toaR t = refDur - t := by
    show s16 (s16 refDur - t) = _
    rw [s16_eq (x := refDur) (by omega) (by omega), s16_eq (by omega) (by omega)]
  have htobA : (clientsSearch refDur anoDur offset).tobA t = offset - (refDur - t) := by
    show s16 (offset - (clientsSearch refDur anoDur offset).toaR t - 0) = _
    rw [htoaR, Int.sub_zero, s16_eq (by omega) (by omega)]
  have htoaA : (clientsSearch refDur anoDur offset).toaA t = anoDur - (offset - (refDur - t)) := by
    show s16 (s16 anoDur - (clientsSearch refDur anoDur offset).tobA t) = _
    rw [htobA, s16_eq (x := anoDur) (by omega) (by omega), s16_eq (by omega) (by omega)]
  refine ⟨h5, ?_, ?_, nofun, ?_, ?_, nofun⟩
  · show t < ((refDur + anoDur) % 65536 : ℕ); omega
  · rw [htoaR]
    unfold minRxBcnT; omega
  · rw [htobA]; exact hearlyA
  · rw [htoaA]
    unfold minRxBcnT; omega

theorem clientsLoop_last (hR : refDur ≤ 510) (hA : anoDur ≤ 510) (h : HasPlace refDur anoDur offset) :
    (clientsSearch refDur anoDur offset).LastAccepted
      (clientsLoop (s16 refDur) (s16 anoDur) offset ((refDur + anoDur) % 65536 - 5) earlyRxBcnT 0 - 1) := by
  obtain ⟨u, hu⟩ := h
  have hsmall : refDur + anoDur ≤ 1024 := by omega
  have hfits := fits_of_feasible hR hA hu
  have he := Search.exact_of_fits hsmall hfits
  generalize (clientsSearch refDur anoDur offset).tobA u - u = k at he
  have hiff : ∀ t, (clientsSearch refDur anoDur offset).Fits t ↔ (clientsSearch refDur anoDur offset).Window k t :=
    fun t => Search.fits_iff he hsmall
  have hw := (hiff u).mp hfits
  have hearly := hw.early
  have hminR : u + 10 ≤ refDur := hw.minR
  obtain ⟨lo, m, hlo, hfirst, hm, hstart⟩ := Search.start_of_skip
    (F := fun n t => clientsLoop (s16 refDur) (s16 anoDur) offset n t 0) (n := (refDur + anoDur) % 65536 - 5)
    (fun v hv => Search.Window.lt hv) hw (fun n t h5 hnot hlt => clientsLoop_skip he hsmall h5 hnot hw hlt) le_rfl
    (show (5 : ℤ) + ((refDur + anoDur) % 65536 - 5 : ℕ) = refDur + anoDur by omega) (fun v hv => hv.early)
  have hrun : clientsLoop (s16 refDur) (s16 anoDur) offset ((refDur + anoDur) % 65536 - 5) earlyRxBcnT 0 =
      clientsLoop (s16 refDur) (s16 anoDur) offset m lo 0 := hstart
  rw [hrun]
  refine clientsLoop_climb he hsmall hlo hm (fun v hv _ hlt => ?_) (.inl ⟨rfl, hfirst⟩)
  have := hfirst v ((hiff v).mp hv)
  omega

/-! ### The stored times -/

theorem clientsValues_eq (hR : refDur ≤ 510) (hA : anoDur ≤ 510) (h : HasPlace refDur anoDur offset) :
    ∃ t, (clientsSearch refDur anoDur offset).LastAccepted t ∧ clientsValues refDur anoDur offset =
      ⟨t, (clientsSearch refDur anoDur offset).toaR t, (clientsSearch refDur anoDur offset).tobA t,
        (clientsSearch refDur anoDur offset).toaA t⟩ := by
  have hlast := clientsLoop_last hR hA h
  have hbound := hlast.1.1.le (show refDur + anoDur ≤ 1024 by omega)
  refine ⟨_, hlast, ?_⟩
  generalize ht : clientsLoop (s16 refDur) (s16 anoDur) offset ((refDur + anoDur) % 65536 - 5) earlyRxBcnT 0 - 1 = t
    at hbound ⊢
  unfold clientsValues
  dsimp only
  rw [ht, s16_eq (x := t) (by omega) (by omega)]
  have htobA : s16 (offset - s16 (s16 refDur - t)) = (clientsSearch refDur anoDur offset).tobA t := by
    show _ = s16 (offset - s16 (s16 refDur - t) - 0)
    rw [Int.sub_zero]
  rw [htobA]; rfl

theorem s16_emod (x : ℤ) : s16 x % 65536 = x % 65536 := by
  unfold s16; exact Int.bmod_emod

theorem stored_lt {x : ℤ} (hx : x % 256 = x) : x < 256 := by omega

theorem dur_le_of_stored {dur : ℕ} {x : ℤ} (hdur : dur < 65536) (hx : x % 256 = x)
    (hrest : s16 (s16 dur - x) % 256 = s16 (s16 dur - x)) : dur ≤ 510 := by
  have hsum := s16_emod (s16 dur - x)
  have hself := s16_emod dur
  omega

section Fill

variable {v : BcnTimes} {m : Pattern} {d₁ d₂ : ℕ} {r₁ r₂ : Option (Fin 2)}

theorem unchanged_fill : Unchanged v ((m.fillSlotInfo false d₁ r₁).fillSlotInfo false d₂ r₂) ↔ Unchanged v m := by
  obtain ⟨h1, h2, h3, h4⟩ := fillSlotInfo_times m false d₁ r₁
  obtain ⟨h5, h6, h7, h8⟩ := fillSlotInfo_times (m.fillSlotInfo false d₁ r₁) false d₂ r₂
  constructor
  · rintro ⟨hb, ha, hc, hd⟩
    rw [h5, h1] at hb
    rw [h6, h2] at ha
    rw [h7, h3] at hc
    rw [h8, h4] at hd; exact ⟨hb, ha, hc, hd⟩
  · rintro ⟨hb, ha, hc, hd⟩
    refine ⟨?_, ?_, ?_, ?_⟩
    · rw [h5, h1, hb]
    · rw [h6, h2, ha]
    · rw [h7, h3, hc]
    · rw [h8, h4, hd]

theorem right_iff_of_unchanged {m' : Pattern} (h : Unchanged v m' ↔ Unchanged v m) :
    ClientsRight v m' ↔ ClientsRight v m := by
  constructor
  · rintro ⟨hu, he, hf, hg, hh⟩
    have hm := h.mp hu
    rw [hu.tobR, ← hm.tobR] at he
    rw [hu.toaR, ← hm.toaR] at hf
    rw [hu.tobA, ← hm.tobA] at hg
    rw [hu.toaA, ← hm.toaA] at hh; exact ⟨hm, he, hf, hg, hh⟩
  · rintro ⟨hm, he, hf, hg, hh⟩
    have hu := h.mpr hm
    rw [hm.tobR, ← hu.tobR] at he
    rw [hm.toaR, ← hu.toaR] at hf
    rw [hm.tobA, ← hu.tobA] at hg
    rw [hm.toaA, ← hu.toaA] at hh; exact ⟨hu, he, hf, hg, hh⟩

theorem fill_right : ClientsRight v ((m.fillSlotInfo false d₁ r₁).fillSlotInfo false d₂ r₂) ↔ ClientsRight v m :=
  right_iff_of_unchanged unchanged_fill

end Fill

theorem clientsTimes_right_iff (m : Pattern) (hR : refDur < 65536) (hA : anoDur < 65536)
    (hplace : refDur ≤ 510 → anoDur ≤ 510 → HasPlace refDur anoDur offset) :
    ClientsRight (clientsValues refDur anoDur offset) (clientsTimes refDur anoDur offset m) ↔
      TimesShort refDur anoDur offset := by
  constructor
  · intro h
    have hshortR : refDur ≤ 510 := dur_le_of_stored hR h.tobR h.toaR
    have hshortA : anoDur ≤ 510 := dur_le_of_stored hA h.tobA h.toaA
    obtain ⟨t, ht, hv⟩ := clientsValues_eq hshortR hshortA (hplace hshortR hshortA)
    have hsmall : (clientsSearch refDur anoDur offset).ref.dur + (clientsSearch refDur anoDur offset).ano.dur ≤ 1024 := by
      show refDur + anoDur ≤ 1024
      omega
    refine ⟨hshortR, hshortA, fun u hu => ?_⟩
    obtain rfl := hu.unique (Search.exact_of_fits hsmall ht.1.1) hsmall ht
    have htobR : (clientsValues refDur anoDur offset).tobR % 256 = (clientsValues refDur anoDur offset).tobR := h.tobR
    have htoaR : (clientsValues refDur anoDur offset).toaR % 256 = (clientsValues refDur anoDur offset).toaR := h.toaR
    have htobA : (clientsValues refDur anoDur offset).tobA % 256 = (clientsValues refDur anoDur offset).tobA := h.tobA
    have htoaA : (clientsValues refDur anoDur offset).toaA % 256 = (clientsValues refDur anoDur offset).toaA := h.toaA
    rw [hv] at htobR htoaR htobA htoaA
    dsimp only at htobR htoaR htobA htoaA
    exact ⟨stored_lt htobR, stored_lt htoaR, stored_lt htobA, stored_lt htoaA⟩
  · intro h
    obtain ⟨t, ht, hv⟩ := clientsValues_eq h.ref h.ano (hplace h.ref h.ano)
    obtain ⟨h1, h2, h3, h4⟩ := h.times t ht
    have hearlyR := ht.1.1.earlyR
    have hminR := ht.1.1.minR
    have hearlyA := ht.1.1.earlyA
    have hminA := ht.1.1.minA
    have hpattern : clientsTimes refDur anoDur offset m = { m with
          tobR := (clientsValues refDur anoDur offset).tobR % 256
          toaR := (clientsValues refDur anoDur offset).toaR % 256
          tobA := (clientsValues refDur anoDur offset).tobA % 256
          toaA := (clientsValues refDur anoDur offset).toaA % 256 } := rfl
    rw [hpattern, hv]
    unfold earlyRxBcnT at hearlyR hearlyA
    unfold minRxBcnT at hminR hminA
    refine ⟨⟨Int.emod_eq_of_lt (Int.le_trans (by decide) hearlyR) h1, Int.emod_eq_of_lt (Int.le_trans (by decide) hminR) h2,
      Int.emod_eq_of_lt (Int.le_trans (by decide) hearlyA) h3, Int.emod_eq_of_lt (Int.le_trans (by decide) hminA) h4⟩,
      ?_, ?_, ?_, ?_⟩
    · show 5 ≤ t % 256; omega
    · show 10 ≤ (clientsSearch refDur anoDur offset).toaR t % 256; omega
    · show 5 ≤ (clientsSearch refDur anoDur offset).tobA t % 256; omega
    · show 10 ≤ (clientsSearch refDur anoDur offset).toaA t % 256; omega
theorem timesShort_of_le (hR : refDur ≤ 260) (hA : anoDur ≤ 260) : TimesShort refDur anoDur offset := by
  refine ⟨by omega, by omega, fun t ht => ?_⟩
  have hsmall : (clientsSearch refDur anoDur offset).ref.dur + (clientsSearch refDur anoDur offset).ano.dur ≤ 1024 := by
    show refDur + anoDur ≤ 1024
    omega
  have he := Search.exact_of_fits hsmall ht.1.1
  have hw := (Search.fits_iff he hsmall).mp ht.1.1
  generalize (clientsSearch refDur anoDur offset).tobA t - t = k at he hw
  have h5 := hw.early
  have h1024 := hw.le hsmall
  have hminR : t + 10 ≤ refDur := hw.minR
  have hearlyA := hw.earlyA
  have hminA : t + k + 10 ≤ anoDur := hw.minA
  refine ⟨by omega, ?_, ?_, ?_⟩
  · rw [he.toaR t h5 h1024]
    show (refDur : ℤ) - t < 256
    omega
  · rw [he.tobA t h5 h1024]; omega
  · rw [he.toaA t h5 h1024]
    show (anoDur : ℤ) - k - t < 256
    omega

/-! ### The worst case -/

/-- Where the beacon of the second slot is to be, for an offset that is accepted: the sum of `toa_r` and `tob_a`. -/
def worsecaseOffset (refDur anoDur offset refBcnIntvl : ℕ) : Option ℤ :=
  let range := offsetRangeWorsecase (s16 refDur) (s16 anoDur) refBcnIntvl
  let placed (bcnsOffset : ℤ) : ℤ := bcnsOffset + 2 * refBcnIntvl - ((refDur + anoDur) % 65536 : ℕ)
  if refBcnIntvl ≠ 100 then none
  else if range.1 ≤ s16 offset ∧ s16 offset ≤ range.2 then some (placed (s16 offset))
  else if range.1 ≤ s16 (refBcnIntvl - s16 offset) ∧ range.1 ≤ range.2 then
    some (placed (s16 (refBcnIntvl - s16 offset)))
  else none

section Worsecase

variable {o : ℤ} {bcnsOffset refBcnIntvl : ℕ}

theorem worsecase_fail {m : Pattern} (h : worsecaseOffset refDur anoDur bcnsOffset refBcnIntvl = none) :
    calc2ClientsWorsecasePattern refDur anoDur bcnsOffset refBcnIntvl m = (false, { m with calcFail := true }) := by
  unfold worsecaseOffset at h
  unfold calc2ClientsWorsecasePattern
  dsimp only at h ⊢
  split at h
  · rw [if_pos ‹_›]
  · rw [if_neg ‹_›]
    split at h
    · cases h
    · rw [if_neg ‹_›]
      split at h
      · cases h
      · rw [if_neg ‹_›]

theorem worsecase_found {m : Pattern} (h : worsecaseOffset refDur anoDur bcnsOffset refBcnIntvl = some o) :
    calc2ClientsWorsecasePattern refDur anoDur bcnsOffset refBcnIntvl m =
      (true, ((clientsTimes refDur anoDur o m).fillSlotInfo false refDur m.roleRef).fillSlotInfo
        false anoDur m.roleAno) := by
  unfold worsecaseOffset at h
  unfold calc2ClientsWorsecasePattern
  dsimp only at h ⊢
  split at h
  · cases h
  · rw [if_neg ‹_›]
    split at h
    · rw [if_pos ‹_›, ← Option.some.inj h]
    · rw [if_neg ‹_›]
      split at h
      · rw [if_pos ‹_›, ← Option.some.inj h]
      · cases h

theorem worsecaseOffset_bounds (hR : refDur ≤ 510) (hA : anoDur ≤ 510)
    (h : worsecaseOffset refDur anoDur bcnsOffset refBcnIntvl = some o) :
    (15 ≤ o ∨ refDur ≤ o ∧ refDur < 15) ∧ o < 33000 := by
  unfold worsecaseOffset at h
  dsimp only at h
  split at h
  · cases h
  rename_i hintvl
  obtain rfl : refBcnIntvl = 100 := by omega
  have hmin : 15 + refDur + anoDur - 200 ≤ (offsetRangeWorsecase (s16 refDur) (s16 anoDur) (100 : ℕ)).1 ∨
      2 * refDur + anoDur - 200 ≤ (offsetRangeWorsecase (s16 refDur) (s16 anoDur) (100 : ℕ)).1 ∧ refDur < 15 := by
    unfold offsetRangeWorsecase offsetWorsecase minRxBcnT earlyRxBcnT
    dsimp only
    rw [s16_eq (x := refDur) (by omega) (by omega), s16_eq (x := anoDur) (by omega) (by omega),
      s16_eq (x := 10 + 5 + refDur + anoDur - 2 * (100 : ℕ)) (by omega) (by omega),
      s16_eq (x := refDur - 5) (by omega) (by omega),
      s16_eq (x := refDur - 5 + 5 + refDur + anoDur - 2 * (100 : ℕ)) (by omega) (by omega)]
    omega
  have hplaced : ∀ x : ℤ, (offsetRangeWorsecase (s16 refDur) (s16 anoDur) (100 : ℕ)).1 ≤ s16 x →
      s16 x + 2 * (100 : ℕ) - ((refDur + anoDur) % 65536 : ℕ) = o → (15 ≤ o ∨ refDur ≤ o ∧ refDur < 15) ∧ o < 33000 := by
    intro x hx ho
    have hlt : s16 x < 32768 := by
      unfold s16; exact Int.bmod_lt (by decide)
    omega
  split at h
  · rename_i hrange
    exact hplaced _ hrange.1 (Option.some.inj h)
  · split at h
    · rename_i hrange
      exact hplaced _ hrange.1 (Option.some.inj h)
    · cases h

variable (refDur anoDur o) in
/-- The value of `tob_r` that is stored when there is no place. -/
def tobRUnplaced : ℤ := max 4 (refDur + 4 - o)

variable (refDur anoDur o) in
/-- The times that it gives are not negative, and fit into a byte. -/
structure UnplacedShort : Prop where
  tobR : tobRUnplaced refDur o < 256
  toaR : 0 ≤ refDur - tobRUnplaced refDur o ∧ refDur - tobRUnplaced refDur o < 256
  tobA : tobRUnplaced refDur o + o - refDur < 256
  toaA : 0 ≤ anoDur - (tobRUnplaced refDur o + o - refDur) ∧ anoDur - (tobRUnplaced refDur o + o - refDur) < 256

section

variable (hR : refDur ≤ 510) (hA : anoDur ≤ 510) (hlo : 15 ≤ o ∨ refDur ≤ o ∧ refDur < 15) (hhi : o < 32000)
  (hno : ¬ HasPlace refDur anoDur o)

include hR hA hlo hhi hno

theorem clientsLoop_unplaced (h5 : 5 ≤ t) (hle : t ≤ tobRUnplaced refDur o + 1)
    (hn : tobRUnplaced refDur o + 1 ≤ t + n) :
    clientsLoop (s16 refDur) (s16 anoDur) o n t sumLast = tobRUnplaced refDur o + 1 := by
  unfold tobRUnplaced at *
  rw [s16_eq (x := refDur) (by omega) (by omega), s16_eq (x := anoDur) (by omega) (by omega)]
  induction n generalizing t with
  | zero =>
    unfold clientsLoop; omega
  | succ n ih =>
    have hnot : ¬ Feasible refDur anoDur o t := fun h => hno ⟨t, h⟩
    unfold Feasible at hnot
    unfold clientsLoop
    dsimp only
    rw [s16_eq (x := refDur - t) (by omega) (by omega), s16_eq (x := o - (refDur - t)) (by omega) (by omega),
      s16_eq (x := anoDur - (o - (refDur - t))) (by omega) (by omega)]
    unfold minRxBcnT earlyRxBcnT
    split
    · omega
    · split
      · exact ih (by omega) (by omega) (by omega)
      · rw [if_pos (by omega)]; omega

theorem clientsValues_unplaced : clientsValues refDur anoDur o =
      ⟨tobRUnplaced refDur o, refDur - tobRUnplaced refDur o, tobRUnplaced refDur o + o - refDur,
        anoDur - (tobRUnplaced refDur o + o - refDur)⟩ := by
  have hloop : clientsLoop (s16 refDur) (s16 anoDur) o ((refDur + anoDur) % 65536 - 5) 5 0 = tobRUnplaced refDur o + 1 := by
    refine clientsLoop_unplaced hR hA hlo hhi hno le_rfl ?_ ?_
    · unfold tobRUnplaced; omega
    · unfold tobRUnplaced; omega
  unfold clientsValues earlyRxBcnT
  dsimp only
  rw [hloop, Int.add_sub_cancel, s16_eq (x := refDur) (by omega) (by omega), s16_eq (x := anoDur) (by omega) (by omega)]
  unfold tobRUnplaced
  rw [s16_eq (x := max 4 (refDur + 4 - o)) (by omega) (by omega),
    s16_eq (x := refDur - max 4 (refDur + 4 - o)) (by omega) (by omega),
    s16_eq (x := o - (refDur - max 4 (refDur + 4 - o))) (by omega) (by omega)]
  rw [show o - (refDur - max 4 (refDur + 4 - o)) = max 4 (refDur + 4 - o) + o - refDur by omega,
    s16_eq (x := anoDur - (max 4 (refDur + 4 - o) + o - refDur)) (by omega) (by omega)]

end

theorem byte_iff {x : ℤ} : x % 256 = x ↔ 0 ≤ x ∧ x < 256 := by omega

theorem unplaced_unchanged_iff (m : Pattern) (hR : refDur < 65536) (hA : anoDur < 65536)
    (h : worsecaseOffset refDur anoDur bcnsOffset refBcnIntvl = some o) (hno : ¬ HasPlace refDur anoDur o) :
    Unchanged (clientsValues refDur anoDur o) (clientsTimes refDur anoDur o m) ↔ UnplacedShort refDur anoDur o := by
  have hstored : Unchanged (clientsValues refDur anoDur o) (clientsTimes refDur anoDur o m) ↔
      (clientsValues refDur anoDur o).tobR % 256 = (clientsValues refDur anoDur o).tobR ∧
      (clientsValues refDur anoDur o).toaR % 256 = (clientsValues refDur anoDur o).toaR ∧
      (clientsValues refDur anoDur o).tobA % 256 = (clientsValues refDur anoDur o).tobA ∧
      (clientsValues refDur anoDur o).toaA % 256 = (clientsValues refDur anoDur o).toaA :=
    ⟨fun h => ⟨h.tobR, h.toaR, h.tobA, h.toaA⟩, fun h => ⟨h.1, h.2.1, h.2.2.1, h.2.2.2⟩⟩
  rw [hstored]
  constructor
  · rintro ⟨h1, h2, h3, h4⟩
    have hshortR : refDur ≤ 510 := dur_le_of_stored hR h1 h2
    have hshortA : anoDur ≤ 510 := dur_le_of_stored hA h3 h4
    obtain ⟨hlo, hhi⟩ := worsecaseOffset_bounds hshortR hshortA h
    have hnear : o < 32000 := by
      -- otherwise the beacon of the second slot is too far away
      by_contra hfar
      have htobA : (clientsValues refDur anoDur o).tobA = s16 (o - (clientsValues refDur anoDur o).toaR) := rfl
      rw [htobA] at h3
      generalize (clientsValues refDur anoDur o).toaR = x at h2 h3
      have hmod := s16_emod (o - x)
      omega
    rw [clientsValues_unplaced hshortR hshortA hlo hnear hno] at h1 h2 h3 h4
    dsimp only at h1 h2 h3 h4
    exact ⟨(byte_iff.mp h1).2, byte_iff.mp h2, (byte_iff.mp h3).2, byte_iff.mp h4⟩
  · rintro ⟨h1, h2, h3, h4⟩
    have hshortR : refDur ≤ 510 := by omega
    have hfour : 4 ≤ tobRUnplaced refDur o ∧ refDur + 4 - o ≤ tobRUnplaced refDur o :=
      ⟨Int.le_max_left _ _, Int.le_max_right _ _⟩
    have hshortA : anoDur ≤ 510 := by omega
    obtain ⟨hlo, -⟩ := worsecaseOffset_bounds hshortR hshortA h
    rw [clientsValues_unplaced hshortR hshortA hlo (by omega) hno]
    dsimp only
    exact ⟨byte_iff.mpr ⟨by omega, h1⟩, byte_iff.mpr h2, byte_iff.mpr ⟨by omega, h3⟩, byte_iff.mpr h4⟩

end Worsecase
theorem hasPlace_of_offset (hR : 15 ≤ refDur) (hA : 15 ≤ anoDur) (hlo : 15 ≤ offset) (hhi : offset + 15 ≤ refDur + anoDur) :
    HasPlace refDur anoDur offset := by
  refine ⟨max 5 (refDur - offset + 5), ?_⟩
  unfold Feasible; omega

/-- **The pattern of two clients** has the margins, and its times are stored unchanged, exactly when they are short.  In the
worst case there need not be a place; what is stored then is `tobRUnplaced`. -/
theorem clients_right_iff (refDur anoDur offset refBcnIntvl : ℕ) (m : Pattern) (hR : refDur < 65536)
    (hA : anoDur < 65536) :
    (15 ≤ refDur → 15 ≤ anoDur → refDur + anoDur < 65536 → 15 ≤ offset → offset + 15 ≤ refDur + anoDur →
      (ClientsRight (clientsValues refDur anoDur (s16 offset)) (calculate2ClientsPattern refDur anoDur offset m) ↔
        TimesShort refDur anoDur (s16 offset))) ∧
    (calc2ClientsWorsecasePattern refDur anoDur offset refBcnIntvl m).1 =
      (worsecaseOffset refDur anoDur offset refBcnIntvl).isSome ∧
    (∀ o : ℤ, worsecaseOffset refDur anoDur offset refBcnIntvl = some o → (HasPlace refDur anoDur o →
        (ClientsRight (clientsValues refDur anoDur o)
          (calc2ClientsWorsecasePattern refDur anoDur offset refBcnIntvl m).2 ↔ TimesShort refDur anoDur o)) ∧
      (¬ HasPlace refDur anoDur o → (Unchanged (clientsValues refDur anoDur o)
          (calc2ClientsWorsecasePattern refDur anoDur offset refBcnIntvl m).2 ↔ UnplacedShort refDur anoDur o))) ∧
    (refDur ≤ 260 → anoDur ≤ 260 → ∀ o, TimesShort refDur anoDur o) := by
  refine ⟨?_, ?_, ?_, fun hshortR hshortA o => timesShort_of_le hshortR hshortA⟩
  · intro hminR hminA hsum hlo hhi
    have hplace : refDur ≤ 510 → anoDur ≤ 510 → HasPlace refDur anoDur (s16 offset) := fun hshortR hshortA => by
      rw [s16_eq (x := offset) (by omega) (by omega)]
      exact hasPlace_of_offset hminR hminA (by omega) (by omega)
    exact fill_right.trans (clientsTimes_right_iff m (by omega) (by omega) hplace)
  · cases h : worsecaseOffset refDur anoDur offset refBcnIntvl with
    | none =>
      rw [worsecase_fail h]; rfl
    | some o =>
      rw [worsecase_found h]; rfl
  · intro o h
    rw [worsecase_found h]
    constructor
    · intro hplace; exact fill_right.trans (clientsTimes_right_iff m hR hA fun _ _ => hplace)
    · intro hno; exact unchanged_fill.trans (unplaced_unchanged_iff m hR hA h hno)

/-- Slots of 50 TU; in the worst case with an offset of 40 TU there is no place. -/
theorem fifty_right : ClientsRight (clientsValues 50 50 (s16 (50 : ℕ))) (calculate2ClientsPattern 50 50 50 .zero) ∧
    (calc2ClientsWorsecasePattern 90 60 20 100 .zero).1 = true ∧
    ClientsRight (clientsValues 90 60 70) (calc2ClientsWorsecasePattern 90 60 20 100 .zero).2 ∧
    ¬ Unchanged (clientsValues 50 50 160) (calc2ClientsWorsecasePattern 50 50 40 100 .zero).2 := by
  refine ⟨?_, ?_, ?_, ?_⟩
  · have h := clients_right_iff 50 50 50 100 .zero (by decide) (by decide)
    exact (h.1 (by decide) (by decide) (by decide) (by decide) (by decide)).mpr (h.2.2.2 (by decide) (by decide) _)
  · exact (clients_right_iff 90 60 20 100 .zero (by decide) (by decide)).2.1.trans (by decide +kernel)
  · have h := clients_right_iff 90 60 20 100 .zero (by decide) (by decide)
    exact ((h.2.2.1 70 (by decide +kernel)).1 (hasPlace_of_offset (by decide) (by decide) (by decide) (by decide))).mpr
      (h.2.2.2 (by decide) (by decide) _)
  · refine fun h => ?_
    have hno : ¬ HasPlace 50 50 160 := fun ⟨t, ht⟩ => by
      unfold Feasible at ht; omega
    have hshort := (((clients_right_iff 50 50 40 100 .zero (by decide) (by decide)).2.2.1 160 (by decide +kernel)).2
      hno).mp h
    exact absurd hshort.toaA.1 (by decide)

/-- Slots of 300 TU with an offset of 300 TU: `toa_r` is 286, and is stored as 30. -/
theorem three_hundred_wrong :
    ¬ ∀ (refDur anoDur offset : ℕ) (m : Pattern), 15 ≤ refDur → 15 ≤ anoDur → refDur + anoDur < 65536 →
      15 ≤ offset → offset + 15 ≤ refDur + anoDur →
      ClientsRight (clientsValues refDur anoDur (s16 offset)) (calculate2ClientsPattern refDur anoDur offset m) := by
  intro h
  have hright := h 300 300 300 .zero (by decide) (by decide) (by decide) (by decide) (by decide)
  exact absurd hright.toaR (by decide +kernel)

end Rtl8852cu.Mcc
