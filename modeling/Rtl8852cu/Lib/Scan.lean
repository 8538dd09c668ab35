import Mathlib.Data.Nat.Notation
import Mathlib.Tactic.TypeStar

/-!
# Scanning a store from a place on

`next idx s` says what is found at the place `idx`, with `s` collected so far: an entry, and the scan goes on
behind it; an end; or something that is not allowed.

* `Scans`: the entries between two places;
* `scan_eq_some`: a scan that comes to its end passes entries;
* `Scans.scan`: and the other way round, the fuel is enough;
* `Scans.congr`: the entries are still there when only what is behind them has changed;
* `scan_sim`: two scans that find entries at the same places.
-/

namespace Rtl8852cu.Lib

variable {σ ρ : Type*}

inductive Found (σ ρ : Type*)
  | go (idx : ℕ) (s : σ)
  | stop (r : ρ)
  | fail

/-- The scan from `idx` on, over at most `n` places. -/
def scan (next : ℕ → σ → Found σ ρ) : ℕ → ℕ → σ → Option ρ
  | 0, _, _ => none
  | n + 1, idx, s =>
    match next idx s with
    | .go idx' s' => scan next n idx' s'
    | .stop r => some r
    | .fail => none

/-- The entries from one place up to another. -/
inductive Scans (next : ℕ → σ → Found σ ρ) : ℕ → σ → ℕ → σ → Prop
  | refl (idx : ℕ) (s : σ) : Scans next idx s idx s
  | step {idx idx' e : ℕ} {s s' t : σ} : next idx s = .go idx' s' → Scans next idx' s' e t → Scans next idx s e t

variable {next next' : ℕ → σ → Found σ ρ} {idx e size n : ℕ} {s t : σ} {r : ρ}

theorem scan_eq_some (h : scan next n idx s = some r) : ∃ e t, Scans next idx s e t ∧ next e t = .stop r := by
  induction n generalizing idx s with
  | zero => cases h
  | succ n ih =>
    unfold scan at h
    split at h
    · rename_i idx' s' hgo
      obtain ⟨e, t, hscans, hstop⟩ := ih h
      exact ⟨e, t, .step hgo hscans, hstop⟩
    · rename_i r' hstop
      rw [Option.some.inj h] at hstop; exact ⟨idx, s, .refl idx s, hstop⟩
    · cases h

namespace Scans

theorem le (hgo : ∀ idx s idx' s', next idx s = .go idx' s' → idx < idx') (h : Scans next idx s e t) : idx ≤ e := by
  induction h with
  | refl => exact Nat.le_refl _
  | step hnext _ ih => exact Nat.le_trans (Nat.le_of_lt (hgo _ _ _ _ hnext)) ih

theorem trans {e' : ℕ} {t' : σ} (h : Scans next idx s e t) (h' : Scans next e t e' t') : Scans next idx s e' t' := by
  induction h with
  | refl => exact h'
  | step hnext _ ih => exact .step hnext (ih h')

/-- Every entry takes a place below `size`, so there is fuel for all of them. -/
theorem scan (size : ℕ) (hgo : ∀ idx s idx' s', next idx s = .go idx' s' → idx < idx' ∧ idx < size)
    (h : Scans next idx s e t) (hstop : next e t = .stop r) (hn : size < n + idx) (hn0 : 0 < n) :
    Lib.scan next n idx s = some r := by
  induction h generalizing n with
  | refl =>
    obtain ⟨n, rfl⟩ := Nat.exists_eq_succ_of_ne_zero (Nat.ne_of_gt hn0)
    unfold Lib.scan
    rw [hstop]
  | step hnext _ ih =>
    obtain ⟨n, rfl⟩ := Nat.exists_eq_succ_of_ne_zero (Nat.ne_of_gt hn0)
    obtain ⟨hlt, hsize⟩ := hgo _ _ _ _ hnext
    unfold Lib.scan
    rw [hnext]; exact ih hstop (by omega) (by omega)

theorem congr (hgo : ∀ idx s idx' s', next idx s = .go idx' s' → idx < idx')
    (hsame : ∀ idx s idx' s', next idx s = .go idx' s' → idx' ≤ e → next' idx s = .go idx' s')
    (h : Scans next idx s e t) : Scans next' idx s e t := by
  induction h with
  | refl => exact .refl _ _
  | step hnext hrest ih =>
    exact .step (hsame _ _ _ _ hnext (hrest.le hgo)) (ih hsame)

end Scans

theorem scan_sim {τ ρ' : Type*} {next' : ℕ → τ → Found τ ρ'} {Q : ρ → ρ' → Prop}
    (hgo : ∀ idx s t idx' s', next idx s = .go idx' s' → ∃ t', next' idx t = .go idx' t')
    (hstop : ∀ idx s t r, next idx s = .stop r → ∃ r', next' idx t = .stop r' ∧ Q r r')
    (h : scan next n idx s = some r) (t : τ) : ∃ r', scan next' n idx t = some r' ∧ Q r r' := by
  induction n generalizing idx s t with
  | zero => cases h
  | succ n ih =>
    unfold scan at h ⊢
    split at h
    · rename_i idx' s' hnext
      obtain ⟨t', ht'⟩ := hgo _ _ t _ _ hnext
      rw [ht']; exact ih h t'
    · rename_i r₁ hnext
      obtain ⟨r', hr', hq⟩ := hstop _ _ t _ hnext
      rw [Option.some.inj h] at hq
      rw [hr']; exact ⟨r', rfl, hq⟩
    · cases h

end Rtl8852cu.Lib
