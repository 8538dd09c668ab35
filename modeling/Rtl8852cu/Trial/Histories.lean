import Rtl8852cu.Trial.Status

/-!
# Histories of runs

The runs that the trial counts are read off the runs alone (`trialRuns`); what the trial reports is a function of them
(`reports_eq`).  So it ends after seven days and stays ended, and the days left never increase exactly when the day of the trial
never decreases (`trial_law`).
-/

namespace Rtl8852cu.Trial

def unlicensed (lic : License) (run : Run) : Bool := run.isRoot && !hasValidLicense lic run.now

/-- A later run of a trial that began at `ts` on the machine `fp`: without a licence, on the same machine. -/
def counts (lic : License) (fp : String) (run : Run) : Bool := unlicensed lic run && (fp == "" || fp == run.fp)

/-- Less than seven days after the time `ts`. -/
def inTrial (ts : ℤ) (run : Run) : Bool := decide (run.now - ts < trialDays * daySeconds)

/-- The later runs that a trial counts: those before the first that is seven days or more after its start. -/
def laterRuns (lic : License) (ts : ℤ) (fp : String) (runs : List Run) : List Run :=
  if ts < 0 then [] else (runs.filter (counts lic fp)).takeWhile (inTrial ts)

/-- The first run without a licence begins the trial. -/
def firstRun (lic : License) (runs : List Run) : Option Run := runs.find? (unlicensed lic)

/-- The runs after the first without a licence. -/
def afterFirst (lic : License) : List Run → List Run
  | [] => []
  | run :: runs => if unlicensed lic run then runs else afterFirst lic runs

/-- The runs of the trial, each with the time at which the trial began. -/
def trialRuns (lic : License) (runs : List Run) : List (ℤ × Run) :=
  match firstRun lic runs with
  | none => []
  | some first => (first.now, first) :: (laterRuns lic first.now first.fp (afterFirst lic runs)).map fun run => (first.now, run)

def trialDay (ts : ℤ) (run : Run) : ℤ := (run.now - ts) / daySeconds

def reports (log : List (Run × Outcome)) : List ℤ := log.filterMap fun x => x.2.reported

variable {lic : License} {f : Files} {run : Run} {runs : List Run} {ts : ℤ} {fp : String}

/-! ### One run -/

theorem trialSh_licensed (hun : unlicensed lic run = false) :
    (trialSh lic f run).2 = f ∧ (trialSh lic f run).1.reported = none ∧ (trialSh lic f run).1.succeeds = false := by
  unfold trialSh trialStatus
  split
  case isTrue hroot =>
    unfold unlicensed at hun
    rw [hroot, Bool.true_and, Bool.not_eq_false'] at hun
    rw [if_pos hun]; exact ⟨rfl, rfl, rfl⟩
  case isFalse => exact ⟨rfl, rfl, rfl⟩

theorem trialSh_unlicensed (hun : unlicensed lic run = true) : run.isRoot = true ∧ hasValidLicense lic run.now = false := by
  unfold unlicensed at hun
  rwa [Bool.and_eq_true, Bool.not_eq_true'] at hun

theorem trialSh_tombstone (lic : License) (run : Run) (hf : f.expiredFile = true) :
    (trialSh lic f run).2 = f ∧ (trialSh lic f run).1.reported = none ∧ (trialSh lic f run).1.succeeds = false := by
  by_cases hun : unlicensed lic run = true
  · obtain ⟨hroot, hlic⟩ := trialSh_unlicensed hun
    unfold trialSh trialStatus
    rw [if_pos hroot, hlic, if_neg Bool.false_ne_true, if_pos hf]; exact ⟨rfl, rfl, rfl⟩
  · exact trialSh_licensed ((Bool.not_eq_true _).mp hun)

theorem trialSh_first (hun : unlicensed lic run = true) :
    trialSh lic noFiles run = (.started, ⟨some (run.now, run.fp), false⟩) := by
  obtain ⟨hroot, hlic⟩ := trialSh_unlicensed hun
  unfold trialSh trialStatus
  rw [if_pos hroot, hlic, if_neg Bool.false_ne_true]; rfl

theorem trialSh_not_counts (ts : ℤ) (hnot : counts lic fp run = false) :
    (trialSh lic ⟨some (ts, fp), false⟩ run).2 = ⟨some (ts, fp), false⟩ ∧
      (trialSh lic ⟨some (ts, fp), false⟩ run).1.reported = none ∧ (trialSh lic ⟨some (ts, fp), false⟩ run).1.succeeds = false := by
  by_cases hun : unlicensed lic run = true
  · obtain ⟨hroot, hlic⟩ := trialSh_unlicensed hun
    have hfp : fp ≠ "" ∧ fp ≠ run.fp := by
      unfold counts at hnot
      rw [hun, Bool.true_and, Bool.or_eq_false_iff, beq_eq_false_iff_ne, beq_eq_false_iff_ne] at hnot
      exact hnot
    unfold trialSh trialStatus
    rw [if_pos hroot, hlic, if_neg Bool.false_ne_true, if_neg Bool.false_ne_true]
    simp only
    rw [if_pos hfp]; exact ⟨rfl, rfl, rfl⟩
  · exact trialSh_licensed ((Bool.not_eq_true _).mp hun)

theorem trialSh_counts (hcounts : counts lic fp run = true) : trialSh lic ⟨some (ts, fp), false⟩ run =
      if ts < 0 then (.corrupted, ⟨some (ts, fp), false⟩)
      else if inTrial ts run then (.remaining (trialDays - trialDay ts run), ⟨some (ts, fp), false⟩)
      else (.expired, ⟨some (ts, fp), true⟩) := by
  obtain ⟨hun, hfp⟩ := (Bool.and_eq_true _ _).mp hcounts
  obtain ⟨hroot, hlic⟩ := trialSh_unlicensed hun
  rw [Bool.or_eq_true, beq_iff_eq, beq_iff_eq] at hfp
  have hsame : ¬ (fp ≠ "" ∧ fp ≠ run.fp) := fun hne => hfp.elim hne.1 hne.2
  unfold trialSh trialStatus
  rw [if_pos hroot, hlic, if_neg Bool.false_ne_true, if_neg Bool.false_ne_true]
  simp only
  rw [if_neg hsame]
  refine if_congr Iff.rfl rfl ?_
  by_cases hin : run.now - ts < trialDays * daySeconds
  · -- the days left, rounded up
    have hdiv : (trialDays * daySeconds - (run.now - ts) + (daySeconds - 1)).tdiv daySeconds = trialDays - trialDay ts run := by
      unfold trialDay
      unfold trialDays daySeconds at hin ⊢
      rw [Int.tdiv_eq_ediv_of_nonneg (by omega)]; omega
    rw [if_neg (by omega), hdiv]; exact (if_pos (decide_eq_true hin)).symm
  · rw [if_pos (by omega)]; exact (if_neg fun hd => hin (of_decide_eq_true hd)).symm

theorem trialSh_expired (h : (trialSh lic f run).1 = .expired) : (trialSh lic f run).2.expiredFile = true := by
  unfold trialSh trialStatus at h ⊢
  split at h
  case isFalse => exact nomatch h
  case isTrue hroot =>
  rw [if_pos hroot]
  split at h
  case isTrue => exact nomatch h
  case isFalse hlic =>
  rw [if_neg hlic]
  split at h
  case isTrue => exact nomatch h
  case isFalse htomb =>
  rw [if_neg htomb]
  cases hfile : f.trialFile with
  | none =>
    rw [hfile] at h; exact nomatch h
  | some stamp =>
    rw [hfile] at h
    simp only at h ⊢
    split at h
    · exact nomatch h
    · split at h
      · exact nomatch h
      · split at h
        · rw [if_neg ‹_›, if_neg ‹_›, if_pos ‹_›]; rfl
        · exact nomatch h

/-! ### Histories -/

theorem reports_cons_none {x : Run × Outcome} {log : List (Run × Outcome)} (hx : x.2.reported = none) :
    reports (x :: log) = reports log := List.filterMap_cons_none hx

theorem reports_cons_some {x : Run × Outcome} {log : List (Run × Outcome)} {days : ℤ} (hx : x.2.reported = some days) :
    reports (x :: log) = days :: reports log := List.filterMap_cons_some hx

theorem history_tombstone (lic : License) (hf : f.expiredFile = true) (runs : List Run) :
    reports (history lic f runs) = [] ∧ ∀ x ∈ history lic f runs, x.2.succeeds = false := by
  induction runs with
  | nil => exact ⟨rfl, nofun⟩
  | cons run runs ih =>
    obtain ⟨hfiles, hreport, hfail⟩ := trialSh_tombstone lic run hf
    unfold history
    rw [hfiles, reports_cons_none hreport]
    refine ⟨ih.1, fun x hx => ?_⟩
    rcases List.mem_cons.mp hx with rfl | hx
    · exact hfail
    · exact ih.2 x hx

theorem history_final (f : Files) (runs : List Run) :
    (history lic f runs).Pairwise fun x y => x.2 = .expired → y.2.succeeds = false := by
  induction runs generalizing f with
  | nil => exact List.Pairwise.nil
  | cons run runs ih =>
    refine List.pairwise_cons.mpr ⟨fun y hy he => ?_, ih _⟩
    exact (history_tombstone lic (trialSh_expired he) runs).2 y hy

theorem history_trial (ts : ℤ) (fp : String) (runs : List Run) :
    reports (history lic ⟨some (ts, fp), false⟩ runs) = (laterRuns lic ts fp runs).map (fun run => trialDays - trialDay ts run) ∧
      ∀ x ∈ history lic ⟨some (ts, fp), false⟩ runs, x.2.succeeds = true → x.1.now - ts < trialDays * daySeconds := by
  induction runs with
  | nil =>
    refine ⟨?_, nofun⟩
    unfold laterRuns
    split <;> rfl
  | cons run runs ih =>
    unfold history
    cases hcounts : counts lic fp run with
    | false =>
      obtain ⟨hfiles, hreport, hfail⟩ := trialSh_not_counts ts hcounts
      have hlater : laterRuns lic ts fp (run :: runs) = laterRuns lic ts fp runs := by
        unfold laterRuns
        rw [List.filter_cons_of_neg (by rw [hcounts]; exact Bool.false_ne_true)]
      rw [hfiles, reports_cons_none hreport, hlater]
      refine ⟨ih.1, fun x hx hok => ?_⟩
      rcases List.mem_cons.mp hx with rfl | hx
      · exact absurd (hfail.symm.trans hok) Bool.false_ne_true
      · exact ih.2 x hx hok
    | true =>
      rw [trialSh_counts hcounts]
      unfold laterRuns at ih ⊢
      rw [List.filter_cons_of_pos hcounts]
      by_cases hts : ts < 0
      · rw [if_pos hts] at ih
        rw [if_pos hts, if_pos hts, reports_cons_none rfl]
        refine ⟨ih.1, fun x hx hok => ?_⟩
        rcases List.mem_cons.mp hx with rfl | hx
        · exact absurd hok Bool.false_ne_true
        · exact ih.2 x hx hok
      · rw [if_neg hts] at ih
        rw [if_neg hts, if_neg hts]
        cases hin : inTrial ts run with
        | true =>
          rw [if_pos rfl, reports_cons_some rfl, List.takeWhile_cons_of_pos hin, List.map_cons, ih.1]
          refine ⟨rfl, fun x hx hok => ?_⟩
          rcases List.mem_cons.mp hx with rfl | hx
          · exact of_decide_eq_true hin
          · exact ih.2 x hx hok
        | false =>
          obtain ⟨hnil, hfails⟩ := history_tombstone lic (f := ⟨some (ts, fp), true⟩) rfl runs
          rw [if_neg Bool.false_ne_true, reports_cons_none rfl, List.takeWhile_cons_of_neg (by rw [hin]; exact Bool.false_ne_true), hnil]
          refine ⟨rfl, fun x hx hok => ?_⟩
          rcases List.mem_cons.mp hx with rfl | hx
          · exact absurd hok Bool.false_ne_true
          · exact absurd ((hfails x hx).symm.trans hok) Bool.false_ne_true

theorem reports_eq (lic : License) (runs : List Run) :
    reports (history lic noFiles runs) = (trialRuns lic runs).map fun x => trialDays - trialDay x.1 x.2 := by
  induction runs with
  | nil => rfl
  | cons run runs ih =>
    unfold history trialRuns firstRun afterFirst
    cases hun : unlicensed lic run with
    | false =>
      obtain ⟨hfiles, hreport, -⟩ := trialSh_licensed (f := noFiles) hun
      rw [hfiles, reports_cons_none hreport, List.find?_cons_of_neg (by rw [hun]; exact Bool.false_ne_true), if_neg Bool.false_ne_true]
      exact ih
    | true =>
      rw [trialSh_first hun, reports_cons_some rfl, List.find?_cons_of_pos hun, if_pos rfl, (history_trial run.now run.fp runs).1]
      simp only
      rw [List.map_cons, List.map_map]
      refine congrArg₂ List.cons ?_ rfl
      unfold trialDay
      rw [sub_self, Int.zero_ediv, sub_zero]

theorem history_bounded {x : Run × Outcome} (hx : x ∈ history lic noFiles runs) (hok : x.2.succeeds = true) :
    ∃ first, firstRun lic runs = some first ∧ x.1.now ≤ first.now + trialDays * daySeconds := by
  induction runs with
  | nil => exact nomatch hx
  | cons run runs ih =>
    unfold history at hx
    unfold firstRun
    cases hun : unlicensed lic run with
    | false =>
      obtain ⟨hfiles, -, hfail⟩ := trialSh_licensed (f := noFiles) hun
      rw [List.find?_cons_of_neg (by rw [hun]; exact Bool.false_ne_true)]
      rw [hfiles] at hx
      rcases List.mem_cons.mp hx with rfl | hx
      · exact absurd (hfail.symm.trans hok) Bool.false_ne_true
      · exact ih hx
    | true =>
      refine ⟨run, List.find?_cons_of_pos hun, ?_⟩
      rw [trialSh_first hun] at hx
      rcases List.mem_cons.mp hx with rfl | hx
      · show run.now ≤ run.now + trialDays * daySeconds
        unfold trialDays daySeconds; omega
      · have := (history_trial run.now run.fp runs).2 x hx hok; omega

/-- The trial never succeeds more than seven days after its first run nor after it has been found expired; the days left that it
reports never increase exactly when the day of the trial never decreases. -/
theorem trial_law (lic : License) (runs : List Run) : (∀ x ∈ history lic noFiles runs, x.2.succeeds = true →
        ∃ first, firstRun lic runs = some first ∧ x.1.now ≤ first.now + trialDays * daySeconds) ∧
      ((history lic noFiles runs).Pairwise fun x y => x.2 = .expired → y.2.succeeds = false) ∧
      ((reports (history lic noFiles runs)).Pairwise (fun a b => b ≤ a) ↔
        ((trialRuns lic runs).map fun x => trialDay x.1 x.2).Pairwise fun a b => a ≤ b) := by
  refine ⟨fun x hx hok => history_bounded hx hok, history_final _ runs, ?_⟩
  rw [reports_eq, List.pairwise_map, List.pairwise_map]; exact List.Pairwise.iff fun a b => by omega

/-- A clock that is set back by ten days gives seventeen days. -/
theorem set_back_gains_days :
    ¬ (reports (history ⟨false, false, none⟩ noFiles [⟨true, 1700000000, "a"⟩, ⟨true, 1699136000, "a"⟩])).Pairwise fun a b => b ≤ a := by
  have hreports : reports (history ⟨false, false, none⟩ noFiles [⟨true, 1700000000, "a"⟩, ⟨true, 1699136000, "a"⟩]) = [7, 17] := by
    decide
  rw [hreports]; decide

end Rtl8852cu.Trial
