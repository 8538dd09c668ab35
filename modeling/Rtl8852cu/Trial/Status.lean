import Mathlib.Data.List.Basic
import Mathlib.Algebra.Ring.Int.Defs

/-!
# The trial

`scripts/trial.sh`: what a run decides from the licence, the files that earlier runs left, the clock and the fingerprint of the
machine.  The clock is a number of seconds that may be anything, and is read once.
-/

namespace Rtl8852cu.Trial

def trialDays : ℤ := 7

def daySeconds : ℤ := 86400

/-- `LIC_DATA`, `LIC_SIG` and `PUBKEY`: whether they are there, whether the signature is right, and the field `expires` when it is a
number. -/
structure License where
  present : Bool
  verified : Bool
  expires : Option ℕ

def hasValidLicense (lic : License) (now : ℤ) : Bool :=
  lic.present && lic.verified && !lic.expires.any fun exp => decide ((exp : ℤ) < now)

/-- `TRIAL_FILE`, with `install_ts` and `fp`, and `EXPIRED_FILE`. -/
structure Files where
  trialFile : Option (ℤ × String)
  expiredFile : Bool

/-- A run of the script: who runs it, `date +%s` and `machine_fingerprint`. -/
structure Run where
  isRoot : Bool
  now : ℤ
  fp : String

inductive Outcome
  | notRoot
  | licensed
  | expiredBefore
  | started
  | mismatch
  | corrupted
  | expired
  | remaining (days : ℤ)
  deriving DecidableEq

/-- The trial lets the user go on without a licence. -/
def Outcome.succeeds : Outcome → Bool
  | .started | .remaining _ => true
  | .notRoot | .licensed | .expiredBefore | .mismatch | .corrupted | .expired => false

def Outcome.reported : Outcome → Option ℤ
  | .started => some trialDays
  | .remaining days => some days
  | .notRoot | .licensed | .expiredBefore | .mismatch | .corrupted | .expired => none

def Files.writeTombstone (f : Files) : Files := { f with expiredFile := true }

def trialStatus (lic : License) (f : Files) (run : Run) : Outcome × Files :=
  if hasValidLicense lic run.now then (.licensed, f)
  else if f.expiredFile then (.expiredBefore, f)
  else
    match f.trialFile with
    | none => (.started, { f with trialFile := some (run.now, run.fp) })
    | some (ts, storedFp) =>
      if storedFp ≠ "" ∧ storedFp ≠ run.fp then (.mismatch, f)
      -- only digits are a time
      else if ts < 0 then (.corrupted, f)
      else
        let left := trialDays * daySeconds - (run.now - ts)
        if left ≤ 0 then (.expired, f.writeTombstone) else (.remaining ((left + (daySeconds - 1)).tdiv daySeconds), f)

def trialSh (lic : License) (f : Files) (run : Run) : Outcome × Files :=
  if run.isRoot then trialStatus lic f run else (.notRoot, f)

/-- A history: each run with how it ended. -/
def history (lic : License) : Files → List Run → List (Run × Outcome)
  | _, [] => []
  | f, run :: runs => (run, (trialSh lic f run).1) :: history lic (trialSh lic f run).2 runs

def noFiles : Files := ⟨none, false⟩

end Rtl8852cu.Trial
