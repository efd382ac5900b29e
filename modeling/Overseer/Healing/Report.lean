import Overseer.Task.Failure
import Overseer.Cost.Basic
import Overseer.Duration

/-! # Healing sessions: settings and reports -/

namespace Overseer.Healing

structure Config (κ : Type) where
  maxIterations : Nat
  /-- How many equal failures in a row are put up with. -/
  maxRepeat : Nat
  maxCost : κ
  /-- The deadline of each call in an iteration. -/
  iterationTimeout : Duration
  verify : String
  diagnose : String
  fix : String
  deriving Repr

def Config.standard : Config Float :=
  ⟨3, 2, 1, .ofSecs 300, "run_checks", "diagnose", "generate_fix"⟩

inductive Status
  | success
  | loopDetected
  | budgetExceeded
  | iterationsExhausted
  | cancelled
  deriving Repr, DecidableEq, Inhabited

namespace Status

def all : List Status :=
  [.success, .loopDetected, .budgetExceeded, .iterationsExhausted, .cancelled]

def name : Status → String
  | .success => "success"
  | .loopDetected => "loop_detected"
  | .budgetExceeded => "budget_exceeded"
  | .iterationsExhausted => "iterations_exhausted"
  | .cancelled => "cancelled"

def ofName? (s : String) : Option Status := all.find? fun status => status.name == s

def failureReason? : Status → Option FailureReason
  | .success => none
  | .loopDetected => some .loopDetected
  | .budgetExceeded => some .budgetExceeded
  | .iterationsExhausted => some .iterationsExhausted
  | .cancelled => some .aborted

def describe : Status → String
  | .success => "verification passed"
  | .loopDetected => "repeated identical failure"
  | .budgetExceeded => "cost budget exhausted"
  | .iterationsExhausted => "iteration limit reached"
  | .cancelled => "cancelled"

end Status

structure Report (κ : Type) where
  status : Status
  /-- The iterations begun, the one that ended the session included. -/
  iterations : Nat
  verifications : Nat
  cost : κ
  target : String
  lastDiagnosis : Option String
  lastFailure : Option String
  deriving Repr

namespace Report

variable {κ : Type}

/-- The best detail for a failed task. -/
def detail (r : Report κ) : String :=
  match r.lastDiagnosis, r.lastFailure with
  | some diagnosis, _ => diagnosis
  | none, some failure => failure
  | none, none => r.status.describe

def toJson [Cost κ] (r : Report κ) : Json :=
  .object ([("status", .string r.status.name), ("iterations", .nat r.iterations),
      ("verification_calls", .nat r.verifications), ("cumulative_cost", Cost.toJson r.cost),
      ("target_file", .string r.target)]
    ++ Json.fieldWhen "last_diagnosis" .string r.lastDiagnosis
    ++ Json.fieldWhen "last_failure" .string r.lastFailure)

end Report

end Overseer.Healing
