import Overseer.Document.Decode

/-! # Why a task did not complete

Deliberate stops, operator actions and genuine defects have different reasons.
-/

namespace Overseer

inductive FailureReason
  | executorError
  | timeout
  | unknownIntent
  | invalidPayload
  | loopDetected
  | budgetExceeded
  | iterationsExhausted
  | workerPanicked
  | stalled
  | aborted
  | purged
  | emergencyStop
  | rejected
  deriving Repr, DecidableEq, Inhabited

namespace FailureReason

def all : List FailureReason :=
  [.executorError, .timeout, .unknownIntent, .invalidPayload, .loopDetected, .budgetExceeded,
   .iterationsExhausted, .workerPanicked, .stalled, .aborted, .purged, .emergencyStop, .rejected]

def name : FailureReason → String
  | .executorError => "executor_error"
  | .timeout => "timeout"
  | .unknownIntent => "unknown_intent"
  | .invalidPayload => "invalid_payload"
  | .loopDetected => "loop_detected"
  | .budgetExceeded => "budget_exceeded"
  | .iterationsExhausted => "iterations_exhausted"
  | .workerPanicked => "worker_panicked"
  | .stalled => "stalled"
  | .aborted => "aborted"
  | .purged => "purged"
  | .emergencyStop => "emergency_stop"
  | .rejected => "rejected"

def ofName? (s : String) : Option FailureReason := all.find? fun reason => reason.name == s

def decode? (d : Document) : Option FailureReason := d.variant?.bind ofName?

end FailureReason

structure Failure where
  reason : FailureReason
  detail : String
  deriving Repr, DecidableEq, Inhabited

def Failure.toJson (f : Failure) : Json :=
  .object [("reason", .string f.reason.name), ("detail", .string f.detail)]

def Failure.decode? (d : Document) : Option Failure := do
  let r ← d.record? ["reason", "detail"]
  let reason ← r.required "reason" FailureReason.decode?
  let detail ← r.required "detail" Document.string?
  some ⟨reason, detail⟩

end Overseer
