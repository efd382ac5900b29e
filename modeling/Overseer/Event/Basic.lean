import Overseer.Task.Id
import Overseer.Task.Failure
import Overseer.Routing.Intent
import Overseer.Trace.Step

/-! # Lifecycle events -/

namespace Overseer

inductive Event
  | taskCreated (id : TaskId)
  | taskStarted (id : TaskId)
  | stepAdded (id : TaskId) (index : Nat) (component action : String) (status : StepStatus)
      (gate : Bool)
  | taskCompleted (id : TaskId) (intent : Option Intent)
  | taskFailed (id : TaskId) (reason : FailureReason) (detail : String)
  | taskAborted (id : TaskId) (reason : FailureReason)
  | taskLost (id : TaskId)
  deriving Repr, DecidableEq, Inhabited

namespace Event

def id : Event → TaskId
  | taskCreated id | taskStarted id | stepAdded id _ _ _ _ _ | taskCompleted id _
  | taskFailed id _ _ | taskAborted id _ | taskLost id => id

def kind : Event → String
  | taskCreated _ => "task_created"
  | taskStarted _ => "task_started"
  | stepAdded .. => "step_added"
  | taskCompleted .. => "task_completed"
  | taskFailed .. => "task_failed"
  | taskAborted .. => "task_aborted"
  | taskLost _ => "task_lost"

def isStep : Event → Bool
  | stepAdded .. => true
  | _ => false

def ofStep (id : TaskId) (index : Nat) (step : Step) : Event :=
  .stepAdded id index step.component step.action step.status step.gate

def details : Event → List (String × Json)
  | taskCreated _ | taskStarted _ | taskLost _ => []
  | stepAdded _ index component action status gate =>
      [("index", .nat index), ("component", .string component), ("action", .string action),
       ("status", .string status.name), ("is_decision_gate", .bool gate)]
  | taskCompleted _ intent => [("intent", .optional (fun i => .string i.name) intent)]
  | taskFailed _ reason detail => [("reason", .string reason.name), ("detail", .string detail)]
  | taskAborted _ reason => [("reason", .string reason.name)]

/-- The kind is the tag under `type`. -/
def toJson (e : Event) : Json :=
  .object ([("type", .string e.kind), ("task_id", .string e.id.text)] ++ e.details)

end Event

end Overseer
