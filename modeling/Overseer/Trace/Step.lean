import Overseer.Task.State
import Overseer.Task.Id
import Overseer.Document.Decode

/-! # Steps of a trace -/

namespace Overseer

inductive StepStatus
  | ok
  | error
  deriving Repr, DecidableEq, Inhabited

namespace StepStatus

def name : StepStatus → String
  | .ok => "ok"
  | .error => "error"

def ofName? (s : String) : Option StepStatus := [ok, error].find? fun status => status.name == s

def decode? (d : Document) : Option StepStatus := d.variant?.bind ofName?

end StepStatus

/-- What a component did. A decision gate is a step at which the course of the task was decided. -/
structure Step where
  component : String
  action : String
  detail : String
  status : StepStatus
  gate : Bool
  deriving Repr, DecidableEq, Inhabited

namespace Step

def ok (component action detail : String) : Step := ⟨component, action, detail, .ok, false⟩

def error (component action detail : String) : Step := ⟨component, action, detail, .error, false⟩

def asGate (step : Step) : Step := { step with gate := true }

def okGate (component action detail : String) : Step := (ok component action detail).asGate

def errorGate (component action detail : String) : Step := (error component action detail).asGate

end Step

end Overseer
