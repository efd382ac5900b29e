import Overseer.Event.Basic
import Overseer.Table
import Overseer.Time

/-! # Traces

Each task has one trace: an append-only list of steps and a copy of the state of the task. The trace
decides who may end the task: the first to put it into an end state wins, and everyone later is told so.
Operations on ids without a trace change nothing.
-/

namespace Overseer

structure TraceStep where
  step : Step
  time : Time
  deriving Repr, DecidableEq

def TraceStep.toJson (stamp : Stamp) (s : TraceStep) : Json :=
  .object [("component", .string s.step.component), ("action", .string s.step.action),
    ("detail", .string s.step.detail), ("timestamp", .string (stamp s.time)),
    ("status", .string s.step.status.name), ("is_decision_gate", .bool s.step.gate)]

structure Trace where
  id : TaskId
  state : TaskState
  createdAt : Time
  steps : List TraceStep
  lastActivity : Time
  deriving Repr, DecidableEq

namespace Trace

def new (id : TaskId) (now : Time) : Trace := ⟨id, .pending, now, [], now⟩

def isTerminal (t : Trace) : Bool := t.state.isTerminal

def gates (t : Trace) : List TraceStep := t.steps.filter (·.step.gate)

def push (t : Trace) (step : Step) (now : Time) : Trace :=
  { t with steps := t.steps ++ [⟨step, now⟩] }

def toJson (stamp : Stamp) (t : Trace) : Json :=
  .object [("task_id", .string t.id.text), ("created_at", .string (stamp t.createdAt)),
    ("state", .string t.state.name), ("steps", .array (t.steps.map (·.toJson stamp)))]

/-- The event that tells of the last step. -/
def lastEvent (t : Trace) (step : Step) : Event := .ofStep t.id (t.steps.length - 1) step

/-- Whether a task is under way and has been silent for longer than `timeout`. -/
def isStalled (t : Trace) (timeout : Duration) (now : Time) : Bool :=
  decide (t.state = .processing) && (elapsed t.lastActivity now).exceeds timeout

end Trace

abbrev Tracer := Table TaskId Trace

namespace Tracer

def watchdogComponent : String := "watchdog"

def empty : Tracer := []

/-- A trace that is there already is kept. -/
def create (t : Tracer) (id : TaskId) (now : Time) : Tracer :=
  if t.contains id then t else t.set id (.new id now)

def state? (t : Tracer) (id : TaskId) : Option TaskState := (t.get? id).map (·.state)

/-- Appends a step; the event tells of it. -/
def record (t : Tracer) (id : TaskId) (step : Step) (now : Time) : Tracer × Option Event :=
  match t.get? id with
  | none => (t, none)
  | some trace =>
      let trace := { trace.push step now with lastActivity := now }
      (t.set id trace, some (trace.lastEvent step))

def markProcessing (t : Tracer) (id : TaskId) (now : Time) : Bool × Tracer :=
  match t.get? id with
  | none => (false, t)
  | some trace =>
      if trace.state = .pending then
        (true, t.set id { trace with state := .processing, lastActivity := now })
      else (false, t)

/-- Puts a trace into an end state, once. The answer says whether this call did it. -/
def markTerminal (t : Tracer) (id : TaskId) (state : TaskState) : Bool × Tracer :=
  if !state.isTerminal then (false, t)
  else match t.get? id with
    | none => (false, t)
    | some trace =>
        if trace.isTerminal then (false, t) else (true, t.set id { trace with state := state })

def stalledStep (timeout : Duration) : Step :=
  .errorGate watchdogComponent "stalled"
    ("no trace activity for " ++ toString timeout.secs ++ "s; marking lost")

def flag (timeout : Duration) (now : Time) (trace : Trace) : Trace :=
  if trace.isStalled timeout now then
    { trace.push (stalledStep timeout) now with state := .lost }
  else trace

/-- Flags every stalled trace as lost. -/
def sweep (t : Tracer) (timeout : Duration) (now : Time) : List TaskId × List Event × Tracer :=
  let stalled := t.values.filter (·.isStalled timeout now)
  (stalled.map (·.id), stalled.map fun trace => (flag timeout now trace).lastEvent
    (stalledStep timeout), t.map fun entry => (entry.1, flag timeout now entry.2))

end Tracer

end Overseer
