import Overseer.Capability.Call
import Overseer.Event.Basic
import Overseer.Healing.Session
import Overseer.Queue.Basic
import Overseer.Routing.Plan
import Overseer.Task.Store
import Overseer.Trace.Tracer

/-! # The state of the system

Tasks, traces and the queue are kept apart and each is changed in steps of its own. A task's end is
decided by its trace: `finish` asks the trace first and goes on only when it wins.

Whatever happens is announced by an event. An observer sees each event as soon as it is on record and may
act on the system then, before the operation that announced it goes on.
-/

namespace Overseer

structure Settings (κ : Type) where
  /-- The deadline of a direct call. -/
  executorTimeout : Duration
  healing : Healing.Config κ
  routes : RoutingTable
  estimator : Estimator κ

/-- Readings for what is put on record, and the time by which deadlines go. -/
structure Clock where
  reading : Time
  timer : Time
  deriving Repr, DecidableEq

/-- The work that a call is made for. -/
inductive Job (κ : Type)
  | direct (capability : String) (params : Json)
  | healing (params : Json) (session : Healing.Session κ) (stage : Healing.Stage κ)
  deriving Repr

inductive Phase (κ : Type)
  /-- Admitted and not begun. -/
  | admitted
  /-- Before an iteration of a healing session. -/
  | between (params : Json) (session : Healing.Session κ)
  /-- Before a call. -/
  | entering (job : Job κ)
  /-- A call is under way; `reached` when the executor has it. -/
  | calling (job : Job κ) (call : Call) (reached : Bool)
  | ended
  deriving Repr

structure Worker (κ : Type) where
  admission : Admission
  phase : Phase κ
  deriving Repr

inductive OrderAction
  | abort
  | markLost
  | emergencyStop
  | pause
  | purge
  | shutdown
  deriving Repr, DecidableEq

/-- Something to be done the first time that an event of a kind is announced for a task. -/
structure Order where
  kind : String
  task : TaskId
  action : OrderAction
  deriving Repr, DecidableEq

structure System (κ : Type) where
  queue : Queue
  tracer : Tracer
  tasks : TaskStore
  /-- Why the token of a task was cancelled, when an operator did it. -/
  cancelReasons : Table TaskId FailureReason
  /-- The workers in the order of their admissions. -/
  workers : List (Worker κ)
  events : List Event
  /-- The calls that reached the executor, each with its task. -/
  reached : List (TaskId × Invocation)
  orders : List Order
  clock : Clock
  deriving Repr

abbrev Observer (κ : Type) := Event → System κ → System κ

def Observer.silent {κ : Type} : Observer κ := fun _ s => s

namespace System

variable {κ : Type}

def component : String := "orchestrator"

def new (limit : Nat) (maxPending : Option Nat) (orders : List Order) : System κ :=
  ⟨.new limit maxPending, [], [], [], [], [], [], orders, ⟨0, 0⟩⟩

def now (s : System κ) : Time := s.clock.reading

def tick (s : System κ) : System κ :=
  { s with clock := { s.clock with reading := s.clock.reading + 1 } }

def isCancelled (s : System κ) (token : Token) : Bool := s.queue.isCancelled token

def withQueue (s : System κ) (queue : Queue) : System κ := { s with queue := queue }

def announce (obs : Observer κ) (e : Event) (s : System κ) : System κ :=
  obs e { s with events := s.events ++ [e] }

def announceAll (obs : Observer κ) (events : List Event) (s : System κ) : System κ :=
  events.foldl (fun s e => s.announce obs e) s

def record (obs : Observer κ) (id : TaskId) (step : Step) (s : System κ) : System κ :=
  match s.tracer.record id step s.now with
  | (tracer, none) => { s with tracer := tracer }
  | (tracer, some e) => { s with tracer := tracer }.announce obs e

def recordAll (obs : Observer κ) (id : TaskId) (steps : List Step) (s : System κ) : System κ :=
  steps.foldl (fun s step => s.record obs id step) s

def noteReason (id : TaskId) (reason : FailureReason) (s : System κ) : System κ :=
  { s with cancelReasons := s.cancelReasons.set id reason }

/-- The outcome of work whose token was cancelled. -/
def cancelledOutcome (s : System κ) (id : TaskId) : Outcome :=
  .aborted ((s.cancelReasons.get? id).getD .aborted)

def finishEvent (s : System κ) (id : TaskId) : Outcome → Event
  | .completed _ => .taskCompleted id ((s.tasks.get? id).bind (·.intent))
  | .failed failure => .taskFailed id failure.reason failure.detail
  | .aborted reason => .taskAborted id reason
  | .lost => .taskLost id

/-- Ends a task unless its trace says that it has ended already. -/
def finish (obs : Observer κ) (id : TaskId) (outcome : Outcome) (s : System κ) : System κ :=
  match s.tracer.markTerminal id outcome.state with
  | (false, _) => s
  | (true, tracer) =>
      let s := { s with tracer := tracer, cancelReasons := s.cancelReasons.remove id }
      match s.tasks.finish id outcome s.now with
      | .error _ => s
      | .ok tasks => { s with tasks := tasks }.announce obs (s.finishEvent id outcome)

end System

end Overseer
