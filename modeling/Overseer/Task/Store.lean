import Overseer.Task.Failure
import Overseer.Task.State
import Overseer.Task.Id
import Overseer.Routing.Intent
import Overseer.Table
import Overseer.Time

/-! # Task records

A record holds the payload of a task and how far it got. It is ended by an outcome, which the lifecycle
has to allow; a refused call leaves the store as it was.
-/

namespace Overseer

structure Task where
  id : TaskId
  payload : Json
  intent : Option Intent
  state : TaskState
  createdAt : Time
  finishedAt : Option Time
  failure : Option Failure
  output : Option Json
  deriving Repr

inductive Outcome
  | completed (output : Json)
  | failed (failure : Failure)
  | aborted (reason : FailureReason)
  | lost
  deriving Repr

namespace Outcome

def state : Outcome → TaskState
  | completed _ => .completed
  | failed _ => .failed
  | aborted _ => .aborted
  | lost => .lost

def output? : Outcome → Option Json
  | completed output => some output
  | _ => none

/-- An aborted task has the name of the reason for its detail. -/
def failure? : Outcome → Option Failure
  | completed _ => none
  | failed failure => some failure
  | aborted reason => some ⟨reason, reason.name⟩
  | lost => some ⟨.stalled, "no trace activity within the stall timeout"⟩

end Outcome

namespace Task

def new (id : TaskId) (payload : Json) (now : Time) : Task :=
  ⟨id, payload, none, .pending, now, none, none, none⟩

/-- A move to an end state stamps the time. -/
def transition (t : Task) (target : TaskState) (now : Time) : Except InvalidMove Task :=
  (t.state.move target).map fun state =>
    { t with state := state, finishedAt := if state.isTerminal then some now else t.finishedAt }

def finish (t : Task) (outcome : Outcome) (now : Time) : Except InvalidMove Task :=
  (t.transition outcome.state now).map fun t =>
    match outcome.failure? with
    | none => { t with output := outcome.output? }
    | some failure => { t with failure := some failure }

/-- The public view. -/
def toJson (stamp : Stamp) (t : Task) : Json :=
  .object ([("id", .string t.id.text), ("state", .string t.state.name),
      ("intent", .optional (fun i => .string i.name) t.intent),
      ("created_at", .string (stamp t.createdAt))]
    ++ Json.fieldWhen "finished_at" (fun time => .string (stamp time)) t.finishedAt
    ++ Json.fieldWhen "reason" (fun f => .string f.reason.name) t.failure
    ++ Json.fieldWhen "detail" (fun f => .string f.detail) t.failure
    ++ Json.fieldWhen "output" (fun v => v) t.output)

end Task

abbrev TaskStore := Table TaskId Task

namespace TaskStore

def empty : TaskStore := []

/-- A task inserted again is a new one. -/
def insert (s : TaskStore) (task : Task) : TaskStore := s.move task.id task

/-- Why a call on a task was refused. -/
inductive Refusal
  | unknown
  | invalid (move : InvalidMove)
  deriving Repr, DecidableEq

def update (s : TaskStore) (id : TaskId) (f : Task → Except InvalidMove Task) :
    Except Refusal TaskStore :=
  match s.get? id with
  | none => .error .unknown
  | some task =>
      match f task with
      | .error move => .error (.invalid move)
      | .ok task => .ok (s.set id task)

def transition (s : TaskStore) (id : TaskId) (target : TaskState) (now : Time) :
    Except Refusal TaskStore :=
  s.update id fun task => task.transition target now

def setIntent (s : TaskStore) (id : TaskId) (intent : Option Intent) : Except Refusal TaskStore :=
  s.update id fun task => .ok { task with intent := intent }

def finish (s : TaskStore) (id : TaskId) (outcome : Outcome) (now : Time) :
    Except Refusal TaskStore :=
  s.update id fun task => task.finish outcome now

/-- All tasks, the oldest first; of two that are equally old, the one that was put in first. -/
def list (s : TaskStore) : List Task :=
  s.values.mergeSort fun a b => decide (a.createdAt ≤ b.createdAt)

end TaskStore

end Overseer
