/-! # The lifecycle of a task

A task waits, is worked on and ends in one of four ways. A task that still waits can only be started or
aborted; nothing leaves an end state.
-/

namespace Overseer

inductive TaskState
  | pending
  | processing
  | completed
  | failed
  | lost
  | aborted
  deriving Repr, DecidableEq, Inhabited

namespace TaskState

def all : List TaskState := [.pending, .processing, .completed, .failed, .lost, .aborted]

def name : TaskState → String
  | .pending => "PENDING"
  | .processing => "PROCESSING"
  | .completed => "COMPLETED"
  | .failed => "FAILED"
  | .lost => "LOST"
  | .aborted => "ABORTED"

def ofName? (s : String) : Option TaskState := all.find? fun state => state.name == s

def isTerminal : TaskState → Bool
  | .pending | .processing => false
  | .completed | .failed | .lost | .aborted => true

def canMove : TaskState → TaskState → Bool
  | .pending, .processing => true
  | .pending, .aborted => true
  | .processing, target => target.isTerminal
  | _, _ => false

end TaskState

/-- A move that the lifecycle does not have. -/
structure InvalidMove where
  source : TaskState
  target : TaskState
  deriving Repr, DecidableEq

def InvalidMove.message (e : InvalidMove) : String :=
  "invalid transition " ++ e.source.name ++ " -> " ++ e.target.name

def TaskState.move (source target : TaskState) : Except InvalidMove TaskState :=
  if source.canMove target then .ok target else .error ⟨source, target⟩

end Overseer
