import Overseer.Json.Basic
import Overseer.Table
import Overseer.Task.Id
import Overseer.Token

/-! # The admission queue

Tasks wait in the order in which they came and are admitted while fewer than `limit` are active. An
active task holds a slot and a cancellation token that descends from the token of the queue. An operator
can pause the queue, empty it, stop everything and close it.

`push`, `free`, `unpause` and `shut` are the state changes that happen under the lock; `enqueue`,
`release`, `resume` and `close` are those changes followed by `wake`, which wakes every waiter.
-/

namespace Overseer

structure Queue where
  limit : Nat
  maxPending : Option Nat
  pending : List TaskId
  active : Table TaskId Token
  paused : Bool
  closed : Bool
  tokens : Tokens
  shutdown : Token
  /-- How often the waiters have been woken. -/
  wakeups : Nat
  deriving Repr

/-- A task that has been handed a slot. -/
structure Admission where
  id : TaskId
  token : Token
  deriving Repr, DecidableEq

inductive EnqueueError
  | shuttingDown
  | full (pending : Nat)
  deriving Repr, DecidableEq

def EnqueueError.kind : EnqueueError → String
  | .shuttingDown => "shutting_down"
  | .full _ => "full"

def EnqueueError.message : EnqueueError → String
  | .shuttingDown => "queue is shutting down"
  | .full pending => "queue is full (" ++ toString pending ++ " pending)"

structure QueueStatus where
  active : Nat
  pending : Nat
  limit : Nat
  paused : Bool
  deriving Repr, DecidableEq

def QueueStatus.toJson (s : QueueStatus) : Json :=
  .object [("active", .nat s.active), ("pending", .nat s.pending), ("limit", .nat s.limit),
    ("paused", .bool s.paused)]

inductive AbortOutcome
  /-- The task was pending and has been removed. -/
  | removedPending
  /-- The task holds a slot and its token has been cancelled. -/
  | cancelRequested
  | notQueued
  deriving Repr, DecidableEq

def AbortOutcome.name : AbortOutcome → String
  | .removedPending => "removed_pending"
  | .cancelRequested => "cancel_requested"
  | .notQueued => "not_queued"

/-- The tasks whose tokens were cancelled and those that were removed while pending. -/
structure Stopped where
  cancelled : List TaskId
  purged : List TaskId
  deriving Repr, DecidableEq

/-- What a caller who wants a task finds. -/
inductive Inspection
  | closed
  | admitted (admission : Admission) (queue : Queue)
  | nothing
  deriving Repr

namespace Queue

/-- A limit of zero counts as one. -/
def new (limit : Nat) (maxPending : Option Nat) : Queue :=
  let (tokens, shutdown) := Tokens.empty.root
  ⟨max limit 1, maxPending, [], [], false, false, tokens, shutdown, 0⟩

def status (q : Queue) : QueueStatus := ⟨q.active.length, q.pending.length, q.limit, q.paused⟩

def isFull (q : Queue) : Bool :=
  match q.maxPending with
  | none => false
  | some most => decide (most ≤ q.pending.length)

def wake (q : Queue) : Queue := { q with wakeups := q.wakeups + 1 }

/-- A paused queue still takes tasks. -/
def push (q : Queue) (id : TaskId) : Except EnqueueError Queue :=
  if q.closed then .error .shuttingDown
  else if q.isFull then .error (.full q.pending.length)
  else .ok { q with pending := q.pending ++ [id] }

def enqueue (q : Queue) (id : TaskId) : Except EnqueueError Queue := (q.push id).map wake

/-- Hands the first pending task a slot and a token of its own. -/
def grant (q : Queue) (id : TaskId) (rest : List TaskId) : Admission × Queue :=
  let (tokens, token) := q.tokens.child q.shutdown
  (⟨id, token⟩, { q with pending := rest, active := q.active.set id token, tokens := tokens })

def inspect (q : Queue) : Inspection :=
  if q.closed then .closed
  else if q.paused || decide (q.limit ≤ q.active.length) then .nothing
  else match q.pending with
    | [] => .nothing
    | id :: rest =>
        let (admission, q) := q.grant id rest
        .admitted admission q

def pause (q : Queue) : Queue := { q with paused := true }

def unpause (q : Queue) : Queue := { q with paused := false }

def resume (q : Queue) : Queue := q.unpause.wake

def purge (q : Queue) : List TaskId × Queue := (q.pending, { q with pending := [] })

def cancelAll (tokens : Tokens) (active : Table TaskId Token) : Tokens :=
  active.values.foldl Tokens.cancel tokens

/-- Cancels what is active, removes what is pending and pauses, in one step. -/
def emergencyStop (q : Queue) : Stopped × Queue :=
  (⟨q.active.keys, q.pending⟩,
    { q with paused := true, pending := [], tokens := cancelAll q.tokens q.active })

def token? (q : Queue) (id : TaskId) : Option Token := q.active.get? id

def cancelToken (q : Queue) (token : Token) : Queue :=
  { q with tokens := q.tokens.cancel token }

def isCancelled (q : Queue) (token : Token) : Bool := q.tokens.isCancelled token

def abort (q : Queue) (id : TaskId) : AbortOutcome × Queue :=
  if q.pending.contains id then (.removedPending, { q with pending := q.pending.erase id })
  else match q.token? id with
    | some token => (.cancelRequested, q.cancelToken token)
    | none => (.notQueued, q)

def free (q : Queue) (id : TaskId) : Bool × Queue :=
  if q.active.contains id then (true, { q with active := q.active.remove id }) else (false, q)

/-- Frees the slot of a task, if it holds one. -/
def release (q : Queue) (id : TaskId) : Bool × Queue :=
  let (freed, q) := q.free id
  (freed, if freed then q.wake else q)

/-- Dropping an admission releases the slot of its task. -/
def dropAdmission (q : Queue) (admission : Admission) : Queue := (q.release admission.id).2

def shut (q : Queue) : Queue := { q with closed := true }

/-- Refuses new tasks, cancels every token and wakes every waiter. -/
def close (q : Queue) : Queue := (q.shut.cancelToken q.shutdown).wake

end Queue

end Overseer
