import Overseer.System.Basic

/-! # Operations on the system -/

namespace Overseer

/-- A submission that the queue has rejected. -/
structure SubmitError where
  id : TaskId
  cause : EnqueueError
  deriving Repr, DecidableEq

def SubmitError.message (e : SubmitError) : String :=
  "task " ++ e.id.text ++ " rejected: " ++ e.cause.message

inductive AbortError
  | notFound (id : TaskId)
  | alreadyTerminal (id : TaskId) (state : TaskState)
  deriving Repr, DecidableEq

def AbortError.kind : AbortError → String
  | .notFound _ => "not_found"
  | .alreadyTerminal _ _ => "already_terminal"

def AbortError.message : AbortError → String
  | .notFound id => "task " ++ id.text ++ " not found"
  | .alreadyTerminal id state => "task " ++ id.text ++ " already finished as " ++ state.name

namespace System

variable {κ : Type}

/-- A task and its trace come into being. -/
def register (obs : Observer κ) (id : TaskId) (payload : Json) (s : System κ) : System κ :=
  let s := { s with tasks := s.tasks.insert (.new id payload s.now) }
  let s := { s with tracer := s.tracer.create id s.now }
  (s.record obs id (.ok component "submitted" "task accepted")).announce obs (.taskCreated id)

/-- A rejected task is on record as aborted. -/
def submit (obs : Observer κ) (id : TaskId) (payload : Json) (s : System κ) :
    Except SubmitError TaskId × System κ :=
  let s := s.register obs id payload
  match s.queue.enqueue id with
  | .ok queue => (.ok id, s.withQueue queue)
  | .error cause =>
      let s := s.record obs id (.errorGate component "rejected" cause.message)
      (.error ⟨id, cause⟩, s.finish obs id (.aborted .rejected))

def pause (s : System κ) : QueueStatus × System κ :=
  let queue := s.queue.pause
  (queue.status, s.withQueue queue)

def resume (s : System κ) : QueueStatus × System κ :=
  let queue := s.queue.resume
  (queue.status, s.withQueue queue)

/-- A task that has been taken out of the queue ends. -/
def discard (obs : Observer κ) (action detail : String) (reason : FailureReason) (id : TaskId)
    (s : System κ) : System κ :=
  (s.record obs id (.okGate component action detail)).finish obs id (.aborted reason)

def purge (obs : Observer κ) (s : System κ) : List TaskId × System κ :=
  let (purged, queue) := s.queue.purge
  (purged, purged.foldl
    (fun s id => s.discard obs "purge" "removed from queue by purge" .purged id) (s.withQueue queue))

/-- A task whose token has just been cancelled gets the reason and a gate. -/
def noteStop (obs : Observer κ) (id : TaskId) (s : System κ) : System κ :=
  (s.noteReason id .emergencyStop).record obs id
    (.okGate component "emergency_stop" "cancelled by emergency stop")

def emergencyStop (obs : Observer κ) (s : System κ) : Stopped × System κ :=
  let (stopped, queue) := s.queue.emergencyStop
  let s := stopped.cancelled.foldl (fun s id => s.noteStop obs id) (s.withQueue queue)
  (stopped, stopped.purged.foldl
    (fun s id =>
      s.discard obs "emergency_stop" "removed from queue by emergency stop" .emergencyStop id) s)

/-- What an abort comes to once the queue has said what it found. -/
def abortQueued (obs : Observer κ) (id : TaskId) (found : AbortOutcome) (s : System κ) :
    Except AbortError Unit × System κ :=
  match found with
  | .removedPending =>
      (.ok (), s.discard obs "abort" "removed from queue by operator" .aborted id)
  | .cancelRequested =>
      (.ok (), (s.noteReason id .aborted).record obs id
        (.okGate component "abort" "cancellation requested by operator"))
  | .notQueued =>
      match s.tasks.get? id with
      | some task =>
          if task.state.isTerminal then (.error (.alreadyTerminal id task.state), s)
          else (.error (.notFound id), s)
      | none => (.error (.notFound id), s)

def abort (obs : Observer κ) (id : TaskId) (s : System κ) : Except AbortError Unit × System κ :=
  match s.tasks.get? id with
  | none => (.error (.notFound id), s)
  | some task =>
      if task.state.isTerminal then (.error (.alreadyTerminal id task.state), s)
      else
        let (found, queue) := s.queue.abort id
        (s.withQueue queue).abortQueued obs id found

/-- The token of a task that holds a slot is cancelled and the slot freed. -/
def evict (id : TaskId) (s : System κ) : System κ :=
  let queue := match s.queue.token? id with
    | some token => s.queue.cancelToken token
    | none => s.queue
  s.withQueue (queue.release id).2

/-- A task counts as lost when its trace is, be it by this call or by a sweep before. -/
def markLost (obs : Observer κ) (id : TaskId) (s : System κ) : Bool × System κ :=
  let (won, tracer) := s.tracer.markTerminal id .lost
  let s := { s with tracer := tracer }
  if won || s.tracer.state? id == some .lost then
    match s.tasks.finish id .lost s.now with
    | .ok tasks => (true, ({ s with tasks := tasks }.announce obs (.taskLost id)).evict id)
    | .error _ => (false, s.evict id)
  else (false, s)

/-- Flags the traces that have been silent for longer than the timeout. -/
def flagStalled (obs : Observer κ) (timeout : Duration) (s : System κ) :
    List TaskId × System κ :=
  let (flagged, events, tracer) := s.tracer.sweep timeout s.now
  (flagged, { s with tracer := tracer }.announceAll obs events)

/-- One sweep of the watchdog: what has been flagged is marked as lost. -/
def sweep (obs : Observer κ) (timeout : Duration) (s : System κ) : List TaskId × System κ :=
  let (flagged, s) := s.flagStalled obs timeout
  (flagged, flagged.foldl (fun s id => (s.markLost obs id).2) s)

/-- Nothing is accepted any more, and what is under way is cancelled. -/
def shutdown (s : System κ) : System κ := s.withQueue s.queue.close

def perform (obs : Observer κ) (order : Order) (s : System κ) : System κ :=
  match order.action with
  | .abort => (s.abort obs order.task).2
  | .markLost => (s.markLost obs order.task).2
  | .emergencyStop => (s.emergencyStop obs).2
  | .pause => s.pause.2
  | .purge => (s.purge obs).2
  | .shutdown => s.shutdown

def concerns (e : Event) (order : Order) : Bool := order.kind == e.kind && order.task == e.id

/-- An order for a task stands from the moment that the task is announced. -/
def isAnnounced (s : System κ) (id : TaskId) : Bool := s.events.contains (.taskCreated id)

def orderFor? (s : System κ) (e : Event) : Option Order :=
  if s.isAnnounced e.id then s.orders.find? (concerns e) else none

/-- Carries out the first standing order for an event. Each order is used up, so carrying one out can
bring about at most as many others as are left. -/
def carryOut : Nat → Observer κ
  | 0, _, s => s
  | n + 1, e, s =>
      match s.orderFor? e with
      | none => s
      | some order => { s with orders := s.orders.erase order }.perform (carryOut n) order

def observer (s : System κ) : Observer κ := carryOut s.orders.length

end System

end Overseer
