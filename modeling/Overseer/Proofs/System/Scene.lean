import Overseer.Proofs.System.Turn

/-! # Runs in which the calls of operators overlap

An abort, a purge and an emergency stop change the queue in one step, their strike, and after it go from task to task:
they put down why its token was cancelled, or end it if it was pending, and put a gate on record. Each of these chores
is a step of its own, and anything may come between two of them: a worker, another operator, a submission.
A worker that asks the executor waits for an answer, and the rest goes on while it does.

A `Scene` is the system with what is under way: the calls that have chores left and the workers that wait. It keeps
account of the strikes (`marks`) and of the reasons that have been put down (`notes`), each in the order in
which they came. `Ticks` is any run; in one with `single` traffic an operator waits until the call before is over.
-/

namespace Overseer.System

variable {κ : Type}

/-! ## Calls in pieces -/

/-- A step of a call after its strike. -/
inductive Chore
  /-- Puts down why the token of a task was cancelled. -/
  | note (id : TaskId) (reason : FailureReason)
  | gate (id : TaskId) (action detail : String)
  /-- Ends a task that was pending. -/
  | close (id : TaskId) (reason : FailureReason)
  deriving DecidableEq

namespace Chore

def id : Chore → TaskId
  | note id _ | gate id _ _ | close id _ => id

def perform (s : System κ) : Chore → System κ
  | note id reason => s.noteReason id reason
  | gate id action detail => s.record .silent id (.okGate component action detail)
  | close id reason => s.finish .silent id (.aborted reason)

/-- The reason that is put down, and for whom. -/
def reason? : Chore → Option (TaskId × FailureReason)
  | note id reason | close id reason => some (id, reason)
  | gate _ _ _ => none

/-- What is to be done for a task whose token has been cancelled. -/
def ofCancelled (action detail : String) (reason : FailureReason) (id : TaskId) : List Chore :=
  [note id reason, gate id action detail]

/-- What is to be done for a task that was pending. -/
def ofRemoved (action detail : String) (reason : FailureReason) (id : TaskId) : List Chore :=
  [gate id action detail, close id reason]

def performAll (chores : List Chore) (s : System κ) : System κ := chores.foldl perform s

end Chore

inductive Intervention
  | abort (id : TaskId)
  | purge
  | emergencyStop
  deriving DecidableEq

/-- The strike of a call, and its chores. -/
def strike (s : System κ) : Intervention → List Chore × System κ
  | .abort id =>
      match s.queue.abort id with
      | (.removedPending, queue) =>
          (Chore.ofRemoved "abort" "removed from queue by operator" .aborted id,
            s.withQueue queue)
      | (.cancelRequested, queue) =>
          (Chore.ofCancelled "abort" "cancellation requested by operator" .aborted id,
            s.withQueue queue)
      | (.notQueued, queue) => ([], s.withQueue queue)
  | .purge =>
      let (purged, queue) := s.queue.purge
      (purged.flatMap (Chore.ofRemoved "purge" "removed from queue by purge" .purged),
        s.withQueue queue)
  | .emergencyStop =>
      let (stopped, queue) := s.queue.emergencyStop
      (stopped.cancelled.flatMap
          (Chore.ofCancelled "emergency_stop" "cancelled by emergency stop" .emergencyStop)
        ++ stopped.purged.flatMap
          (Chore.ofRemoved "emergency_stop" "removed from queue by emergency stop" .emergencyStop),
        s.withQueue queue)

/-- A purge is its strike and its chores. -/
theorem purge_eq (s : System κ) :
    (s.purge .silent).2 = Chore.performAll (s.strike .purge).1 (s.strike .purge).2 := by
  simp only [strike, Chore.performAll, List.foldl_flatMap]
  rfl

theorem emergencyStop_eq (s : System κ) :
    (s.emergencyStop .silent).2
      = Chore.performAll (s.strike .emergencyStop).1 (s.strike .emergencyStop).2 := by
  simp only [strike, Chore.performAll, List.foldl_append, List.foldl_flatMap]
  rfl

theorem abort_of_none {s : System κ} {id : TaskId} (ht : s.tasks.get? id = none) :
    s.abort .silent id = (.error (.notFound id), s) := by
  simp only [abort, ht]

theorem abort_of_isTerminal {s : System κ} {id : TaskId} {task : Task}
    (ht : s.tasks.get? id = some task) (hended : task.state.isTerminal = true) :
    s.abort .silent id = (.error (.alreadyTerminal id task.state), s) := by
  simp only [abort, ht, hended, if_true]

/-- So is an abort, of a task that can be aborted. -/
theorem abort_eq {s : System κ} {id : TaskId} {task : Task} (ht : s.tasks.get? id = some task)
    (hopen : task.state.isTerminal = false) :
    (s.abort .silent id).2
      = Chore.performAll (s.strike (.abort id)).1 (s.strike (.abort id)).2 := by
  unfold abort
  simp only [ht, hopen, Bool.false_eq_true, if_false, strike]
  rcases Queue.abort_cases s.queue id with ⟨-, h⟩ | ⟨token, -, h⟩ | h
  · rw [h]
    rfl
  · rw [h]
    rfl
  · rw [h]
    show ((s.withQueue s.queue).abortQueued .silent id .notQueued).2 = s
    rw [abortQueued_notQueued]
    rfl

/-- And an abort that is refused does nothing. -/
theorem abort_eq_or (id : TaskId) (s : System κ) : (s.abort .silent id).2 = s ∨
    (s.abort .silent id).2
      = Chore.performAll (s.strike (.abort id)).1 (s.strike (.abort id)).2 := by
  cases ht : s.tasks.get? id with
  | none => exact Or.inl (congrArg Prod.snd (abort_of_none ht))
  | some task =>
    cases hstate : task.state.isTerminal with
    | true => exact Or.inl (congrArg Prod.snd (abort_of_isTerminal ht hstate))
    | false => exact Or.inr (abort_eq ht hstate)

/-! ## Scenes -/

structure Scene (κ : Type) where
  system : System κ
  /-- The ids that have been submitted, those that were rejected among them. -/
  submitted : List TaskId
  /-- The workers that wait for the executor, each with the system that its turn found. -/
  asking : List (Nat × System κ)
  /-- What the calls under way have left to do. -/
  inFlight : List (List Chore)
  /-- Whom the calls have struck, each with the reason of the call. -/
  marks : List (TaskId × FailureReason)
  /-- The reasons that have been put down. -/
  notes : List (TaskId × FailureReason)

def reasonsFor (id : TaskId) (l : List (TaskId × FailureReason)) : List FailureReason :=
  (l.filter fun p => p.1 == id).map (·.2)

/-- A submission that is refused strikes its own task. -/
def refusal : Except SubmitError TaskId → List (TaskId × FailureReason)
  | .ok _ => []
  | .error e => [(e.id, .rejected)]

namespace Scene

variable (c : Scene κ)

def marked (id : TaskId) : List FailureReason := reasonsFor id c.marks

def noted (id : TaskId) : List FailureReason := reasonsFor id c.notes

/-- The reasons that are still on their way. -/
def ahead (id : TaskId) : List FailureReason :=
  reasonsFor id (c.inFlight.flatten.filterMap Chore.reason?)

/-- The calls for a task that have reached the executor. -/
def calls (id : TaskId) : List (TaskId × Invocation) :=
  c.system.reached.filter fun call => call.1 == id

def on (s : System κ) : Scene κ := { c with system := s }

def submit (id : TaskId) (payload : Json) : Scene κ :=
  let (answer, s) := c.system.submit .silent id payload
  { c with system := s, submitted := id :: c.submitted, marks := c.marks ++ refusal answer,
           notes := c.notes ++ refusal answer }

def strike (call : Intervention) : Scene κ :=
  let (chores, s) := c.system.strike call
  { c with system := s, inFlight := c.inFlight ++ [chores],
           marks := c.marks ++ chores.filterMap Chore.reason? }

/-- The chore of a call is done, and the calls go on with what is left. -/
def perform (chore : Chore) (left : List (List Chore)) : Scene κ :=
  { c with system := chore.perform c.system, inFlight := left,
           notes := c.notes ++ chore.reason?.toList }

end Scene

/-- Whether a call may strike while another one is under way. -/
inductive Traffic
  | single
  | mixed
  deriving DecidableEq

variable [Cost κ]

/-- The executor has answered a worker, or has said that it has not finished yet. -/
def Scene.answer (settings : Settings κ) (n : Nat) (s : System κ) (poll : Poll κ)
    (others : List (Nat × System κ)) (c : Scene κ) : Scene κ :=
  { c with system := s.turn .silent settings n fun _ => (poll, c.system), asking := others }

inductive Tick (traffic : Traffic) (settings : Settings κ) (c : Scene κ) : Scene κ → Prop
  | submit (id : TaskId) (payload : Json) (new : id ∉ c.submitted) :
      Tick traffic settings c (c.submit id payload)
  | strike (call : Intervention) (clear : traffic = .single → c.inFlight.flatten = []) :
      Tick traffic settings c (c.strike call)
  | chore {before after : List (List Chore)} {chore : Chore} {rest : List Chore}
      (next : c.inFlight = before ++ (chore :: rest) :: after) :
      Tick traffic settings c (c.perform chore (before ++ rest :: after))
  | pause : Tick traffic settings c (c.on c.system.pause.2)
  | resume : Tick traffic settings c (c.on c.system.resume.2)
  | shutdown : Tick traffic settings c (c.on c.system.shutdown)
  | employ {a : Admission} {q : Queue} (h : c.system.queue.inspect = .admitted a q) :
      Tick traffic settings c (c.on (c.system.employ a q))
  | elapse (clock : Clock) : Tick traffic settings c (c.on { c.system with clock := clock })
  | flag (timeout : Duration) :
      Tick traffic settings c (c.on (c.system.flagStalled .silent timeout).2)
  /-- Any task may be marked as lost, at any time. -/
  | markLost (id : TaskId) : Tick traffic settings c (c.on (c.system.markLost .silent id).2)
  /-- A worker that waits for nothing and asks nobody. -/
  | turn (n : Nat) (execute : Execute κ) (free : n ∉ c.asking.map (·.1))
      (h : c.system.consulted settings n = none) :
      Tick traffic settings c (c.on (c.system.turn .silent settings n execute))
  | ask (n : Nat) {s : System κ} (free : n ∉ c.asking.map (·.1))
      (h : c.system.consulted settings n = some s) :
      Tick traffic settings c { c with system := s, asking := (n, c.system) :: c.asking }
  | answer {before after : List (Nat × System κ)} {n : Nat} {s : System κ} (poll : Poll κ)
      (waiting : c.asking = before ++ (n, s) :: after) :
      Tick traffic settings c (c.answer settings n s poll (before ++ after))

abbrev Ticks (traffic : Traffic) (settings : Settings κ) : Scene κ → Scene κ → Prop :=
  Relation.ReflTransGen (Tick traffic settings)

/-- What the runs below are made with that serve as examples. -/
def usual : Settings Float := ⟨.ofSecs 300, .standard, .standard, .fixed 0 none⟩

/-- Before anything has been done. -/
def Scene.start (limit : Nat) (maxPending : Option Nat) (orders : List Order) : Scene κ :=
  ⟨.new limit maxPending orders, [], [], [], [], []⟩

end Overseer.System
