import Overseer.System.Operation

/-! # Workers

Each admission gets a worker, which takes its task from one phase to the next by `turn`. A turn reads the
token of the task before an iteration, before a call and at every look at a call. When the worker ends,
its admission is dropped.
-/

namespace Overseer.System

variable {κ : Type}

/-- Hands an admission to a worker. -/
def employ (admission : Admission) (queue : Queue) (s : System κ) : System κ :=
  { s with queue := queue, workers := s.workers ++ [⟨admission, .admitted⟩] }

def setPhase (n : Nat) (phase : Phase κ) (s : System κ) : System κ :=
  { s with workers := s.workers.modify n fun worker => { worker with phase := phase } }

/-- The worker is done; an outcome is put down first. -/
def leave (obs : Observer κ) (n : Nat) (admission : Admission) (outcome : Option Outcome)
    (s : System κ) : System κ :=
  let s := match outcome with
    | some outcome => s.finish obs admission.id outcome
    | none => s
  (s.withQueue (s.queue.dropAdmission admission)).setPhase n .ended

def routeFailureReason : RouteError → FailureReason
  | .invalidPayload | .missingTarget _ => .invalidPayload
  | .missingIntent | .unknownIntent _ | .unrouted _ => .unknownIntent

variable [Cost κ]

/-- Where a plan leads: to one call, or to a healing session on its target. -/
def firstPhase (settings : Settings κ) (p : Plan) : Phase κ :=
  match p.route with
  | .direct capability => .entering (.direct capability p.params)
  | .healing => .between p.params (.start settings.healing (p.target.getD ""))

def dispatch (obs : Observer κ) (settings : Settings κ) (n : Nat) (admission : Admission)
    (payload : Json) (s : System κ) : System κ :=
  let id := admission.id
  match plan payload settings.routes with
  | .error e =>
      let s := s.record obs id (.errorGate component "route" e.message)
      s.leave obs n admission (some (.failed ⟨routeFailureReason e, e.message⟩))
  | .ok p =>
      let s := match s.tasks.setIntent id (some p.intent) with
        | .ok tasks => { s with tasks := tasks }
        | .error _ => s
      (s.record obs id (.okGate component "route" p.route.describe)).setPhase n
        (firstPhase settings p)

/-- Begins a task. One that cannot be started is left alone. -/
def begin (obs : Observer κ) (settings : Settings κ) (n : Nat) (admission : Admission)
    (s : System κ) : System κ :=
  let id := admission.id
  match s.tasks.transition id .processing s.now with
  | .error _ => s.leave obs n admission none
  | .ok tasks =>
      let s := { s with tasks := tasks, tracer := (s.tracer.markProcessing id s.now).2 }
      let s := s.announce obs (.taskStarted id)
      if s.isCancelled admission.token then
        s.leave obs n admission (some (s.cancelledOutcome id))
      else dispatch obs settings n admission (((s.tasks.get? id).map (·.payload)).getD .null) s

def healingOutcome (s : System κ) (id : TaskId) (report : Healing.Report κ) : Outcome :=
  match report.status with
  | .success => .completed report.toJson
  | .cancelled => s.cancelledOutcome id
  | status => .failed ⟨status.failureReason?.getD .executorError, report.detail⟩

/-- A healing session has moved on. -/
def proceed (obs : Observer κ) (n : Nat) (admission : Admission) (params : Json)
    (p : Healing.Progress κ) (s : System κ) : System κ :=
  let s := s.recordAll obs admission.id p.steps
  match p.point with
  | .head => s.setPhase n (.between params p.session)
  | .calling stage => s.setPhase n (.entering (.healing params p.session stage))
  | .ended status =>
      s.leave obs n admission (some (s.healingOutcome admission.id (p.session.report status)))

/-- The outcome of a direct call, with the step that tells of it. -/
def directOutcome (s : System κ) (id : TaskId) (capability : String) :
    Answer κ → Outcome × List Step
  | .ok output =>
      if output.ok then
        (.completed output.output, [.ok component "invoke" (capability ++ " succeeded")])
      else
        (.failed ⟨.executorError, output.failureDetail⟩,
          [.error component "invoke" output.failureDetail])
  | .error .cancelled => (s.cancelledOutcome id, [])
  | .error (.timedOut limit) =>
      let message := CapabilityError.message (.timedOut limit)
      (.failed ⟨.timeout, message⟩, [.error component "invoke" message])
  | .error e => (.failed ⟨.executorError, e.message⟩, [.error component "invoke" e.message])

/-- The call of a job has been answered. -/
def receive (obs : Observer κ) (settings : Settings κ) (n : Nat) (admission : Admission)
    (job : Job κ) (answer : Answer κ) (s : System κ) : System κ :=
  match job with
  | .direct capability _ =>
      let (outcome, steps) := s.directOutcome admission.id capability answer
      (s.recordAll obs admission.id steps).leave obs n admission (some outcome)
  | .healing params session stage =>
      s.proceed obs n admission params
        (Healing.receive settings.healing settings.estimator stage session answer)

/-- The worker has broken down. -/
def breakDown (obs : Observer κ) (n : Nat) (admission : Admission) (panic : Panic)
    (s : System κ) : System κ :=
  (s.record obs admission.id (.errorGate component "worker_panicked" panic.message)).leave obs n
    admission (some (.failed ⟨.workerPanicked, panic.message⟩))

def Job.limit (settings : Settings κ) : Job κ → Duration
  | .direct _ _ => settings.executorTimeout
  | .healing _ _ _ => settings.healing.iterationTimeout

def Job.invocation (settings : Settings κ) : Job κ → Invocation
  | .direct capability params => ⟨capability, params⟩
  | .healing params session stage => stage.invocation settings.healing params session

/-- Opens the call of a job, unless the token forbids it. -/
def enter (obs : Observer κ) (settings : Settings κ) (n : Nat) (admission : Admission)
    (job : Job κ) (s : System κ) : System κ :=
  if s.isCancelled admission.token then
    receive obs settings n admission job (.error .cancelled) s
  else
    let (call, tokens) :=
      Call.begin s.queue.tokens admission.token (Job.limit settings job) s.clock.timer
    (s.withQueue { s.queue with tokens := tokens }).setPhase n (.calling job call false)

/-- The executor as the system asks it: what it says, and what it does to the system meanwhile. -/
abbrev Execute (κ : Type) := System κ → Poll κ × System κ

/-- The first time that the executor is asked about a call, the call is on record. -/
def asked (id : TaskId) (invocation : Invocation) (reached : Bool) (execute : Execute κ) :
    Execute κ := fun s =>
  execute (if reached then s else { s with reached := s.reached ++ [(id, invocation)] })

def await (obs : Observer κ) (settings : Settings κ) (n : Nat) (admission : Admission)
    (job : Job κ) (call : Call) (reached : Bool) (execute : Execute κ) (s : System κ) :
    System κ :=
  let invocation := Job.invocation settings job
  match call.look (fun s => s.isCancelled admission.token)
      (asked admission.id invocation reached execute)
      (fun s => s.withQueue (s.queue.cancelToken call.token)) s.clock.timer s with
  | (none, s) => s.setPhase n (.calling job call true)
  | (some (.answered answer), s) => s.receive obs settings n admission job answer
  | (some (.panicked panic), s) => s.breakDown obs n admission panic

/-- One turn of the worker with the number `n`. -/
def turn (obs : Observer κ) (settings : Settings κ) (n : Nat) (execute : Execute κ)
    (s : System κ) : System κ :=
  match s.workers[n]? with
  | none => s
  | some worker =>
      let admission := worker.admission
      match worker.phase with
      | .ended => s
      | .admitted => s.begin obs settings n admission
      | .between params session =>
          s.proceed obs n admission params
            (Healing.passHead settings.healing (s.isCancelled admission.token) session)
      | .entering job => s.enter obs settings n admission job
      | .calling job call reached =>
          s.await obs settings n admission job call reached execute

end Overseer.System
