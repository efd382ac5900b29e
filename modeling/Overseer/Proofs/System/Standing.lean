import Overseer.Proofs.Table
import Overseer.System.Worker
import Mathlib.Logic.Relation

/-! # Where a task stands

All that the stores, the queue, the workers and the events say of one id is its `View`. The views that come
up are those of a `Standing`, of which there are seven, and `Standing.Next` says how one follows another:

    unknown → queued → admitted → running → settled
    unknown → discarded
    queued → discarded
    running → stalled → settled

A task is `stalled` from the sweep that flags its trace to the moment that it is marked as lost: only there do
the task and its trace differ. Only a submission leads out of `unknown`, and only a sweep into `stalled`; so
`Leads fresh flagged` says that one standing comes after another where `fresh` and `flagged` tell whether a
submission and a sweep can have had a part in it.
-/

namespace Overseer

/-- What an event says of the lifecycle of its task. -/
inductive Notice
  | created
  | started
  | ended (state : TaskState)
  deriving Repr, DecidableEq

/-- An event that tells of a step says nothing of the lifecycle. -/
def Event.notice? : Event → Option Notice
  | .stepAdded .. => none
  | .taskCreated _ => some .created
  | .taskStarted _ => some .started
  | .taskCompleted .. => some (.ended .completed)
  | .taskFailed .. => some (.ended .failed)
  | .taskAborted .. => some (.ended .aborted)
  | .taskLost _ => some (.ended .lost)

inductive Activity
  | due
  | busy
  | gone
  deriving Repr, DecidableEq

def Phase.activity {κ : Type} : Phase κ → Activity
  | .admitted => .due
  | .between .. | .entering _ | .calling .. => .busy
  | .ended => .gone

structure View where
  task : Option TaskState
  /-- How many tasks the id has. -/
  tasks : Nat
  trace : Option TaskState
  traces : Nat
  /-- The id that the trace bears. -/
  label : Option TaskId
  /-- How often the id is pending. -/
  queued : Nat
  active : Bool
  crew : List Activity
  notices : List Notice
  deriving Repr, DecidableEq

namespace System

variable {κ : Type}

def notices (s : System κ) (id : TaskId) : List Notice :=
  (s.events.filter fun e => e.id == id).filterMap Event.notice?

def view (s : System κ) (id : TaskId) : View where
  task := (s.tasks.get? id).map (·.state)
  tasks := s.tasks.keys.count id
  trace := s.tracer.state? id
  traces := s.tracer.keys.count id
  label := (s.tracer.get? id).map (·.id)
  queued := s.queue.pending.count id
  active := s.queue.active.contains id
  crew := (s.workers.filter fun w => w.admission.id == id).map (·.phase.activity)
  notices := s.notices id

end System

inductive Standing
  | unknown
  | queued
  /-- A worker has it and has not begun. -/
  | admitted
  | running
  /-- Ended before it was admitted. -/
  | discarded
  | stalled (working : Bool)
  /-- The worker of a task that was lost can still be at work. -/
  | settled (state : TaskState) (ended : state.isTerminal = true) (working : Bool)

namespace Standing

def crew (working : Bool) : List Activity := if working then [.busy] else [.gone]

def view (id : TaskId) : Standing → View
  | unknown => ⟨none, 0, none, 0, none, 0, false, [], []⟩
  | queued => ⟨some .pending, 1, some .pending, 1, some id, 1, false, [], [.created]⟩
  | admitted => ⟨some .pending, 1, some .pending, 1, some id, 0, true, [.due], [.created]⟩
  | running =>
      ⟨some .processing, 1, some .processing, 1, some id, 0, true, [.busy], [.created, .started]⟩
  | discarded =>
      ⟨some .aborted, 1, some .aborted, 1, some id, 0, false, [], [.created, .ended .aborted]⟩
  | stalled working =>
      ⟨some .processing, 1, some .lost, 1, some id, 0, working, crew working, [.created, .started]⟩
  | settled state _ working =>
      ⟨some state, 1, some state, 1, some id, 0, false, crew working,
        [.created, .started, .ended state]⟩

inductive Next (fresh flagged : Prop) : Standing → Standing → Prop
  | accept : fresh → Next fresh flagged unknown queued
  | reject : fresh → Next fresh flagged unknown discarded
  | discard : Next fresh flagged queued discarded
  | grant : Next fresh flagged queued admitted
  | start : Next fresh flagged admitted running
  | finish (state : TaskState) (ended : state.isTerminal = true) :
      Next fresh flagged running (settled state ended false)
  | flag : flagged → Next fresh flagged running (stalled true)
  | lose (working : Bool) : Next fresh flagged (stalled working) (settled .lost rfl working)
  | leaveStalled : Next fresh flagged (stalled true) (stalled false)
  | leaveSettled (state : TaskState) (ended : state.isTerminal = true) :
      Next fresh flagged (settled state ended true) (settled state ended false)

abbrev Leads (fresh flagged : Prop) := Relation.ReflTransGen (Next fresh flagged)

variable {fresh flagged fresh' flagged' : Prop} {a b : Standing}

theorem Leads.mono (hf : fresh → fresh') (hg : flagged → flagged') (h : Leads fresh flagged a b) :
    Leads fresh' flagged' a b := by
  refine Relation.ReflTransGen.mono (fun x y hxy => ?_) _ _ h
  cases hxy with
  | accept h => exact .accept (hf h)
  | reject h => exact .reject (hf h)
  | discard => exact .discard
  | grant => exact .grant
  | start => exact .start
  | finish state ended => exact .finish state ended
  | flag h => exact .flag (hg h)
  | lose working => exact .lose working
  | leaveStalled => exact .leaveStalled
  | leaveSettled state ended => exact .leaveSettled state ended

/-- What a step of the lifecycle keeps, the lifecycle keeps. -/
theorem Leads.keeps {P : Standing → Prop} (hP : ∀ x y, Next fresh flagged x y → P x → P y)
    (h : Leads fresh flagged a b) (ha : P a) : P b := by
  induction h with
  | refl => exact ha
  | tail _ hn ih => exact hP _ _ hn ih

theorem Leads.eq_unknown (hf : ¬ fresh) (h : Leads fresh flagged a b) (ha : a = unknown) :
    b = unknown := by
  refine h.keeps (P := (· = unknown)) (fun x y hn hx => ?_) ha
  subst hx
  cases hn with
  | accept h => exact absurd h hf
  | reject h => exact absurd h hf

theorem Leads.ne_unknown (h : Leads fresh flagged a b) (ha : a ≠ unknown) : b ≠ unknown := by
  refine h.keeps (P := (· ≠ unknown)) (fun x y hn _ => ?_) ha
  cases hn <;> simp

/-- The trace of the task is lost. -/
def IsLost (a : Standing) : Prop := (∃ w, a = stalled w) ∨ ∃ w, a = settled .lost rfl w

theorem Leads.isLost (h : Leads fresh flagged a b) (ha : a.IsLost) : b.IsLost := by
  refine h.keeps (P := IsLost) (fun x y hn hx => ?_) ha
  rcases hx with ⟨w, rfl⟩ | ⟨w, rfl⟩
  · cases hn with
    | lose => exact Or.inr ⟨_, rfl⟩
    | leaveStalled => exact Or.inl ⟨_, rfl⟩
  · cases hn
    exact Or.inr ⟨_, rfl⟩

/-- Without a sweep no task is left between its trace and its end. -/
theorem Leads.ne_stalled (hg : ¬ flagged) (h : Leads fresh flagged a b)
    (ha : ∀ w, a ≠ stalled w) : ∀ w, b ≠ stalled w := by
  refine h.keeps (P := fun x => ∀ w, x ≠ stalled w) (fun x y hn hx => ?_) ha
  cases hn with
  | flag h => exact absurd h hg
  | leaveStalled => exact absurd rfl (hx true)
  | accept | reject | discard | grant | start | finish | lose | leaveSettled => simp

/-- An end state is never left. -/
theorem Leads.task_eq {id : TaskId} {state : TaskState} (ended : state.isTerminal = true)
    (h : Leads fresh flagged a b) (ha : (a.view id).task = some state) :
    (b.view id).task = some state := by
  refine h.keeps (P := fun x => (x.view id).task = some state) (fun x y hn hx => ?_) ha
  cases hn with
  | accept | reject => cases hx
  | leaveSettled => exact hx
  | discard | grant | start | finish | flag | lose | leaveStalled =>
    obtain rfl := Option.some.inj hx
    cases ended

/-- What has been announced stays announced. -/
theorem Leads.notices_prefix {id : TaskId} (h : Leads fresh flagged a b) :
    (a.view id).notices <+: (b.view id).notices := by
  refine h.keeps (P := fun x => (a.view id).notices <+: (x.view id).notices)
    (fun x y hn hx => hx.trans ?_) (List.prefix_refl _)
  cases hn <;> simp [view, List.cons_prefix_cons]

theorem crew_inj {w w' : Bool} : crew w = crew w' ↔ w = w' := by
  cases w <;> cases w' <;> simp [crew]

theorem view_injective {id : TaskId} (h : a.view id = b.view id) : a = b := by
  cases a <;> cases b <;> simp_all [view, crew_inj]

end Standing

end Overseer
