import Overseer.Proofs.Queue.Basic
import Overseer.Proofs.System.Standing
import Overseer.Proofs.Task.Basic

/-! # What the primitives do to a view

The operations on the system are put together from a few changes: a step is put on record, a task is ended, a
worker goes on to another phase, the queue changes. For each of them it is said here what it does to the view
of the id concerned, and that all other views stay as they are. The observer is the silent one throughout.
-/

namespace Overseer

/-! ## Tasks -/

theorem Task.finish_ok {t : Task} {o : Outcome} (h : t.state.canMove o.state = true) (now : Time) :
    ∃ t', t.finish o now = .ok t' ∧ t'.state = o.state :=
  ⟨t.ended o now, by rw [finish_eq, if_pos h], t.state_ended o now⟩

theorem Task.finish_error {t : Task} {o : Outcome} (h : t.state.canMove o.state = false)
    (now : Time) : t.finish o now = .error ⟨t.state, o.state⟩ := by
  rw [finish_eq, if_neg (Bool.eq_false_iff.mp h)]

/-- The record of a task that ends has the failure of its outcome. -/
theorem Task.of_finish {t t' : Task} {o : Outcome} {now : Time} (h : t.finish o now = .ok t') :
    t'.state = o.state ∧ ∀ f, o.failure? = some f → t'.failure = some f := by
  rw [eq_ended_of_finish h]
  exact ⟨t.state_ended o now, fun f hf => failure_ended hf t now⟩

/-- The record of a task once it has been lost. -/
def Task.lose (t : Task) (now : Time) : Task :=
  { t with
    state := .lost
    finishedAt := some now
    failure := some ⟨.stalled, "no trace activity within the stall timeout"⟩ }

theorem Task.finish_lost {t : Task} (h : t.state = .processing) (now : Time) :
    t.finish .lost now = .ok (t.lose now) := by
  have hmove : t.state.canMove .lost = true := by
    rw [h]
    rfl
  exact (t.finish_eq .lost now).trans (if_pos hmove)

namespace TaskStore

theorem update_ok {s : TaskStore} {id : TaskId} {f : Task → Except InvalidMove Task} {t t' : Task}
    (h : s.get? id = some t) (hf : f t = .ok t') : s.update id f = .ok (s.set id t') := by
  simp [update, h, hf]

theorem update_error {s : TaskStore} {id : TaskId} {f : Task → Except InvalidMove Task} {t : Task}
    {e : InvalidMove} (h : s.get? id = some t) (hf : f t = .error e) :
    s.update id f = .error (.invalid e) := by
  simp [update, h, hf]

/-- A call that is not refused replaces the task by another one. -/
theorem update_cases {s s' : TaskStore} {id : TaskId} {f : Task → Except InvalidMove Task}
    (h : s.update id f = .ok s') : ∃ t t', s.get? id = some t ∧ f t = .ok t' ∧ s' = s.set id t' := by
  unfold update at h
  split at h
  · cases h
  · rename_i t ht
    split at h
    · cases h
    · rename_i t' ht'
      exact ⟨t, t', ht, ht', (Except.ok.inj h).symm⟩

end TaskStore

namespace Tracer

theorem markTerminal_of_open {t : Tracer} {id : TaskId} {trace : Trace} {state : TaskState}
    (h : t.get? id = some trace) (hopen : trace.state.isTerminal = false)
    (hstate : state.isTerminal = true) :
    t.markTerminal id state = (true, t.set id { trace with state := state }) := by
  simp [markTerminal, h, Trace.isTerminal, hopen, hstate]

theorem markTerminal_of_isTerminal {t : Tracer} {id : TaskId} {trace : Trace}
    (h : t.get? id = some trace) (hended : trace.state.isTerminal = true) (state : TaskState) :
    t.markTerminal id state = (false, t) := by
  simp [markTerminal, h, Trace.isTerminal, hended]

theorem markTerminal_cases (t : Tracer) (id : TaskId) (state : TaskState) :
    t.markTerminal id state = (false, t) ∨
    ∃ trace, t.get? id = some trace ∧
      t.markTerminal id state = (true, t.set id { trace with state := state }) := by
  unfold markTerminal
  split
  · exact Or.inl rfl
  · split
    · exact Or.inl rfl
    · split
      · exact Or.inl rfl
      · exact Or.inr ⟨_, by assumption, rfl⟩

end Tracer

theorem Table.keys_set_of_get? {α β : Type} [DecidableEq α] {t : Table α β} {k : α} {u : β}
    (h : t.get? k = some u) (v : β) : (t.set k v).keys = t.keys :=
  Table.keys_set_of_contains (by rw [Table.contains_eq, h]; rfl) v

/-- What each step of a fold keeps, the fold keeps. -/
theorem foldl_keeps {α β γ : Type} {f : α → β → α} (P : α → γ) (h : ∀ a b, P (f a b) = P a)
    (l : List β) (a : α) : P (l.foldl f a) = P a := by
  induction l generalizing a with
  | nil => rfl
  | cons b l ih => rw [List.foldl_cons, ih, h]

namespace System

variable {κ : Type} {s : System κ} {id j : TaskId}

/-! ## Stores -/

theorem notices_announce (e : Event) (j : TaskId) :
    (s.announce .silent e).notices j
      = s.notices j ++ (if e.id = j then e.notice?.toList else []) := by
  by_cases h : e.id = j
  · cases hn : e.notice? <;> simp [announce, Observer.silent, notices, h, hn]
  · simp [announce, Observer.silent, notices, h]

theorem view_announce (e : Event) (j : TaskId) :
    (s.announce .silent e).view j
      = { s.view j with
          notices := (s.view j).notices ++ (if e.id = j then e.notice?.toList else []) } := by
  have h := notices_announce (s := s) e j
  simp only [view, h]
  rfl

theorem view_announce_of_ne {e : Event} (h : e.id ≠ j) (s : System κ) :
    (s.announce .silent e).view j = s.view j := by
  rw [view_announce, if_neg h, List.append_nil]

/-- A change of the task store is seen by the id whose task has been replaced alone. -/
theorem view_setTask {t t' : Task} (h : s.tasks.get? id = some t) :
    ({ s with tasks := s.tasks.set id t' } : System κ).view id
      = { s.view id with task := some t'.state } := by
  simp [view, Table.get?_set, Table.keys_set_of_get? h, notices]

theorem view_setTask_of_ne {t t' : Task} (h : s.tasks.get? id = some t) (hj : j ≠ id) :
    ({ s with tasks := s.tasks.set id t' } : System κ).view j = s.view j := by
  simp [view, Table.get?_set_of_ne hj, Table.keys_set_of_get? h, notices]

theorem view_setTrace {t t' : Trace} (h : s.tracer.get? id = some t) (hid : t'.id = t.id) :
    ({ s with tracer := s.tracer.set id t' } : System κ).view id
      = { s.view id with trace := some t'.state } := by
  simp [view, Tracer.state?, Table.get?_set, Table.keys_set_of_get? h, notices, h, hid]

theorem view_setTrace_of_ne {t t' : Trace} (h : s.tracer.get? id = some t) (hj : j ≠ id) :
    ({ s with tracer := s.tracer.set id t' } : System κ).view j = s.view j := by
  simp [view, Tracer.state?, Table.get?_set_of_ne hj, Table.keys_set_of_get? h, notices]

/-- A change of the task and the trace at once. Why a token was cancelled is not to be seen. -/
theorem view_setBoth {k k' : Task} {t t' : Trace} {reasons : Table TaskId FailureReason}
    (hk : s.tasks.get? id = some k) (ht : s.tracer.get? id = some t) (hid : t'.id = t.id) :
    ({ s with tracer := s.tracer.set id t', cancelReasons := reasons, tasks := s.tasks.set id k' } :
        System κ).view id
      = { s.view id with task := some k'.state, trace := some t'.state } := by
  simp [view, Tracer.state?, Table.get?_set, Table.keys_set_of_get? hk, Table.keys_set_of_get? ht,
    notices, ht, hid]

theorem view_setBoth_of_ne {k k' : Task} {t t' : Trace} {reasons : Table TaskId FailureReason}
    (hk : s.tasks.get? id = some k) (ht : s.tracer.get? id = some t) (hj : j ≠ id) :
    ({ s with tracer := s.tracer.set id t', cancelReasons := reasons, tasks := s.tasks.set id k' } :
        System κ).view j = s.view j := by
  simp [view, Tracer.state?, Table.get?_set_of_ne hj, Table.keys_set_of_get? hk,
    Table.keys_set_of_get? ht, notices]

/-- Only the queue, and of the queue only who is pending and who is active, counts for a view. -/
theorem view_withQueue (q : Queue) (j : TaskId) :
    (s.withQueue q).view j
      = { s.view j with queued := q.pending.count j, active := q.active.contains j } := rfl

theorem view_withQueue_eq {q : Queue} (hp : q.pending = s.queue.pending)
    (ha : q.active = s.queue.active) (j : TaskId) : (s.withQueue q).view j = s.view j := by
  rw [view_withQueue, hp, ha]
  rfl

theorem exists_task {state : TaskState} (h : (s.view id).task = some state) :
    ∃ t, s.tasks.get? id = some t ∧ t.state = state := Option.map_eq_some_iff.mp h

theorem exists_trace {state : TaskState} (h : (s.view id).trace = some state) :
    ∃ t, s.tracer.get? id = some t ∧ t.state = state := Option.map_eq_some_iff.mp h

theorem get?_of_inactive (h : (s.view id).active = false) : s.queue.active.get? id = none := by
  change s.queue.active.contains id = false at h
  rw [Table.contains_eq] at h
  simpa using h

/-! ## Steps on record -/

theorem record_of_none (h : s.tracer.get? id = none) (obs : Observer κ) (step : Step) :
    s.record obs id step = s := by
  simp only [record, Tracer.record, h]

/-- The event has the number that the step gets. -/
theorem record_of_get? {trace : Trace} (h : s.tracer.get? id = some trace) (step : Step) :
    s.record .silent id step
      = ({ s with
            tracer := s.tracer.set id { trace.push step s.now with lastActivity := s.now } } :
          System κ).announce .silent (.ofStep trace.id trace.steps.length step) := by
  have hlast : ({ trace.push step s.now with lastActivity := s.now } : Trace).lastEvent step
      = .ofStep trace.id trace.steps.length step := by
    simp [Trace.lastEvent, Trace.push]
  simp only [record, Tracer.record, h, hlast]

/-- Putting a step on record changes the trace and tells of it. -/
theorem record_cases (id : TaskId) (step : Step) (s : System κ) :
    s.record .silent id step = s ∨
    ∃ t t' e, s.tracer.get? id = some t ∧ t'.id = t.id ∧ t'.state = t.state ∧ e.notice? = none ∧
      s.record .silent id step
        = ({ s with tracer := s.tracer.set id t' } : System κ).announce .silent e := by
  unfold record Tracer.record
  cases h : s.tracer.get? id with
  | none => exact Or.inl rfl
  | some t =>
    exact Or.inr ⟨t, { t.push step s.now with lastActivity := s.now }, _, rfl, rfl, rfl, rfl, rfl⟩

@[simp] theorem view_record (id : TaskId) (step : Step) (s : System κ) (j : TaskId) :
    (s.record .silent id step).view j = s.view j := by
  rcases record_cases id step s with h | ⟨t, t', e, ht, hid, hst, hn, h⟩
  · rw [h]
  · rw [h, view_announce, hn]
    by_cases hj : j = id
    · subst hj
      rw [view_setTrace ht hid, hst]
      simp [view, Tracer.state?, ht]
    · rw [view_setTrace_of_ne ht hj]
      simp

/-- All else is as it was. -/
theorem record_eq (id : TaskId) (step : Step) (s : System κ) :
    ∃ tracer events, s.record .silent id step = { s with tracer := tracer, events := events } := by
  rcases record_cases id step s with h | ⟨t, t', e, -, -, -, -, h⟩
  · exact ⟨s.tracer, s.events, h⟩
  · exact ⟨_, _, h⟩

@[simp] theorem queue_record (id : TaskId) (step : Step) (s : System κ) :
    (s.record .silent id step).queue = s.queue := by
  obtain ⟨tracer, events, h⟩ := record_eq id step s
  rw [h]

@[simp] theorem workers_record (id : TaskId) (step : Step) (s : System κ) :
    (s.record .silent id step).workers = s.workers := by
  obtain ⟨tracer, events, h⟩ := record_eq id step s
  rw [h]

@[simp] theorem tasks_record (id : TaskId) (step : Step) (s : System κ) :
    (s.record .silent id step).tasks = s.tasks := by
  obtain ⟨tracer, events, h⟩ := record_eq id step s
  rw [h]

@[simp] theorem cancelReasons_record (id : TaskId) (step : Step) (s : System κ) :
    (s.record .silent id step).cancelReasons = s.cancelReasons := by
  obtain ⟨tracer, events, h⟩ := record_eq id step s
  rw [h]

@[simp] theorem reached_record (id : TaskId) (step : Step) (s : System κ) :
    (s.record .silent id step).reached = s.reached := by
  obtain ⟨tracer, events, h⟩ := record_eq id step s
  rw [h]

theorem clock_record (id : TaskId) (step : Step) (s : System κ) :
    (s.record .silent id step).clock = s.clock := by
  obtain ⟨tracer, events, h⟩ := record_eq id step s
  rw [h]

@[simp] theorem view_recordAll (id : TaskId) (steps : List Step) (s : System κ) (j : TaskId) :
    (s.recordAll .silent id steps).view j = s.view j :=
  foldl_keeps (fun s : System κ => s.view j) (fun s step => view_record id step s j) steps s

@[simp] theorem queue_recordAll (id : TaskId) (steps : List Step) (s : System κ) :
    (s.recordAll .silent id steps).queue = s.queue :=
  foldl_keeps (fun s : System κ => s.queue) (fun s step => queue_record id step s) steps s

@[simp] theorem workers_recordAll (id : TaskId) (steps : List Step) (s : System κ) :
    (s.recordAll .silent id steps).workers = s.workers :=
  foldl_keeps (fun s : System κ => s.workers) (fun s step => workers_record id step s) steps s

@[simp] theorem tasks_recordAll (id : TaskId) (steps : List Step) (s : System κ) :
    (s.recordAll .silent id steps).tasks = s.tasks :=
  foldl_keeps (fun s : System κ => s.tasks) (fun s step => tasks_record id step s) steps s

@[simp] theorem cancelReasons_recordAll (id : TaskId) (steps : List Step) (s : System κ) :
    (s.recordAll .silent id steps).cancelReasons = s.cancelReasons :=
  foldl_keeps (fun s : System κ => s.cancelReasons)
    (fun s step => cancelReasons_record id step s) steps s

@[simp] theorem reached_recordAll (id : TaskId) (steps : List Step) (s : System κ) :
    (s.recordAll .silent id steps).reached = s.reached :=
  foldl_keeps (fun s : System κ => s.reached) (fun s step => reached_record id step s) steps s

/-! ## Ends -/

theorem finishEvent_id (s : System κ) (id : TaskId) (o : Outcome) : (s.finishEvent id o).id = id := by
  cases o <;> rfl

theorem finishEvent_notice? (s : System κ) (id : TaskId) (o : Outcome) :
    (s.finishEvent id o).notice? = some (.ended o.state) := by
  cases o <;> rfl

/-- Who comes after the trace has ended changes nothing. -/
theorem finish_of_isTerminal {b : TaskState} (hr : (s.view id).trace = some b)
    (hb : b.isTerminal = true) (o : Outcome) : s.finish .silent id o = s := by
  obtain ⟨t, ht, rfl⟩ := exists_trace hr
  rw [finish, Tracer.markTerminal_of_isTerminal ht hb]

theorem finish_of_none (h : (s.view id).trace = none) (o : Outcome) :
    s.finish .silent id o = s := by
  have hnone : s.tracer.get? id = none := Option.map_eq_none_iff.mp h
  have hwon : s.tracer.markTerminal id o.state = (false, s.tracer) := by
    simp [Tracer.markTerminal, hnone]
  rw [finish, hwon]

/-- Who comes first puts the outcome into the trace and the store and announces it. -/
theorem finish_of_open {task : Task} {trace : Trace} {o : Outcome} (ht : s.tasks.get? id = some task)
    (ha : task.state.canMove o.state = true) (hr : s.tracer.get? id = some trace)
    (hb : trace.state.isTerminal = false) :
    ∃ task' e, task'.state = o.state ∧ e.id = id ∧ e.notice? = some (.ended o.state) ∧
      s.finish .silent id o
        = ({ s with
              tracer := s.tracer.set id { trace with state := o.state }
              cancelReasons := s.cancelReasons.remove id
              tasks := s.tasks.set id task' } : System κ).announce .silent e := by
  obtain ⟨task', htask, hstate⟩ := Task.finish_ok ha s.now
  have hstore : s.tasks.finish id o s.now = .ok (s.tasks.set id task') :=
    TaskStore.update_ok ht htask
  have hfinish : s.finish .silent id o
      = ({ s with
            tracer := s.tracer.set id { trace with state := o.state }
            cancelReasons := s.cancelReasons.remove id
            tasks := s.tasks.set id task' } : System κ).announce .silent
          (finishEvent { s with
            tracer := s.tracer.set id { trace with state := o.state }
            cancelReasons := s.cancelReasons.remove id } id o) := by
    unfold finish
    rw [Tracer.markTerminal_of_open hr hb o.state_isTerminal]
    simp only [now] at hstore ⊢
    rw [hstore]
  exact ⟨task', _, hstate, finishEvent_id _ id o, finishEvent_notice? _ id o, hfinish⟩

theorem view_finish {a b : TaskState} {o : Outcome} (ht : (s.view id).task = some a)
    (ha : a.canMove o.state = true) (hr : (s.view id).trace = some b) (hb : b.isTerminal = false) :
    (s.finish .silent id o).view id
      = { s.view id with
          task := some o.state, trace := some o.state,
          notices := (s.view id).notices ++ [.ended o.state] } := by
  obtain ⟨task, htask, rfl⟩ := exists_task ht
  obtain ⟨trace, htrace, rfl⟩ := exists_trace hr
  obtain ⟨task', e, hstate, heid, he, h⟩ := finish_of_open htask ha htrace hb
  have hid : ({ trace with state := o.state } : Trace).id = trace.id := rfl
  rw [h, view_announce, view_setBoth htask htrace hid, if_pos heid, he, hstate]
  rfl

theorem view_finish_of_ne (hj : j ≠ id) (o : Outcome) (s : System κ) :
    (s.finish .silent id o).view j = s.view j := by
  unfold finish
  rcases Tracer.markTerminal_cases s.tracer id o.state with h | ⟨trace, htrace, h⟩
  · rw [h]
  · rw [h]
    dsimp only
    split
    · exact view_setTrace_of_ne htrace hj
    · rename_i tasks hstore
      obtain ⟨task, task', htask, -, rfl⟩ := TaskStore.update_cases hstore
      rw [view_announce, finishEvent_id, if_neg (Ne.symm hj),
        view_setBoth_of_ne htask htrace hj]
      simp

/-- The end of a task is put down in its record and its trace, and it is told. -/
theorem finish_eq (id : TaskId) (o : Outcome) (s : System κ) :
    ∃ tasks tracer reasons events, s.finish .silent id o
      = { s with tasks := tasks, tracer := tracer, cancelReasons := reasons, events := events } := by
  unfold finish
  split
  · exact ⟨s.tasks, s.tracer, s.cancelReasons, s.events, rfl⟩
  · dsimp only
    split
    · exact ⟨s.tasks, _, _, s.events, rfl⟩
    · exact ⟨_, _, _, _, rfl⟩

@[simp] theorem queue_finish (id : TaskId) (o : Outcome) (s : System κ) :
    (s.finish .silent id o).queue = s.queue := by
  obtain ⟨tasks, tracer, reasons, events, h⟩ := finish_eq id o s
  rw [h]

@[simp] theorem workers_finish (id : TaskId) (o : Outcome) (s : System κ) :
    (s.finish .silent id o).workers = s.workers := by
  obtain ⟨tasks, tracer, reasons, events, h⟩ := finish_eq id o s
  rw [h]

@[simp] theorem reached_finish (id : TaskId) (o : Outcome) (s : System κ) :
    (s.finish .silent id o).reached = s.reached := by
  obtain ⟨tasks, tracer, reasons, events, h⟩ := finish_eq id o s
  rw [h]

theorem clock_finish (id : TaskId) (o : Outcome) (s : System κ) :
    (s.finish .silent id o).clock = s.clock := by
  obtain ⟨tasks, tracer, reasons, events, h⟩ := finish_eq id o s
  rw [h]

/-- A task that ends has no reason to be cancelled any more; what was noted for others stays. -/
theorem cancelReasons_finish (id : TaskId) (o : Outcome) (s : System κ) :
    (s.finish .silent id o).cancelReasons = s.cancelReasons ∨
    (s.finish .silent id o).cancelReasons = s.cancelReasons.remove id := by
  unfold finish
  split
  · exact Or.inl rfl
  · right
    dsimp only
    split
    · rfl
    · rfl

/-! ## Slots and workers -/

theorem view_release (id : TaskId) (s : System κ) :
    (s.withQueue (s.queue.release id).2).view id = { s.view id with active := false } := by
  rw [view_withQueue, Queue.pending_release, Queue.contains_release]
  rfl

theorem view_release_of_ne (hj : j ≠ id) (s : System κ) :
    (s.withQueue (s.queue.release id).2).view j = s.view j := by
  rw [view_withQueue, Queue.pending_release, Queue.contains_release_of_ne hj]
  rfl

variable {n : Nat} {w : Worker κ}

theorem exists_split (hw : s.workers[n]? = some w) :
    ∃ before after, s.workers = before ++ w :: after ∧
      ∀ phase, (s.setPhase n phase).workers = before ++ { w with phase := phase } :: after := by
  obtain ⟨hn, rfl⟩ := List.getElem?_eq_some_iff.mp hw
  refine ⟨s.workers.take n, s.workers.drop (n + 1), by simp, fun phase => ?_⟩
  simp [setPhase, List.modify_eq_take_cons_drop hn]

theorem activity_mem_crew (hw : s.workers[n]? = some w) :
    w.phase.activity ∈ (s.view w.admission.id).crew := by
  have hmem : w ∈ s.workers := List.mem_of_getElem? hw
  exact List.mem_map.mpr ⟨w, List.mem_filter.mpr ⟨hmem, by simp⟩, rfl⟩

/-- A worker that has its task to itself is the only one with that task. -/
theorem filter_of_split {before after : List (Worker κ)} (hs : s.workers = before ++ w :: after)
    (hc : (s.view w.admission.id).crew.length = 1) :
    before.filter (fun v => v.admission.id == w.admission.id) = [] ∧
      after.filter (fun v => v.admission.id == w.admission.id) = [] := by
  simp only [view, hs, List.filter_append, List.length_map, List.length_append,
    List.filter_cons, beq_self_eq_true, if_true, List.length_cons] at hc
  constructor
  · exact List.eq_nil_of_length_eq_zero (by omega)
  · exact List.eq_nil_of_length_eq_zero (by omega)

theorem ne_of_split {before after : List (Worker κ)} (hs : s.workers = before ++ w :: after)
    (hc : (s.view w.admission.id).crew.length = 1) :
    ∀ v ∈ before ++ after, v.admission.id ≠ w.admission.id := by
  obtain ⟨hb, ha⟩ := filter_of_split hs hc
  intro v hv he
  rcases List.mem_append.mp hv with hv | hv
  · exact List.filter_eq_nil_iff.mp hb v hv (beq_iff_eq.mpr he)
  · exact List.filter_eq_nil_iff.mp ha v hv (beq_iff_eq.mpr he)

/-- Such a worker is all that the view has for a crew. -/
theorem view_setPhase (hw : s.workers[n]? = some w)
    (hc : (s.view w.admission.id).crew.length = 1) (phase : Phase κ) :
    (s.setPhase n phase).view w.admission.id
      = { s.view w.admission.id with crew := [phase.activity] } := by
  obtain ⟨before, after, hs, hs'⟩ := exists_split hw
  obtain ⟨hb, ha⟩ := filter_of_split hs hc
  have hcrew : ((s.setPhase n phase).view w.admission.id).crew = [phase.activity] := by
    simp [view, hs', hb, ha]
  rw [← hcrew]
  rfl

theorem view_setPhase_of_ne (hw : s.workers[n]? = some w) (hj : j ≠ w.admission.id)
    (phase : Phase κ) : (s.setPhase n phase).view j = s.view j := by
  obtain ⟨before, after, hs, hs'⟩ := exists_split hw
  have hcrew : ((s.setPhase n phase).view j).crew = (s.view j).crew := by
    simp [view, hs, hs', Ne.symm hj]
  change { s.view j with crew := ((s.setPhase n phase).view j).crew } = s.view j
  rw [hcrew]

theorem queue_leave (n : Nat) (a : Admission) (o : Outcome) (s : System κ) :
    (s.leave .silent n a (some o)).queue = (s.queue.release a.id).2 := by
  have hq := queue_finish a.id o s
  simp only [leave, setPhase, withQueue, Queue.dropAdmission, hq]

/-- A worker that leaves gives its slot back, whether its outcome counts or not. -/
theorem view_leave (hw : s.workers[n]? = some w) (hc : (s.view w.admission.id).crew.length = 1)
    (o : Outcome) :
    (s.leave .silent n w.admission (some o)).view w.admission.id
      = { (s.finish .silent w.admission.id o).view w.admission.id with
          active := false, crew := [.gone] } := by
  have hview := view_release w.admission.id (s.finish .silent w.admission.id o)
  have hcrew : ((s.finish .silent w.admission.id o).view w.admission.id).crew
      = (s.view w.admission.id).crew := by
    simp only [view, workers_finish]
  simp only [leave, Queue.dropAdmission]
  rw [view_setPhase (by rw [← hw]; exact congrArg (·[n]?) (workers_finish _ o s)), hview]
  · rfl
  · rw [hview, hcrew, hc]

theorem view_leave_of_ne (hw : s.workers[n]? = some w) (hj : j ≠ w.admission.id) (o : Outcome) :
    (s.leave .silent n w.admission (some o)).view j = s.view j := by
  simp only [leave, Queue.dropAdmission]
  rw [view_setPhase_of_ne (by rw [← hw]; exact congrArg (·[n]?) (workers_finish _ o s)) hj,
    view_release_of_ne hj, view_finish_of_ne hj]

end System

end Overseer
