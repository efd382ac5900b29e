import Overseer.Proofs.System.Calls
import Overseer.Proofs.System.Pulse
import Overseer.Proofs.System.Stall

/-! # Events replay traces

Whoever listens to the events can write down every trace as it stands: the step events for a task come with the
numbers of its steps, in their order, and say of each what the trace says (`Replays`).

All that touches a trace are calls of the tracer, and each call runs to its end before the next one. That is what a
`Stroke` is; all that happens between two calls is one as well, for it leaves the steps alone and tells of none. An
operation is a list of strokes (`Strokes`), so the events go on replaying the traces in whatever way the operations of
workers, operators and watchdogs interleave.
-/

namespace Overseer

/-- The events that tell of a step of a task. -/
def stepEvents (id : TaskId) (events : List Event) : List Event :=
  events.filter fun e => e.isStep && e.id == id

/-- The events for some steps, of which the first has the number `start`. -/
def stepEventsFrom (id : TaskId) (start : Nat) (steps : List TraceStep) : List Event :=
  steps.mapIdx fun i step => .ofStep id (i + start) step.step

theorem stepEvents_append (id : TaskId) (events more : List Event) :
    stepEvents id (events ++ more) = stepEvents id events ++ stepEvents id more :=
  List.filter_append events more

theorem stepEventsFrom_append (id : TaskId) (start : Nat) (steps more : List TraceStep) :
    stepEventsFrom id start (steps ++ more)
      = stepEventsFrom id start steps ++ stepEventsFrom id (start + steps.length) more := by
  unfold stepEventsFrom
  rw [List.mapIdx_append]
  simp only [Nat.add_assoc, Nat.add_comm start]

theorem stepEventsFrom_singleton (id : TaskId) (start : Nat) (step : TraceStep) :
    stepEventsFrom id start [step] = [.ofStep id start step.step] := by
  rw [stepEventsFrom, List.mapIdx_singleton, Nat.zero_add]

theorem of_mem_stepEventsFrom {id : TaskId} {start : Nat} {steps : List TraceStep} {e : Event}
    (h : e ∈ stepEventsFrom id start steps) : e.isStep = true ∧ e.id = id := by
  obtain ⟨i, hi, rfl⟩ := List.mem_mapIdx.mp h
  exact ⟨rfl, rfl⟩

theorem stepEvents_stepEventsFrom (id : TaskId) (start : Nat) (steps : List TraceStep) :
    stepEvents id (stepEventsFrom id start steps) = stepEventsFrom id start steps := by
  refine List.filter_eq_self.mpr fun e he => ?_
  obtain ⟨hstep, hid⟩ := of_mem_stepEventsFrom he
  simp [hstep, hid]

theorem stepEvents_stepEventsFrom_of_ne {id j : TaskId} (h : j ≠ id) (start : Nat)
    (steps : List TraceStep) : stepEvents j (stepEventsFrom id start steps) = [] := by
  refine List.filter_eq_nil_iff.mpr fun e he => ?_
  rw [(of_mem_stepEventsFrom he).2]
  simp [Ne.symm h]

namespace System

variable {κ : Type} {s t u : System κ} {id j : TaskId}

/-- The steps that a task has; none without a trace. -/
def stepsOf (s : System κ) (id : TaskId) : List TraceStep :=
  ((s.tracer.get? id).map (·.steps)).getD []

structure Replays (s : System κ) : Prop where
  steps : ∀ id, stepEvents id s.events = stepEventsFrom id 0 (s.stepsOf id)
  /-- Before a task is announced nothing is told of it but its first step. -/
  created : ∀ id before after, s.events = before ++ .taskCreated id :: after →
    ∃ first rest, s.stepsOf id = first :: rest ∧
      before.filter (·.id == id) = [.ofStep id 0 first.step]

/-! ## Strokes -/

/-- The traces have the steps that they had. -/
structure SameSteps (s t : System κ) : Prop where
  keys : t.tracer.keys = s.tracer.keys
  labels : ∀ id, (t.tracer.get? id).map (·.id) = (s.tracer.get? id).map (·.id)
  steps : ∀ id, t.stepsOf id = s.stepsOf id

/-- What happens without a break. -/
inductive Stroke : System κ → System κ → Prop
  | aside {s t : System κ} (same : SameSteps s t) {more : List Event}
      (events : t.events = s.events ++ more)
      (silent : ∀ e ∈ more, e.isStep = false ∧ ∀ id, e ≠ .taskCreated id) : Stroke s t
  | record (id : TaskId) (step : Step) (s : System κ) : Stroke s (s.record .silent id step)
  | flag (timeout : Duration) (s : System κ) : Stroke s (s.flagStalled .silent timeout).2
  | register {s : System κ} {id : TaskId} (payload : Json) (new : s.tracer.get? id = none)
      (untold : s.notices id = []) : Stroke s (s.register .silent id payload)

def Strokes : System κ → System κ → Prop := Relation.ReflTransGen Stroke

/-! ## What a stroke keeps -/

/-- Events replay traces that are kept under their own ids, each once. -/
structure Faithful (s : System κ) : Prop extends Replays s where
  nodup : s.tracer.keys.Nodup
  labels : ∀ id trace, s.tracer.get? id = some trace → trace.id = id

namespace Faithful

theorem new (limit : Nat) (maxPending : Option Nat) (orders : List Order) :
    Faithful (System.new limit maxPending orders : System κ) where
  steps _ := rfl
  created _ _ _ h := by simp [System.new] at h
  nodup := List.nodup_nil
  labels _ _ h := nomatch h

/-- More steps have been put on record, and the events tell of them. -/
theorem extend (h : Faithful s) (hnodup : t.tracer.keys.Nodup)
    (hlabels : ∀ id trace, t.tracer.get? id = some trace → trace.id = id) {more : List Event}
    (hevents : t.events = s.events ++ more) (huncreated : ∀ id, .taskCreated id ∉ more)
    (hsteps : ∀ id, ∃ added, t.stepsOf id = s.stepsOf id ++ added ∧
      stepEvents id more = stepEventsFrom id (s.stepsOf id).length added) : Faithful t where
  nodup := hnodup
  labels := hlabels
  steps id := by
    obtain ⟨added, ht, hmore⟩ := hsteps id
    rw [hevents, stepEvents_append, h.steps, hmore, ht, stepEventsFrom_append, Nat.zero_add]
  created id before after hsplit := by
    rw [hevents] at hsplit
    have hold : ∃ rest, s.events = before ++ .taskCreated id :: rest := by
      rcases List.append_eq_append_iff.mp hsplit with ⟨part, -, hmore⟩ | ⟨part, hs, hrest⟩
      · exact absurd (hmore ▸ List.mem_append_right _ List.mem_cons_self) (huncreated id)
      · cases part with
        | nil =>
          rw [List.nil_append] at hrest
          exact absurd (hrest ▸ List.mem_cons_self) (huncreated id)
        | cons e part =>
          obtain ⟨rfl, -⟩ := List.cons.inj hrest
          exact ⟨part, hs⟩
    obtain ⟨rest, hold⟩ := hold
    obtain ⟨first, others, hfirst, hbefore⟩ := h.created id before rest hold
    obtain ⟨added, ht, -⟩ := hsteps id
    exact ⟨first, others ++ added, by rw [ht, hfirst, List.cons_append], hbefore⟩

theorem aside (h : Faithful s) (same : SameSteps s t) {more : List Event}
    (hevents : t.events = s.events ++ more)
    (hsilent : ∀ e ∈ more, e.isStep = false ∧ ∀ id, e ≠ .taskCreated id) : Faithful t := by
  refine h.extend (same.keys ▸ h.nodup) (fun id trace ht => ?_) hevents
    (fun id hmem => (hsilent _ hmem).2 id rfl) fun id => ⟨[], ?_, ?_⟩
  · have hlabel := same.labels id
    rw [ht, Option.map_some, eq_comm, Option.map_eq_some_iff] at hlabel
    obtain ⟨trace', ht', hid⟩ := hlabel
    exact hid ▸ h.labels id trace' ht'
  · rw [same.steps, List.append_nil]
  · refine List.filter_eq_nil_iff.mpr fun e he => ?_
    rw [(hsilent e he).1]
    simp

/-- Some steps have been added to one trace. -/
theorem set (h : Faithful s) {trace : Trace} (ht : s.tracer.get? id = some trace)
    (trace' : Trace) (hid : trace'.id = trace.id) {added : List TraceStep}
    (hsteps : trace'.steps = trace.steps ++ added)
    (htracer : t.tracer = s.tracer.set id trace')
    (hevents : t.events = s.events ++ stepEventsFrom id trace.steps.length added) : Faithful t := by
  have hown : t.tracer.get? id = some trace' := by rw [htracer, Table.get?_set]
  have hother {j : TaskId} (hj : j ≠ id) : t.tracer.get? j = s.tracer.get? j := by
    rw [htracer, Table.get?_set_of_ne hj]
  refine h.extend (htracer ▸ Table.nodup_keys_set h.nodup _ _) (fun j trace'' hj => ?_) hevents
    (fun j hmem => ?_) fun j => ?_
  · by_cases he : j = id
    · subst he
      obtain rfl := Option.some.inj (hown.symm.trans hj)
      rw [hid]
      exact h.labels j trace ht
    · exact h.labels j trace'' ((hother he).symm.trans hj)
  · cases (of_mem_stepEventsFrom hmem).1
  · by_cases he : j = id
    · subst he
      have hold : s.stepsOf j = trace.steps := by rw [stepsOf, ht]; rfl
      have hnew : t.stepsOf j = trace'.steps := by rw [stepsOf, hown]; rfl
      exact ⟨added, by rw [hold, hnew, hsteps], by rw [hold, stepEvents_stepEventsFrom]⟩
    · refine ⟨[], ?_, stepEvents_stepEventsFrom_of_ne he _ _⟩
      rw [stepsOf, hother he, List.append_nil]
      rfl

theorem record (h : Faithful s) (id : TaskId) (step : Step) :
    Faithful (s.record .silent id step) := by
  cases ht : s.tracer.get? id with
  | none =>
    rw [record_of_none ht]
    exact h
  | some trace =>
    rw [record_of_get? ht, h.labels id trace ht]
    refine h.set ht { trace.push step s.now with lastActivity := s.now } rfl rfl rfl ?_
    rw [stepEventsFrom_singleton]
    rfl

theorem entry_label (h : Faithful s) {entry : TaskId × Trace} (hmem : entry ∈ s.tracer) :
    entry.2.id = entry.1 := h.labels _ _ (Table.get?_of_mem h.nodup hmem)

/-- A sweep tells of the gate of each trace that it flags. -/
theorem stepEvents_sweep (h : Faithful s) (timeout : Duration) (id : TaskId) :
    stepEvents id (s.tracer.sweep timeout s.now).2.1
      = ((s.tracer.get? id).toList.filter (·.isStalled timeout s.now)).map fun trace =>
          (Tracer.flag timeout s.now trace).lastEvent (Tracer.stalledStep timeout) := by
  have hlabel (trace : Trace) : (Tracer.flag timeout s.now trace).id = trace.id := by
    unfold Tracer.flag
    split
    · rfl
    · rfl
  rw [← Table.filter_values h.nodup (f := Trace.id) (fun entry he => h.entry_label he) id]
  show stepEvents id ((s.tracer.values.filter _).map _) = _
  rw [stepEvents, List.filter_map, List.filter_filter, List.filter_filter]
  refine congrArg _ (List.filter_congr fun trace _ => ?_)
  show (true && (Tracer.flag timeout s.now trace).id == id && _) = _
  rw [hlabel, Bool.true_and, Bool.and_comm]

theorem flag (h : Faithful s) (timeout : Duration) :
    Faithful (s.flagStalled .silent timeout).2 := by
  have hget := get?_flagStalled timeout s
  have hevents : (s.flagStalled .silent timeout).2.events
      = s.events ++ (s.tracer.sweep timeout s.now).2.1 := by
    simp [System.flagStalled, announceAll_silent]
  refine h.extend ?_ (fun id trace ht => ?_) hevents (fun id hmem => ?_) fun id => ?_
  · rw [tracer_flagStalled]
    simpa only [Tracer.sweep, Table.keys_map_values] using h.nodup
  · rw [hget, Option.map_eq_some_iff] at ht
    obtain ⟨before, hbefore, rfl⟩ := ht
    unfold Tracer.flag
    split
    · exact h.labels id before hbefore
    · exact h.labels id before hbefore
  · obtain ⟨trace, -, he⟩ := List.mem_map.mp hmem
    cases he
  · rw [h.stepEvents_sweep, stepsOf, stepsOf, hget]
    cases ht : s.tracer.get? id with
    | none => exact ⟨[], rfl, rfl⟩
    | some trace =>
      cases hstalled : trace.isStalled timeout s.now with
      | false => exact ⟨[], by simp [Tracer.flag, hstalled], by simp [hstalled, stepEventsFrom]⟩
      | true =>
        refine ⟨[⟨Tracer.stalledStep timeout, s.now⟩], ?_, ?_⟩
        · simp [Tracer.flag, hstalled, Trace.push]
        · rw [stepEventsFrom_singleton]
          simp [hstalled, Tracer.flag, Trace.push, Trace.lastEvent, h.labels id trace ht]

/-- Nothing at all has been told of an id that has no steps and no notices. -/
theorem untold (h : Faithful s) (new : s.tracer.get? id = none) (untold : s.notices id = []) :
    s.events.filter (·.id == id) = [] := by
  have hsteps : stepEvents id s.events = [] := by
    rw [h.steps, stepsOf, new]
    rfl
  refine List.filter_eq_nil_iff.mpr fun e he hid => ?_
  have hnone := List.filterMap_eq_nil_iff.mp untold e (List.mem_filter.mpr ⟨he, hid⟩)
  have hstep : e.isStep = true := by
    cases e with
    | stepAdded => rfl
    | taskCreated | taskStarted | taskCompleted | taskFailed | taskAborted | taskLost => cases hnone
  have hmem : e ∈ stepEvents id s.events :=
    List.mem_filter.mpr ⟨he, by rw [hstep, hid]; rfl⟩
  rw [hsteps] at hmem
  cases hmem

/-- A task is announced after its first step. -/
theorem announceCreated (h : Faithful s) (first : TraceStep) (hfirst : s.stepsOf id = [first])
    (hbefore : s.events.filter (·.id == id) = [.ofStep id 0 first.step]) :
    Faithful (s.announce .silent (.taskCreated id)) where
  nodup := h.nodup
  labels := h.labels
  steps j := by
    show stepEvents j (s.events ++ [.taskCreated id]) = _
    rw [stepEvents_append, h.steps]
    exact List.append_nil _
  created j before after hsplit := by
    change s.events ++ [.taskCreated id] = before ++ .taskCreated j :: after at hsplit
    rcases split_concat hsplit with ⟨rfl, hlast⟩ | ⟨rest, hevents⟩
    · obtain rfl : j = id := Event.taskCreated.inj hlast
      exact ⟨first, [], hfirst, hbefore⟩
    · exact h.created j before rest hevents

theorem register (h : Faithful s) (payload : Json) (new : s.tracer.get? id = none)
    (untold : s.notices id = []) : Faithful (s.register .silent id payload) := by
  have hcontains : s.tracer.contains id = false := by
    rw [Table.contains_eq, new]
    rfl
  rw [register_eq payload hcontains]
  -- The trace is there, and it has no steps yet.
  have hopened : Faithful ({ s with
      tasks := s.tasks.move id (.new id payload s.now)
      tracer := s.tracer.set id (.new id s.now) } : System κ) := by
    refine h.extend (Table.nodup_keys_set h.nodup _ _) (fun j trace hj => ?_)
      (List.append_nil _).symm (fun _ => List.not_mem_nil) fun j => ⟨[], ?_, rfl⟩
    · by_cases he : j = id
      · subst he
        obtain rfl := Option.some.inj ((Table.get?_set _ _ _).symm.trans hj)
        rfl
      · exact h.labels j trace ((Table.get?_set_of_ne he _ _).symm.trans hj)
    · by_cases he : j = id
      · subst he
        simp [stepsOf, Table.get?_set, new, Trace.new]
      · simp [stepsOf, Table.get?_set_of_ne he]
  have hfound : Table.get? (s.tracer.set id (.new id s.now)) id = some (.new id s.now) :=
    Table.get?_set _ _ _
  have hrecorded := hopened.record id (.ok component "submitted" "task accepted")
  rw [record_of_get? hfound] at hrecorded ⊢
  refine hrecorded.announceCreated ⟨.ok component "submitted" "task accepted", s.now⟩ ?_ ?_
  · simp [stepsOf, announce, Observer.silent, Table.get?_set, Trace.push, Trace.new, now]
  · show List.filter (fun e : Event => e.id == id) (s.events ++ [_]) = _
    rw [List.filter_append, h.untold new untold]
    simp [Event.ofStep, Event.id, Trace.new]

theorem stroke (h : Faithful s) (hst : Stroke s t) : Faithful t := by
  cases hst with
  | aside same events silent => exact h.aside same events silent
  | record id step => exact h.record id step
  | flag timeout => exact h.flag timeout
  | register payload new untold => exact h.register payload new untold

theorem strokes (h : Faithful s) (hst : Strokes s t) : Faithful t := by
  induction hst with
  | refl => exact h
  | tail _ next ih => exact ih.stroke next

end Faithful

/-! ## Operations in strokes -/

theorem SameSteps.of_tracer (h : t.tracer = s.tracer) : SameSteps s t :=
  ⟨by rw [h], fun _ => by rw [h], fun _ => by rw [stepsOf, h]; rfl⟩

/-- One trace is replaced, and it has the steps of the other one. -/
theorem SameSteps.of_set {trace trace' : Trace} (htracer : t.tracer = s.tracer.set id trace')
    (ht : s.tracer.get? id = some trace) (hid : trace'.id = trace.id)
    (hsteps : trace'.steps = trace.steps) : SameSteps s t where
  keys := by
    rw [htracer]
    exact Table.keys_set_of_get? ht trace'
  labels j := by
    rw [htracer]
    by_cases he : j = id
    · rw [he, Table.get?_set, ht, Option.map_some, Option.map_some, hid]
    · rw [Table.get?_set_of_ne he]
  steps j := by
    rw [stepsOf, stepsOf, htracer]
    by_cases he : j = id
    · rw [he, Table.get?_set, ht, Option.map_some, Option.map_some, hsteps]
    · rw [Table.get?_set_of_ne he]

namespace Strokes

theorem refl (s : System κ) : Strokes s s := Relation.ReflTransGen.refl

theorem trans (h : Strokes s t) (h' : Strokes t u) : Strokes s u := Relation.ReflTransGen.trans h h'

theorem single (h : Stroke s t) : Strokes s t := Relation.ReflTransGen.single h

theorem quiet (same : SameSteps s t) (events : t.events = s.events) : Strokes s t :=
  .single (.aside same (events.trans (List.append_nil _).symm) fun _ he => nomatch he)

theorem of_tracer (htracer : t.tracer = s.tracer) (hevents : t.events = s.events) : Strokes s t :=
  .quiet (.of_tracer htracer) hevents

theorem withQueue (q : Queue) (s : System κ) : Strokes s (s.withQueue q) := .of_tracer rfl rfl

theorem setPhase (n : Nat) (phase : Phase κ) (s : System κ) : Strokes s (s.setPhase n phase) :=
  .of_tracer rfl rfl

/-- An event that tells of no step and announces no task. -/
theorem announce (same : SameSteps s t) (events : t.events = s.events) (e : Event)
    (hstep : e.isStep = false) (hcreated : ∀ id, e ≠ .taskCreated id) :
    Strokes s (t.announce .silent e) := by
  have hmore : (t.announce .silent e).events = s.events ++ [e] := by
    show t.events ++ [e] = _
    rw [events]
  refine .single (.aside ⟨same.keys, same.labels, same.steps⟩ hmore fun e' he => ?_)
  obtain rfl := List.mem_singleton.mp he
  exact ⟨hstep, hcreated⟩

theorem record (id : TaskId) (step : Step) (s : System κ) : Strokes s (s.record .silent id step) :=
  .single (.record id step s)

theorem recordAll (id : TaskId) (steps : List Step) (s : System κ) :
    Strokes s (s.recordAll .silent id steps) := by
  induction steps generalizing s with
  | nil => exact .refl s
  | cons step steps ih => exact (Strokes.record id step s).trans (ih _)

theorem finish (id : TaskId) (o : Outcome) (s : System κ) : Strokes s (s.finish .silent id o) := by
  unfold System.finish
  rcases Tracer.markTerminal_cases s.tracer id o.state with h | ⟨trace, ht, h⟩
  · rw [h]
    exact .refl _
  · have hsame (tasks : TaskStore) (reasons : Table TaskId FailureReason) : SameSteps s
        { s with
          tasks := tasks, tracer := s.tracer.set id { trace with state := o.state },
          cancelReasons := reasons } := .of_set rfl ht rfl rfl
    rw [h]
    dsimp only
    split
    · exact .quiet (hsame _ _) rfl
    · refine .announce (hsame _ _) rfl _ ?_ fun j => ?_
      · cases o with
        | completed | failed | aborted | lost => rfl
      · cases o with
        | completed | failed | aborted | lost => exact fun he => nomatch he

theorem evict (id : TaskId) (s : System κ) : Strokes s (s.evict id) := by
  obtain ⟨q, -, -, -, h⟩ := evict_eq id s
  rw [h]
  exact .of_tracer rfl rfl

theorem markLost (id : TaskId) (s : System κ) : Strokes s (s.markLost .silent id).2 := by
  have hsame (tasks : TaskStore) : SameSteps s
      { s with tasks := tasks, tracer := (s.tracer.markTerminal id .lost).2 } := by
    rcases Tracer.markTerminal_cases s.tracer id .lost with h | ⟨trace, ht, h⟩
    · exact .of_tracer (congrArg Prod.snd h)
    · exact .of_set (congrArg Prod.snd h) ht rfl rfl
  unfold System.markLost
  dsimp only
  split
  · split
    · exact (Strokes.announce (hsame _) rfl (.taskLost id) rfl fun _ he => nomatch he).trans (.evict id _)
    · exact (Strokes.quiet (hsame _) rfl).trans (.evict id _)
  · exact .quiet (hsame _) rfl

theorem submit (payload : Json) (hu : s.view id = Standing.unknown.view id) :
    Strokes s (s.submit .silent id payload).2 := by
  have hnew : s.tracer.get? id = none := by
    have htrace : (s.tracer.get? id).map (·.state) = none := congrArg View.trace hu
    exact Option.map_eq_none_iff.mp htrace
  have hregister : Strokes s (s.register .silent id payload) :=
    .single (.register payload hnew (congrArg View.notices hu))
  rcases submit_cases id payload s with ⟨step, cause, h⟩ | ⟨-, h⟩
  · rw [h]
    exact (hregister.trans (.record id step _)).trans (.finish id _ _)
  · rw [h]
    exact hregister.trans (.withQueue _ _)

theorem perform (chore : Chore) (s : System κ) : Strokes s (chore.perform s) := by
  cases chore with
  | note id reason => exact .of_tracer rfl rfl
  | gate id action detail => exact .record id _ s
  | close id reason => exact .finish id _ s

theorem consulted [Cost κ] {settings : Settings κ} {n : Nat}
    (h : s.consulted settings n = some t) : Strokes s t := by
  obtain ⟨calls, rfl⟩ := exists_reached h
  exact .of_tracer rfl rfl

end Strokes

/-! ## Turns in strokes -/

section Turns

variable {n : Nat} {a : Admission}

theorem strokes_leave (h : Strokes s t) (o : Option Outcome) :
    Strokes s (t.leave .silent n a o) := by
  cases o with
  | none => exact (h.trans (.withQueue _ _)).trans (.setPhase n _ _)
  | some o => exact ((h.trans (.finish a.id o t)).trans (.withQueue _ _)).trans (.setPhase n _ _)

variable [Cost κ] {settings : Settings κ}

theorem strokes_proceed (h : Strokes s t) (params : Json) (p : Healing.Progress κ) :
    Strokes s (t.proceed .silent n a params p) := by
  have hsteps := h.trans (.recordAll a.id p.steps t)
  unfold proceed
  split
  · exact hsteps.trans (.setPhase n _ _)
  · exact hsteps.trans (.setPhase n _ _)
  · exact strokes_leave hsteps _

theorem strokes_receive (h : Strokes s t) (job : Job κ) (answer : Answer κ) :
    Strokes s (t.receive .silent settings n a job answer) := by
  cases job with
  | direct capability params =>
    show Strokes s ((t.recordAll .silent a.id _).leave .silent n a (some _))
    exact strokes_leave (h.trans (.recordAll _ _ _)) _
  | healing params session stage => exact strokes_proceed h params _

theorem strokes_dispatch (h : Strokes s t) (payload : Json) :
    Strokes s (t.dispatch .silent settings n a payload) := by
  cases hp : plan payload settings.routes with
  | error e =>
    rw [dispatch_of_error hp]
    exact strokes_leave (h.trans (.record _ _ _)) _
  | ok p =>
    rw [dispatch_of_ok hp]
    have hnoted : Strokes s (t.noteIntent a.id p.intent) := by
      rcases noteIntent_cases a.id p.intent t with he | ⟨tasks, -, he⟩
      · rw [he]
        exact h
      · rw [he]
        exact h.trans (.of_tracer rfl rfl)
    exact (hnoted.trans (.record a.id _ _)).trans (.setPhase n _ _)

theorem strokes_begin (settings : Settings κ) (n : Nat) (a : Admission) (s : System κ) :
    Strokes s (s.begin .silent settings n a) := by
  cases hstore : s.tasks.transition a.id .processing s.now with
  | error refusal =>
    rw [begin_of_error hstore]
    exact strokes_leave (.refl _) none
  | ok tasks =>
    rw [begin_of_ok hstore]
    have hsame : SameSteps s
        { s with tasks := tasks, tracer := (s.tracer.markProcessing a.id s.now).2 } := by
      unfold Tracer.markProcessing
      split
      · exact .of_tracer rfl
      · rename_i ht
        split
        · exact .of_set rfl ht rfl rfl
        · exact .of_tracer rfl
    have hstarted : Strokes s (s.takeUp a.id tasks) :=
      .announce hsame rfl (.taskStarted a.id) rfl fun _ he => nomatch he
    split
    · exact strokes_leave hstarted _
    · exact strokes_dispatch hstarted _

theorem strokes_enter (job : Job κ) (s : System κ) :
    Strokes s (s.enter .silent settings n a job) := by
  unfold enter
  split
  · exact strokes_receive (.refl s) job _
  · exact (Strokes.withQueue _ s).trans (.setPhase n _ _)

theorem strokes_heed (job : Job κ) (call : Call) (now : Time) (poll : Poll κ) (s : System κ) :
    Strokes s (s.heed settings n a job call now poll) := by
  have hstop : Strokes s (s.withQueue (s.queue.cancelToken call.token)) := .withQueue _ s
  unfold heed
  cases call.ending? now poll with
  | none => exact .setPhase n _ s
  | some ending =>
    cases ending with
    | answered answer => exact strokes_receive hstop job answer
    | panicked panic => exact strokes_leave (hstop.trans (.record _ _ _)) _

theorem strokes_turn (hc : s.consulted settings n = none) (execute : Execute κ) :
    Strokes s (s.turn .silent settings n execute) := by
  cases hw : s.workers[n]? with
  | none =>
    rw [turn_of_none hw]
    exact .refl _
  | some w =>
    obtain ⟨a, phase⟩ := w
    cases phase with
    | ended =>
      rw [turn_of_gone hw rfl]
      exact .refl _
    | admitted =>
      rw [turn_of_due hw rfl]
      exact strokes_begin settings n a s
    | between params session =>
      rw [turn_of_between hw]
      exact strokes_proceed (.refl s) params _
    | entering job =>
      rw [turn_of_entering hw]
      exact strokes_enter job s
    | calling job call reached =>
      rw [turn_of_calling hw, await_of_isCancelled (isCancelled_of_consulted hw hc)]
      exact strokes_receive (.withQueue _ s) job _

theorem strokes_answer {s₀ s₁ : System κ} {w : Worker κ} (hw : s₀.workers[n]? = some w)
    (hc : s₀.consulted settings n = some s₁) (poll : Poll κ) (s : System κ) :
    Strokes s (s₀.turn .silent settings n fun _ => (poll, s)) := by
  obtain ⟨job, call, reached, hphase, hstands⟩ := calling_of_consulted hw hc
  obtain ⟨a, phase⟩ := w
  obtain rfl : phase = .calling job call reached := hphase
  rw [turn_of_asked hw hstands]
  exact strokes_heed job call _ poll s

end Turns

/-! ## Runs -/

variable [Cost κ] {traffic : Traffic} {settings : Settings κ} {c c' : Scene κ}

theorem strokes_tick (hs : Sound settings c) (ht : Tick traffic settings c c') :
    Strokes c.system c'.system := by
  cases ht with
  | submit id payload new => exact .submit payload (hs.fresh id new)
  | strike call clear =>
    show Strokes c.system (c.system.strike call).2
    rw [strike_eq]
    exact .withQueue _ _
  | chore next => exact .perform _ _
  | pause | resume | shutdown => exact .withQueue _ _
  | employ hi => exact .of_tracer rfl rfl
  | elapse clock => exact .of_tracer rfl rfl
  | flag timeout => exact .single (.flag timeout _)
  | markLost id => exact .markLost id _
  | turn n execute free hc => exact strokes_turn hc execute
  | ask n free hc => exact .consulted hc
  | answer poll waiting =>
    obtain ⟨w, s', hw, hw₀, hc⟩ := hs.waiting _ _ (waiting ▸ List.mem_append_right _ List.mem_cons_self)
    exact strokes_answer hw₀ hc poll _

theorem strokes_ticks (hs : Sound settings c) (ht : Ticks traffic settings c c') :
    Strokes c.system c'.system := by
  induction ht with
  | refl => exact .refl _
  | tail hticks next ih => exact ih.trans (strokes_tick (hs.ticks hticks) next)

/-- At any moment of any run, and between any two strokes of whatever goes on from there. Without a trace nothing is put
on record and nothing is told. -/
theorem events_replay_traces :
    (∀ (settings : Settings κ) (limit : Nat) (maxPending : Option Nat) (orders : List Order)
        (c : Scene κ), Ticks .mixed settings (.start limit maxPending orders) c →
      Replays c.system ∧ ∀ s, Strokes c.system s → Replays s) ∧
    ∀ (s : System κ) (id : TaskId), s.tracer.get? id = none →
      ∀ (obs : Observer κ) (step : Step), s.record obs id step = s := by
  refine ⟨fun settings limit maxPending orders c hrun => ?_, fun s id h obs step =>
    record_of_none h obs step⟩
  have hs : Sound settings (.start limit maxPending orders) := .start settings limit maxPending orders
  have h : Faithful c.system := (Faithful.new limit maxPending orders).strokes (strokes_ticks hs hrun)
  exact ⟨h.toReplays, fun s hstrokes => (h.strokes hstrokes).toReplays⟩

/-- A task is submitted, begins, is silent for too long and is flagged by a sweep; then it is marked as lost. -/
theorem events_replay_traces_of_sweep :
    ∃ c : Scene Float, Ticks .mixed usual (.start 1 none []) c ∧
      (c.system.stepsOf (.ofNat 7)).map (·.step.action) = ["submitted", "route", "stalled"] ∧
      stepEvents (.ofNat 7) c.system.events
        = stepEventsFrom (.ofNat 7) 0 (c.system.stepsOf (.ofNat 7)) ∧
      Replays (c.system.markLost .silent (.ofNat 7)).2 ∧
      (c.system.record .silent (.ofNat 8) default).events = c.system.events := by
  obtain ⟨c, hrun, hactions, hother⟩ : ∃ c : Scene Float, Ticks .mixed usual (.start 1 none []) c ∧
      (c.system.stepsOf (.ofNat 7)).map (·.step.action) = ["submitted", "route", "stalled"] ∧
      c.system.tracer.get? (.ofNat 8) = none := by
    have hwaiting : Ticks .mixed usual (.start 1 none []) _ := .single (.submit (.ofNat 7) gitAdd (by decide))
    have hadmitted := hwaiting.tail (.employ rfl)
    have hbegun := hadmitted.tail (.turn 0 (fun s => (.pending, s)) (by decide) rfl)
    have hlate := hbegun.tail (.elapse ⟨10000000000, 10000000000⟩)
    exact ⟨_, hlate.tail (.flag (.ofSecs 5)), rfl, rfl⟩
  obtain ⟨hreplays, hrecord⟩ := events_replay_traces (κ := Float)
  obtain ⟨hnow, hlater⟩ := hreplays usual 1 none [] c hrun
  refine ⟨c, hrun, hactions, hnow.steps _, hlater _ (.markLost _ _), ?_⟩
  rw [hrecord c.system (.ofNat 8) hother]

end System
end Overseer
