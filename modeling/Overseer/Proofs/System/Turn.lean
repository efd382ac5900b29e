import Overseer.Proofs.System.Private
import Overseer.System.Worker

/-! # Turns take tasks forward

A turn of a worker that is at work, however it goes, puts some steps on record and then either takes the
worker to another phase of its work or has it leave with an outcome: that is `Worked`, and all that a turn
does to the lifecycle is read off it. Between the two the executor is asked, and what it does to the system
counts as done before the turn (`worked_turn`).
-/

namespace Overseer.System

open Standing

variable {κ : Type} {s s' t : System κ} {j : TaskId} {n : Nat} {a : Admission} {w : Worker κ}

/-! ## Admissions -/

theorem view_employ {q : Queue} (h : s.queue.inspect = .admitted a q)
    (hone : (s.view a.id).queued ≤ 1) :
    (s.employ a q).view a.id
      = { s.view a.id with queued := 0, active := true, crew := (s.view a.id).crew ++ [.due] } := by
  obtain ⟨rest, hp, -, hrest, hactive, -⟩ := Queue.inspect_admitted h
  have hcount : rest.count a.id = 0 := by
    change s.queue.pending.count a.id ≤ 1 at hone
    rw [hp, List.count_cons_self] at hone
    omega
  simp [employ, view, notices, hrest, hactive, hcount, Table.contains_eq, Table.get?_set,
    Phase.activity]

theorem view_employ_of_ne {q : Queue} (h : s.queue.inspect = .admitted a q) (hj : j ≠ a.id) :
    (s.employ a q).view j = s.view j := by
  obtain ⟨rest, hp, -, hrest, hactive, -⟩ := Queue.inspect_admitted h
  simp [employ, view, notices, hp, hrest, hactive, Table.contains_eq, Table.get?_set_of_ne hj,
    Ne.symm hj]

/-- The task at the head of the queue gets a slot and a worker. -/
theorem aside_employ {fresh flagged : TaskId → Prop} {q : Queue}
    (h : s.queue.inspect = .admitted a q) : Aside fresh flagged s (s.employ a q) := by
  obtain ⟨rest, hp, hfree, -, hactive, hl⟩ := Queue.inspect_admitted h
  refine Aside.of_one a.id (fun j hj => view_employ_of_ne h hj) (fun st hst => ?_) hl (fun _ => ?_)
    (List.prefix_append _ _)
  · have hmem : a.id ∈ s.queue.pending := by
      rw [hp]
      exact List.mem_cons_self
    obtain rfl := eq_queued hst hmem
    have hone : (s.view a.id).queued ≤ 1 := by
      rw [hst]
      exact Nat.le_refl 1
    have hcrew : (s.view a.id).crew = [] := congrArg View.crew hst
    refine ⟨.admitted, ?_, .single .grant⟩
    rw [view_employ h hone, hcrew, hst]
    rfl
  · have hset := Table.length_set_le s.queue.active a.id a.token
    show q.active.length ≤ s.queue.limit
    rw [hactive]
    omega

/-! ## Turns of workers at work -/

/-- Steps, the time and tokens may differ, and nothing else that matters to a task. -/
structure Quiet (s t : System κ) : Prop where
  view : ∀ j, t.view j = s.view j
  tasks : t.tasks = s.tasks
  reasons : t.cancelReasons = s.cancelReasons
  workers : t.workers = s.workers
  reached : t.reached = s.reached
  queue : t.queue = { s.queue with tokens := t.queue.tokens }
  issued : s.queue.tokens.issued ≤ t.queue.tokens.issued
  tokens : s.queue.tokens.cancelled ⊆ t.queue.tokens.cancelled

namespace Quiet

theorem limit (h : Quiet s t) : t.queue.limit = s.queue.limit := by
  rw [h.queue]

theorem active (h : Quiet s t) : t.queue.active = s.queue.active := by
  rw [h.queue]

theorem refl (s : System κ) : Quiet s s :=
  ⟨fun _ => rfl, rfl, rfl, rfl, rfl, rfl, Nat.le_refl _, List.Subset.refl _⟩

theorem recordAll (h : Quiet s t) (id : TaskId) (steps : List Step) :
    Quiet s (t.recordAll .silent id steps) where
  view j := (view_recordAll id steps t j).trans (h.view j)
  tasks := (tasks_recordAll id steps t).trans h.tasks
  reasons := (cancelReasons_recordAll id steps t).trans h.reasons
  workers := (workers_recordAll id steps t).trans h.workers
  reached := (reached_recordAll id steps t).trans h.reached
  queue := by
    rw [queue_recordAll]
    exact h.queue
  issued := by
    rw [queue_recordAll]
    exact h.issued
  tokens := by
    rw [queue_recordAll]
    exact h.tokens

theorem record (h : Quiet s t) (id : TaskId) (step : Step) :
    Quiet s (t.record .silent id step) := h.recordAll id [step]

theorem withTokens (h : Quiet s t) {tokens : Tokens}
    (hissued : t.queue.tokens.issued ≤ tokens.issued)
    (hgrow : t.queue.tokens.cancelled ⊆ tokens.cancelled) :
    Quiet s (t.withQueue { t.queue with tokens := tokens }) where
  view j := (view_withQueue_eq rfl rfl j).trans (h.view j)
  tasks := h.tasks
  reasons := h.reasons
  workers := h.workers
  reached := h.reached
  queue := congrArg (fun q : Queue => { q with tokens := tokens }) h.queue
  issued := Nat.le_trans h.issued hissued
  tokens := List.Subset.trans h.tokens hgrow

theorem cancelToken (h : Quiet s t) (token : Token) :
    Quiet s (t.withQueue (t.queue.cancelToken token)) :=
  h.withTokens (Nat.le_of_eq (Tokens.issued_cancel _ token).symm) (Tokens.subset_cancel _ token)

end Quiet

/-- An outcome that says of a task that it was cancelled gives the reason that has been noted, and no worker reports
its own task as lost. -/
structure Fair (s : System κ) (id : TaskId) (o : Outcome) : Prop where
  reason : ∀ reason, o = .aborted reason → reason = (s.cancelReasons.get? id).getD .aborted
  known : o ≠ .lost

namespace Fair

variable {id : TaskId}

theorem cancelled (h : t.cancelReasons = s.cancelReasons) : Fair s id (t.cancelledOutcome id) where
  reason reason ho := by
    rw [← h]
    exact (Outcome.aborted.inj ho).symm
  known ho := nomatch ho

theorem completed (output : Json) : Fair s id (.completed output) :=
  ⟨fun _ ho => (nomatch ho), fun ho => nomatch ho⟩

theorem failed (failure : Failure) : Fair s id (.failed failure) :=
  ⟨fun _ ho => (nomatch ho), fun ho => nomatch ho⟩

theorem healing [Cost κ] (h : t.cancelReasons = s.cancelReasons) (report : Healing.Report κ) :
    Fair s id (t.healingOutcome id report) := by
  unfold healingOutcome
  split
  · exact .completed _
  · exact .cancelled h
  · exact .failed _

theorem direct (h : t.cancelReasons = s.cancelReasons) (capability : String)
    (answer : Answer κ) : Fair s id (t.directOutcome id capability answer).1 := by
  unfold directOutcome
  split
  · split
    · exact .completed _
    · exact .failed _
  · exact .cancelled h
  · exact .failed _
  · exact .failed _

end Fair

/-- What a turn of the worker with the number `n` comes to. -/
inductive Worked (n : Nat) (a : Admission) (s : System κ) : System κ → Prop
  | goesOn {t : System κ} (phase : Phase κ) (quiet : Quiet s t) (busy : phase.activity = .busy) :
      Worked n a s (t.setPhase n phase)
  | leaves {t : System κ} (o : Outcome) (quiet : Quiet s t) (fair : Fair s a.id o) :
      Worked n a s (t.leave .silent n a (some o))

/-! ## The parts of a turn -/

/-- What a task wants is put down, if there is such a task. -/
def noteIntent (id : TaskId) (intent : Intent) (s : System κ) : System κ :=
  match s.tasks.setIntent id (some intent) with
  | .ok tasks => { s with tasks := tasks }
  | .error _ => s

theorem noteIntent_cases (id : TaskId) (intent : Intent) (s : System κ) :
    s.noteIntent id intent = s ∨ ∃ tasks, s.tasks.setIntent id (some intent) = .ok tasks ∧
      s.noteIntent id intent = { s with tasks := tasks } := by
  unfold noteIntent
  cases s.tasks.setIntent id (some intent) with
  | error e => exact Or.inl rfl
  | ok tasks => exact Or.inr ⟨tasks, rfl, rfl⟩

/-- The start of a task is on record. -/
def takeUp (id : TaskId) (tasks : TaskStore) (s : System κ) : System κ :=
  ({ s with tasks := tasks, tracer := (s.tracer.markProcessing id s.now).2 } : System κ).announce
    .silent (.taskStarted id)

section Equations

variable [Cost κ] {settings : Settings κ}

theorem dispatch_of_error {payload : Json} {e : RouteError}
    (h : plan payload settings.routes = .error e) :
    s.dispatch .silent settings n a payload
      = (s.record .silent a.id (.errorGate component "route" e.message)).leave .silent n a
        (some (.failed ⟨routeFailureReason e, e.message⟩)) := by
  simp only [dispatch, h]

theorem dispatch_of_ok {payload : Json} {p : Plan} (h : plan payload settings.routes = .ok p) :
    s.dispatch .silent settings n a payload
      = ((s.noteIntent a.id p.intent).record .silent a.id
        (.okGate component "route" p.route.describe)).setPhase n (firstPhase settings p) := by
  simp only [dispatch, h]
  rfl

theorem begin_of_error {refusal : TaskStore.Refusal}
    (h : s.tasks.transition a.id .processing s.now = .error refusal) :
    s.begin .silent settings n a = s.leave .silent n a none := by
  simp only [begin, h]

theorem begin_of_ok {tasks : TaskStore}
    (h : s.tasks.transition a.id .processing s.now = .ok tasks) :
    s.begin .silent settings n a
      = if (s.takeUp a.id tasks).isCancelled a.token then
          (s.takeUp a.id tasks).leave .silent n a
            (some ((s.takeUp a.id tasks).cancelledOutcome a.id))
        else (s.takeUp a.id tasks).dispatch .silent settings n a
          (((tasks.get? a.id).map (·.payload)).getD .null) := by
  simp only [begin, h]
  rfl

/-- A worker whose call has not been stopped goes by what it is told, and by its timer. -/
def heed (settings : Settings κ) (n : Nat) (a : Admission) (job : Job κ) (call : Call)
    (now : Time) (poll : Poll κ) (s : System κ) : System κ :=
  match call.ending? now poll with
  | none => s.setPhase n (.calling job call true)
  | some (.answered answer) =>
      (s.withQueue (s.queue.cancelToken call.token)).receive .silent settings n a job answer
  | some (.panicked panic) =>
      (s.withQueue (s.queue.cancelToken call.token)).breakDown .silent n a panic

theorem await_of_isCancelled (h : s.isCancelled a.token = true) (job : Job κ) (call : Call)
    (reached : Bool) (execute : Execute κ) :
    s.await .silent settings n a job call reached execute
      = (s.withQueue (s.queue.cancelToken call.token)).receive .silent settings n a job
        (.error .cancelled) := by
  simp only [await, Call.look, h, if_true, Call.cancelled]

/-- A call whose token stands is over or under way as the executor says. -/
theorem await_of_stands (h : s.isCancelled a.token = false) (job : Job κ) (call : Call)
    (reached : Bool) (execute : Execute κ) :
    s.await .silent settings n a job call reached execute
      = (asked a.id (Job.invocation settings job) reached execute s).2.heed settings n a job call
        s.clock.timer (asked a.id (Job.invocation settings job) reached execute s).1 := by
  simp only [await, Call.look, h, Bool.false_eq_true, if_false, heed]
  cases call.ending? s.clock.timer (asked a.id (Job.invocation settings job) reached execute s).1 with
  | none => rfl
  | some ending =>
    cases ending with
    | answered answer => rfl
    | panicked panic => rfl

end Equations

/-! ## What the parts of a turn come to -/

theorem worked_breakDown (h : Quiet s t) (panic : Panic) :
    Worked n a s (t.breakDown .silent n a panic) := .leaves _ (h.record _ _) (.failed _)

/-! ## What the executor is asked -/

/-- The system as the executor finds it when the worker asks, if the turn comes to that. -/
def consulted (settings : Settings κ) (n : Nat) (s : System κ) : Option (System κ) :=
  match s.workers[n]? with
  | some ⟨a, .calling job _ reached⟩ =>
      if s.isCancelled a.token then none
      else if reached then some s
      else some { s with reached := s.reached ++ [(a.id, Job.invocation settings job)] }
  | _ => none

/-- The executor finds the system as the worker does, but for the record of the call. -/
theorem exists_reached {settings : Settings κ} (h : s.consulted settings n = some s') :
    ∃ calls, s' = { s with reached := calls } := by
  unfold consulted at h
  split at h
  · split at h
    · cases h
    · split at h
      · exact ⟨s.reached, (Option.some.inj h).symm⟩
      · exact ⟨_, (Option.some.inj h).symm⟩
  · cases h

theorem aside_consulted {settings : Settings κ} (h : s.consulted settings n = some s') :
    Aside nobody nobody s s' := by
  obtain ⟨calls, rfl⟩ := exists_reached h
  exact ⟨⟨fun id st hst => ⟨st, hst, .refl⟩, rfl, fun hs => hs⟩, List.prefix_refl _⟩

/-- Only a worker whose token stands asks, and what is new on record is its own. -/
theorem exists_of_consulted {settings : Settings κ} (h : s.consulted settings n = some s') :
    ∃ w, s.workers[n]? = some w ∧ w.phase.activity ≠ .gone ∧
      s.isCancelled w.admission.token = false ∧
      ∀ id, id ≠ w.admission.id →
        s'.reached.filter (fun call => call.1 == id) = s.reached.filter fun call => call.1 == id := by
  unfold consulted at h
  split at h
  · rename_i a job call reached hw
    split at h
    · cases h
    · rename_i hstands
      refine ⟨_, hw, (fun hgone => nomatch hgone), by simpa using hstands, fun id hne => ?_⟩
      split at h
      · obtain rfl := Option.some.inj h
        rfl
      · obtain rfl := Option.some.inj h
        simp [Ne.symm hne]
  · cases h

theorem consulted_of_none (hw : s.workers[n]? = none) (settings : Settings κ) :
    s.consulted settings n = none := by
  simp [consulted, hw]

theorem consulted_of_ne_busy (hw : s.workers[n]? = some w) (hb : w.phase.activity ≠ .busy)
    (settings : Settings κ) : s.consulted settings n = none := by
  obtain ⟨a, phase⟩ := w
  unfold consulted
  simp only [hw]
  cases phase with
  | calling => exact absurd rfl hb
  | admitted | between | entering | ended => rfl

/-- A worker that asks has a call under way, and a token that stands. -/
theorem calling_of_consulted {settings : Settings κ} (hw : s.workers[n]? = some w)
    (h : s.consulted settings n = some s') : ∃ job call reached,
      w.phase = .calling job call reached ∧ s.isCancelled w.admission.token = false := by
  unfold consulted at h
  simp only [hw] at h
  split at h
  · rename_i a job call reached he
    obtain rfl := Option.some.inj he
    split at h
    · cases h
    · rename_i hstands
      exact ⟨job, call, reached, rfl, by simpa using hstands⟩
  · cases h

/-- Who has a call under way and asks nobody has been told to stop. -/
theorem isCancelled_of_consulted {settings : Settings κ} {job : Job κ} {call : Call}
    {reached : Bool} (hw : s.workers[n]? = some ⟨a, .calling job call reached⟩)
    (h : s.consulted settings n = none) : s.isCancelled a.token = true := by
  unfold consulted at h
  simp only [hw] at h
  split at h
  · assumption
  · split at h
    · cases h
    · cases h

section Parts

variable [Cost κ]

theorem worked_proceed (h : Quiet s t) (params : Json) (p : Healing.Progress κ) :
    Worked n a s (t.proceed .silent n a params p) := by
  unfold proceed
  split
  · exact .goesOn _ (h.recordAll _ _) rfl
  · exact .goesOn _ (h.recordAll _ _) rfl
  · exact .leaves _ (h.recordAll _ _) (.healing (h.recordAll _ _).reasons _)

theorem worked_receive (h : Quiet s t) (settings : Settings κ) (job : Job κ) (answer : Answer κ) :
    Worked n a s (t.receive .silent settings n a job answer) := by
  cases job with
  | direct capability params => exact .leaves _ (h.recordAll _ _) (.direct h.reasons capability answer)
  | healing params session stage => exact worked_proceed h params _

theorem worked_enter (settings : Settings κ) (job : Job κ) (s : System κ) :
    Worked n a s (s.enter .silent settings n a job) := by
  unfold enter
  split
  · exact worked_receive (.refl s) settings job _
  · exact .goesOn _ ((Quiet.refl s).withTokens (Nat.le_succ _) (List.Subset.refl _)) rfl

theorem worked_heed (settings : Settings κ) (job : Job κ) (call : Call) (now : Time)
    (poll : Poll κ) (s : System κ) : Worked n a s (s.heed settings n a job call now poll) := by
  have hstop : Quiet s (s.withQueue (s.queue.cancelToken call.token)) :=
    (Quiet.refl s).cancelToken _
  unfold heed
  cases call.ending? now poll with
  | none => exact .goesOn _ (.refl s) rfl
  | some ending =>
    cases ending with
    | answered answer => exact worked_receive hstop settings job answer
    | panicked panic => exact worked_breakDown hstop panic

variable {settings : Settings κ} {s₀ : System κ}

theorem turn_of_none (hw : s.workers[n]? = none) (execute : Execute κ) :
    s.turn .silent settings n execute = s := by
  simp [turn, hw]

theorem turn_of_gone (hw : s.workers[n]? = some w) (hb : w.phase.activity = .gone)
    (execute : Execute κ) : s.turn .silent settings n execute = s := by
  obtain ⟨a, phase⟩ := w
  unfold turn
  simp only [hw]
  cases phase with
  | ended => rfl
  | admitted | between | entering | calling => cases hb

theorem turn_of_due (hw : s.workers[n]? = some w) (hb : w.phase.activity = .due)
    (execute : Execute κ) :
    s.turn .silent settings n execute = s.begin .silent settings n w.admission := by
  obtain ⟨a, phase⟩ := w
  unfold turn
  simp only [hw]
  cases phase with
  | admitted => rfl
  | ended | between | entering | calling => cases hb

theorem turn_of_between {params : Json} {session : Healing.Session κ}
    (hw : s.workers[n]? = some ⟨a, .between params session⟩) (execute : Execute κ) :
    s.turn .silent settings n execute
      = s.proceed .silent n a params
        (Healing.passHead settings.healing (s.isCancelled a.token) session) := by
  simp only [turn, hw]

theorem turn_of_entering {job : Job κ} (hw : s.workers[n]? = some ⟨a, .entering job⟩)
    (execute : Execute κ) :
    s.turn .silent settings n execute = s.enter .silent settings n a job := by
  simp only [turn, hw]

theorem turn_of_calling {job : Job κ} {call : Call} {reached : Bool}
    (hw : s.workers[n]? = some ⟨a, .calling job call reached⟩) (execute : Execute κ) :
    s.turn .silent settings n execute
      = s.await .silent settings n a job call reached execute := by
  simp only [turn, hw]

theorem worked_turn_of_none (hw : s.workers[n]? = some w) (hb : w.phase.activity = .busy)
    (hc : s.consulted settings n = none) (execute : Execute κ) :
    Worked n w.admission s (s.turn .silent settings n execute) := by
  obtain ⟨a, phase⟩ := w
  cases phase with
  | admitted | ended => cases hb
  | between params session =>
    rw [turn_of_between hw]
    exact worked_proceed (.refl s) params _
  | entering job =>
    rw [turn_of_entering hw]
    exact worked_enter settings job s
  | calling job call reached =>
    rw [turn_of_calling hw, await_of_isCancelled (isCancelled_of_consulted hw hc)]
    exact worked_receive ((Quiet.refl s).cancelToken _) settings job _

/-- A worker that has asked goes by what it is told, wherever the answer finds the system. -/
theorem turn_of_asked {job : Job κ} {call : Call} {reached : Bool}
    (hw : s.workers[n]? = some ⟨a, .calling job call reached⟩)
    (hstands : s.isCancelled a.token = false) (poll : Poll κ) (t : System κ) :
    s.turn .silent settings n (fun _ => (poll, t))
      = t.heed settings n a job call s.clock.timer poll := by
  rw [turn_of_calling hw, await_of_stands hstands]
  rfl

theorem worked_turn (hw : s.workers[n]? = some w) (hc : s.consulted settings n = some s₀)
    (execute : Execute κ) :
    w.phase.activity = .busy ∧
      Worked n w.admission (execute s₀).2 (s.turn .silent settings n execute) := by
  obtain ⟨job, call, reached, hphase, hstands⟩ := calling_of_consulted hw hc
  obtain ⟨a, phase⟩ := w
  obtain rfl : phase = .calling job call reached := hphase
  have hasked : (asked a.id (Job.invocation settings job) reached execute s).2
      = (execute s₀).2 := by
    simp only [consulted, hw, hstands, Bool.false_eq_true, if_false] at hc
    unfold asked
    split at hc
    · rename_i hr
      obtain rfl := Option.some.inj hc
      rw [if_pos hr]
    · rename_i hr
      obtain rfl := Option.some.inj hc
      rw [if_neg hr]
  refine ⟨rfl, ?_⟩
  rw [turn_of_calling hw, await_of_stands hstands, ← hasked]
  exact worked_heed settings job call _ _ _

end Parts

/-! ## What that does to the lifecycle -/

namespace Worked

variable (h : Worked n w.admission s s') (hw : s.workers[n]? = some w)
include h

theorem limit : s'.queue.limit = s.queue.limit := by
  cases h with
  | goesOn phase hq hb => exact hq.limit
  | leaves o hq hf =>
    rw [queue_leave, Queue.limit_release]
    exact hq.limit

theorem slots_le : s'.queue.active.length ≤ s.queue.active.length := by
  cases h with
  | goesOn phase hq hb => exact Nat.le_of_eq (congrArg List.length hq.active)
  | leaves o hq hf =>
    rw [queue_leave, ← hq.active]
    exact Queue.length_release_le _ _

/-- A worker whose task has ended before writes nothing down. -/
theorem tasks_of_isTerminal {b : TaskState} (hr : (s.view w.admission.id).trace = some b)
    (hb : b.isTerminal = true) : s'.tasks = s.tasks := by
  cases h with
  | goesOn phase hq hbusy => exact hq.tasks
  | @leaves t o hq hf =>
    rw [← hq.view] at hr
    simp only [leave, finish_of_isTerminal hr hb]
    exact hq.tasks

include hw

theorem view_of_ne (hj : j ≠ w.admission.id) : s'.view j = s.view j := by
  cases h with
  | goesOn phase hq hb =>
    rw [view_setPhase_of_ne (hq.workers ▸ hw) hj]
    exact hq.view j
  | leaves o hq hf =>
    rw [view_leave_of_ne (hq.workers ▸ hw) hj]
    exact hq.view j

/-- The task of the worker has not ended: it stays as it is, or it ends by the outcome of the worker. -/
theorem view_of_open (hc : (s.view w.admission.id).crew.length = 1)
    (ht : (s.view w.admission.id).task = some .processing)
    (hr : (s.view w.admission.id).trace = some .processing) :
    s'.view w.admission.id = { s.view w.admission.id with crew := [.busy] } ∨
    ∃ o : Outcome, s'.view w.admission.id
      = { s.view w.admission.id with
          task := some o.state, trace := some o.state, active := false, crew := [.gone],
          notices := (s.view w.admission.id).notices ++ [.ended o.state] } := by
  cases h with
  | @goesOn t phase hq hb =>
    left
    rw [view_setPhase (hq.workers ▸ hw) (hq.view _ ▸ hc), hq.view, hb]
  | @leaves t o hq hf =>
    right
    have hmove : TaskState.canMove .processing o.state = true := o.state_isTerminal
    rw [← hq.view] at ht hr
    refine ⟨o, ?_⟩
    rw [view_leave (hq.workers ▸ hw) (hq.view _ ▸ hc), view_finish ht hmove hr rfl, hq.view]

/-- The task of the worker has ended before: the worker can only leave it. -/
theorem view_of_isTerminal {b : TaskState} (hc : (s.view w.admission.id).crew.length = 1)
    (hr : (s.view w.admission.id).trace = some b) (hb : b.isTerminal = true) :
    s'.view w.admission.id = { s.view w.admission.id with crew := [.busy] } ∨
    s'.view w.admission.id
      = { s.view w.admission.id with active := false, crew := [.gone] } := by
  cases h with
  | @goesOn t phase hq hbusy =>
    left
    rw [view_setPhase (hq.workers ▸ hw) (hq.view _ ▸ hc), hq.view, hbusy]
  | @leaves t o hq hf =>
    right
    rw [← hq.view] at hr
    rw [view_leave (hq.workers ▸ hw) (hq.view _ ▸ hc), finish_of_isTerminal hr hb, hq.view]

end Worked

/-- Where a task can stand whose worker is at work. -/
theorem cases_of_busy {st : Standing} (hst : s.view w.admission.id = st.view w.admission.id)
    (hw : s.workers[n]? = some w) (hb : w.phase.activity = .busy) :
    st = .running ∨ st = .stalled true ∨ ∃ state ended, st = .settled state ended true := by
  have hmem : Activity.busy ∈ (st.view w.admission.id).crew := by
    rw [← hst, ← hb]
    exact activity_mem_crew hw
  cases st with
  | unknown | queued | discarded => cases hmem
  | admitted => simp [Standing.view] at hmem
  | running => exact Or.inl rfl
  | stalled working =>
    cases working with
    | true => exact Or.inr (Or.inl rfl)
    | false => simp [Standing.view, crew] at hmem
  | settled state ended working =>
    cases working with
    | true => exact Or.inr (Or.inr ⟨state, ended, rfl⟩)
    | false => simp [Standing.view, crew] at hmem

theorem length_crew_of_busy {st : Standing} (hst : s.view w.admission.id = st.view w.admission.id)
    (hw : s.workers[n]? = some w) (hb : w.phase.activity = .busy) :
    (s.view w.admission.id).crew.length = 1 := by
  rw [hst]
  rcases cases_of_busy hst hw hb with rfl | rfl | ⟨state, ended, rfl⟩
  · rfl
  · rfl
  · rfl

/-- The turn of a worker at work takes its task forward, and no other task. -/
theorem advance_worked {fresh flagged : TaskId → Prop} (h : Worked n w.admission s s')
    (hw : s.workers[n]? = some w) (hb : w.phase.activity = .busy) :
    Advance fresh flagged s s' where
  leads id st hst := by
    by_cases hid : id = w.admission.id
    · subst hid
      have hc := length_crew_of_busy hst hw hb
      rcases cases_of_busy hst hw hb with rfl | rfl | ⟨state, ended, rfl⟩
      · rcases h.view_of_open hw hc (congrArg View.task hst) (congrArg View.trace hst)
          with hv | ⟨o, hv⟩
        · exact ⟨.running, by rw [hv, hst]; rfl, .refl⟩
        · exact ⟨.settled o.state o.state_isTerminal false, by rw [hv, hst]; rfl,
            .single (.finish o.state o.state_isTerminal)⟩
      · rcases h.view_of_isTerminal hw hc (congrArg View.trace hst) rfl with hv | hv
        · exact ⟨.stalled true, by rw [hv, hst]; rfl, .refl⟩
        · exact ⟨.stalled false, by rw [hv, hst]; rfl, .single .leaveStalled⟩
      · rcases h.view_of_isTerminal hw hc (congrArg View.trace hst) ended with hv | hv
        · exact ⟨.settled state ended true, by rw [hv, hst]; rfl, .refl⟩
        · exact ⟨.settled state ended false, by rw [hv, hst]; rfl,
            .single (.leaveSettled state ended)⟩
    · exact ⟨st, (h.view_of_ne hw hid).trans hst, .refl⟩
  limit := h.limit
  slots hs := Nat.le_trans h.slots_le hs

/-! ## Beginning -/

/-- What a task that has not begun stands like, seen from its worker. -/
theorem eq_admitted {st : Standing} (hst : s.view w.admission.id = st.view w.admission.id)
    (hw : s.workers[n]? = some w) (hb : w.phase.activity = .due) : st = .admitted := by
  have hmem : Activity.due ∈ (st.view w.admission.id).crew := by
    rw [← hst, ← hb]
    exact activity_mem_crew hw
  cases st with
  | admitted => rfl
  | unknown | queued | discarded => cases hmem
  | running => simp [Standing.view] at hmem
  | stalled working => cases working <;> simp [Standing.view, crew] at hmem
  | settled state ended working => cases working <;> simp [Standing.view, crew] at hmem

/-- The state of a trace once its task is worked on. -/
def begun : TaskState → TaskState
  | .pending => .processing
  | state => state

/-- The task has been taken up. Its trace may have ended before, and then it stays so. -/
structure Started (id : TaskId) (s t : System κ) : Prop extends Private id s t where
  own : t.view id
    = { s.view id with
        task := some .processing, trace := (s.view id).trace.map begun,
        notices := (s.view id).notices ++ [.started] }
  noted : t.cancelReasons = s.cancelReasons

/-- A pending task can be started. -/
theorem transition_of_pending {id : TaskId} (h : (s.view id).task = some .pending) (now : Time) :
    ∃ t t', s.tasks.get? id = some t ∧ t.state = .pending ∧ t'.state = .processing ∧
      s.tasks.transition id .processing now = .ok (s.tasks.set id t') := by
  obtain ⟨t, ht, hstate⟩ := exists_task h
  have hmove : t.transition .processing now = .ok { t with state := .processing } := by
    rw [Task.transition_eq, hstate]
    rfl
  exact ⟨t, _, ht, hstate, rfl, TaskStore.update_ok ht hmove⟩

theorem markProcessing_cases (id : TaskId) (now : Time) (s : System κ) :
    (s.tracer.markProcessing id now).2 = s.tracer ∧
      (s.view id).trace.map begun = (s.view id).trace ∨
    ∃ t t', s.tracer.get? id = some t ∧ t'.id = t.id ∧ t'.state = begun t.state ∧
      (s.tracer.markProcessing id now).2 = s.tracer.set id t' := by
  unfold Tracer.markProcessing
  cases ht : s.tracer.get? id with
  | none =>
    have hnone : (s.view id).trace = none := by simp [view, Tracer.state?, ht]
    exact Or.inl ⟨rfl, by rw [hnone]; rfl⟩
  | some t =>
    by_cases hp : t.state = .pending
    · right
      refine ⟨t, { t with state := .processing, lastActivity := now }, rfl, rfl, ?_, ?_⟩
      · rw [hp]
        rfl
      · simp only [hp, if_true]
    · have hsome : (s.view id).trace = some t.state := by simp [view, Tracer.state?, ht]
      have hsame : begun t.state = t.state := by
        cases hs : t.state with
        | pending => exact absurd hs hp
        | processing | completed | failed | lost | aborted => rfl
      left
      refine ⟨?_, ?_⟩
      · simp only [hp, if_false]
      · rw [hsome, Option.map_some, hsame]

/-- Starting a task is between the system and this task. -/
theorem exists_started {id : TaskId} (h : (s.view id).task = some .pending) :
    ∃ tasks, s.tasks.transition id .processing s.now = .ok tasks ∧
      Started id s (s.takeUp id tasks) := by
  obtain ⟨task, task', htask, hpending, hstate, hstore⟩ := transition_of_pending h s.now
  have hopen : task.state.isTerminal = false := by
    rw [hpending]
    rfl
  have hevent : (Event.taskStarted id).id = id := rfl
  refine ⟨_, hstore, ?_⟩
  unfold takeUp
  rcases markProcessing_cases id s.now s with
    ⟨hmark, hsame⟩ | ⟨trace, trace', htrace, hid, hbegun, hmark⟩
  · rw [hmark]
    refine ⟨⟨fun j hj => ?_, fun _ _ => rfl, .of_set htask hopen rfl, rfl, rfl, rfl⟩, ?_, rfl⟩
    · rw [view_announce_of_ne (Ne.symm hj), view_setTask_of_ne htask hj]
    · rw [view_announce, view_setTask htask, hstate, if_pos hevent, hsame]
      rfl
  · have htrace' : (s.view id).trace = some trace.state := by
      simp [view, Tracer.state?, htrace]
    rw [hmark]
    refine ⟨⟨fun j hj => ?_, fun _ _ => rfl, .of_set htask hopen rfl, rfl, rfl, rfl⟩, ?_, rfl⟩
    · rw [view_announce_of_ne (Ne.symm hj), view_setBoth_of_ne htask htrace hj]
    · rw [view_announce, view_setBoth htask htrace hid, hstate, hbegun, htrace', if_pos hevent]
      rfl

theorem Started.trans {id : TaskId} {u : System κ} (h : Started id s t) (hp : Private id t u)
    (hv : u.view id = t.view id) (hr : u.cancelReasons = t.cancelReasons) : Started id s u :=
  ⟨h.toPrivate.trans hp, hv.trans h.own, hr.trans h.noted⟩

/-- To put down the intent of a task that has not ended is seen by nobody. -/
theorem setIntent_view {id : TaskId} {intent : Option Intent} {tasks : TaskStore}
    (h : s.tasks.setIntent id intent = .ok tasks) (j : TaskId) :
    ({ s with tasks := tasks } : System κ).view j = s.view j := by
  obtain ⟨task, task', htask, hok, rfl⟩ := TaskStore.update_cases h
  obtain rfl := Except.ok.inj hok
  by_cases hj : j = id
  · subst hj
    rw [view_setTask htask]
    simp [view, htask]
  · exact view_setTask_of_ne htask hj

/-- To put down what a task under way wants is between the system and this task. -/
theorem private_noteIntent {id : TaskId} (hs : (s.view id).task = some .processing)
    (intent : Intent) : Private id s (s.noteIntent id intent) := by
  rcases noteIntent_cases id intent s with he | ⟨tasks, hstore, he⟩
  · rw [he]
    exact .refl id s
  · rw [he]
    obtain ⟨task, task', htask, -, rfl⟩ := TaskStore.update_cases hstore
    have hstate : task.state = .processing := by
      simpa [view, htask] using hs
    have hopen : task.state.isTerminal = false := by
      rw [hstate]
      rfl
    exact ⟨fun j _ => setIntent_view hstore j, fun _ _ => rfl, .of_set htask hopen rfl, rfl, rfl,
      rfl⟩

theorem view_noteIntent (id : TaskId) (intent : Intent) (s : System κ) (j : TaskId) :
    (s.noteIntent id intent).view j = s.view j := by
  rcases noteIntent_cases id intent s with he | ⟨tasks, hstore, he⟩
  · rw [he]
  · rw [he]
    exact setIntent_view hstore j

theorem cancelReasons_noteIntent (id : TaskId) (intent : Intent) (s : System κ) :
    (s.noteIntent id intent).cancelReasons = s.cancelReasons := by
  rcases noteIntent_cases id intent s with he | ⟨tasks, -, he⟩
  · rw [he]
  · rw [he]

section Beginning

variable [Cost κ]

theorem firstPhase_activity (settings : Settings κ) (p : Plan) :
    (firstPhase settings p).activity = .busy := by
  unfold firstPhase
  split
  · rfl
  · rfl

/-- To find out what a task wants is to put down its intent, and then it is like any other turn. -/
theorem worked_dispatch (hs : (s.view a.id).task = some .processing) (settings : Settings κ)
    (payload : Json) :
    ∃ t : System κ, Private a.id s t ∧ t.view a.id = s.view a.id ∧
      t.cancelReasons = s.cancelReasons ∧
      Worked n a t (s.dispatch .silent settings n a payload) := by
  cases hp : plan payload settings.routes with
  | error e =>
    rw [dispatch_of_error hp]
    exact ⟨s, .refl _ s, rfl, rfl, .leaves _ ((Quiet.refl s).record _ _) (.failed _)⟩
  | ok p =>
    rw [dispatch_of_ok hp]
    exact ⟨s.noteIntent a.id p.intent, private_noteIntent hs _, view_noteIntent _ _ s _,
      cancelReasons_noteIntent _ _ s,
      .goesOn _ ((Quiet.refl _).record _ _) (firstPhase_activity settings p)⟩

/-- The first turn of a worker starts its task and goes on like any other. -/
theorem worked_begin (h : (s.view a.id).task = some .pending) (settings : Settings κ) :
    ∃ t : System κ, Started a.id s t ∧ Worked n a t (s.begin .silent settings n a) := by
  obtain ⟨tasks, hstore, hstarted⟩ := exists_started h
  rw [begin_of_ok hstore]
  split
  · exact ⟨_, hstarted, .leaves _ (.refl _) (.cancelled rfl)⟩
  · have hs : ((s.takeUp a.id tasks).view a.id).task = some .processing := by
      rw [hstarted.own]
    obtain ⟨t, hp, hv, hr, hworked⟩ := worked_dispatch (n := n) hs settings
      (((tasks.get? a.id).map (·.payload)).getD .null)
    exact ⟨t, hstarted.trans hp hv hr, hworked⟩

/-- The first turn of a worker takes its task forward, and no other task. -/
theorem advance_begin {fresh flagged : TaskId → Prop} (hw : s.workers[n]? = some w)
    (hst : s.view w.admission.id = Standing.admitted.view w.admission.id)
    (settings : Settings κ) :
    Advance fresh flagged s (s.begin .silent settings n w.admission) := by
  obtain ⟨t, hstarted, h⟩ := worked_begin (n := n) (congrArg View.task hst) settings
  have hown : t.view w.admission.id
      = { Standing.running.view w.admission.id with crew := [.due] } := by
    rw [hstarted.own, hst]
    rfl
  have hwt' : t.workers[n]? = some w := hstarted.workers ▸ hw
  have hc : (t.view w.admission.id).crew.length = 1 := by
    rw [hown]
    rfl
  have ht : (t.view w.admission.id).task = some .processing := by
    rw [hown]
    rfl
  have hr : (t.view w.admission.id).trace = some .processing := by
    rw [hown]
    rfl
  refine ⟨fun id st hst' => ?_, ?_, fun hs => ?_⟩
  · by_cases hid : id = w.admission.id
    · subst hid
      obtain rfl : st = .admitted := view_injective (hst'.symm.trans hst)
      have hstart : Leads (fresh w.admission.id) (flagged w.admission.id) .admitted .running :=
        .single .start
      rcases h.view_of_open hwt' hc ht hr with hv | ⟨o, hv⟩
      · exact ⟨.running, by rw [hv, hown]; rfl, hstart⟩
      · exact ⟨.settled o.state o.state_isTerminal false, by rw [hv, hown]; rfl,
          hstart.tail (.finish o.state o.state_isTerminal)⟩
    · exact ⟨st, ((h.view_of_ne hwt' hid).trans (hstarted.view id hid)).trans hst', .refl⟩
  · rw [h.limit, hstarted.queue]
  · exact Nat.le_trans h.slots_le (hstarted.queue ▸ hs)

end Beginning

end Overseer.System
