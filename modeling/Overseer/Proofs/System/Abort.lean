import Overseer.Http.Service
import Overseer.Proofs.System.Custody
import Overseer.Proofs.System.Tenure

/-! # What an abort answers

An abort asks the store, then the queue, and when the queue has nothing it asks the store again. In a run with whole
sweeps the store and the queue go together: a task that has not ended is pending or holds a slot, so the second
question is never reached (`abort_cases`), and the answer tells whether the task is unknown, has ended, or could be
aborted. In the last case it is discarded, if it was pending, and otherwise its token is cancelled. That no other task
hears of it is due to tokens that are apart (`Tenure`).
-/

namespace Overseer.System

open Standing

variable {κ : Type} {s s' s'' : System κ} {id : TaskId}

/-! ## What an abort leaves alone -/

/-- The queue stays, and so do the records and the traces of all tasks but one. -/
structure Elsewhere (id : TaskId) (s s' : System κ) : Prop where
  queue : s'.queue = s.queue
  tasks : ∀ j, j ≠ id → s'.tasks.get? j = s.tasks.get? j
  traces : ∀ j, j ≠ id → s'.tracer.get? j = s.tracer.get? j

namespace Elsewhere

theorem trans (h : Elsewhere id s s') (h' : Elsewhere id s' s'') : Elsewhere id s s'' where
  queue := h'.queue.trans h.queue
  tasks j hj := (h'.tasks j hj).trans (h.tasks j hj)
  traces j hj := (h'.traces j hj).trans (h.traces j hj)

theorem record (id : TaskId) (step : Step) (s : System κ) :
    Elsewhere id s (s.record .silent id step) := by
  rcases record_cases id step s with h | ⟨t, t', e, -, -, -, -, h⟩
  · rw [h]
    exact ⟨rfl, fun _ _ => rfl, fun _ _ => rfl⟩
  · rw [h]
    exact ⟨rfl, fun _ _ => rfl, fun j hj => Table.get?_set_of_ne hj _ _⟩

theorem finish {task : Task} {trace : Trace} {o : Outcome} (ht : s.tasks.get? id = some task)
    (ha : task.state.canMove o.state = true) (hr : s.tracer.get? id = some trace)
    (hb : trace.state.isTerminal = false) : Elsewhere id s (s.finish .silent id o) := by
  obtain ⟨task', e, -, -, -, h⟩ := finish_of_open ht ha hr hb
  rw [h]
  exact ⟨rfl, fun j hj => Table.get?_set_of_ne hj _ _, fun j hj => Table.get?_set_of_ne hj _ _⟩

end Elsewhere

/-- Nothing of any other task is another: no record, no trace, no slot, no token and not the order. -/
structure Spares (id : TaskId) (s s' : System κ) : Prop where
  tasks : ∀ j, j ≠ id → s'.tasks.get? j = s.tasks.get? j
  traces : ∀ j, j ≠ id → s'.tracer.get? j = s.tracer.get? j
  slots : ∀ j, j ≠ id → s'.queue.active.get? j = s.queue.active.get? j
  /-- The tokens of slots, and those of workers whose slots have been taken from them. -/
  tokens : ∀ j token, j ≠ id → s.queue.active.get? j = some token ∨ ⟨j, token⟩ ∈ s.admissions →
    s'.isCancelled token = s.isCancelled token
  order : s'.queue.pending = s.queue.pending.erase id

/-- A task that was pending has been taken out of the queue and ended, and the executor never heard of it. -/
structure Withdrawn (id : TaskId) (s s' : System κ) : Prop where
  before : ∃ task, s.tasks.get? id = some task ∧ task.state = .pending
  queued : id ∈ s.queue.pending
  after : ∃ task, s'.tasks.get? id = some task ∧ task.state = .aborted ∧
    task.failure = some ⟨.aborted, FailureReason.aborted.name⟩
  gone : id ∉ s'.queue.pending ∧ s'.queue.active.get? id = none
  unheard : ∀ call ∈ s'.reached, call.1 ≠ id

/-- The worker of a task has been told to stop; the rest is left to the worker. -/
structure ToldToStop (id : TaskId) (s s' : System κ) : Prop where
  tasks : s'.tasks = s.tasks
  slot : ∃ token, s.queue.active.get? id = some token ∧ s'.queue.active.get? id = some token ∧
    ⟨id, token⟩ ∈ s'.admissions ∧ s'.isCancelled token = true

/-! ## The two ways to abort a task -/

theorem abort_of_pending {task : Task} (ht : s.tasks.get? id = some task)
    (hopen : task.state.isTerminal = false) (hmem : id ∈ s.queue.pending) :
    s.abort .silent id
      = (.ok (), (s.withQueue { s.queue with pending := s.queue.pending.erase id }).discard
          .silent "abort" "removed from queue by operator" .aborted id) := by
  simp [abort, ht, hopen, Queue.abort, hmem, abortQueued]

theorem abort_of_active {task : Task} {token : Token} (ht : s.tasks.get? id = some task)
    (hopen : task.state.isTerminal = false) (hnot : id ∉ s.queue.pending)
    (hslot : s.queue.active.get? id = some token) :
    s.abort .silent id
      = (.ok (), ((s.withQueue (s.queue.cancelToken token)).noteReason id .aborted).record
          .silent id (.okGate component "abort" "cancellation requested by operator")) := by
  simp [abort, ht, hopen, Queue.abort, Queue.token?, hnot, hslot, abortQueued]

/-- The executor has been asked for nobody without a worker. -/
theorem Tenure.unheard (h : Tenure s) (hcrew : (s.view id).crew = []) :
    ∀ call ∈ s.reached, call.1 ≠ id := by
  rintro call hcall rfl
  obtain ⟨a, ha, hid⟩ := h.callers call hcall
  obtain ⟨w, hw, rfl⟩ := List.mem_map.mp ha
  have hmem := mem_crew_of_mem hw
  rw [hid, hcrew] at hmem
  cases hmem

/-- The end of a task that has just been taken out of the queue, seen from it and from all others. -/
theorem elsewhere_discard (action detail : String) (reason : FailureReason)
    (h : s.view id = { Standing.queued.view id with queued := 0 }) :
    Elsewhere id s (s.discard .silent action detail reason id) ∧
      ∃ task, (s.discard .silent action detail reason id).tasks.get? id = some task ∧
        task.state = .aborted ∧ task.failure = some ⟨reason, reason.name⟩ := by
  have hdiscarded : (s.discard .silent action detail reason id).view id
      = Standing.discarded.view id := view_discard h
  have hrecord := Elsewhere.record id (.okGate component action detail) s
  have hview := view_record id (.okGate component action detail) s id
  unfold discard at hdiscarded ⊢
  generalize s.record .silent id (.okGate component action detail) = u
    at hdiscarded hrecord hview ⊢
  rw [h] at hview
  obtain ⟨task, htask, hstate⟩ := exists_task (congrArg View.task hview)
  obtain ⟨trace, htrace, hopen⟩ := exists_trace (congrArg View.trace hview)
  obtain ⟨after, hafter, haborted⟩ := exists_task (congrArg View.task hdiscarded)
  have hbefore : (u.view id).task ≠ some .aborted := by
    rw [hview]
    exact fun he => nomatch he
  obtain ⟨-, reason', hreason, hfailure⟩ := finish_aborted hbefore hafter haborted
  obtain rfl := Outcome.aborted.inj hreason
  exact ⟨hrecord.trans (.finish htask (by rw [hstate]; rfl) htrace (by rw [hopen]; rfl)),
    after, hafter, haborted, hfailure⟩

/-- A task that waits in the queue. -/
theorem withdrawn_abort (h : Tenure s) (hst : s.view id = Standing.queued.view id) :
    (s.abort .silent id).1 = .ok () ∧ Spares id s (s.abort .silent id).2 ∧
      Withdrawn id s (s.abort .silent id).2 ∧
      (s.abort .silent id).2.view id = Standing.discarded.view id := by
  obtain ⟨task, htask, hstate⟩ := exists_task (congrArg View.task hst)
  have hcount : s.queue.pending.count id = 1 := congrArg View.queued hst
  have hactive : s.queue.active.contains id = false := congrArg View.active hst
  rw [Table.contains_eq, Option.isSome_eq_false_iff, Option.isNone_iff_eq_none] at hactive
  have hmem : id ∈ s.queue.pending := List.count_pos_iff.mp (by rw [hcount]; exact Nat.one_pos)
  have hnot : id ∉ s.queue.pending.erase id := by
    rw [← List.count_eq_zero, List.count_erase_self, hcount]
  have hview : (s.withQueue { s.queue with pending := s.queue.pending.erase id }).view id
      = { Standing.queued.view id with queued := 0 } := by
    rw [view_withQueue, List.count_eq_zero.mpr hnot, ← hst]
    rfl
  have habides := Abides.abort id s
  rw [abort_of_pending htask (by rw [hstate]; rfl) hmem] at habides ⊢
  obtain ⟨helse, hafter⟩ :=
    elsewhere_discard "abort" "removed from queue by operator" .aborted hview
  have hqueue := helse.queue
  refine ⟨rfl, ?spares, ?withdrawn, view_discard hview⟩
  case spares =>
    exact
      { tasks := helse.tasks
        traces := helse.traces
        slots := fun j _ => by
          rw [hqueue]
          rfl
        tokens := fun j token _ _ => by
          unfold isCancelled
          rw [hqueue]
          rfl
        order := congrArg Queue.pending hqueue }
  case withdrawn =>
    exact
      { before := ⟨task, htask, hstate⟩
        queued := hmem
        after := hafter
        gone := by
          rw [hqueue]
          exact ⟨hnot, hactive⟩
        unheard := by
          rw [habides.reached]
          exact h.unheard (congrArg View.crew hst) }

/-- A task that holds a slot. -/
theorem toldToStop_abort (h : Tenure s) {task : Task} (ht : s.tasks.get? id = some task)
    (hopen : task.state.isTerminal = false) (hnot : id ∉ s.queue.pending)
    (hactive : s.queue.active.contains id = true) :
    (s.abort .silent id).1 = .ok () ∧ Spares id s (s.abort .silent id).2 ∧
      ToldToStop id s (s.abort .silent id).2 := by
  rw [Table.contains_eq, Option.isSome_iff_exists] at hactive
  obtain ⟨token, hslot⟩ := hactive
  have hadmission := h.owned id token hslot
  have habides := Abides.abort id s
  rw [abort_of_active ht hopen hnot hslot] at habides ⊢
  dsimp only at habides ⊢
  have hrecord := Elsewhere.record id
    (.okGate component "abort" "cancellation requested by operator")
    ((s.withQueue (s.queue.cancelToken token)).noteReason id .aborted)
  have htasks := tasks_record id (.okGate component "abort" "cancellation requested by operator")
    ((s.withQueue (s.queue.cancelToken token)).noteReason id .aborted)
  generalize ((s.withQueue (s.queue.cancelToken token)).noteReason id .aborted).record .silent id
    (.okGate component "abort" "cancellation requested by operator") = u
    at habides hrecord htasks ⊢
  have hqueue : u.queue = s.queue.cancelToken token := hrecord.queue
  refine ⟨rfl, ?spares, ?told⟩
  case spares =>
    refine
      { tasks := hrecord.tasks
        traces := hrecord.traces
        slots := fun j _ => by
          rw [hqueue]
          rfl
        tokens := fun j other hj hother => ?_
        order := ?_ }
    · have hmem : ⟨j, other⟩ ∈ s.admissions := hother.elim (h.owned j other) (fun hmem => hmem)
      have hne : (⟨id, token⟩ : Admission) ≠ ⟨j, other⟩ :=
        fun he => hj (Admission.mk.inj he).1.symm
      unfold isCancelled
      rw [hqueue]
      exact h.isCancelled_cancelToken_of_ne hadmission hmem hne
    · rw [hqueue, List.erase_of_not_mem hnot]
      rfl
  case told =>
    refine ⟨htasks, token, hslot, ?_, ?_, ?_⟩
    · rw [hqueue]
      exact hslot
    · rw [habides.admissions]
      exact hadmission
    · unfold isCancelled
      rw [hqueue]
      exact h.isCancelled_cancelToken hadmission

/-- The status of the response to an abort. -/
def abortStatus : Except AbortError Unit → Nat
  | .ok () => 200
  | .error (.notFound _) => 404
  | .error (.alreadyTerminal _ _) => 409

theorem response_abort (s : System κ) {raw : String} (h : TaskId.parse? raw = some id) :
    (Http.abort .silent raw s).1.status = abortStatus (s.abort .silent id).1 ∧
      (Http.abort .silent raw s).2 = (s.abort .silent id).2 := by
  unfold Http.abort
  rw [h]
  dsimp only
  generalize s.abort .silent id = answered
  obtain ⟨answer, s'⟩ := answered
  cases answer with
  | ok u => exact ⟨rfl, rfl⟩
  | error e =>
    cases e with
    | notFound | alreadyTerminal => exact ⟨rfl, rfl⟩

/-- The task of a submission that is refused has been discarded. -/
theorem view_submit_of_error {payload : Json} {e : SubmitError}
    (h : s.view id = Standing.unknown.view id)
    (he : (s.submit .silent id payload).1 = .error e) :
    (s.submit .silent id payload).2.view id = Standing.discarded.view id := by
  refine (view_submit payload h).resolve_left fun hv => ?_
  have hcount : ((s.submit .silent id payload).2.view id).queued = 0 := by
    rcases submit_cases id payload s with ⟨step, cause, hs⟩ | ⟨-, hs⟩
    · rw [hs]
      show (View.queued _) = 0
      simp only [view, queue_finish, queue_record, queue_register]
      exact congrArg View.queued h
    · rw [hs] at he
      cases he
  rw [hv] at hcount
  cases hcount

/-! ## In every state of a run -/

variable {limit : Nat} {c c' : Chronicle κ}

/-- A task is unknown, has ended, waits in the queue or holds a slot. -/
theorem Kept.abort_cases (hk : Kept .whole limit c) (h : Tenure c.system) (id : TaskId) :
    (id ∉ c.submitted ∧ c.system.tasks.get? id = none ∧
      c.system.abort .silent id = (.error (.notFound id), c.system)) ∨
    id ∈ c.submitted ∧ ∃ task, c.system.tasks.get? id = some task ∧
      ((task.state.isTerminal = true ∧
        c.system.abort .silent id = (.error (.alreadyTerminal id task.state), c.system)) ∨
      task.state.isTerminal = false ∧ (c.system.abort .silent id).1 = .ok () ∧
        Spares id c.system (c.system.abort .silent id).2 ∧
        (Withdrawn id c.system (c.system.abort .silent id).2 ∨
          ToldToStop id c.system (c.system.abort .silent id).2)) := by
  obtain ⟨st, hst, hsub, hne⟩ := hk.cases_of_whole id
  have hknown : st ≠ .unknown → id ∈ c.submitted := hsub.mpr
  cases st with
  | unknown =>
    have hnone : c.system.tasks.get? id = none :=
      Option.map_eq_none_iff.mp (congrArg View.task hst)
    exact Or.inl ⟨fun hid => hsub.mp hid rfl, hnone, abort_of_none hnone⟩
  | stalled w => exact absurd rfl (hne w)
  | queued =>
    obtain ⟨task, htask, hstate⟩ := exists_task (congrArg View.task hst)
    obtain ⟨hanswer, hspares, hwithdrawn, -⟩ := withdrawn_abort h hst
    exact Or.inr ⟨hknown (fun he => nomatch he), task, htask,
      Or.inr ⟨by rw [hstate]; rfl, hanswer, hspares, Or.inl hwithdrawn⟩⟩
  | admitted | running =>
    obtain ⟨task, htask, hstate⟩ := exists_task (congrArg View.task hst)
    have hopen : task.state.isTerminal = false := by rw [hstate]; rfl
    obtain ⟨hanswer, hspares, htold⟩ := toldToStop_abort h htask hopen
      (notMem_pending (congrArg View.queued hst)) (congrArg View.active hst)
    exact Or.inr ⟨hknown (fun he => nomatch he), task, htask,
      Or.inr ⟨hopen, hanswer, hspares, Or.inr htold⟩⟩
  | discarded =>
    obtain ⟨task, htask, hstate⟩ := exists_task (congrArg View.task hst)
    have hended : task.state.isTerminal = true := by rw [hstate]; rfl
    exact Or.inr ⟨hknown (fun he => nomatch he), task, htask,
      Or.inl ⟨hended, abort_of_isTerminal htask hended⟩⟩
  | settled state ended =>
    obtain ⟨task, htask, hstate⟩ := exists_task (congrArg View.task hst)
    have hended : task.state.isTerminal = true := by rw [hstate]; exact ended
    exact Or.inr ⟨hknown (fun he => nomatch he), task, htask,
      Or.inl ⟨hended, abort_of_isTerminal htask hended⟩⟩

section Answers

variable (hk : Kept .whole limit c) (h : Tenure c.system)
include hk h

theorem Kept.abort_notFound_iff (id : TaskId) :
    (c.system.abort .silent id).1 = .error (.notFound id) ↔ id ∉ c.submitted := by
  rcases hk.abort_cases h id with ⟨hnew, -, he⟩ | ⟨hold, task, -, ⟨-, he⟩ | ⟨-, hanswer, -, -⟩⟩
  · exact iff_of_true (by rw [he]) hnew
  · exact iff_of_false (by simp [he]) (not_not_intro hold)
  · exact iff_of_false (by simp [hanswer]) (not_not_intro hold)

theorem Kept.abort_alreadyTerminal_iff (id : TaskId) (state : TaskState) :
    (c.system.abort .silent id).1 = .error (.alreadyTerminal id state) ↔
      ∃ task, c.system.tasks.get? id = some task ∧ task.state = state ∧ state.isTerminal = true := by
  rcases hk.abort_cases h id with
    ⟨-, hnone, he⟩ | ⟨-, task, htask, ⟨hended, he⟩ | ⟨hopen, hanswer, -, -⟩⟩
  · simp [he, hnone]
  · rw [he]
    constructor
    · intro hstate
      obtain rfl : task.state = state := by simpa using hstate
      exact ⟨task, htask, rfl, hended⟩
    · rintro ⟨task', htask', rfl, -⟩
      obtain rfl := Option.some.inj (htask.symm.trans htask')
      rfl
  · rw [hanswer]
    refine iff_of_false (by simp) ?_
    rintro ⟨task', htask', rfl, hended⟩
    obtain rfl := Option.some.inj (htask.symm.trans htask')
    rw [hopen] at hended
    cases hended

theorem Kept.abort_ok_iff (id : TaskId) :
    (c.system.abort .silent id).1 = .ok () ↔
      ∃ task, c.system.tasks.get? id = some task ∧ task.state.isTerminal = false := by
  rcases hk.abort_cases h id with
    ⟨-, hnone, he⟩ | ⟨-, task, htask, ⟨hended, he⟩ | ⟨hopen, hanswer, -, -⟩⟩
  · simp [he, hnone]
  · simp [he, htask, hended]
  · exact iff_of_true hanswer ⟨task, htask, hopen⟩

theorem Kept.abort_ok (ha : (c.system.abort .silent id).1 = .ok ()) :
    Spares id c.system (c.system.abort .silent id).2 ∧
      (Withdrawn id c.system (c.system.abort .silent id).2 ∨
        ToldToStop id c.system (c.system.abort .silent id).2) := by
  rcases hk.abort_cases h id with ⟨-, -, he⟩ | ⟨-, task, -, ⟨-, he⟩ | ⟨-, -, hspares, hdone⟩⟩
  · rw [he] at ha
    cases ha
  · rw [he] at ha
    cases ha
  · exact ⟨hspares, hdone⟩

theorem Kept.abort_error {e : AbortError} (ha : (c.system.abort .silent id).1 = .error e) :
    (c.system.abort .silent id).2 = c.system := by
  rcases hk.abort_cases h id with ⟨-, -, he⟩ | ⟨-, task, -, ⟨-, he⟩ | ⟨-, hanswer, -, -⟩⟩
  · rw [he]
  · rw [he]
  · rw [hanswer] at ha
    cases ha

end Answers

variable [Cost κ] {settings : Settings κ} {maxPending : Option Nat} {orders : List Order}

/-- Nothing becomes of a task that has been discarded. -/
theorem Kept.stays_discarded (h : Kept .whole limit c) (hm : Moves .whole settings c c')
    (hst : c.system.view id = Standing.discarded.view id) :
    c'.system.view id = Standing.discarded.view id := by
  obtain ⟨st, hst', hl⟩ := (h.moves hm).2.leads id _ hst
  have hsame : st = .discarded := by
    refine hl.keeps (P := (· = .discarded)) (fun x y hn hx => ?_) rfl
    subst hx
    cases hn
  rw [hst', hsame]

/-- A moment of a run: between two moves, or while a worker waits for the executor. -/
inductive Moment (settings : Settings κ) (start c : Chronicle κ) : Prop
  | between (h : Moves .whole settings start c)
  | asking {before : Chronicle κ} {n : Nat} {s : System κ} (h : Moves .whole settings start before)
      (hs : before.system.consulted settings n = some s) (acts : Acts .whole (before.on s) c)

theorem Moment.kept (h : Moment settings (.start limit maxPending orders) c) :
    Kept .whole (max limit 1) c ∧ Tenure c.system := by
  have hstart := Kept.start .whole limit maxPending orders (κ := κ)
  have htenure : Tenure (Chronicle.start limit maxPending orders : Chronicle κ).system :=
    .new limit maxPending orders
  cases h with
  | between h => exact ⟨(hstart.moves h).1, htenure.moves hstart h⟩
  | @asking before n s h hs acts =>
    have hkept := ((hstart.moves h).1.aside (aside_consulted hs)).1
    have hon : Tenure (before.on s).system := (htenure.moves hstart h).consulted hs
    exact ⟨(hkept.acts acts).1, hon.acts acts⟩

structure AnswersTruly (settings : Settings κ) (c : Chronicle κ) (id : TaskId) : Prop where
  notFound : (c.system.abort .silent id).1 = .error (.notFound id) ↔ id ∉ c.submitted
  alreadyTerminal : ∀ state,
    (c.system.abort .silent id).1 = .error (.alreadyTerminal id state) ↔
      ∃ task, c.system.tasks.get? id = some task ∧ task.state = state ∧ state.isTerminal = true
  accepted : (c.system.abort .silent id).1 = .ok () ↔
    ∃ task, c.system.tasks.get? id = some task ∧ task.state.isTerminal = false
  /-- Whoever reads the response is told the same. -/
  response : ∀ raw, TaskId.parse? raw = some id →
    (Http.abort .silent raw c.system).1.status = abortStatus (c.system.abort .silent id).1 ∧
      (Http.abort .silent raw c.system).2 = (c.system.abort .silent id).2
  done : (c.system.abort .silent id).1 = .ok () →
    Withdrawn id c.system (c.system.abort .silent id).2 ∧
        -- The executor will not hear of the task in the future either.
        (∀ c', Moves .whole settings (c.on (c.system.abort .silent id).2) c' →
          ∀ call ∈ c'.system.reached, call.1 ≠ id) ∨
      ToldToStop id c.system (c.system.abort .silent id).2
  spared : (c.system.abort .silent id).1 = .ok () →
    Spares id c.system (c.system.abort .silent id).2
  refused : ∀ e, (c.system.abort .silent id).1 = .error e →
    (c.system.abort .silent id).2 = c.system
  /-- A submission that is rejected leaves a task that has ended, at once and for good. -/
  rejected : ∀ payload e, id ∉ c.submitted →
    (c.system.submit .silent id payload).1 = .error e →
    ∀ c', Moves .whole settings
        { c with
          system := (c.system.submit .silent id payload).2
          submitted := id :: c.submitted } c' →
      (c'.system.abort .silent id).1 = .error (.alreadyTerminal id .aborted)

theorem Kept.abort_rejected (h : Kept .whole limit c) {payload : Json} {e : SubmitError}
    (new : id ∉ c.submitted) (he : (c.system.submit .silent id payload).1 = .error e)
    (hm : Moves .whole settings
      { c with
        system := (c.system.submit .silent id payload).2
        submitted := id :: c.submitted } c') :
    (c'.system.abort .silent id).1 = .error (.alreadyTerminal id .aborted) := by
  have hdiscarded := view_submit_of_error (h.view_of_new new) he
  have hst := (h.submit payload new).stays_discarded hm hdiscarded
  obtain ⟨task, htask, hstate⟩ := exists_task (congrArg View.task hst)
  rw [abort_of_isTerminal htask (by rw [hstate]; rfl), hstate]

/-- What has been taken out of the queue will not be called for. -/
theorem Kept.unheard_of_withdrawn (hk : Kept .whole limit c) (h : Tenure c.system)
    (hw : Withdrawn id c.system (c.system.abort .silent id).2)
    (hm : Moves .whole settings (c.on (c.system.abort .silent id).2) c') :
    ∀ call ∈ c'.system.reached, call.1 ≠ id := by
  have hact : Act .whole c (c.on (c.system.abort .silent id).2) := .abort id
  have hkept := (hk.act hact).1
  have htenure := (h.act hact).moves hkept hm
  obtain ⟨st, hst, -⟩ := hk.standing id
  obtain rfl := eq_queued hst hw.queued
  have hdiscarded := (withdrawn_abort h hst).2.2.2
  exact htenure.unheard (congrArg View.crew (hkept.stays_discarded hm hdiscarded))

/-- At any moment of a run with whole sweeps. -/
theorem abort_truthful (h : Moment settings (.start limit maxPending orders) c) (id : TaskId) :
    AnswersTruly settings c id := by
  obtain ⟨hk, htenure⟩ := h.kept
  exact
    { notFound := hk.abort_notFound_iff htenure id
      alreadyTerminal := hk.abort_alreadyTerminal_iff htenure id
      accepted := hk.abort_ok_iff htenure id
      response := fun _ hraw => response_abort c.system hraw
      done := fun ha => (hk.abort_ok htenure ha).2.imp_left fun hw =>
        ⟨hw, fun _ hm => hk.unheard_of_withdrawn htenure hw hm⟩
      spared := fun ha => (hk.abort_ok htenure ha).1
      refused := fun _ ha => hk.abort_error htenure ha
      rejected := fun _ _ new hrejected _ hm => hk.abort_rejected new hrejected hm }

/-- The first of two tasks holds the only slot and the second waits; nobody knows a third. -/
theorem abort_truthful_of_two :
    ∃ c : Chronicle Float, c.submitted = [.ofNat 8, .ofNat 7] ∧
      (Withdrawn (.ofNat 8) c.system (c.system.abort .silent (.ofNat 8)).2 ∧
        Spares (.ofNat 8) c.system (c.system.abort .silent (.ofNat 8)).2) ∧
      (ToldToStop (.ofNat 7) c.system (c.system.abort .silent (.ofNat 7)).2 ∧
        Spares (.ofNat 7) c.system (c.system.abort .silent (.ofNat 7)).2) ∧
      (c.system.abort .silent (.ofNat 9)).1 = .error (.notFound (.ofNat 9)) := by
  have hrun : ∃ c : Chronicle Float, Moves .whole usual (.start 1 none []) c ∧
      c.submitted = [.ofNat 8, .ofNat 7] ∧ c.system.queue.pending = [.ofNat 8] ∧
      c.system.queue.active.get? (.ofNat 8) = none ∧
      (c.system.abort .silent (.ofNat 8)).1 = .ok () ∧
      (c.system.abort .silent (.ofNat 7)).1 = .ok () :=
    ⟨_, ((Relation.ReflTransGen.refl.tail (.act (.submit (.ofNat 7) .null (by decide)))).tail
      (.act (.submit (.ofNat 8) .null (by decide)))).tail (.act (.employ rfl)),
      rfl, rfl, rfl, rfl, rfl⟩
  obtain ⟨c, hmoves, hsubmitted, hpending, hfree, hsecond, hfirst⟩ := hrun
  have hanswers (id : TaskId) : AnswersTruly usual c id := abort_truthful (.between hmoves) id
  refine ⟨c, hsubmitted, ⟨?_, (hanswers _).spared hsecond⟩, ⟨?_, (hanswers _).spared hfirst⟩,
    (hanswers _).notFound.mpr (by rw [hsubmitted]; decide)⟩
  · rcases (hanswers _).done hsecond with ⟨hwithdrawn, -⟩ | ⟨-, token, hslot, -⟩
    · exact hwithdrawn
    · rw [hfree] at hslot
      cases hslot
  · rcases (hanswers _).done hfirst with ⟨hwithdrawn, -⟩ | htold
    · have hqueued := hwithdrawn.queued
      rw [hpending] at hqueued
      exact absurd hqueued (by decide)
    · exact htold

end Overseer.System
