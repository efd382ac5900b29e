import Overseer.Proofs.System.Views
import Overseer.System.Operation

/-! # Operations take tasks forward

`Advance fresh flagged s s'` says that from `s` to `s'` each task that stands somewhere goes on along the
lifecycle and that no more slots are taken than there are; `fresh` and `flagged` tell the ids which a
submission and a sweep may have dealt with. What is done from outside leaves the workers where they are
besides: that is `Aside`. There is a theorem for each operation, and it needs to know nothing of any other
task than the one it speaks of.
-/

namespace Overseer.System

open Standing

variable {κ : Type}

structure Advance (fresh flagged : TaskId → Prop) (s s' : System κ) : Prop where
  leads : ∀ id st, s.view id = Standing.view id st →
    ∃ st', s'.view id = Standing.view id st' ∧ Leads (fresh id) (flagged id) st st'
  limit : s'.queue.limit = s.queue.limit
  slots : s.queue.active.length ≤ s.queue.limit → s'.queue.active.length ≤ s.queue.limit

/-- The workers stay where they are; others may join them. -/
structure Aside (fresh flagged : TaskId → Prop) (s s' : System κ) : Prop
    extends Advance fresh flagged s s' where
  workers : s.workers <+: s'.workers

def nobody : TaskId → Prop := fun _ => False

def anybody : TaskId → Prop := fun _ => True

variable {fresh flagged fresh' flagged' : TaskId → Prop} {s s' s'' : System κ} {id j : TaskId}

namespace Advance

theorem mono (hf : ∀ id, fresh id → fresh' id) (hg : ∀ id, flagged id → flagged' id)
    (h : Advance fresh flagged s s') : Advance fresh' flagged' s s' where
  leads id st hst := by
    obtain ⟨st', hst', hl⟩ := h.leads id st hst
    exact ⟨st', hst', hl.mono (hf id) (hg id)⟩
  limit := h.limit
  slots := h.slots

theorem trans (h : Advance fresh flagged s s') (h' : Advance fresh flagged s' s'') :
    Advance fresh flagged s s'' where
  leads id st hst := by
    obtain ⟨st', hst', hl⟩ := h.leads id st hst
    obtain ⟨st'', hst'', hl'⟩ := h'.leads id st' hst'
    exact ⟨st'', hst'', hl.trans hl'⟩
  limit := h'.limit.trans h.limit
  slots hs := h.limit ▸ h'.slots (h.limit.symm ▸ h.slots hs)

end Advance

namespace Aside

theorem mono (hf : ∀ id, fresh id → fresh' id) (hg : ∀ id, flagged id → flagged' id)
    (h : Aside fresh flagged s s') : Aside fresh' flagged' s s' :=
  ⟨h.toAdvance.mono hf hg, h.workers⟩

theorem trans (h : Aside fresh flagged s s') (h' : Aside fresh flagged s' s'') :
    Aside fresh flagged s s'' :=
  ⟨h.toAdvance.trans h'.toAdvance, h.workers.trans h'.workers⟩

/-- Nothing of what is seen of the tasks changes. -/
theorem of_view (hv : ∀ id, s'.view id = s.view id) (hl : s'.queue.limit = s.queue.limit)
    (ha : s'.queue.active.length ≤ s.queue.active.length) (hw : s'.workers = s.workers) :
    Aside fresh flagged s s' where
  leads id st hst := ⟨st, (hv id).trans hst, .refl⟩
  limit := hl
  slots hs := Nat.le_trans ha hs
  workers := hw ▸ List.prefix_refl _

theorem refl (s : System κ) : Aside fresh flagged s s :=
  of_view (fun _ => rfl) rfl (Nat.le_refl _) rfl

theorem withQueue {q : Queue} (hl : q.limit = s.queue.limit) (hp : q.pending = s.queue.pending)
    (ha : q.active = s.queue.active) : Aside fresh flagged s (s.withQueue q) :=
  of_view (view_withQueue_eq hp ha) hl (by rw [← ha]; exact Nat.le_refl _) rfl

/-- Only one task is dealt with. -/
theorem of_one (id : TaskId) (hne : ∀ j, j ≠ id → s'.view j = s.view j)
    (heq : ∀ st, s.view id = Standing.view id st →
      ∃ st', s'.view id = Standing.view id st' ∧ Leads (fresh id) (flagged id) st st')
    (hl : s'.queue.limit = s.queue.limit)
    (ha : s.queue.active.length ≤ s.queue.limit → s'.queue.active.length ≤ s.queue.limit)
    (hw : s.workers <+: s'.workers) : Aside fresh flagged s s' where
  leads j st hst := by
    by_cases hj : j = id
    · subst hj
      exact heq st hst
    · exact ⟨st, (hne j hj).trans hst, .refl⟩
  limit := hl
  slots := ha
  workers := hw

end Aside

/-! ## Submissions -/

theorem contains_of_unknown (h : s.view id = (Standing.unknown).view id) :
    s.tracer.contains id = false := by
  have htrace : (s.tracer.get? id).map (·.state) = none := congrArg View.trace h
  rw [Table.contains_eq, Option.map_eq_none_iff.mp htrace]
  rfl

/-- An id that nothing is known of gets a task and a trace. -/
theorem view_insert {task : Task} {trace : Trace} (h : s.view id = (Standing.unknown).view id)
    (hid : trace.id = id) :
    ({ s with tasks := s.tasks.move id task, tracer := s.tracer.set id trace } : System κ).view id
      = { s.view id with
          task := some task.state, tasks := 1, trace := some trace.state, traces := 1,
          label := some id } := by
  have hkeys : s.tracer.keys.count id = 0 := congrArg View.traces h
  simp [view, Tracer.state?, Table.get?_move, Table.get?_set, Table.count_keys_move,
    Table.count_keys_set (contains_of_unknown h), hkeys, hid, notices]

theorem view_insert_of_ne {task : Task} {trace : Trace} (h : s.tracer.contains id = false)
    (hj : j ≠ id) :
    ({ s with tasks := s.tasks.move id task, tracer := s.tracer.set id trace } : System κ).view j
      = s.view j := by
  simp [view, Tracer.state?, Table.get?_move_of_ne hj, Table.get?_set_of_ne hj,
    Table.count_keys_move_of_ne hj, Table.count_keys_set h, hj, notices]

theorem register_eq (payload : Json) (h : s.tracer.contains id = false) :
    s.register .silent id payload
      = (({ s with
            tasks := s.tasks.move id (.new id payload s.now)
            tracer := s.tracer.set id (.new id s.now) } : System κ).record .silent id
          (.ok component "submitted" "task accepted")).announce .silent (.taskCreated id) := by
  simp [register, TaskStore.insert, Task.new, Tracer.create, h, now]

/-- A task that is registered and not queued yet. -/
theorem view_register (payload : Json) (h : s.view id = (Standing.unknown).view id) :
    (s.register .silent id payload).view id = { (Standing.queued).view id with queued := 0 } := by
  rw [register_eq payload (contains_of_unknown h), view_announce, view_record, view_insert h rfl, h]
  simp [Standing.view, Event.id, Event.notice?, Task.new, Trace.new]

theorem view_register_of_ne (payload : Json) (h : s.tracer.contains id = false) (hj : j ≠ id) :
    (s.register .silent id payload).view j = s.view j := by
  have hid : (Event.taskCreated id).id ≠ j := Ne.symm hj
  rw [register_eq payload h, view_announce_of_ne hid, view_record, view_insert_of_ne h hj]

theorem queue_register (id : TaskId) (payload : Json) (s : System κ) :
    (s.register .silent id payload).queue = s.queue :=
  queue_record id _ _

theorem workers_register (id : TaskId) (payload : Json) (s : System κ) :
    (s.register .silent id payload).workers = s.workers :=
  workers_record id _ _

/-- A submission is refused by the queue, and the task is on record as aborted, or it is queued. -/
theorem submit_cases (id : TaskId) (payload : Json) (s : System κ) :
    (∃ step cause, s.submit .silent id payload
      = (.error ⟨id, cause⟩, ((s.register .silent id payload).record .silent id step).finish
          .silent id (.aborted .rejected))) ∨
    s.queue.closed = false ∧ s.submit .silent id payload
      = (.ok id, (s.register .silent id payload).withQueue
          (Queue.wake { s.queue with pending := s.queue.pending ++ [id] })) := by
  unfold submit
  have hq := queue_register id payload s
  generalize s.register .silent id payload = r at hq ⊢
  rw [← hq]
  cases hc : r.queue.enqueue id with
  | error cause =>
    simp only [hc]
    exact Or.inl ⟨_, cause, rfl⟩
  | ok q =>
    obtain ⟨rfl, hopen, -⟩ := Queue.enqueue_ok hc
    simp only [hc]
    exact Or.inr ⟨hopen, trivial⟩

/-- The queue takes a submission or the task is aborted at once. -/
theorem view_submit (payload : Json) (h : s.view id = Standing.unknown.view id) :
    (s.submit .silent id payload).2.view id = Standing.queued.view id ∨
      (s.submit .silent id payload).2.view id = Standing.discarded.view id := by
  have hid := view_register payload h
  rcases submit_cases id payload s with ⟨step, cause, hs⟩ | ⟨-, hs⟩
  · have ht : (((s.register .silent id payload).record .silent id step).view id).task
        = some .pending := by
      rw [view_record, hid]
      rfl
    have hr : (((s.register .silent id payload).record .silent id step).view id).trace
        = some .pending := by
      rw [view_record, hid]
      rfl
    rw [hs, view_finish ht rfl hr rfl, view_record, hid]
    exact Or.inr rfl
  · have hcount : s.queue.pending.count id = 0 := congrArg View.queued h
    have hactive : s.queue.active.contains id = false := congrArg View.active h
    rw [hs, view_withQueue, hid]
    exact Or.inl (by simp [Standing.view, Queue.wake, hcount, hactive])

theorem view_submit_of_ne (payload : Json) (h : s.tracer.contains id = false) (hj : j ≠ id) :
    (s.submit .silent id payload).2.view j = s.view j := by
  have hne := view_register_of_ne payload h hj
  rcases submit_cases id payload s with ⟨step, cause, hs⟩ | ⟨-, hs⟩
  · rw [hs, view_finish_of_ne hj, view_record, hne]
  · have hcount : (s.queue.pending ++ [id]).count j = s.queue.pending.count j := by
      simp [Ne.symm hj]
    rw [hs, view_withQueue, hne, Queue.wake, hcount]
    rfl

/-- A submission takes no slot and no worker. -/
theorem submit_frame (id : TaskId) (payload : Json) (s : System κ) :
    (s.submit .silent id payload).2.queue.limit = s.queue.limit ∧
      (s.submit .silent id payload).2.queue.active = s.queue.active ∧
      (s.submit .silent id payload).2.workers = s.workers := by
  have hq := queue_register id payload s
  have hw := workers_register id payload s
  rcases submit_cases id payload s with ⟨step, cause, hs⟩ | ⟨-, hs⟩
  · rw [hs, queue_finish, queue_record, hq, workers_finish, workers_record, hw]
    exact ⟨rfl, rfl, rfl⟩
  · rw [hs]
    exact ⟨rfl, rfl, hw⟩

theorem aside_submit (payload : Json) (h : s.view id = Standing.unknown.view id)
    (hfresh : fresh id) : Aside fresh flagged s (s.submit .silent id payload).2 := by
  obtain ⟨hl, ha, hw⟩ := submit_frame id payload s
  refine Aside.of_one id (fun j hj => view_submit_of_ne payload (contains_of_unknown h) hj)
    (fun st hst => ?_) hl (fun hs => ha ▸ hs) (hw ▸ List.prefix_refl _)
  obtain rfl : st = .unknown := view_injective (hst.symm.trans h)
  rcases view_submit payload h with hv | hv
  · exact ⟨.queued, hv, .single (.accept hfresh)⟩
  · exact ⟨.discarded, hv, .single (.reject hfresh)⟩

/-! ## Operations of the operator -/

theorem aside_pause (s : System κ) : Aside fresh flagged s s.pause.2 := .withQueue rfl rfl rfl

theorem aside_resume (s : System κ) : Aside fresh flagged s s.resume.2 := .withQueue rfl rfl rfl

theorem aside_cancelToken (token : Token) (s : System κ) :
    Aside fresh flagged s (s.withQueue (s.queue.cancelToken token)) := .withQueue rfl rfl rfl

theorem aside_shutdown (s : System κ) : Aside fresh flagged s s.shutdown := .withQueue rfl rfl rfl

/-- How a task stands does not depend on the time. -/
theorem aside_elapse (clock : Clock) (s : System κ) :
    Aside fresh flagged s { s with clock := clock } :=
  .of_view (fun _ => rfl) rfl (Nat.le_refl _) rfl

/-! ## Tasks that are taken out of the queue -/

/-- A standing with a pending task can only be the one in the queue. -/
theorem eq_queued {st : Standing} (hst : s.view id = Standing.view id st)
    (hmem : id ∈ s.queue.pending) : st = .queued := by
  have hcount : 0 < (Standing.view id st).queued := by
    rw [← hst]
    exact List.count_pos_iff.mpr hmem
  cases st <;> first | rfl | cases hcount

section Discard

variable {action detail : String} {reason : FailureReason}

theorem queue_discard (id : TaskId) (s : System κ) :
    (s.discard .silent action detail reason id).queue = s.queue := by
  rw [discard, queue_finish, queue_record]

theorem workers_discard (id : TaskId) (s : System κ) :
    (s.discard .silent action detail reason id).workers = s.workers := by
  rw [discard, workers_finish, workers_record]

theorem view_discard_of_ne (hj : j ≠ id) (s : System κ) :
    (s.discard .silent action detail reason id).view j = s.view j := by
  rw [discard, view_finish_of_ne hj, view_record]

/-- To discard a task that has ended changes nothing that is seen. -/
theorem view_discard_of_isTerminal {b : TaskState} (hr : (s.view j).trace = some b)
    (hb : b.isTerminal = true) : (s.discard .silent action detail reason id).view j = s.view j := by
  by_cases hj : j = id
  · subst hj
    have hr' : ((s.record .silent j (.okGate component action detail)).view j).trace = some b := by
      rw [view_record, hr]
    rw [discard, finish_of_isTerminal hr' hb, view_record]
  · exact view_discard_of_ne hj s

/-- A task that stands nowhere but in the stores, for it has just left the queue, is discarded. -/
theorem view_discard (h : s.view id = { (Standing.queued).view id with queued := 0 }) :
    (s.discard .silent action detail reason id).view id = (Standing.discarded).view id := by
  have h' : (s.record .silent id (.okGate component action detail)).view id
      = { (Standing.queued).view id with queued := 0 } := by
    rw [view_record, h]
  have ht : ((s.record .silent id (.okGate component action detail)).view id).task
      = some .pending := by
    rw [h']
    rfl
  have hr : ((s.record .silent id (.okGate component action detail)).view id).trace
      = some .pending := by
    rw [h']
    rfl
  rw [discard, view_finish ht rfl hr rfl, h']
  rfl

/-- Discards a number of tasks, one after the other. -/
def discardAll (action detail : String) (reason : FailureReason) (ids : List TaskId)
    (s : System κ) : System κ :=
  ids.foldl (fun s id => s.discard .silent action detail reason id) s

theorem queue_discardAll (ids : List TaskId) (s : System κ) :
    (s.discardAll action detail reason ids).queue = s.queue :=
  foldl_keeps (fun s : System κ => s.queue) (fun s id => queue_discard id s) ids s

theorem workers_discardAll (ids : List TaskId) (s : System κ) :
    (s.discardAll action detail reason ids).workers = s.workers :=
  foldl_keeps (fun s : System κ => s.workers) (fun s id => workers_discard id s) ids s

theorem view_discardAll_of_isTerminal {b : TaskState} (ids : List TaskId)
    (hr : (s.view j).trace = some b) (hb : b.isTerminal = true) :
    (s.discardAll action detail reason ids).view j = s.view j := by
  induction ids generalizing s with
  | nil => rfl
  | cons id ids ih =>
    have h : (s.discard .silent action detail reason id).view j = s.view j :=
      view_discard_of_isTerminal hr hb
    exact (ih (h ▸ hr)).trans h

theorem view_discardAll_of_notMem {ids : List TaskId} (hj : j ∉ ids) (s : System κ) :
    (s.discardAll action detail reason ids).view j = s.view j := by
  induction ids generalizing s with
  | nil => rfl
  | cons id ids ih =>
    rw [List.mem_cons, not_or] at hj
    exact (ih hj.2 _).trans (view_discard_of_ne hj.1 s)

theorem view_discardAll {ids : List TaskId} (hj : j ∈ ids)
    (h : s.view j = { (Standing.queued).view j with queued := 0 }) :
    (s.discardAll action detail reason ids).view j = (Standing.discarded).view j := by
  induction ids generalizing s with
  | nil => cases hj
  | cons id ids ih =>
    by_cases hid : j = id
    · subst hid
      have hd : (s.discard .silent action detail reason j).view j = Standing.discarded.view j :=
        view_discard h
      have hr : ((s.discard .silent action detail reason j).view j).trace = some .aborted := by
        rw [hd]
        rfl
      exact (view_discardAll_of_isTerminal ids hr rfl).trans hd
    · have hmem : j ∈ ids := (List.mem_cons.mp hj).resolve_left hid
      exact ih hmem ((view_discard_of_ne hid s).trans h)

/-- When all that is pending leaves the queue at once and is discarded, no other task notices. -/
theorem aside_discardAll (hv : ∀ id, s'.view id = { s.view id with queued := 0 })
    (hl : s'.queue.limit = s.queue.limit) (ha : s'.queue.active = s.queue.active)
    (hw : s'.workers = s.workers) :
    Aside fresh flagged s (s'.discardAll action detail reason s.queue.pending) where
  leads id st hst := by
    by_cases hmem : id ∈ s.queue.pending
    · obtain rfl := eq_queued hst hmem
      have h : s'.view id = { (Standing.queued).view id with queued := 0 } := by
        rw [hv, hst]
      exact ⟨.discarded, view_discardAll hmem h, .single .discard⟩
    · have hcount : (s.view id).queued = 0 := List.count_eq_zero.mpr hmem
      have h : s'.view id = s.view id := by
        rw [hv, ← hcount]
      exact ⟨st, (view_discardAll_of_notMem hmem s').trans (h.trans hst), .refl⟩
  limit := by
    rw [queue_discardAll, hl]
  slots hs := by
    rw [queue_discardAll, ha]
    exact hs
  workers := by
    simp [workers_discardAll, hw]

end Discard

theorem aside_purge (s : System κ) : Aside fresh flagged s (s.purge .silent).2 :=
  aside_discardAll (fun _ => rfl) rfl rfl rfl

/-- The stop of everything: tokens are cancelled, and all that is pending is discarded. -/
theorem aside_emergencyStop (s : System κ) :
    Aside fresh flagged s (s.emergencyStop .silent).2 := by
  have hv (j : TaskId) (t : System κ) (id : TaskId) : (t.noteStop .silent id).view j = t.view j :=
    view_record id _ _ j
  have hq (t : System κ) (id : TaskId) : (t.noteStop .silent id).queue = t.queue :=
    queue_record id _ _
  have hw (t : System κ) (id : TaskId) : (t.noteStop .silent id).workers = t.workers :=
    workers_record id _ _
  have hqs := foldl_keeps (fun t : System κ => t.queue) hq s.queue.active.keys
    (s.withQueue s.queue.emergencyStop.2)
  refine aside_discardAll (fun j => ?_) ?_ ?_ ?_
  · exact foldl_keeps (fun t : System κ => t.view j) (hv j) _ _
  · exact (congrArg Queue.limit hqs).trans rfl
  · exact (congrArg Queue.active hqs).trans rfl
  · exact foldl_keeps (fun t : System κ => t.workers) hw _ _

theorem aside_discard {action detail : String} {reason : FailureReason}
    (hmem : id ∈ s.queue.pending) :
    Aside fresh flagged s
      ((s.withQueue { s.queue with pending := s.queue.pending.erase id }).discard .silent
        action detail reason id) := by
  refine Aside.of_one id (fun j hj => ?_) (fun st hst => ?_) ?_ ?_ ?_
  · rw [view_discard_of_ne hj, view_withQueue, List.count_erase_of_ne hj]
    rfl
  · obtain rfl := eq_queued hst hmem
    have hcount : s.queue.pending.count id = 1 := congrArg View.queued hst
    have h : (s.withQueue { s.queue with pending := s.queue.pending.erase id }).view id
        = { (Standing.queued).view id with queued := 0 } := by
      rw [view_withQueue, List.count_erase_self, hcount, ← hst]
      rfl
    exact ⟨.discarded, view_discard h, .single .discard⟩
  · rw [queue_discard]
    rfl
  · rw [queue_discard]
    exact fun hs => hs
  · rw [workers_discard]
    exact List.prefix_refl _

theorem abortQueued_notQueued (obs : Observer κ) (id : TaskId) (s : System κ) :
    (s.abortQueued obs id .notQueued).2 = s := by
  unfold abortQueued
  dsimp only
  split
  · split
    · rfl
    · rfl
  · rfl

/-- An abort takes a task out of the queue, or it asks for the token and changes nothing that is seen. -/
theorem aside_abort (id : TaskId) (s : System κ) :
    Aside fresh flagged s (s.abort .silent id).2 := by
  unfold abort
  split
  · exact .refl s
  · split
    · exact .refl s
    · rcases Queue.abort_cases s.queue id with ⟨hmem, h⟩ | ⟨token, -, h⟩ | h
      · rw [h]
        exact aside_discard hmem
      · rw [h]
        refine (aside_cancelToken token s).trans (.of_view (fun j => ?_) ?_ ?_ ?_)
        · exact view_record id _ _ j
        · exact congrArg Queue.limit (queue_record id _ _)
        · exact Nat.le_of_eq (congrArg (fun q : Queue => q.active.length) (queue_record id _ _))
        · exact workers_record id _ _
      · rw [h]
        show Aside fresh flagged s (s.abortQueued .silent id .notQueued).2
        rw [abortQueued_notQueued]
        exact .refl s

end Overseer.System
