import Overseer.Proofs.System.Advance

/-! # What is between the system and one task

Most of what is done at a time concerns one task: the views of all others stay as they are, and so do the queue, the
workers and the calls. The record of a task that has ended stays as it is in any case.
-/

namespace Overseer.System

variable {κ : Type} {s t u : System κ} {id : TaskId}

/-- The records of tasks that have ended are final. -/
def Keeps (s t : System κ) : Prop :=
  ∀ j task, s.tasks.get? j = some task → task.state.isTerminal = true →
    t.tasks.get? j = some task

namespace Keeps

theorem of_tasks (h : t.tasks = s.tasks) : Keeps s t := by
  intro j task hj _
  rw [h]
  exact hj

theorem trans (h : Keeps s t) (h' : Keeps t u) : Keeps s u :=
  fun j task hj hended => h' j task (h j task hj hended) hended

/-- Only the record of a task that has not ended is replaced. -/
theorem of_set {task task' : Task} (ht : s.tasks.get? id = some task)
    (hopen : task.state.isTerminal = false) (h : t.tasks = s.tasks.set id task') : Keeps s t := by
  intro j taskj hj hended
  by_cases he : j = id
  · subst he
    obtain rfl := Option.some.inj (ht.symm.trans hj)
    rw [hopen] at hended
    cases hended
  · rw [h, Table.get?_set_of_ne he]
    exact hj

end Keeps

structure Private (id : TaskId) (s t : System κ) : Prop where
  view : ∀ j, j ≠ id → t.view j = s.view j
  reasons : ∀ j, j ≠ id → t.cancelReasons.get? j = s.cancelReasons.get? j
  records : Keeps s t
  queue : t.queue = s.queue
  workers : t.workers = s.workers
  reached : t.reached = s.reached

namespace Private

theorem refl (id : TaskId) (s : System κ) : Private id s s :=
  ⟨fun _ _ => rfl, fun _ _ => rfl, .of_tasks rfl, rfl, rfl, rfl⟩

theorem trans (h : Private id s t) (h' : Private id t u) : Private id s u where
  view j hj := (h'.view j hj).trans (h.view j hj)
  reasons j hj := (h'.reasons j hj).trans (h.reasons j hj)
  records := h.records.trans h'.records
  queue := h'.queue.trans h.queue
  workers := h'.workers.trans h.workers
  reached := h'.reached.trans h.reached

theorem record (id : TaskId) (step : Step) (s : System κ) :
    Private id s (s.record .silent id step) where
  view j _ := view_record id step s j
  reasons j _ := by
    rw [cancelReasons_record]
  records := .of_tasks (tasks_record id step s)
  queue := queue_record id step s
  workers := workers_record id step s
  reached := reached_record id step s

theorem noteReason (id : TaskId) (reason : FailureReason) (s : System κ) :
    Private id s (s.noteReason id reason) where
  view _ _ := rfl
  reasons _ hj := Table.get?_set_of_ne hj _ _
  records := .of_tasks rfl
  queue := rfl
  workers := rfl
  reached := rfl

theorem announce {e : Event} (h : e.id = id) (s : System κ) :
    Private id s (s.announce .silent e) where
  view j hj := view_announce_of_ne (by rw [h]; exact Ne.symm hj) s
  reasons _ _ := rfl
  records := .of_tasks rfl
  queue := rfl
  workers := rfl
  reached := rfl

end Private

theorem open_of_finish {task task' : Task} {o : Outcome} {now : Time}
    (h : task.finish o now = .ok task') : task.state.isTerminal = false := by
  cases hstate : task.state with
  | pending | processing => rfl
  | completed | failed | lost | aborted =>
    rw [Task.finish_error (by rw [hstate]; rfl)] at h
    cases h

/-- A task that has ended is not ended again. -/
theorem keeps_finish (id : TaskId) (o : Outcome) (s : System κ) :
    Keeps s (s.finish .silent id o) := by
  unfold finish
  rcases Tracer.markTerminal_cases s.tracer id o.state with h | ⟨trace, -, h⟩
  · rw [h]
    exact .of_tasks rfl
  · rw [h]
    dsimp only
    split
    · exact .of_tasks rfl
    · rename_i tasks hstore
      obtain ⟨task, task', htask, hmove, rfl⟩ := TaskStore.update_cases hstore
      exact .of_set htask (open_of_finish hmove) rfl

theorem Private.finish (id : TaskId) (o : Outcome) (s : System κ) :
    Private id s (s.finish .silent id o) where
  view _ hj := view_finish_of_ne hj o s
  reasons j hj := by
    rcases cancelReasons_finish id o s with h | h
    · rw [h]
    · rw [h, Table.get?_remove_of_ne hj]
  records := keeps_finish id o s
  queue := queue_finish id o s
  workers := workers_finish id o s
  reached := reached_finish id o s

/-- A task is put down as aborted by the outcome that says so, while its trace is open. -/
theorem finish_aborted {task : Task} {o : Outcome} (hbefore : (s.view id).task ≠ some .aborted)
    (ht : (s.finish .silent id o).tasks.get? id = some task) (ha : task.state = .aborted) :
    (∃ state, (s.view id).trace = some state ∧ state.isTerminal = false) ∧
      ∃ reason, o = .aborted reason ∧ task.failure = some ⟨reason, reason.name⟩ := by
  have hnew : s.tasks.get? id ≠ some task := by
    intro hold
    apply hbefore
    simp [view, hold, ha]
  constructor
  · by_contra hno
    have hsame : s.finish .silent id o = s := by
      cases hr : (s.view id).trace with
      | none => exact finish_of_none hr o
      | some state =>
        cases hb : state.isTerminal with
        | true => exact finish_of_isTerminal hr hb o
        | false => exact absurd ⟨state, hr, hb⟩ hno
    rw [hsame] at ht
    exact hnew ht
  · unfold finish at ht
    rcases Tracer.markTerminal_cases s.tracer id o.state with h | ⟨trace, -, h⟩
    · rw [h] at ht
      exact absurd ht hnew
    · rw [h] at ht
      dsimp only at ht
      split at ht
      · exact absurd ht hnew
      · rename_i tasks hstore
        obtain ⟨before, after, -, hmove, rfl⟩ := TaskStore.update_cases hstore
        obtain ⟨hstate, hfailure⟩ := Task.of_finish hmove
        have hafter : (s.tasks.set id after).get? id = some task := ht
        rw [Table.get?_set] at hafter
        obtain rfl := Option.some.inj hafter
        rw [ha] at hstate
        cases o with
        | completed | failed | lost => cases hstate
        | aborted reason => exact ⟨reason, rfl, hfailure _ rfl⟩

/-! ## Submissions -/

theorem cancelReasons_register (id : TaskId) (payload : Json) (s : System κ) :
    (s.register .silent id payload).cancelReasons = s.cancelReasons :=
  cancelReasons_record id _ _

theorem Private.register (payload : Json) (h : s.view id = Standing.unknown.view id) :
    Private id s (s.register .silent id payload) where
  view _ hj := view_register_of_ne payload (contains_of_unknown h) hj
  reasons j _ := by
    rw [cancelReasons_register]
  records := by
    intro j task hj _
    have hne : j ≠ id := by
      rintro rfl
      have hnone : (s.tasks.get? j).map (·.state) = none := congrArg View.task h
      rw [hj] at hnone
      cases hnone
    have htasks : (s.register .silent id payload).tasks
        = s.tasks.move id (.new id payload s.now) := by
      rw [register_eq payload (contains_of_unknown h)]
      exact tasks_record id _ _
    rw [htasks, Table.get?_move_of_ne hne]
    exact hj
  queue := queue_register id payload s
  workers := workers_register id payload s
  reached := by
    rw [register_eq payload (contains_of_unknown h)]
    exact reached_record id _ _

end Overseer.System
