import Overseer.Proofs.System.Run

/-! # Tasks end once

A task can be ended by its worker, by the operator and by the watchdog, and of the watchdog's two steps any
number of others may come in between. Still the events of a task only move forward (`Forward`), no end state
is ever left, and once an end has been announced the task, its trace and the event agree. A worker that is
late, for its task has been flagged meanwhile, leaves the tasks, the states of the traces and the lifecycle
events as they are.
-/

namespace Overseer.System

open Standing

variable {κ : Type} {s s' : System κ} {n : Nat} {w : Worker κ}

/-- The lifecycle of a task that ends at most once. One that is never started can only be aborted. -/
def Forward (notices : List Notice) : Prop :=
  (∃ state : TaskState, state.isTerminal = true ∧
    notices <+: [.created, .started, .ended state]) ∨
  notices <+: [.created, .ended .aborted]

theorem forward_view (id : TaskId) (st : Standing) : Forward (st.view id).notices := by
  cases st with
  | discarded => exact Or.inr (List.prefix_refl _)
  | settled state ended => exact Or.inl ⟨state, ended, List.prefix_refl _⟩
  | unknown | queued | admitted | running | stalled =>
    exact Or.inl ⟨.lost, rfl, by simp [Standing.view, List.cons_prefix_cons]⟩

/-- Where an end has been announced the store and the trace say the same. -/
theorem state_of_ended {id : TaskId} {st : Standing} {state : TaskState}
    (h : .ended state ∈ (st.view id).notices) :
    (st.view id).task = some state ∧ (st.view id).trace = some state := by
  cases st <;> simp_all [Standing.view]

theorem Stands.forward (h : s.Stands) (id : TaskId) : Forward (s.notices id) := by
  obtain ⟨st, hst⟩ := h id
  have hnotices : s.notices id = (st.view id).notices := congrArg View.notices hst
  rw [hnotices]
  exact forward_view id st

theorem Stands.agree (h : s.Stands) {id : TaskId} {state : TaskState}
    (hended : .ended state ∈ s.notices id) :
    ∃ task trace, s.tasks.get? id = some task ∧ s.tracer.get? id = some trace ∧
      task.state = state ∧ trace.state = state := by
  obtain ⟨st, hst⟩ := h id
  have hnotices : s.notices id = (st.view id).notices := congrArg View.notices hst
  rw [hnotices] at hended
  obtain ⟨ht, hr⟩ := state_of_ended hended
  rw [← hst] at ht hr
  obtain ⟨task, htask, hstate⟩ := exists_task ht
  obtain ⟨trace, htrace, hstate'⟩ := exists_trace hr
  exact ⟨task, trace, htask, htrace, hstate, hstate'⟩

/-! ## Late workers -/

/-- A turn of a worker whose task has ended before is not seen in the traces and the events. -/
theorem Worked.quiet_of_isTerminal {b : TaskState} (h : Worked n w.admission s s')
    (hw : s.workers[n]? = some w) (hc : (s.view w.admission.id).crew.length = 1)
    (hr : (s.view w.admission.id).trace = some b) (hb : b.isTerminal = true) (j : TaskId) :
    (s'.view j).trace = (s.view j).trace ∧ (s'.view j).notices = (s.view j).notices := by
  by_cases hj : j = w.admission.id
  · subst hj
    rcases h.view_of_isTerminal hw hc hr hb with hv | hv
    · rw [hv]
      exact ⟨rfl, rfl⟩
    · rw [hv]
      exact ⟨rfl, rfl⟩
  · rw [h.view_of_ne hw hj]
    exact ⟨rfl, rfl⟩

variable [Cost κ] {settings : Settings κ} {execute : Execute κ} {watch : Watch} {limit : Nat}
  {c c' : Chronicle κ}

/-- A worker that is late changes nothing that counts. -/
theorem Kept.late (h : Kept watch limit c) (ha : Answered watch settings n execute c c')
    (hw : c.system.workers[n]? = some w) (hflag : w.admission.id ∈ c'.flagged) :
    (c.system.turn .silent settings n execute).tasks = c'.system.tasks ∧
      ∀ id, (c.system.turn .silent settings n execute).tracer.state? id
          = c'.system.tracer.state? id ∧
        (c.system.turn .silent settings n execute).notices id = c'.system.notices id := by
  obtain ⟨st, hst, hlost⟩ := (h.answered ha).1.isLost hflag
  cases hb : w.phase.activity with
  | gone =>
    obtain rfl := eq_of_unasked ha (consulted_of_ne_busy hw (by rw [hb]; decide) settings)
    rw [turn_of_gone hw hb]
    exact ⟨rfl, fun _ => ⟨rfl, rfl⟩⟩
  | due =>
    obtain rfl := eq_of_unasked ha (consulted_of_ne_busy hw (by rw [hb]; decide) settings)
    obtain rfl := eq_admitted hst hw hb
    rcases hlost with ⟨_, he⟩ | ⟨_, he⟩
    · cases he
    · cases he
  | busy =>
    obtain ⟨hw', hworked⟩ := h.worked ha hw hb
    have hc := length_crew_of_busy hst hw' hb
    have hr : (c'.system.view w.admission.id).trace = some .lost := by
      rw [hst]
      rcases hlost with ⟨_, rfl⟩ | ⟨_, rfl⟩
      · rfl
      · rfl
    exact ⟨hworked.tasks_of_isTerminal hr rfl,
      fun id => hworked.quiet_of_isTerminal hw' hc hr rfl id⟩

/-! ## Runs -/

theorem Kept.notices_prefix (h : Kept watch limit c) (hm : Moves watch settings c c') (id : TaskId) :
    c.system.notices id <+: c'.system.notices id := by
  obtain ⟨st, hst⟩ := h.stands id
  obtain ⟨st', hst', hl⟩ := (h.moves hm).2.leads id st hst
  have hbefore : c.system.notices id = (st.view id).notices := congrArg View.notices hst
  have hafter : c'.system.notices id = (st'.view id).notices := congrArg View.notices hst'
  rw [hbefore, hafter]
  exact hl.notices_prefix

theorem Kept.stays_ended (h : Kept watch limit c) (hm : Moves watch settings c c') {id : TaskId}
    {task : Task} (ht : c.system.tasks.get? id = some task) (hended : task.state.isTerminal = true) :
    ∃ task', c'.system.tasks.get? id = some task' ∧ task'.state = task.state := by
  obtain ⟨st, hst⟩ := h.stands id
  obtain ⟨st', hst', hl⟩ := (h.moves hm).2.leads id st hst
  have hbefore : (st.view id).task = some task.state := by
    rw [← hst]
    simp [view, ht]
  have hafter : (c'.system.view id).task = some task.state := by
    rw [hst']
    exact hl.task_eq hended hbefore
  exact exists_task hafter

variable {maxPending : Option Nat} {orders : List Order}

/-- However the sweeps, the calls that follow from them, the operator and the workers are interleaved. -/
theorem ended_once (h : Moves .split settings (.start limit maxPending orders) c) :
    (∀ id, Forward (c.system.notices id)) ∧
    (∀ id state, .ended state ∈ c.system.notices id →
      ∃ task trace, c.system.tasks.get? id = some task ∧ c.system.tracer.get? id = some trace ∧
        task.state = state ∧ trace.state = state) ∧
    (∀ c', Moves .split settings c c' → ∀ id,
      c.system.notices id <+: c'.system.notices id ∧
        ∀ task, c.system.tasks.get? id = some task → task.state.isTerminal = true →
          ∃ task', c'.system.tasks.get? id = some task' ∧ task'.state = task.state) ∧
    ∀ n execute c', Answered .split settings n execute c c' →
      ∀ w, c.system.workers[n]? = some w → w.admission.id ∈ c'.flagged →
      (c.system.turn .silent settings n execute).tasks = c'.system.tasks ∧
        ∀ id, (c.system.turn .silent settings n execute).tracer.state? id
            = c'.system.tracer.state? id ∧
          (c.system.turn .silent settings n execute).notices id = c'.system.notices id := by
  have hkept : Kept .split (max limit 1) c := ((Kept.start .split limit maxPending orders).moves h).1
  refine ⟨hkept.stands.forward, fun id state hended => hkept.stands.agree hended,
    fun c' hmoves id => ⟨hkept.notices_prefix hmoves id, fun task ht hended => ?_⟩,
    fun n execute c' ha w hw hflag => hkept.late ha hw hflag⟩
  exact hkept.stays_ended hmoves ht hended

/-- A task is flagged while its worker is at work. -/
theorem ended_once_of_flagged :
    ∃ c : Chronicle Float, c.flagged = [.ofNat 7] ∧
      c.system.view (.ofNat 7) = (Standing.stalled true).view (.ofNat 7) ∧
      ∀ id, Forward (c.system.notices id) := by
  let settings : Settings Float := ⟨.ofSecs 300, .standard, .standard, .fixed 0 none⟩
  have hrun : ∃ c : Chronicle Float, Moves .split settings (.start 1 none []) c ∧
      c.flagged = [.ofNat 7] ∧
      c.system.view (.ofNat 7) = (Standing.stalled true).view (.ofNat 7) := by
    refine ⟨_, .tail (.tail (.tail (.tail (.tail .refl
      (.act (.submit (.ofNat 7) (.object [("intent", .string "git")]) (by decide))))
      (.act (.employ rfl)))
      (.turn 0 (fun s => (.pending, s)) (.unasked rfl)))
      (.act (.elapse ⟨1, 0⟩)))
      (.act (.flag .zero rfl)), rfl, rfl⟩
  obtain ⟨c, hmoves, hflagged, hview⟩ := hrun
  exact ⟨c, hflagged, hview, (ended_once hmoves).1⟩

end Overseer.System
