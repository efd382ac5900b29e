import Overseer.Proofs.Healing.Stand
import Overseer.Proofs.System.Passage

/-! # Where the turns of workers land

For the calls of a task it matters in which phase a turn leaves the worker, and what becomes of the record of the task:
the payload stays, a task that has been begun does not wait again, and none is completed but by a call that has come
back (`Recorded`). What changes neither workers nor calls is `Calm`, and a turn `Lands` in a phase.
-/

namespace Overseer

variable {κ : Type}

theorem Task.of_transition {t t' : Task} {state : TaskState} {now : Time}
    (h : t.transition state now = .ok t') : t'.payload = t.payload ∧ t'.state = state := by
  rw [eq_of_transition h]
  exact ⟨rfl, rfl⟩

theorem Task.payload_finish {t t' : Task} {o : Outcome} {now : Time}
    (h : t.finish o now = .ok t') : t'.payload = t.payload := by
  rw [eq_ended_of_finish h]
  exact t.payload_ended o now

/-- The phase in which a worker waits for the next turn of a session. -/
def Healing.Point.phase (params : Json) (session : Healing.Session κ) : Healing.Point κ → Phase κ
  | .head => .between params session
  | .calling stage => .entering (.healing params session stage)
  | .ended _ => .ended

namespace System

variable {s t u s' : System κ} {id j : TaskId} {n : Nat} {a : Admission} {cause : Prop}

/-- How the record of a task can be replaced, which is completed for a cause only. -/
def Recorded (id : TaskId) (cause : Prop) (s s' : System κ) : Prop :=
  ∀ task', s'.tasks.get? id = some task' → ∃ task, s.tasks.get? id = some task ∧
    task'.payload = task.payload ∧
    (task'.state = task.state ∨ task'.state ≠ .pending ∧ (task'.state = .completed → cause))

namespace Recorded

theorem of_tasks (h : s'.tasks = s.tasks) : Recorded id cause s s' := by
  intro task' ht
  exact ⟨task', h ▸ ht, rfl, Or.inl rfl⟩

theorem of_get? (h : s'.tasks.get? id = s.tasks.get? id) : Recorded id cause s s' := by
  intro task' ht
  exact ⟨task', h ▸ ht, rfl, Or.inl rfl⟩

theorem trans (h : Recorded id cause s t) (h' : Recorded id cause t u) : Recorded id cause s u := by
  intro task'' ht
  obtain ⟨task', ht', hpayload', hstate'⟩ := h' task'' ht
  obtain ⟨task, ht, hpayload, hstate⟩ := h task' ht'
  refine ⟨task, ht, hpayload'.trans hpayload, ?_⟩
  rcases hstate' with he | hnew
  · rw [he]
    exact hstate
  · exact Or.inr hnew

theorem mono {cause' : Prop} (h : Recorded id cause s s') (hc : cause → cause') :
    Recorded id cause' s s' := by
  intro task' ht
  obtain ⟨task, ht, hpayload, hstate⟩ := h task' ht
  exact ⟨task, ht, hpayload, hstate.imp_right fun hnew => ⟨hnew.1, fun hd => hc (hnew.2 hd)⟩⟩

/-- One record is replaced. -/
theorem of_update {f : Task → Except InvalidMove Task} {tasks : TaskStore}
    (h : s.tasks.update j f = .ok tasks) (hs : s'.tasks = tasks)
    (hf : ∀ task task', f task = .ok task' → task'.payload = task.payload ∧
      (task'.state = task.state ∨
        task'.state ≠ .pending ∧ (task'.state = .completed → j = id → cause))) :
    Recorded id cause s s' := by
  obtain ⟨task, task', ht, hok, rfl⟩ := TaskStore.update_cases h
  by_cases hj : j = id
  · subst hj
    intro after hafter
    rw [hs, Table.get?_set] at hafter
    obtain rfl := Option.some.inj hafter
    obtain ⟨hpayload, hstate⟩ := hf task task' hok
    exact ⟨task, ht, hpayload, hstate.imp_right fun hnew => ⟨hnew.1, fun hd => hnew.2 hd rfl⟩⟩
  · refine .of_get? ?_
    rw [hs, Table.get?_set_of_ne (Ne.symm hj)]

theorem of_finish {o : Outcome} {now : Time} {tasks : TaskStore}
    (h : s.tasks.finish j o now = .ok tasks) (hs : s'.tasks = tasks)
    (hc : o.state = .completed → j = id → cause) : Recorded id cause s s' := by
  refine .of_update h hs fun task task' hok => ⟨Task.payload_finish hok, Or.inr ?_⟩
  rw [(Task.of_finish hok).1]
  refine ⟨?_, hc⟩
  cases o with
  | completed | failed | aborted | lost => exact fun he => nomatch he

theorem finish {o : Outcome} (hc : o.state = .completed → j = id → cause) (s : System κ) :
    Recorded id cause s (s.finish .silent j o) := by
  unfold System.finish
  rcases Tracer.markTerminal_cases s.tracer j o.state with h | ⟨trace, -, h⟩
  · rw [h]
    exact .of_tasks rfl
  · rw [h]
    dsimp only
    split
    · exact .of_tasks rfl
    · rename_i tasks hstore
      exact .of_finish hstore rfl hc

end Recorded

/-! ## What concerns neither workers nor calls -/

structure Calm (id : TaskId) (s t : System κ) : Prop where
  workers : t.workers = s.workers
  reached : t.reached = s.reached
  record : Recorded id False s t

namespace Calm

theorem refl (id : TaskId) (s : System κ) : Calm id s s := ⟨rfl, rfl, .of_tasks rfl⟩

theorem trans (h : Calm id s t) (h' : Calm id t u) : Calm id s u :=
  ⟨h'.workers.trans h.workers, h'.reached.trans h.reached, h.record.trans h'.record⟩

theorem withQueue (q : Queue) (s : System κ) : Calm id s (s.withQueue q) := ⟨rfl, rfl, .of_tasks rfl⟩

theorem recordAll (j : TaskId) (steps : List Step) (s : System κ) :
    Calm id s (s.recordAll .silent j steps) :=
  ⟨workers_recordAll j steps s, reached_recordAll j steps s, .of_tasks (tasks_recordAll j steps s)⟩

theorem record' (j : TaskId) (step : Step) (s : System κ) : Calm id s (s.record .silent j step) :=
  recordAll j [step] s

theorem finish {o : Outcome} (hc : o.state ≠ .completed) (j : TaskId) (s : System κ) :
    Calm id s (s.finish .silent j o) :=
  ⟨workers_finish j o s, reached_finish j o s, .finish (fun he => absurd he hc) s⟩

theorem perform (chore : Chore) (s : System κ) : Calm id s (chore.perform s) := by
  cases chore with
  | note => exact ⟨rfl, rfl, .of_tasks rfl⟩
  | gate j action detail => exact .record' j _ s
  | close j reason => exact .finish (fun he => by cases he) j s

theorem evict (j : TaskId) (s : System κ) : Calm id s (s.evict j) := by
  obtain ⟨q, -, -, -, h⟩ := evict_eq j s
  rw [h]
  exact ⟨rfl, rfl, .of_tasks rfl⟩

theorem markLost (j : TaskId) (s : System κ) : Calm id s (s.markLost .silent j).2 := by
  unfold System.markLost
  dsimp only
  split
  · split
    · rename_i tasks hstore
      have hlost : Calm id s (({ s with
          tracer := (s.tracer.markTerminal j .lost).2, tasks := tasks } : System κ).announce .silent
            (.taskLost j)) :=
        ⟨rfl, rfl, .of_finish (s := s) hstore rfl fun he => by cases he⟩
      exact hlost.trans (.evict j _)
    · have hflag : Calm id s { s with tracer := (s.tracer.markTerminal j .lost).2 } :=
        ⟨rfl, rfl, .of_tasks rfl⟩
      exact hflag.trans (.evict j _)
  · exact ⟨rfl, rfl, .of_tasks rfl⟩

theorem flagStalled (timeout : Duration) (s : System κ) :
    Calm id s (s.flagStalled .silent timeout).2 := by
  simp only [System.flagStalled, announceAll_silent]
  exact ⟨rfl, rfl, .of_tasks rfl⟩

end Calm

/-! ## Turns -/

/-- A worker is put into a phase. -/
structure Lands (id : TaskId) (n : Nat) (phase : Phase κ) (cause : Prop) (s s' : System κ) : Prop where
  workers : s'.workers = s.workers.modify n fun worker => { worker with phase := phase }
  reached : s'.reached = s.reached
  record : Recorded id cause s s'

theorem lands_setPhase (h : Calm id s t) (n : Nat) (phase : Phase κ) (cause : Prop) :
    Lands id n phase cause s (t.setPhase n phase) where
  workers := congrArg (fun workers : List (Worker κ) => workers.modify n _) h.workers
  reached := h.reached
  record := h.record.mono False.elim

theorem lands_leave_none (h : Calm id s t) (n : Nat) (a : Admission) (cause : Prop) :
    Lands id n .ended cause s (t.leave .silent n a none) where
  workers := congrArg (fun workers : List (Worker κ) => workers.modify n _) h.workers
  reached := h.reached
  record := h.record.mono False.elim

theorem lands_leave (h : Calm id s t) {o : Outcome}
    (hc : o.state = .completed → a.id = id → cause) :
    Lands id n .ended cause s (t.leave .silent n a (some o)) where
  workers := congrArg (fun workers : List (Worker κ) => workers.modify n _)
    ((workers_finish a.id o t).trans h.workers)
  reached := (reached_finish a.id o t).trans h.reached
  record := (h.record.mono False.elim).trans (.finish hc t)

section Parts

variable [Cost κ] {settings : Settings κ}

theorem completed_of_healingOutcome {report : Healing.Report κ}
    (h : (s.healingOutcome id report).state = .completed) : report.status = .success := by
  unfold healingOutcome at h
  split at h
  · assumption
  · cases h
  · cases h

omit [Cost κ] in
theorem completed_of_directOutcome {capability : String} {answer : Answer κ}
    (h : (s.directOutcome id capability answer).1.state = .completed) :
    answer ≠ .error .cancelled := by
  rintro rfl
  cases h

theorem lands_proceed (h : Calm id s t) (params : Json) {p : Healing.Progress κ}
    (hc : p.point = .ended .success → a.id = id → cause) :
    Lands id n (p.point.phase params p.session) cause s (t.proceed .silent n a params p) := by
  have hsteps : Calm id s (t.recordAll .silent a.id p.steps) := h.trans (.recordAll a.id p.steps t)
  unfold proceed
  cases hp : p.point with
  | head => exact lands_setPhase hsteps n _ cause
  | calling stage => exact lands_setPhase hsteps n _ cause
  | ended status =>
    refine lands_leave hsteps fun hcompleted => hc ?_
    rw [hp, ← completed_of_healingOutcome hcompleted]
    rfl

/-- The phase after the call of a job. -/
def Job.next (settings : Settings κ) (answer : Answer κ) : Job κ → Phase κ
  | .direct _ _ => .ended
  | .healing params session stage =>
      let p := Healing.receive settings.healing settings.estimator stage session answer
      p.point.phase params p.session

theorem lands_receive (h : Calm id s t) (job : Job κ) {answer : Answer κ}
    (hc : answer ≠ .error .cancelled → a.id = id → cause) :
    Lands id n (Job.next settings answer job) cause s (t.receive .silent settings n a job answer) := by
  cases job with
  | direct capability params =>
    have hsteps : Calm id s (t.recordAll .silent a.id (t.directOutcome a.id capability answer).2) :=
      h.trans (.recordAll a.id _ t)
    exact lands_leave hsteps fun hcompleted => hc (completed_of_directOutcome hcompleted)
  | healing params session stage =>
    refine lands_proceed h params fun hp => hc ?_
    rintro rfl
    rw [Healing.receive_cancelled] at hp
    cases hp

end Parts

end System
end Overseer
