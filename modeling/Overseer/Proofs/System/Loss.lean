import Overseer.Proofs.System.Sound

/-! # What it is to mark a task as lost

To mark a task as lost takes three writers: the trace is asked first, then the store, and at last the slot is freed
with its token cancelled. Trace and store do not allow the same moves. Of a task that is being worked on both agree,
and of a task that has ended or is unknown the trace refuses, or there is nothing left to be done; in these states the
operation is `AllOrNothing`. A task that is pending is what the store refuses after the trace has
agreed, and only there the operation is done by half.
-/

namespace Overseer.System

variable {κ : Type} {s s' : System κ} {c : Scene κ} {id : TaskId}

/-- A task that was being worked on has been lost. -/
structure Lost (id : TaskId) (s s' : System κ) : Prop where
  before : ∃ task, s.tasks.get? id = some task ∧ task.state = .processing
  after : ∃ task, s'.tasks.get? id = some task ∧ task.state = .lost
  trace : s'.tracer.state? id = some .lost
  told : s'.events = s.events ++ [.taskLost id]
  token : ∀ token, s.queue.active.get? id = some token → s'.isCancelled token = true
  /-- So is the token of a worker whose slot had been freed before. -/
  workers : ∀ w ∈ s'.workers, w.admission.id = id →
    w.phase.activity = .gone ∨ s'.isCancelled w.admission.token = true
  slot : s'.queue.active.get? id = none

/-- No task, no state of a trace, no slot and no token is another. -/
structure Untouched (s s' : System κ) : Prop where
  tasks : s'.tasks = s.tasks
  traces : ∀ j, s'.tracer.state? j = s.tracer.state? j
  slots : s'.queue.active = s.queue.active
  tokens : s'.queue.tokens = s.queue.tokens

structure AllOrNothing (s : System κ) (id : TaskId) : Prop where
  all : (s.markLost .silent id).1 = true → Lost id s (s.markLost .silent id).2
  nothing : (s.markLost .silent id).1 = false → Untouched s (s.markLost .silent id).2
  agree : ((s.markLost .silent id).2.tasks.get? id).map (·.state)
    = (s.markLost .silent id).2.tracer.state? id
  /-- The second time it does nothing. -/
  again : ((s.markLost .silent id).2.markLost .silent id).1 = false ∧
    Untouched (s.markLost .silent id).2 ((s.markLost .silent id).2.markLost .silent id).2

/-! ## The three cases -/

/-- The trace is put into the end state, and the store refuses. -/
theorem markLost_of_pending (h : Fine (s.view id)) (ht : (s.view id).task = some .pending) :
    (s.markLost .silent id).1 = false ∧
      ((s.markLost .silent id).2.view id).task = some .pending ∧
      ((s.markLost .silent id).2.view id).trace = some .lost := by
  have hlost : ∀ t : System κ, (t.view id).trace = some .lost →
      (t.view id).task = some .pending →
      (t.markLost .silent id).1 = false ∧
        ((t.markLost .silent id).2.view id).task = some .pending ∧
        ((t.markLost .silent id).2.view id).trace = some .lost := by
    intro t hr htask
    have hne : (t.view id).task ≠ some .processing := by
      rw [htask]
      decide
    rw [markLost_of_ne_processing hr hne]
    dsimp only
    rw [view_evict]
    exact ⟨rfl, htask, hr⟩
  have ha := h.agree
  rw [ht] at ha
  generalize hr : (s.view id).trace = trace at ha
  cases ha with
  | missed => exact hlost s hr ht
  | same =>
    obtain ⟨trace, htrace, hstate⟩ := exists_trace hr
    have hopen : trace.state.isTerminal = false := by
      rw [hstate]
      rfl
    rw [markLost_of_open htrace hopen]
    have hid : ({ trace with state := .lost } : Trace).id = trace.id := rfl
    have hv := view_setTrace htrace hid
    refine hlost _ ?_ ?_
    · rw [hv]
    · rw [hv]
      exact ht

/-- What has ended, or is unknown, is left alone. -/
theorem markLost_of_over (h : Fine (s.view id)) (hp : (s.view id).task ≠ some .pending)
    (hw : (s.view id).task ≠ some .processing) : s.markLost .silent id = (false, s) := by
  have ha := h.agree
  generalize ht : (s.view id).task = task at ha hp hw
  generalize hr : (s.view id).trace = trace at ha
  cases ha with
  | unknown => exact markLost_of_closed fun b hb => by rw [hr] at hb; cases hb
  | missed => exact absurd rfl hp
  | stalled => exact absurd rfl hw
  | same state =>
    have hended : state.isTerminal = true := by
      cases state with
      | pending => exact absurd rfl hp
      | processing => exact absurd rfl hw
      | completed | failed | lost | aborted => rfl
    by_cases hlost : state = .lost
    · subst hlost
      have hne : (s.view id).task ≠ some .processing := by
        rw [ht]
        exact hw
      have hfree : (s.view id).active = false := by
        cases hactive : (s.view id).active with
        | false => rfl
        | true =>
          obtain ⟨-, state, hstate, hopen⟩ := h.slot hactive
          rw [ht] at hstate
          obtain rfl := Option.some.inj hstate
          cases hopen
      rw [markLost_of_ne_processing hr hne, evict_of_free (get?_of_inactive hfree)]
    · apply markLost_of_closed
      intro b hb
      rw [hr] at hb
      obtain rfl := Option.some.inj hb
      exact ⟨hended, hlost⟩

theorem markLost_of_working (h : Fine (s.view id)) (ht : (s.view id).task = some .processing) :
    ∃ tracer task', tracer.state? id = some .lost ∧ task'.state = .lost ∧
      s.markLost .silent id
        = (true, (({ s with tracer := tracer, tasks := s.tasks.set id task' } :
            System κ).announce .silent (.taskLost id)).evict id) := by
  have ha := h.agree
  rw [ht] at ha
  generalize hr : (s.view id).trace = trace at ha
  cases ha with
  | stalled =>
    obtain ⟨task, -, -, he⟩ := markLost_of_processing hr ht
    exact ⟨s.tracer, task.lose s.now, hr, rfl, he⟩
  | same =>
    obtain ⟨trace, htrace, hstate⟩ := exists_trace hr
    have hopen : trace.state.isTerminal = false := by
      rw [hstate]
      rfl
    have hid : ({ trace with state := .lost } : Trace).id = trace.id := rfl
    have hv := view_setTrace htrace hid
    have hr' : (({ s with tracer := s.tracer.set id { trace with state := .lost } } :
        System κ).view id).trace = some .lost := by
      rw [hv]
    have ht' : (({ s with tracer := s.tracer.set id { trace with state := .lost } } :
        System κ).view id).task = some .processing := by
      rw [hv]
      exact ht
    obtain ⟨task, -, -, he⟩ := markLost_of_processing hr' ht'
    exact ⟨_, task.lose s.now, hr', rfl, (markLost_of_open htrace hopen).trans he⟩

theorem lost_of_working (h : Sane s) (ht : (s.view id).task = some .processing) :
    (s.markLost .silent id).1 = true ∧ Lost id s (s.markLost .silent id).2 := by
  obtain ⟨tracer, task', htracer, hlost, he⟩ := markLost_of_working (h.fine id) ht
  have hsane := (passes_markLost h id).sane
  have hfree : (s.markLost .silent id).2.queue.active.get? id = none := by
    rw [he]
    exact get?_evict id _
  have hworkers : ∀ w ∈ (s.markLost .silent id).2.workers, w.admission.id = id →
      w.phase.activity = .gone ∨
        (s.markLost .silent id).2.isCancelled w.admission.token = true := by
    intro w hw hid
    by_cases hgone : w.phase.activity = .gone
    · exact Or.inl hgone
    · right
      rcases (hsane.manned w hw).guarded hgone with hget | hc
      · rw [hid, hfree] at hget
        cases hget
      · exact hc
  refine ⟨by rw [he], exists_task ht, ⟨task', ?_, hlost⟩, ?_, ?_, fun token hget => ?_, hworkers,
    hfree⟩
  · rw [he]
    exact Table.get?_set _ _ _
  · rw [he]
    exact htracer
  · rw [he]
    obtain ⟨q, -, -, -, hq⟩ := evict_eq id
      (({ s with tracer := tracer, tasks := s.tasks.set id task' } : System κ).announce .silent
        (.taskLost id))
    dsimp only
    rw [hq]
    rfl
  · obtain ⟨w, hw, hadm⟩ := h.owned id token hget
    have hne := h.lineage_ne_nil hw
    rw [hadm] at hne
    rw [he]
    exact isCancelled_evict (s := ({ s with tracer := tracer, tasks := s.tasks.set id task' } :
      System κ).announce .silent (.taskLost id)) hget hne

/-! ## The law -/

theorem Untouched.refl (s : System κ) : Untouched s s := ⟨rfl, fun _ => rfl, rfl, rfl⟩

theorem allOrNothing_of_over (h : Fine (s.view id)) (hp : (s.view id).task ≠ some .pending)
    (hw : (s.view id).task ≠ some .processing) : AllOrNothing s id := by
  have he := markLost_of_over h hp hw
  have hagree : (s.tasks.get? id).map (·.state) = s.tracer.state? id := by
    have ha := h.agree
    change Agree ((s.tasks.get? id).map (·.state)) (s.tracer.state? id) at ha
    generalize ht : (s.tasks.get? id).map (·.state) = task at ha
    generalize s.tracer.state? id = trace at ha
    cases ha with
    | unknown => rfl
    | same => rfl
    | missed => exact absurd ht hp
    | stalled => exact absurd ht hw
  constructor
  · intro ht
    rw [he] at ht
    cases ht
  · intro _
    rw [he]
    exact .refl s
  · rw [he]
    exact hagree
  · rw [he]
    dsimp only
    rw [he]
    exact ⟨rfl, .refl s⟩

theorem allOrNothing_of_working (h : Sane s) (ht : (s.view id).task = some .processing) :
    AllOrNothing s id := by
  obtain ⟨hanswer, hlost⟩ := lost_of_working h ht
  obtain ⟨task, htask, hstate⟩ := hlost.after
  have hover : ((s.markLost .silent id).2.view id).task = some .lost := by
    simp [view, htask, hstate]
  have hfine := (passes_markLost h id).sane.fine id
  have hagain := markLost_of_over hfine (by rw [hover]; decide) (by rw [hover]; decide)
  constructor
  · intro _
    exact hlost
  · intro hno
    rw [hanswer] at hno
    cases hno
  · rw [hlost.trace]
    exact hover
  · rw [hagain]
    exact ⟨rfl, .refl _⟩

/-- It is done by half where the task is pending. -/
theorem not_allOrNothing_of_pending (h : Fine (s.view id))
    (ht : (s.view id).task = some .pending) : ¬ AllOrNothing s id := by
  intro hall
  obtain ⟨-, htask, htrace⟩ := markLost_of_pending h ht
  have hagree : ((s.markLost .silent id).2.view id).task
      = ((s.markLost .silent id).2.view id).trace := hall.agree
  rw [htask, htrace] at hagree
  cases hagree

variable [Cost κ] {traffic : Traffic} {settings : Settings κ} {limit : Nat}
  {maxPending : Option Nat} {orders : List Order}

/-- At any moment of any run, and for any id, it is all or nothing just when the task is not pending. -/
theorem markLost_whole_iff (h : Ticks traffic settings (.start limit maxPending orders) c)
    (id : TaskId) :
    AllOrNothing c.system id ↔ (c.system.tasks.get? id).map (·.state) ≠ some .pending := by
  have hsane := ((Sound.start settings limit maxPending orders).ticks h).sane
  constructor
  · intro hall hpending
    exact not_allOrNothing_of_pending (hsane.fine id) hpending hall
  · intro hp
    by_cases hw : (c.system.view id).task = some .processing
    · exact allOrNothing_of_working hsane hw
    · exact allOrNothing_of_over (hsane.fine id) hp hw

/-- A task is marked as lost while its worker is at work. -/
theorem markLost_whole_of_running :
    ∃ c : Scene Float, (c.system.tasks.get? (.ofNat 7)).map (·.state) = some .processing ∧
      (c.system.markLost .silent (.ofNat 7)).1 = true ∧ AllOrNothing c.system (.ofNat 7) := by
  have hrun : ∃ c : Scene Float, Ticks .single usual (.start 1 none []) c ∧
      (c.system.tasks.get? (.ofNat 7)).map (·.state) = some .processing ∧
      (c.system.markLost .silent (.ofNat 7)).1 = true := by
    refine ⟨_, .tail (.tail (.tail .refl
      (.submit (.ofNat 7) (.object [("intent", .string "git")]) (by decide)))
      (.employ rfl))
      (.turn 0 (fun s => (.pending, s)) (by decide) rfl), rfl, rfl⟩
  obtain ⟨c, hticks, hstate, hlost⟩ := hrun
  have hne : (c.system.tasks.get? (.ofNat 7)).map (·.state) ≠ some .pending := by
    rw [hstate]
    decide
  exact ⟨c, hstate, hlost, (markLost_whole_iff hticks (.ofNat 7)).mpr hne⟩

/-- A task that waits in the queue: the answer is no, and its trace has ended all the same. -/
theorem markLost_halves_pending :
    ∃ c : Scene Float, Ticks .single usual (.start 1 none []) c ∧
      c.system.queue.pending = [.ofNat 7] ∧
      c.system.tracer.state? (.ofNat 7) = some .pending ∧
      (c.system.markLost .silent (.ofNat 7)).1 = false ∧
      (c.system.markLost .silent (.ofNat 7)).2.tracer.state? (.ofNat 7) = some .lost ∧
      ¬ AllOrNothing c.system (.ofNat 7) := by
  refine ⟨_, .tail .refl (.submit (.ofNat 7) (.object [("intent", .string "git")]) (by decide)),
    rfl, rfl, rfl, rfl, fun hall => ?_⟩
  have hsame := (hall.nothing rfl).traces (.ofNat 7)
  cases hsame

end Overseer.System
