import Overseer.Proofs.System.Sound

/-! # The pulse of a trace

A trace that is under way has a pulse, the time of its last activity, and a watchdog looks at nothing else. A step
that is put on record brings the pulse to the present, an end takes it away, and only the start of a task brings up
one where there was none. All the rest leaves every pulse as it is: that is `Steady`, which an operation on the
system inherits from what it does to the traces.
-/

namespace Overseer

namespace Tracer

variable {now : Time} {t t' t'' : Tracer} {id : TaskId} {trace : Trace}

/-- When a task that is under way was last active. -/
def pulse? (t : Tracer) (id : TaskId) : Option Time :=
  ((t.get? id).filter fun trace => trace.state = .processing).map (·.lastActivity)

theorem pulse?_eq_some {time : Time} : t.pulse? id = some time ↔
    ∃ trace, t.get? id = some trace ∧ trace.state = .processing ∧ trace.lastActivity = time := by
  simp [pulse?, Option.filter_eq_some_iff, and_assoc]

theorem pulse?_of_processing (h : t.get? id = some trace) (hp : trace.state = .processing) :
    t.pulse? id = some trace.lastActivity := pulse?_eq_some.mpr ⟨trace, h, hp, rfl⟩

theorem pulse?_of_none (h : t.get? id = none) : t.pulse? id = none := by
  simp [pulse?, h]

theorem pulse?_of_ne (h : t.get? id = some trace) (hp : trace.state ≠ .processing) :
    t.pulse? id = none := by
  simp [pulse?, h, hp]

theorem pulse?_set_of_ne {j : TaskId} (hj : j ≠ id) (trace : Trace) :
    pulse? (t.set id trace) j = t.pulse? j := by
  simp [pulse?, Table.get?_set_of_ne hj]

/-! ## What the operations on traces do to pulses -/

/-- Pulses stay, end or are brought to the present, but for some ids of which nothing is said. -/
structure Steady (apart : TaskId → Prop) (now : Time) (t t' : Tracer) : Prop where
  nodup : t.keys.Nodup → t'.keys.Nodup
  pulse : ∀ id, ¬ apart id → ∀ time, t'.pulse? id = some time →
    t.pulse? id = some time ∨ time = now ∧ ∃ before, t.pulse? id = some before

namespace Steady

variable {apart : TaskId → Prop}

theorem refl (t : Tracer) : Steady apart now t t := ⟨fun h => h, fun _ _ _ h => Or.inl h⟩

theorem trans (h : Steady apart now t t') (h' : Steady apart now t' t'') :
    Steady apart now t t'' where
  nodup hn := h'.nodup (h.nodup hn)
  pulse id hid time ht := by
    rcases h'.pulse id hid time ht with ht' | ⟨rfl, before, hb⟩
    · exact h.pulse id hid time ht'
    · rcases h.pulse id hid before hb with hb' | ⟨-, hb'⟩
      · exact Or.inr ⟨rfl, before, hb'⟩
      · exact Or.inr ⟨rfl, hb'⟩

/-- One trace is replaced. -/
theorem set (ht : ¬ apart id → trace.state = .processing →
      t.pulse? id = some trace.lastActivity ∨
        trace.lastActivity = now ∧ ∃ before, t.pulse? id = some before) :
    Steady apart now t (t.set id trace) where
  nodup h := Table.nodup_keys_set h id trace
  pulse j hj time hp := by
    by_cases he : j = id
    · subst he
      obtain ⟨trace', hget, hstate, rfl⟩ := pulse?_eq_some.mp hp
      rw [Table.get?_set] at hget
      obtain rfl := Option.some.inj hget
      exact ht hj hstate
    · rw [pulse?_set_of_ne he] at hp
      exact Or.inl hp

theorem create (t : Tracer) (id : TaskId) (now : Time) : Steady apart now t (t.create id now) := by
  unfold Tracer.create
  split
  · exact .refl t
  · refine .set fun _ hp => ?_
    cases hp

theorem record (t : Tracer) (id : TaskId) (step : Step) (now : Time) :
    Steady apart now t (t.record id step now).1 := by
  unfold Tracer.record
  cases h : t.get? id with
  | none => exact .refl t
  | some trace => exact .set fun _ hp => Or.inr ⟨rfl, _, pulse?_of_processing h hp⟩

theorem markTerminal (t : Tracer) (id : TaskId) (state : TaskState) :
    Steady apart now t (t.markTerminal id state).2 := by
  unfold Tracer.markTerminal
  split
  · exact .refl t
  · rename_i hstate
    split
    · exact .refl t
    · split
      · exact .refl t
      · refine .set fun _ hp => ?_
        obtain rfl : state = .processing := hp
        exact absurd rfl hstate

theorem markProcessing (t : Tracer) (id : TaskId) (now : Time) :
    Steady (· = id) now t (t.markProcessing id now).2 := by
  unfold Tracer.markProcessing
  split
  · exact .refl t
  · split
    · exact .set fun hid => absurd rfl hid
    · exact .refl t

theorem sweep (t : Tracer) (timeout : Duration) (now : Time) :
    Steady apart now t (t.sweep timeout now).2.2 where
  nodup h := by
    simpa only [Tracer.sweep, Table.keys_map_values] using h
  pulse id _ time hp := by
    obtain ⟨trace', hget, hstate, rfl⟩ := pulse?_eq_some.mp hp
    simp only [Tracer.sweep, Table.get?_map_values, Option.map_eq_some_iff] at hget
    obtain ⟨trace, ht, rfl⟩ := hget
    unfold Tracer.flag at hstate ⊢
    split at hstate
    · cases hstate
    · rename_i hnot
      rw [if_neg hnot]
      exact Or.inl (pulse?_of_processing ht hstate)

end Steady

/-- A step that is put on record is activity of its task. -/
theorem pulse?_record {time : Time} {step : Step}
    (h : (t.record id step now).1.pulse? id = some time) : time = now := by
  unfold record at h
  cases ht : t.get? id with
  | none =>
    simp only [ht] at h
    rw [pulse?_of_none ht] at h
    cases h
  | some trace =>
    simp only [ht] at h
    obtain ⟨trace', hget, -, rfl⟩ := pulse?_eq_some.mp h
    rw [Table.get?_set] at hget
    obtain rfl := Option.some.inj hget
    rfl

/-- Whoever ends the task, its pulse is gone. -/
theorem pulse?_markTerminal {state : TaskState} (h : state.isTerminal = true) :
    (t.markTerminal id state).2.pulse? id = none := by
  have hne : state ≠ .processing := by
    rintro rfl
    cases h
  cases ht : t.get? id with
  | none =>
    have hwon : t.markTerminal id state = (false, t) := by simp [markTerminal, ht]
    rw [hwon, pulse?_of_none ht]
  | some trace =>
    cases hopen : trace.state.isTerminal with
    | true =>
      rw [markTerminal_of_isTerminal ht hopen]
      refine pulse?_of_ne ht fun hp => ?_
      rw [hp] at hopen
      cases hopen
    | false =>
      rw [markTerminal_of_open ht hopen h]
      exact pulse?_of_ne (Table.get?_set _ _ _) hne

end Tracer

namespace System

variable {κ : Type} {s t u : System κ} {id : TaskId} {apart : TaskId → Prop}

/-! ## What the primitives do to the traces -/

theorem tracer_record (id : TaskId) (step : Step) (s : System κ) :
    (s.record .silent id step).tracer = (s.tracer.record id step s.now).1 := by
  unfold record
  split
  · rename_i h
    rw [h]
  · rename_i h
    rw [h]
    rfl

theorem tracer_finish (id : TaskId) (o : Outcome) (s : System κ) :
    (s.finish .silent id o).tracer = (s.tracer.markTerminal id o.state).2 := by
  unfold finish
  rcases Tracer.markTerminal_cases s.tracer id o.state with h | ⟨trace, -, h⟩
  · rw [h]
  · rw [h]
    dsimp only
    split
    · rfl
    · rfl

theorem tracer_evict (id : TaskId) (s : System κ) : (s.evict id).tracer = s.tracer := by
  obtain ⟨q, -, -, -, h⟩ := evict_eq id s
  rw [h]
  rfl

theorem clock_evict (id : TaskId) (s : System κ) : (s.evict id).clock = s.clock := by
  obtain ⟨q, -, -, -, h⟩ := evict_eq id s
  rw [h]
  rfl

/-- The loss of a task is put down in its trace and its record, and it is told; its slot is freed unless there was
nothing to put down. -/
theorem markLost_eq (id : TaskId) (s : System κ) : ∃ tasks events,
    let t : System κ :=
      { s with tasks := tasks, tracer := (s.tracer.markTerminal id .lost).2, events := events }
    (s.markLost .silent id).2 = t ∨ (s.markLost .silent id).2 = t.evict id := by
  unfold markLost
  dsimp only
  split
  · split
    · exact ⟨_, _, Or.inr rfl⟩
    · exact ⟨s.tasks, s.events, Or.inr rfl⟩
  · exact ⟨s.tasks, s.events, Or.inl rfl⟩

theorem tracer_markLost (id : TaskId) (s : System κ) :
    (s.markLost .silent id).2.tracer = (s.tracer.markTerminal id .lost).2 := by
  obtain ⟨tasks, events, h | h⟩ := markLost_eq id s
  · rw [h]
  · rw [h, tracer_evict]

theorem clock_markLost (id : TaskId) (s : System κ) :
    (s.markLost .silent id).2.clock = s.clock := by
  obtain ⟨tasks, events, h | h⟩ := markLost_eq id s
  · rw [h]
  · rw [h, clock_evict]

theorem tracer_flagStalled (timeout : Duration) (s : System κ) :
    (s.flagStalled .silent timeout).2.tracer = (s.tracer.sweep timeout s.now).2.2 := by
  simp [flagStalled, announceAll_silent]

theorem workers_markLost (id : TaskId) (s : System κ) :
    (s.markLost .silent id).2.workers = s.workers := by
  obtain ⟨t, hprivate, -, h | h⟩ := markLost_private id s
  · rw [h]
    exact hprivate.workers
  · rw [h, workers_evict]
    exact hprivate.workers

/-! ## Steady systems -/

/-- No time passes, pulses are steady, and the workers stay where they are; others may join them. -/
structure Steady (apart : TaskId → Prop) (s t : System κ) : Prop where
  clock : t.clock = s.clock
  workers : s.workers <+: t.workers
  traces : s.tracer.Steady apart s.now t.tracer

namespace Steady

theorem now_eq (h : Steady apart s t) : t.now = s.now := congrArg Clock.reading h.clock

theorem of_tracer (hc : t.clock = s.clock) (hw : s.workers <+: t.workers)
    (ht : t.tracer = s.tracer) : Steady apart s t :=
  ⟨hc, hw, ht ▸ .refl _⟩

theorem refl (s : System κ) : Steady apart s s := .of_tracer rfl (List.prefix_refl _) rfl

theorem trans (h : Steady apart s t) (h' : Steady apart t u) : Steady apart s u where
  clock := h'.clock.trans h.clock
  workers := h.workers.trans h'.workers
  traces := h.traces.trans (h.now_eq ▸ h'.traces)

theorem withQueue (q : Queue) (s : System κ) : Steady apart s (s.withQueue q) :=
  .of_tracer rfl (List.prefix_refl _) rfl

theorem record (id : TaskId) (step : Step) (s : System κ) :
    Steady apart s (s.record .silent id step) where
  clock := clock_record id step s
  workers := workers_record id step s ▸ List.prefix_refl _
  traces := tracer_record id step s ▸ .record _ _ _ _

theorem recordAll (id : TaskId) (steps : List Step) (s : System κ) :
    Steady apart s (s.recordAll .silent id steps) := by
  induction steps generalizing s with
  | nil => exact .refl s
  | cons step steps ih => exact (Steady.record id step s).trans (ih _)

theorem finish (id : TaskId) (o : Outcome) (s : System κ) :
    Steady apart s (s.finish .silent id o) where
  clock := clock_finish id o s
  workers := workers_finish id o s ▸ List.prefix_refl _
  traces := tracer_finish id o s ▸ .markTerminal _ _ _

theorem markLost (id : TaskId) (s : System κ) : Steady apart s (s.markLost .silent id).2 where
  clock := clock_markLost id s
  workers := workers_markLost id s ▸ List.prefix_refl _
  traces := tracer_markLost id s ▸ .markTerminal _ _ _

theorem flagStalled (timeout : Duration) (s : System κ) :
    Steady apart s (s.flagStalled .silent timeout).2 where
  clock := by
    simp [System.flagStalled, announceAll_silent]
  workers := by
    simp [System.flagStalled, announceAll_silent]
  traces := tracer_flagStalled timeout s ▸ .sweep _ _ _

theorem register (id : TaskId) (payload : Json) (s : System κ) :
    Steady apart s (s.register .silent id payload) := by
  have hcreate : Steady apart s
      { s with
        tasks := s.tasks.insert (.new id payload s.now), tracer := s.tracer.create id s.now } :=
    ⟨rfl, List.prefix_refl _, .create _ _ _⟩
  exact (hcreate.trans (.record id _ _)).trans (.of_tracer rfl (List.prefix_refl _) rfl)

theorem submit (id : TaskId) (payload : Json) (s : System κ) :
    Steady apart s (s.submit .silent id payload).2 := by
  have hregister : Steady apart s (s.register .silent id payload) := .register id payload s
  rcases submit_cases id payload s with ⟨step, cause, hs⟩ | ⟨-, hs⟩
  · rw [hs]
    exact (hregister.trans (.record id step _)).trans (.finish id _ _)
  · rw [hs]
    exact hregister.trans (.withQueue _ _)

/-- Nothing but the queue is struck. -/
theorem strike (s : System κ) (call : Intervention) : Steady apart s (s.strike call).2 := by
  rw [strike_eq]
  exact .withQueue _ s

theorem perform (chore : Chore) (s : System κ) : Steady apart s (chore.perform s) := by
  cases chore with
  | note id reason => exact .of_tracer rfl (List.prefix_refl _) rfl
  | gate id action detail => exact .record id _ s
  | close id reason => exact .finish id _ s

theorem employ (a : Admission) (q : Queue) (s : System κ) : Steady apart s (s.employ a q) :=
  .of_tracer rfl (List.prefix_append _ _) rfl

theorem consulted {settings : Settings κ} {n : Nat} (h : s.consulted settings n = some t) :
    Steady apart s t := by
  obtain ⟨calls, rfl⟩ := exists_reached h
  exact .of_tracer rfl (List.prefix_refl _) rfl

end Steady

/-! ## The pulse of a task whose worker has its turn -/

theorem pulse?_recordAll {time : Time} {steps : List Step} (hne : steps ≠ [])
    (h : (s.recordAll .silent id steps).tracer.pulse? id = some time) : time = s.now := by
  rcases List.eq_nil_or_concat' steps with rfl | ⟨before, step, rfl⟩
  · exact absurd rfl hne
  · have hsplit : s.recordAll .silent id (before ++ [step])
        = (s.recordAll .silent id before).record .silent id step := by
      simp [recordAll]
    have hsteady : Steady nobody s (s.recordAll .silent id before) := .recordAll id before s
    rw [hsplit, tracer_record, hsteady.now_eq] at h
    exact Tracer.pulse?_record h

theorem pulse?_finish (id : TaskId) (o : Outcome) (s : System κ) :
    (s.finish .silent id o).tracer.pulse? id = none := by
  rw [tracer_finish]
  exact Tracer.pulse?_markTerminal o.state_isTerminal

end System

end Overseer
