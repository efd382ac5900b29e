import Overseer.Proofs.Config.Basic
import Overseer.Proofs.Healing.Course
import Overseer.Proofs.System.Pulse

/-! # The watchdog spares whoever is alive

What is done between two calls takes no time, and no call goes on past its deadline: that is how time passes in
`Beats`. A worker puts a step on record before each of its calls. So a task that is under way has just been
active, or it waits for a call that began when it was last active, and no pulse is older than the longest call may
take (`Timely`). A valid configuration has its watchdog wait for longer than that, and no sweep finds anybody
(`Watched`).
-/

namespace Overseer

variable {κ : Type}

/-- How long a call may take at most. -/
def Settings.longest (settings : Settings κ) : Nat :=
  max settings.executorTimeout.nanos settings.healing.iterationTimeout.nanos

theorem System.Job.limit_le (settings : Settings κ) (job : Job κ) :
    (Job.limit settings job).nanos ≤ settings.longest := by
  cases job with
  | direct => exact Nat.le_max_left _ _
  | healing => exact Nat.le_max_right _ _

/-! ## Steps of healing sessions -/

/-- A session that goes on tells of a step. -/
def Healing.Progress.Tells (p : Healing.Progress κ) : Prop :=
  p.steps ≠ [] ∨ ∃ status, p.point = .ended status

namespace Healing

variable {cfg : Config κ} {s : Session κ}

theorem tells_passHead (cancelled : Bool) : (passHead cfg cancelled s).Tells := by
  rcases passHead_cases cfg cancelled s with ⟨-, hp⟩ | ⟨-, -, hp⟩ | ⟨-, -, hp⟩
  · exact Or.inr ⟨_, congrArg Progress.point hp⟩
  · exact Or.inr ⟨_, congrArg Progress.point hp⟩
  · rw [hp]
    exact Or.inl (List.cons_ne_nil _ _)

theorem tells_diagnosed (failure : String) (estimate : κ) (answer : Answer κ) :
    (s.diagnosed failure estimate answer).Tells := by
  unfold Session.diagnosed
  split
  · exact Or.inr ⟨_, rfl⟩
  · exact Or.inl (List.append_ne_nil_of_right_ne_nil _ (List.cons_ne_nil _ _))

variable [Cost κ] {est : Estimator κ}

theorem tells_judge (failure : String) : (s.judge cfg est failure).Tells := by
  unfold Session.judge
  dsimp only
  split
  · exact Or.inr ⟨_, rfl⟩
  · split
    · exact Or.inr ⟨_, rfl⟩
    · split
      · exact Or.inr ⟨_, rfl⟩
      · exact Or.inl (List.cons_ne_nil _ _)

theorem tells_verified (answer : Answer κ) : (s.verified cfg est answer).Tells := by
  unfold Session.verified
  split
  · split
    · exact Or.inr ⟨_, rfl⟩
    · exact tells_judge _
  · exact Or.inr ⟨_, rfl⟩
  · exact tells_judge _

theorem tells_afterFix (estimate : κ) (step : Step) : (s.afterFix estimate step).Tells := by
  unfold Session.afterFix
  split
  · exact Or.inr ⟨_, rfl⟩
  · exact Or.inl (List.cons_ne_nil _ _)

theorem tells_fixed (estimate : κ) (answer : Answer κ) :
    (s.fixed cfg est estimate answer).Tells := by
  unfold Session.fixed
  split
  · exact tells_afterFix estimate _
  · exact Or.inr ⟨_, rfl⟩
  · exact tells_afterFix estimate _

theorem tells_receive (stage : Stage κ) (answer : Answer κ) :
    (receive cfg est stage s answer).Tells := by
  cases stage with
  | verify => exact tells_verified answer
  | diagnose failure estimate => exact tells_diagnosed failure estimate answer
  | fix failure estimate diagnosis => exact tells_fixed estimate answer

end Healing

/-! ## Workers and the pulses of their tasks -/

/-- How a worker keeps pace with the pulse of its task. -/
def Phase.Paced (longest : Nat) (now pulse : Time) : Phase κ → Prop
  | .admitted | .ended => False
  | .between .. | .entering _ => pulse = now
  | .calling _ call _ => pulse ≤ now ∧ now ≤ call.expires ∧ call.expires ≤ pulse + longest

namespace Phase.Paced

variable {longest : Nat} {now pulse : Time} {phase : Phase κ}

theorem bounds (h : phase.Paced longest now pulse) : pulse ≤ now ∧ now ≤ pulse + longest := by
  cases phase with
  | admitted | ended => exact h.elim
  | between | entering =>
    obtain rfl : pulse = now := h
    exact ⟨Nat.le_refl _, Nat.le_add_right _ _⟩
  | calling job call reached => exact ⟨h.1, Nat.le_trans h.2.1 h.2.2⟩

/-- Activity does no harm. -/
theorem refresh (h : phase.Paced longest now pulse) : phase.Paced longest now now := by
  cases phase with
  | admitted | ended => exact h
  | between | entering => rfl
  | calling job call reached =>
    exact ⟨Nat.le_refl _, h.2.1, Nat.le_trans h.2.2 (Nat.add_le_add_right h.1 _)⟩

/-- Time passes while a call is under way. -/
theorem pass {job : Job κ} {call : Call} {reached : Bool} {span : Duration}
    (h : (Phase.calling job call reached).Paced longest now pulse)
    (hle : deadline now span ≤ call.expires) :
    (Phase.calling job call reached).Paced longest (deadline now span) pulse :=
  ⟨Nat.le_trans h.1 (Nat.le_add_right _ _), hle, h.2.2⟩

end Phase.Paced

namespace System

variable {longest : Nat} {s s' t : System κ} {n : Nat} {a : Admission} {w v : Worker κ}

theorem mem_setPhase (hw : s.workers[n]? = some w) (phase : Phase κ) :
    { w with phase := phase } ∈ (s.setPhase n phase).workers := by
  obtain ⟨before, after, -, hs⟩ := exists_split hw
  rw [hs]
  exact List.mem_append_right _ List.mem_cons_self

theorem mem_setPhase_of_ne (hw : s.workers[n]? = some w) (hv : v ∈ s.workers)
    (hne : v.admission.id ≠ w.admission.id) (phase : Phase κ) :
    v ∈ (s.setPhase n phase).workers := by
  obtain ⟨before, after, hold, hnew⟩ := exists_split hw
  rw [hold, List.perm_middle.mem_iff, List.mem_cons] at hv
  rw [hnew, List.perm_middle.mem_iff, List.mem_cons]
  rcases hv with rfl | hv
  · exact absurd rfl hne
  · exact Or.inr hv

/-- Every task that is under way has a worker that keeps pace with it. -/
structure Timely (longest : Nat) (s : System κ) : Prop where
  clock : s.clock.timer = s.clock.reading
  nodup : s.tracer.keys.Nodup
  paced : ∀ id pulse, s.tracer.pulse? id = some pulse →
    ∃ w ∈ s.workers, w.admission.id = id ∧ w.phase.Paced longest s.now pulse

/-- A turn puts the worker into a phase in which it keeps pace, and nobody else is concerned. -/
inductive Comes (longest n : Nat) (id : TaskId) (s : System κ) : System κ → Prop
  | of_steady {t : System κ} {phase : Phase κ} (steady : Steady (· = id) s t)
      (paced : ∀ pulse, t.tracer.pulse? id = some pulse → phase.Paced longest s.now pulse) :
      Comes longest n id s (t.setPhase n phase)

namespace Timely

theorem new (longest limit : Nat) (maxPending : Option Nat) (orders : List Order) :
    Timely longest (System.new limit maxPending orders : System κ) where
  clock := rfl
  nodup := List.nodup_nil
  paced _ _ h := nomatch h

/-- The worker that has kept pace before still does. -/
theorem follow {apart : TaskId → Prop} {id : TaskId} {pulse : Time} (h : Timely longest s)
    (hs : Steady apart s t) (hid : ¬ apart id) (hp : t.tracer.pulse? id = some pulse) :
    ∃ w ∈ t.workers, w.admission.id = id ∧ w.phase.Paced longest s.now pulse := by
  rcases hs.traces.pulse id hid pulse hp with hold | ⟨rfl, before, hold⟩
  · obtain ⟨w, hw, hw', hpaced⟩ := h.paced id pulse hold
    exact ⟨w, hs.workers.subset hw, hw', hpaced⟩
  · obtain ⟨w, hw, hw', hpaced⟩ := h.paced id before hold
    exact ⟨w, hs.workers.subset hw, hw', hpaced.refresh⟩

theorem steady (h : Timely longest s) (hs : Steady nobody s t) : Timely longest t where
  clock := by
    rw [hs.clock]
    exact h.clock
  nodup := hs.traces.nodup h.nodup
  paced id pulse hp := by
    rw [hs.now_eq]
    exact h.follow hs (fun hn => hn) hp

/-- A task has one worker, so it is this one that keeps pace. -/
theorem own (h : Timely longest s) (hs : Sane s) (hw : w ∈ s.workers) {pulse : Time}
    (hp : s.tracer.pulse? w.admission.id = some pulse) : w.phase.Paced longest s.now pulse := by
  obtain ⟨v, hv, hid, hpaced⟩ := h.paced _ pulse hp
  obtain rfl := eq_of_id hs hw hv hid
  exact hpaced

theorem comes (h : Timely longest s) (hw : s.workers[n]? = some w)
    (hc : Comes longest n w.admission.id s s') : Timely longest s' := by
  cases hc with
  | @of_steady t phase hs hpaced =>
    have hw' : t.workers[n]? = some w := by
      obtain ⟨rest, hrest⟩ := hs.workers
      rw [← hrest, List.getElem?_append_left (List.getElem?_eq_some_iff.mp hw).1, hw]
    have hnow : (t.setPhase n phase).now = s.now := hs.now_eq
    refine ⟨?_, hs.traces.nodup h.nodup, fun id pulse hp => ?_⟩
    · show t.clock.timer = t.clock.reading
      rw [hs.clock]
      exact h.clock
    · change t.tracer.pulse? id = some pulse at hp
      rw [hnow]
      by_cases hid : id = w.admission.id
      · subst hid
        exact ⟨_, mem_setPhase hw' phase, rfl, hpaced pulse hp⟩
      · obtain ⟨v, hv, rfl, hv'⟩ := h.follow hs hid hp
        exact ⟨v, mem_setPhase_of_ne hw' hv hid phase, rfl, hv'⟩

end Timely

/-! ## Time -/

/-- The clock goes on. -/
def pass (span : Duration) (s : System κ) : System κ :=
  { s with clock := ⟨deadline s.clock.reading span, deadline s.clock.timer span⟩ }

namespace Timely

/-- Nobody waits for longer than its call may take. -/
theorem wait (h : Timely longest s) {span : Duration}
    (calling : ∀ w ∈ s.workers, w.phase.activity = .busy → ∃ job call reached,
      w.phase = .calling job call reached ∧ deadline s.clock.timer span ≤ call.expires) :
    Timely longest (s.pass span) where
  clock := congrArg (deadline · span) h.clock
  nodup := h.nodup
  paced id pulse hp := by
    obtain ⟨⟨a, phase⟩, hw, hid, hpaced⟩ := h.paced id pulse hp
    refine ⟨_, hw, hid, ?_⟩
    have hbusy : phase.activity = .busy := by
      cases phase with
      | admitted | ended => exact hpaced.elim
      | between | entering | calling => rfl
    obtain ⟨job, call, reached, hphase, hle⟩ := calling _ hw hbusy
    obtain rfl : phase = .calling job call reached := hphase
    rw [h.clock] at hle
    exact hpaced.pass hle

/-! ## Sweeps -/

variable {timeout : Duration}

theorem bounds (h : Timely longest s) {id : TaskId} {trace : Trace}
    (ht : s.tracer.get? id = some trace) (hp : trace.state = .processing) :
    trace.lastActivity ≤ s.now ∧ (elapsed trace.lastActivity s.now).nanos ≤ longest := by
  obtain ⟨w, -, -, hpaced⟩ := h.paced id _ (Tracer.pulse?_of_processing ht hp)
  exact ⟨hpaced.bounds.1, Nat.sub_le_iff_le_add'.mpr hpaced.bounds.2⟩

theorem not_isStalled (h : Timely longest s) (hl : longest < timeout.nanos) {entry : TaskId × Trace}
    (hmem : entry ∈ s.tracer) : ¬ entry.2.isStalled timeout s.now = true := by
  intro hstalled
  simp only [Trace.isStalled, Duration.exceeds, Bool.and_eq_true, decide_eq_true_eq] at hstalled
  obtain ⟨hp, hlt⟩ := hstalled
  have hle := (h.bounds (Table.get?_of_mem h.nodup hmem) hp).2
  exact Nat.lt_irrefl _ (Nat.lt_trans (Nat.lt_of_lt_of_le hlt hle) hl)

/-- A sweep that has patience for the longest call finds nothing and changes nothing. -/
theorem flagStalled_eq (h : Timely longest s) (hl : longest < timeout.nanos) (obs : Observer κ) :
    s.flagStalled obs timeout = ([], s) := by
  have hnone : s.tracer.values.filter (·.isStalled timeout s.now) = [] := by
    refine List.filter_eq_nil_iff.mpr fun trace hmem => ?_
    obtain ⟨entry, hentry, rfl⟩ := List.mem_map.mp hmem
    exact h.not_isStalled hl hentry
  have hsame : s.tracer.map (fun entry => (entry.1, Tracer.flag timeout s.now entry.2))
      = s.tracer := by
    refine (List.map_congr_left fun entry hentry => ?_).trans (List.map_id _)
    rw [flag_of_not_isStalled (h.not_isStalled hl hentry)]
    rfl
  simp only [flagStalled, Tracer.sweep, hnone, hsame]
  rfl

theorem sweep_eq (h : Timely longest s) (hl : longest < timeout.nanos) (obs : Observer κ) :
    s.sweep obs timeout = ([], s) := by
  simp only [sweep, h.flagStalled_eq hl obs]
  rfl

end Timely

/-! ## Turns -/

/-- Whoever leaves with an outcome has ended the task. -/
theorem comes_leave (h : Steady (· = a.id) s t) (o : Outcome) :
    Comes longest n a.id s (t.leave .silent n a (some o)) := by
  refine .of_steady (t := (t.finish .silent a.id o).withQueue _)
    ((h.trans (.finish a.id o t)).trans (.withQueue _ _)) fun pulse hp => ?_
  change (t.finish .silent a.id o).tracer.pulse? a.id = some pulse at hp
  rw [pulse?_finish] at hp
  cases hp

theorem comes_breakDown (h : Steady (· = a.id) s t) (panic : Panic) :
    Comes longest n a.id s (t.breakDown .silent n a panic) :=
  comes_leave (h.trans (.record _ _ _)) _

/-- Whoever has put down a step may go on to whatever comes before a call. -/
theorem comes_recordAll (h : Steady (· = a.id) s t) {steps : List Step} (hne : steps ≠ [])
    {phase : Phase κ} (hphase : phase.Paced longest s.now s.now) :
    Comes longest n a.id s ((t.recordAll .silent a.id steps).setPhase n phase) := by
  refine .of_steady (h.trans (.recordAll _ _ _)) fun pulse hp => ?_
  obtain rfl : pulse = s.now := (pulse?_recordAll hne hp).trans h.now_eq
  exact hphase

section Parts

variable [Cost κ] {settings : Settings κ}

theorem comes_proceed (h : Steady (· = a.id) s t) (params : Json) {p : Healing.Progress κ}
    (hp : p.Tells) : Comes longest n a.id s (t.proceed .silent n a params p) := by
  have hsteps : (∀ status, p.point ≠ .ended status) → p.steps ≠ [] := fun hgoes =>
    hp.resolve_right fun ⟨status, he⟩ => hgoes status he
  unfold proceed
  split
  · rename_i he
    exact comes_recordAll h (hsteps fun _ => by simp [he]) rfl
  · rename_i he
    exact comes_recordAll h (hsteps fun _ => by simp [he]) rfl
  · exact comes_leave (h.trans (.recordAll _ _ _)) _

theorem comes_receive (h : Steady (· = a.id) s t) (job : Job κ) (answer : Answer κ) :
    Comes longest n a.id s (t.receive .silent settings n a job answer) := by
  cases job with
  | direct capability params => exact comes_leave (h.trans (.recordAll _ _ _)) _
  | healing params session stage => exact comes_proceed h params (Healing.tells_receive stage answer)

/-- A call that begins just after the last activity ends no later than the longest one may. -/
theorem comes_enter (hclock : s.clock.timer = s.now)
    (hpulse : ∀ pulse, s.tracer.pulse? a.id = some pulse → pulse = s.now) (job : Job κ) :
    Comes settings.longest n a.id s (s.enter .silent settings n a job) := by
  unfold enter
  split
  · exact comes_receive (.refl s) job _
  · refine .of_steady (.withQueue _ s) fun pulse hp => ?_
    obtain rfl := hpulse pulse hp
    show s.now ≤ s.now ∧ s.now ≤ deadline s.clock.timer (Job.limit settings job) ∧
      deadline s.clock.timer (Job.limit settings job) ≤ s.now + settings.longest
    rw [hclock]
    exact ⟨Nat.le_refl _, Nat.le_add_right _ _, Nat.add_le_add_left (Job.limit_le settings job) _⟩

theorem comes_heed {job : Job κ} {call : Call}
    (hpaced : ∀ pulse, s.tracer.pulse? a.id = some pulse →
      (Phase.calling job call true).Paced longest s.now pulse) (now : Time) (poll : Poll κ) :
    Comes longest n a.id s (s.heed settings n a job call now poll) := by
  have hstop : Steady (· = a.id) s (s.withQueue (s.queue.cancelToken call.token)) :=
    .withQueue _ s
  unfold heed
  cases call.ending? now poll with
  | none => exact .of_steady (.refl s) hpaced
  | some ending =>
    cases ending with
    | answered answer => exact comes_receive hstop job answer
    | panicked panic => exact comes_breakDown hstop panic

theorem comes_dispatch (h : Steady (· = a.id) s t) (payload : Json) :
    Comes longest n a.id s (t.dispatch .silent settings n a payload) := by
  cases hp : plan payload settings.routes with
  | error e =>
    rw [dispatch_of_error hp]
    exact comes_leave (h.trans (.record _ _ _)) _
  | ok p =>
    rw [dispatch_of_ok hp]
    have hphase : (firstPhase settings p).Paced longest s.now s.now := by
      unfold firstPhase
      split
      · rfl
      · rfl
    have hnoted : Steady (· = a.id) s (t.noteIntent a.id p.intent) := by
      rcases noteIntent_cases a.id p.intent t with he | ⟨tasks, -, he⟩
      · rw [he]
        exact h
      · rw [he]
        exact h.trans (.of_tracer rfl (List.prefix_refl _) rfl)
    exact comes_recordAll hnoted (List.cons_ne_nil _ []) hphase

theorem comes_begin (h : (s.view a.id).task = some .pending) :
    Comes longest n a.id s (s.begin .silent settings n a) := by
  obtain ⟨tasks, hstore, -⟩ := exists_started h
  have hstarted : Steady (· = a.id) s (s.takeUp a.id tasks) :=
    ⟨rfl, List.prefix_refl _, .markProcessing _ _ _⟩
  rw [begin_of_ok hstore]
  split
  · exact comes_leave hstarted _
  · exact comes_dispatch hstarted _

end Parts

/-! ## Runs in time -/

variable [Cost κ] {traffic : Traffic} {settings : Settings κ} {c c' : Scene κ}

namespace Timely

theorem turn (h : Timely settings.longest s) (hs : Sane s) (hc : s.consulted settings n = none)
    (execute : Execute κ) : Timely settings.longest (s.turn .silent settings n execute) := by
  cases hw : s.workers[n]? with
  | none =>
    rw [turn_of_none hw]
    exact h
  | some w =>
    have hmem := List.mem_of_getElem? hw
    obtain ⟨a, phase⟩ := w
    cases phase with
    | ended =>
      rw [turn_of_gone hw rfl]
      exact h
    | admitted =>
      rw [turn_of_due hw rfl]
      exact h.comes hw (comes_begin ((hs.fine a.id).due (activity_mem_crew hw)))
    | between params session =>
      rw [turn_of_between hw]
      exact h.comes hw (comes_proceed (.refl s) params (Healing.tells_passHead _))
    | entering job =>
      rw [turn_of_entering hw]
      exact h.comes hw (comes_enter h.clock (fun pulse hp => h.own hs hmem hp) job)
    | calling job call reached =>
      rw [turn_of_calling hw, await_of_isCancelled (isCancelled_of_consulted hw hc)]
      exact h.comes hw (comes_receive (.withQueue _ s) job _)

theorem answer {s₀ s₁ : System κ} (h : Timely settings.longest s) (hs : Sane s)
    (hw : s.workers[n]? = some w) (hw₀ : s₀.workers[n]? = some w)
    (hc : s₀.consulted settings n = some s₁) (poll : Poll κ) :
    Timely settings.longest (s₀.turn .silent settings n fun _ => (poll, s)) := by
  obtain ⟨job, call, reached, hphase, hstands⟩ := calling_of_consulted hw₀ hc
  obtain ⟨a, phase⟩ := w
  obtain rfl : phase = .calling job call reached := hphase
  have hpaced (pulse : Time) (hp : s.tracer.pulse? a.id = some pulse) :=
    h.own hs (List.mem_of_getElem? hw) hp
  rw [turn_of_asked hw₀ hstands]
  exact h.comes hw (comes_heed hpaced _ poll)

theorem tick (h : Timely settings.longest c.system) (hs : Sound settings c)
    (ht : Tick traffic settings c c') (still : c'.system.clock = c.system.clock) :
    Timely settings.longest c'.system := by
  cases ht with
  | submit id payload new => exact h.steady (.submit id payload _)
  | strike call clear => exact h.steady (.strike _ call)
  | chore next => exact h.steady (.perform _ _)
  | pause | resume | shutdown => exact h.steady (.withQueue _ _)
  | employ hi => exact h.steady (.employ _ _ _)
  | elapse clock => exact h.steady (.of_tracer still (List.prefix_refl _) rfl)
  | flag timeout => exact h.steady (.flagStalled timeout _)
  | markLost id => exact h.steady (.markLost id _)
  | turn n execute free hc => exact h.turn hs.sane hc execute
  | ask n free hc => exact h.steady (.consulted hc)
  | answer poll waiting =>
    obtain ⟨w, s', hw, hw₀, hc⟩ := hs.waiting _ _ (waiting ▸ List.mem_append_right _ List.mem_cons_self)
    exact h.answer hs.sane hw hw₀ hc poll

end Timely

/-- Something is done, or time passes. -/
inductive Beat (traffic : Traffic) (settings : Settings κ) (c : Scene κ) : Scene κ → Prop
  | tick {c' : Scene κ} (h : Tick traffic settings c c')
      (still : c'.system.clock = c.system.clock) : Beat traffic settings c c'
  /-- Whoever is at work has a call under way, and none of these calls is past its deadline afterwards. -/
  | wait (span : Duration)
      (calling : ∀ w ∈ c.system.workers, w.phase.activity = .busy → ∃ job call reached,
        w.phase = .calling job call reached ∧ deadline c.system.clock.timer span ≤ call.expires) :
      Beat traffic settings c (c.on (c.system.pass span))

abbrev Beats (traffic : Traffic) (settings : Settings κ) : Scene κ → Scene κ → Prop :=
  Relation.ReflTransGen (Beat traffic settings)

namespace Timely

theorem beat (h : Timely settings.longest c.system) (hs : Sound settings c)
    (hb : Beat traffic settings c c') : Sound settings c' ∧ Timely settings.longest c'.system := by
  cases hb with
  | tick ht still => exact ⟨hs.tick ht, h.tick hs ht still⟩
  | wait span calling =>
    have hpass : Tick traffic settings c (c.on (c.system.pass span)) := .elapse _
    exact ⟨hs.tick hpass, h.wait calling⟩

theorem beats {limit : Nat} {maxPending : Option Nat} {orders : List Order}
    (h : Beats traffic settings (.start limit maxPending orders) c) :
    Timely settings.longest c.system := by
  have hall : Sound settings c ∧ Timely settings.longest c.system := by
    induction h with
    | refl => exact ⟨.start settings limit maxPending orders, .new _ limit maxPending orders⟩
    | tail _ hb ih => exact ih.2.beat ih.1 hb
  exact hall.2

end Timely

end System

/-! ## Configurations -/

namespace Config

variable {config : Config}

/-- How a system is set up that goes by the configuration. -/
def settings (config : Config) (routes : RoutingTable) (estimator : Estimator Float) :
    Settings Float :=
  ⟨config.executorTimeout, config.healingConfig, routes, estimator⟩

/-- The watchdog waits for longer than the longest call may take. -/
theorem longest_lt_stallTimeout (h : config.validate = .ok ()) (routes : RoutingTable)
    (estimator : Estimator Float) :
    (config.settings routes estimator).longest < config.stallTimeout.nanos := by
  have hmem : (decide (config.longestCall < config.watchdog.stallTimeoutSecs),
      ConfigError.shortStall config.watchdog.stallTimeoutSecs config.longestCall)
        ∈ config.conditions := by
    simp [conditions]
  have hlt : config.longestCall < config.watchdog.stallTimeoutSecs := by
    simpa using holds_of_validate h hmem
  show max (config.executor.timeoutSecs * 1000000000)
    (config.healing.iterationTimeoutSecs * 1000000000)
      < config.watchdog.stallTimeoutSecs * 1000000000
  rw [longestCall] at hlt
  omega

end Config

/-- Who is under way has been active not long ago, and the watchdog of the configuration finds nobody. -/
structure Watched (config : Config) (s : System Float) : Prop where
  recent : ∀ id trace, s.tracer.get? id = some trace → trace.state = .processing →
    trace.lastActivity ≤ s.now ∧ (elapsed trace.lastActivity s.now).nanos
      ≤ max config.executorTimeout.nanos config.healingConfig.iterationTimeout.nanos
  unflagged : ∀ obs, s.flagStalled obs config.stallTimeout = ([], s)
  spared : ∀ obs, s.sweep obs config.stallTimeout = ([], s)

namespace System

variable {config : Config} {routes : RoutingTable} {estimator : Estimator Float}
  {orders : List Order} {c : Scene Float} {traffic : Traffic}

/-- At any moment of any run, also while calls are under way. -/
theorem live_tasks_spared (hvalid : config.validate = .ok ())
    (h : Beats traffic (config.settings routes estimator)
      (.start config.queue.concurrencyLimit config.queue.maxPending orders) c) :
    Watched config c.system := by
  have htimely := Timely.beats h
  have hlt := Config.longest_lt_stallTimeout hvalid routes estimator
  exact
    { recent := fun _ _ ht hp => htimely.bounds ht hp
      unflagged := htimely.flagStalled_eq hlt
      spared := htimely.sweep_eq hlt }

/-- A call keeps silent right to its deadline. -/
theorem live_tasks_spared_at_deadline :
    ∃ c : Scene Float, (∃ trace, c.system.tracer.get? (.ofNat 7) = some trace ∧
      trace.state = .processing ∧ elapsed trace.lastActivity c.system.now = .ofSecs 300) ∧
      Watched .standard c.system := by
  have hrun : ∃ c : Scene Float,
      Beats .mixed (Config.standard.settings .standard (.fixed 0 none)) (.start 4 none []) c ∧
      ∃ trace, c.system.tracer.get? (.ofNat 7) = some trace ∧
        trace.state = .processing ∧ elapsed trace.lastActivity c.system.now = .ofSecs 300 := by
    refine ⟨_, .tail (.tail (.tail (.tail (.tail (.tail .refl
      (.tick (.submit (.ofNat 7) (.object [("intent", .string "git")]) (by decide)) rfl))
      (.tick (.employ rfl) rfl))
      (.tick (.turn 0 (fun s => (.pending, s)) (by decide) rfl) rfl))
      (.tick (.turn 0 (fun s => (.pending, s)) (by decide) rfl) rfl))
      (.tick (.ask 0 (by decide) rfl) rfl))
      (.wait (.ofSecs 300) fun w hw _ => ?_), ?_⟩
    · obtain rfl := List.mem_singleton.mp hw
      exact ⟨_, _, _, rfl, by decide⟩
    · exact ⟨_, rfl, rfl, rfl⟩
  obtain ⟨c, hbeats, hsilent⟩ := hrun
  have hvalid : Config.standard.validate = .ok () := rfl
  exact ⟨c, hsilent, live_tasks_spared hvalid hbeats⟩

end System

end Overseer
