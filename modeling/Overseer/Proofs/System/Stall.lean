import Overseer.Proofs.System.Abort
import Overseer.Proofs.Trace.History

/-! # What a whole sweep does

A sweep edits all traces in one pass, and then it goes through the ids that it has flagged and marks the task of each
as lost. It flags the tasks that are `Overdue`, each once. What becomes of one of these is `Reaped`, and everyone else
is `PassedOver`.

For the second pass it is said what has been done once some of the ids have been marked (`Reaping`). The passage from
one id to the next needs two things: an id that has been marked is not among those to come, and the token that is
cancelled for it is nobody else's (`Tenure`). No trace is left that the same sweep would flag again.
-/

namespace Overseer.System

open Standing

variable {κ : Type} {s s' s'' : System κ} {id j : TaskId} {ids : List TaskId} {timeout : Duration}

/-- A task is under way, and its trace has shown no activity for longer than the timeout. -/
def Overdue (timeout : Duration) (s : System κ) (id : TaskId) : Prop :=
  ∃ trace, s.tracer.get? id = some trace ∧ trace.state = .processing ∧
    trace.lastActivity + timeout.nanos < s.now

/-- What has become of a task that the sweep flagged. -/
structure Reaped (timeout : Duration) (id : TaskId) (s s' : System κ) : Prop where
  task : ∃ task, s.tasks.get? id = some task ∧ s'.tasks.get? id = some (task.lose s.now)
  trace : ∃ trace, s.tracer.get? id = some trace ∧
    s'.tracer.get? id = some
      { trace with
        state := .lost
        steps := trace.steps ++ [⟨.errorGate "watchdog" "stalled"
          ("no trace activity for " ++ toString timeout.secs ++ "s; marking lost"), s.now⟩] }
  told : s.events.count (.taskLost id) = 0 ∧ s'.events.count (.taskLost id) = 1
  token : ∃ token, s.queue.active.get? id = some token ∧ ⟨id, token⟩ ∈ s.admissions ∧
    s'.isCancelled token = true
  slot : s'.queue.active.get? id = none

/-- Nothing of a task that the sweep did not flag is another. -/
structure PassedOver (id : TaskId) (s s' : System κ) : Prop where
  task : s'.tasks.get? id = s.tasks.get? id
  trace : s'.tracer.get? id = s.tracer.get? id
  slot : s'.queue.active.get? id = s.queue.active.get? id
  /-- The token of its slot, and that of a worker whose slot has been taken from it. -/
  token : ∀ token, ⟨id, token⟩ ∈ s.admissions → s'.isCancelled token = s.isCancelled token
  told : s'.events.filter (·.id == id) = s.events.filter (·.id == id)

structure SweepsExactly (timeout : Duration) (s : System κ) : Prop where
  flags : ∀ id, id ∈ (s.sweep .silent timeout).1 ↔ Overdue timeout s id
  once : (s.sweep .silent timeout).1.Nodup
  reaped : ∀ id, Overdue timeout s id → Reaped timeout id s (s.sweep .silent timeout).2
  others : ∀ id, ¬ Overdue timeout s id → PassedOver id s (s.sweep .silent timeout).2
  pending : (s.sweep .silent timeout).2.queue.pending = s.queue.pending
  /-- The token that all others descend from. -/
  root : (s.sweep .silent timeout).2.isCancelled s.queue.shutdown = s.isCancelled s.queue.shutdown
  again : (s.sweep .silent timeout).2.sweep .silent timeout = ([], (s.sweep .silent timeout).2)

/-! ## The pass over the traces -/

/-- A trace that has been flagged is no longer under way. -/
theorem isStalled_flag (timeout : Duration) (now : Time) (trace : Trace) :
    (Tracer.flag timeout now trace).isStalled timeout now = false := by
  by_cases h : trace.isStalled timeout now = true
  · rw [Bool.eq_false_iff, ne_eq, Trace.isStalled_iff, flag_state_of_isStalled h]
    exact fun hlost => nomatch hlost.1
  · rw [flag_of_not_isStalled h]
    simpa using h

theorem get?_flagStalled (timeout : Duration) (s : System κ) (id : TaskId) :
    (s.flagStalled .silent timeout).2.tracer.get? id
      = (s.tracer.get? id).map (Tracer.flag timeout s.now) := by
  simp only [flagStalled, announceAll_silent]
  exact Table.get?_map_values s.tracer _ id

theorem Stands.filed (h : s.Stands) : Tracer.Filed s.tracer where
  nodup := h.nodup_traces
  label id trace hget := by
    obtain ⟨st, hst⟩ := h id
    have hlabel : (s.tracer.get? id).map (·.id) = (st.view id).label := congrArg View.label hst
    rw [Option.mem_def.mp hget] at hlabel
    cases st with
    | unknown => cases hlabel
    | queued | admitted | running | discarded | stalled | settled => exact Option.some.inj hlabel

/-- Each trace bears the id under which it is kept. -/
theorem Stands.labels (h : s.Stands) : s.tracer.values.map (·.id) = s.tracer.keys := by
  rw [Table.values, Table.keys, List.map_map]
  apply List.map_congr_left
  rintro ⟨k, trace⟩ hmem
  exact h.filed.label k trace (Table.get?_of_mem h.filed.nodup hmem)

theorem mem_flagStalled_iff (h : s.Stands) :
    id ∈ (s.flagStalled .silent timeout).1 ↔ Overdue timeout s id := by
  have hsweep : (s.flagStalled .silent timeout).1 = (s.tracer.sweep timeout s.now).1 := rfl
  rw [hsweep, Tracer.mem_sweep_iff h.filed]
  simp only [Trace.isStalled_iff, Overdue, Option.mem_def]

theorem nodup_flagStalled (h : s.Stands) (timeout : Duration) :
    (s.flagStalled .silent timeout).1.Nodup := by
  have hsub : ((s.tracer.values.filter (·.isStalled timeout s.now)).map (·.id)).Sublist
      s.tracer.keys := by
    rw [← h.labels]
    exact List.filter_sublist.map _
  exact hsub.nodup h.nodup_traces

/-- The pass tells of the gates that it writes, one for each id that it flags. -/
theorem events_flagStalled (timeout : Duration) (s : System κ) :
    ∃ gates : List Event, (s.flagStalled .silent timeout).2.events = s.events ++ gates ∧
      ∀ e ∈ gates, e.id ∈ (s.flagStalled .silent timeout).1 ∧ ∀ id, e ≠ .taskLost id := by
  refine ⟨(s.tracer.sweep timeout s.now).2.1, ?_, fun e he => ?_⟩
  · simp [flagStalled, announceAll_silent]
  · obtain ⟨trace, hmem, rfl⟩ := List.mem_map.mp he
    have hstalled := (List.mem_filter.mp hmem).2
    have hid : (Tracer.flag timeout s.now trace).id = trace.id := by
      rw [Tracer.flag, if_pos hstalled]
      rfl
    refine ⟨List.mem_map.mpr ⟨trace, hmem, hid.symm⟩, ?_⟩
    intro id hlost
    cases hlost

/-- A task that is flagged holds a slot, and it has not been told of as lost. -/
theorem of_overdue (h : s.Stands) (ho : Overdue timeout s id) :
    s.view id = Standing.running.view id ∧
      (s.flagStalled .silent timeout).2.view id = (Standing.stalled true).view id := by
  obtain ⟨trace, hget, hstalled⟩ := ho
  obtain ⟨st, hst⟩ := h id
  obtain ⟨rfl, -, hview⟩ := leads_of_isStalled hst hget (Trace.isStalled_iff.mpr hstalled)
  exact ⟨hst, hview⟩

/-- Who runs has not been told of as lost. -/
theorem count_taskLost_of_running (h : s.view id = Standing.running.view id) :
    s.events.count (.taskLost id) = 0 := by
  rw [List.count_eq_zero]
  intro hmem
  have hnotice : Notice.ended .lost ∈ s.notices id :=
    List.mem_filterMap.mpr ⟨_, List.mem_filter.mpr ⟨hmem, beq_self_eq_true _⟩, rfl⟩
  have hnotices : s.notices id = [.created, .started] := congrArg View.notices h
  rw [hnotices] at hnotice
  simp at hnotice

/-! ## The pass over the ids that have been flagged -/

/-- The tasks of `ids` have been marked as lost, and nothing else has been done. -/
structure Reaping (ids : List TaskId) (s s' : System κ) : Prop where
  tasks : ∀ id ∈ ids, ∃ task, s.tasks.get? id = some task ∧
    s'.tasks.get? id = some (task.lose s.now)
  tokens : ∀ id ∈ ids, ∃ token, s.queue.active.get? id = some token ∧
    ⟨id, token⟩ ∈ s.admissions ∧ s'.isCancelled token = true
  slots : ∀ id ∈ ids, s'.queue.active.get? id = none
  otherTasks : ∀ id, id ∉ ids → s'.tasks.get? id = s.tasks.get? id
  otherTokens : ∀ a ∈ s.admissions, a.id ∉ ids → s'.isCancelled a.token = s.isCancelled a.token
  otherSlots : ∀ id, id ∉ ids → s'.queue.active.get? id = s.queue.active.get? id
  root : s'.queue.shutdown = s.queue.shutdown ∧
    s'.isCancelled s.queue.shutdown = s.isCancelled s.queue.shutdown
  traces : s'.tracer = s.tracer
  events : s'.events = s.events ++ ids.map .taskLost
  pending : s'.queue.pending = s.queue.pending
  clock : s'.clock = s.clock
  admissions : s'.admissions = s.admissions

theorem Reaping.nil (s : System κ) : Reaping [] s s where
  tasks _ h := nomatch h
  tokens _ h := nomatch h
  slots _ h := nomatch h
  otherTasks _ _ := rfl
  otherTokens _ _ _ := rfl
  otherSlots _ _ := rfl
  root := ⟨rfl, rfl⟩
  traces := rfl
  events := (List.append_nil _).symm
  pending := rfl
  clock := rfl
  admissions := rfl

theorem Reaping.cons (hid : id ∉ ids) (h : Reaping [id] s s') (h' : Reaping ids s' s'') :
    Reaping (id :: ids) s s'' := by
  have hne : ∀ j ∈ ids, j ∉ [id] := by
    intro j hj hmem
    rw [List.mem_singleton] at hmem
    exact hid (hmem ▸ hj)
  have hnow : s'.now = s.now := congrArg Clock.reading h.clock
  constructor
  case tasks =>
    intro j hj
    rcases List.mem_cons.mp hj with rfl | hj
    · obtain ⟨task, ht, ht'⟩ := h.tasks j (List.mem_singleton_self j)
      exact ⟨task, ht, (h'.otherTasks j hid).trans ht'⟩
    · obtain ⟨task, ht, ht'⟩ := h'.tasks j hj
      rw [h.otherTasks j (hne j hj)] at ht
      exact ⟨task, ht, hnow ▸ ht'⟩
  case tokens =>
    intro j hj
    rcases List.mem_cons.mp hj with rfl | hj
    · obtain ⟨token, hslot, hadmission, hc⟩ := h.tokens j (List.mem_singleton_self j)
      refine ⟨token, hslot, hadmission, ?_⟩
      rw [h'.otherTokens ⟨j, token⟩ (h.admissions ▸ hadmission) hid]
      exact hc
    · obtain ⟨token, hslot, hadmission, hc⟩ := h'.tokens j hj
      rw [h.otherSlots j (hne j hj)] at hslot
      exact ⟨token, hslot, h.admissions ▸ hadmission, hc⟩
  case slots =>
    intro j hj
    rcases List.mem_cons.mp hj with rfl | hj
    · rw [h'.otherSlots j hid]
      exact h.slots j (List.mem_singleton_self j)
    · exact h'.slots j hj
  case otherTasks =>
    intro j hj
    rw [List.mem_cons, not_or, ← List.mem_singleton] at hj
    exact (h'.otherTasks j hj.2).trans (h.otherTasks j hj.1)
  case otherTokens =>
    intro a ha hj
    rw [List.mem_cons, not_or, ← List.mem_singleton] at hj
    exact (h'.otherTokens a (h.admissions ▸ ha) hj.2).trans (h.otherTokens a ha hj.1)
  case otherSlots =>
    intro j hj
    rw [List.mem_cons, not_or, ← List.mem_singleton] at hj
    exact (h'.otherSlots j hj.2).trans (h.otherSlots j hj.1)
  case root => exact ⟨h'.root.1.trans h.root.1, (h.root.1 ▸ h'.root.2).trans h.root.2⟩
  case traces => exact h'.traces.trans h.traces
  case events =>
    rw [h'.events, h.events]
    simp
  case pending => exact h'.pending.trans h.pending
  case clock => exact h'.clock.trans h.clock
  case admissions => exact h'.admissions.trans h.admissions

/-- One task is marked as lost. -/
theorem reaping_markLost (h : Tenure s) (hst : s.view id = (Standing.stalled true).view id) :
    Reaping [id] s (s.markLost .silent id).2 := by
  obtain ⟨task, htask, he⟩ := markLost_stalled hst
  have hactive : s.queue.active.contains id = true := congrArg View.active hst
  rw [Table.contains_eq, Option.isSome_iff_exists] at hactive
  obtain ⟨token, hslot⟩ := hactive
  have hadmission := h.owned id token hslot
  have hadmissions := (Abides.markLost id s).admissions
  have hsettled : (s.markLost .silent id).2
      = (({ s with tasks := s.tasks.set id (task.lose s.now) } : System κ).announce .silent
          (.taskLost id)).withQueue ((s.queue.cancelToken token).release id).2 := by
    rw [he]
    simp [evict, Queue.token?, announce, Observer.silent, hslot]
  obtain ⟨htokens, hshutdown⟩ := Queue.tokens_release (s.queue.cancelToken token) id
  have hcancelled : ∀ other, (s.markLost .silent id).2.isCancelled other
      = (s.queue.cancelToken token).isCancelled other := by
    intro other
    rw [hsettled]
    exact congrArg (Tokens.isCancelled · other) htokens
  have hne : ∀ j, j ∉ [id] → j ≠ id := fun j hj => List.mem_singleton.not.mp hj
  constructor
  case tasks =>
    intro j hj
    obtain rfl := List.mem_singleton.mp hj
    rw [hsettled]
    exact ⟨task, htask, Table.get?_set _ _ _⟩
  case tokens =>
    intro j hj
    obtain rfl := List.mem_singleton.mp hj
    refine ⟨token, hslot, hadmission, ?_⟩
    rw [hcancelled]
    exact h.isCancelled_cancelToken hadmission
  case slots =>
    intro j hj
    obtain rfl := List.mem_singleton.mp hj
    rw [hsettled]
    exact Queue.get?_release _ j
  case otherTasks =>
    intro j hj
    rw [hsettled]
    exact Table.get?_set_of_ne (hne j hj) _ _
  case otherTokens =>
    intro a ha hj
    rw [hcancelled]
    refine h.isCancelled_cancelToken_of_ne hadmission ha fun hsame => hne _ hj ?_
    rw [← hsame]
  case otherSlots =>
    intro j hj
    rw [hsettled]
    exact Queue.get?_release_of_ne (hne j hj) _
  case root =>
    constructor
    · rw [hsettled]
      exact hshutdown
    · rw [hcancelled]
      exact h.isCancelled_cancelToken_shutdown hadmission
  case traces =>
    rw [hsettled]
    rfl
  case events =>
    rw [hsettled]
    rfl
  case pending =>
    rw [hsettled]
    exact Queue.pending_release _ id
  case clock =>
    rw [hsettled]
    rfl
  case admissions => exact hadmissions

/-- Each of the tasks that have been flagged is marked as lost, one after the other. -/
theorem reaping_markAllLost (h : Tenure s) (hnodup : ids.Nodup)
    (hst : ∀ id ∈ ids, s.view id = (Standing.stalled true).view id) :
    Reaping ids s (s.markAllLost ids) := by
  induction ids generalizing s with
  | nil => exact .nil s
  | cons id ids ih =>
    obtain ⟨hid, hnodup⟩ := List.nodup_cons.mp hnodup
    have hfirst := hst id List.mem_cons_self
    refine .cons hid (reaping_markLost h hfirst) (ih (h.abide (.markLost id s)) hnodup ?_)
    intro j hj
    have hne : j ≠ id := fun he => hid (he ▸ hj)
    rw [view_markLost_stalled_of_ne hfirst hne]
    exact hst j (List.mem_cons_of_mem _ hj)

/-! ## Both passes -/

theorem reaping_sweep (hs : s.Stands) (h : Tenure s) (timeout : Duration) :
    Reaping (s.flagStalled .silent timeout).1 (s.flagStalled .silent timeout).2
      (s.sweep .silent timeout).2 :=
  reaping_markAllLost (h.abide (.flagStalled timeout s)) (nodup_flagStalled hs timeout)
    fun _ hid => (of_overdue hs ((mem_flagStalled_iff hs).mp hid)).2

/-- The first pass changes nothing but traces and what is told. -/
theorem flagStalled_frame (timeout : Duration) (s : System κ) :
    (s.flagStalled .silent timeout).2.tasks = s.tasks ∧
      (s.flagStalled .silent timeout).2.queue = s.queue ∧
      (s.flagStalled .silent timeout).2.clock = s.clock ∧
      (s.flagStalled .silent timeout).2.admissions = s.admissions := by
  simp only [flagStalled, announceAll_silent]
  simp [admissions]

theorem get?_sweep (hs : s.Stands) (h : Tenure s) (timeout : Duration) (id : TaskId) :
    (s.sweep .silent timeout).2.tracer.get? id
      = (s.tracer.get? id).map (Tracer.flag timeout s.now) := by
  rw [(reaping_sweep hs h timeout).traces, get?_flagStalled]

theorem reaped_sweep (hs : s.Stands) (h : Tenure s) (ho : Overdue timeout s id) :
    Reaped timeout id s (s.sweep .silent timeout).2 := by
  have hmem := (mem_flagStalled_iff hs).mpr ho
  have hreaping := reaping_sweep hs h timeout
  obtain ⟨htasks, hqueue, hclock, hadmissions⟩ := flagStalled_frame timeout s
  obtain ⟨gates, hevents, hgates⟩ := events_flagStalled timeout s
  have hbefore := count_taskLost_of_running (of_overdue hs ho).1
  constructor
  case task =>
    obtain ⟨task, htask, hlost⟩ := hreaping.tasks id hmem
    rw [htasks] at htask
    have hnow : (s.flagStalled .silent timeout).2.now = s.now := congrArg Clock.reading hclock
    exact ⟨task, htask, hnow ▸ hlost⟩
  case trace =>
    obtain ⟨trace, hget, hstalled⟩ := ho
    refine ⟨trace, hget, ?_⟩
    rw [get?_sweep hs h, hget, Option.map_some, Tracer.flag, if_pos (Trace.isStalled_iff.mpr hstalled)]
    rfl
  case told =>
    have hnone : gates.count (.taskLost id) = 0 :=
      List.count_eq_zero.mpr fun he => (hgates _ he).2 id rfl
    have hone : ((s.flagStalled .silent timeout).1.map Event.taskLost).count (.taskLost id) = 1 :=
      List.count_eq_one_of_mem
        ((nodup_flagStalled hs timeout).map fun _ _ he => Event.taskLost.inj he)
        (List.mem_map_of_mem hmem)
    refine ⟨hbefore, ?_⟩
    rw [hreaping.events, hevents, List.count_append, List.count_append, hbefore, hnone, hone]
  case token =>
    obtain ⟨token, hslot, hadmission, hc⟩ := hreaping.tokens id hmem
    rw [hqueue] at hslot
    exact ⟨token, hslot, hadmissions ▸ hadmission, hc⟩
  case slot => exact hreaping.slots id hmem

theorem passedOver_sweep (hs : s.Stands) (h : Tenure s) (ho : ¬ Overdue timeout s id) :
    PassedOver id s (s.sweep .silent timeout).2 := by
  have hmem := (mem_flagStalled_iff hs).not.mpr ho
  have hreaping := reaping_sweep hs h timeout
  obtain ⟨htasks, hqueue, hclock, hadmissions⟩ := flagStalled_frame timeout s
  obtain ⟨gates, hevents, hgates⟩ := events_flagStalled timeout s
  constructor
  case task =>
    rw [hreaping.otherTasks id hmem, htasks]
  case trace =>
    rw [get?_sweep hs h]
    cases hget : s.tracer.get? id with
    | none => rfl
    | some trace =>
      rw [Option.map_some, flag_of_not_isStalled]
      exact fun hstalled => ho ⟨trace, hget, Trace.isStalled_iff.mp hstalled⟩
  case slot =>
    rw [hreaping.otherSlots id hmem, hqueue]
  case token =>
    intro token hadmission
    rw [hreaping.otherTokens ⟨id, token⟩ (hadmissions ▸ hadmission) hmem]
    exact congrArg (Queue.isCancelled · token) hqueue
  case told =>
    have hlost : ((s.flagStalled .silent timeout).1.map Event.taskLost).filter (·.id == id) = [] := by
      rw [List.filter_eq_nil_iff]
      rintro e he hid
      obtain ⟨j, hj, rfl⟩ := List.mem_map.mp he
      exact hmem (eq_of_beq hid ▸ hj)
    have hgate : gates.filter (·.id == id) = [] := by
      rw [List.filter_eq_nil_iff]
      intro e he hid
      exact hmem (eq_of_beq hid ▸ (hgates e he).1)
    rw [hreaping.events, hevents, List.filter_append, List.filter_append, hlost, hgate]
    simp

/-- A sweep that finds no trace to flag does nothing. -/
theorem sweep_of_none (h : ∀ trace ∈ s.tracer.values, trace.isStalled timeout s.now = false) :
    s.sweep .silent timeout = ([], s) := by
  have hstalled : s.tracer.values.filter (·.isStalled timeout s.now) = [] := by
    rw [List.filter_eq_nil_iff]
    intro trace hmem
    rw [h trace hmem]
    exact Bool.false_ne_true
  have hflag : s.tracer.map (fun entry => (entry.1, Tracer.flag timeout s.now entry.2))
      = s.tracer := by
    refine (List.map_congr_left fun entry hmem => ?_).trans (List.map_id _)
    rw [flag_of_not_isStalled (Bool.eq_false_iff.mp (h _ (List.mem_map_of_mem hmem)))]
    rfl
  simp [sweep, flagStalled, Tracer.sweep, hstalled, hflag, announceAll]

theorem sweep_again (hs : s.Stands) (h : Tenure s) (timeout : Duration) :
    (s.sweep .silent timeout).2.sweep .silent timeout = ([], (s.sweep .silent timeout).2) := by
  have hreaping := reaping_sweep hs h timeout
  obtain ⟨-, -, hclock, -⟩ := flagStalled_frame timeout s
  have hnow : (s.sweep .silent timeout).2.now = s.now :=
    congrArg Clock.reading (hreaping.clock.trans hclock)
  have hflagged : (s.flagStalled .silent timeout).2.tracer
      = s.tracer.map fun entry => (entry.1, Tracer.flag timeout s.now entry.2) := by
    simp only [flagStalled, announceAll_silent]
    rfl
  refine sweep_of_none fun trace hmem => ?_
  rw [hreaping.traces, hflagged, Table.values, List.map_map] at hmem
  obtain ⟨entry, -, rfl⟩ := List.mem_map.mp hmem
  rw [hnow]
  exact isStalled_flag timeout s.now entry.2

theorem sweepsExactly (hs : s.Stands) (h : Tenure s) (timeout : Duration) :
    SweepsExactly timeout s := by
  have hreaping := reaping_sweep hs h timeout
  obtain ⟨-, hqueue, -, -⟩ := flagStalled_frame timeout s
  constructor
  case flags => exact fun id => mem_flagStalled_iff hs
  case once => exact nodup_flagStalled hs timeout
  case reaped => exact fun id => reaped_sweep hs h
  case others => exact fun id => passedOver_sweep hs h
  case pending =>
    rw [hreaping.pending, hqueue]
  case root =>
    have hroot := hreaping.root.2
    unfold isCancelled at hroot ⊢
    rwa [hqueue] at hroot
  case again => exact sweep_again hs h timeout

variable [Cost κ] {settings : Settings κ} {c : Chronicle κ} {limit : Nat} {maxPending : Option Nat}
  {orders : List Order}

/-- At any moment of a run with whole sweeps, with any timeout and at any reading of the clock, also at one that lies
before activity that is on record. -/
theorem sweep_exact (h : Moment settings (.start limit maxPending orders) c) (timeout : Duration)
    (clock : Clock) : SweepsExactly timeout ({ c.system with clock := clock } : System κ) := by
  obtain ⟨hkept, htenure⟩ := h.kept
  have helapse : Act .whole c (c.on { c.system with clock := clock }) := .elapse clock
  exact sweepsExactly (hkept.act helapse).1.stands (htenure.act helapse) timeout

/-- The first of two tasks is under way and the second waits. A sweep with a timeout of five flags the first at a
reading of six, and at a reading of five it does nothing yet. -/
theorem sweep_exact_of_two :
    ∃ c : Chronicle Float, c.submitted = [.ofNat 8, .ofNat 7] ∧
      Reaped ⟨5⟩ (.ofNat 7) { c.system with clock := ⟨6, 0⟩ }
        (({ c.system with clock := ⟨6, 0⟩ } : System Float).sweep .silent ⟨5⟩).2 ∧
      PassedOver (.ofNat 8) { c.system with clock := ⟨6, 0⟩ }
        (({ c.system with clock := ⟨6, 0⟩ } : System Float).sweep .silent ⟨5⟩).2 ∧
      (({ c.system with clock := ⟨5, 0⟩ } : System Float).sweep .silent ⟨5⟩).1 = [] := by
  have hrun : ∃ c : Chronicle Float, Moves .whole usual (.start 1 none []) c ∧
      c.submitted = [.ofNat 8, .ofNat 7] ∧
      (c.system.tracer.get? (.ofNat 7)).map (fun t => (t.state, t.lastActivity))
        = some (.processing, 0) ∧
      c.system.tracer.state? (.ofNat 8) = some .pending ∧
      (({ c.system with clock := ⟨5, 0⟩ } : System Float).sweep .silent ⟨5⟩).1 = [] :=
    ⟨_, (((Relation.ReflTransGen.refl.tail
      (.act (.submit (.ofNat 7) (.object [("intent", .string "git")]) (by decide)))).tail
      (.act (.submit (.ofNat 8) .null (by decide)))).tail (.act (.employ rfl))).tail
        (.turn 0 (fun s => (.pending, s)) (.unasked rfl)),
      rfl, rfl, rfl, rfl⟩
  obtain ⟨c, hmoves, hsubmitted, hfirst, hsecond, hnone⟩ := hrun
  have hexact := sweep_exact (.between hmoves) ⟨5⟩ ⟨6, 0⟩
  refine ⟨c, hsubmitted, hexact.reaped _ ?_, hexact.others _ ?_, hnone⟩
  · obtain ⟨trace, hget, hboth⟩ := Option.map_eq_some_iff.mp hfirst
    obtain ⟨hstate, hlast⟩ := Prod.mk.inj hboth
    refine ⟨trace, hget, hstate, ?_⟩
    rw [hlast]
    exact Nat.lt_succ_self 5
  · rintro ⟨trace, hget, hstate, -⟩
    have hpending : c.system.tracer.state? (.ofNat 8) = some .processing := by
      rw [← hstate]
      exact congrArg (Option.map (·.state)) hget
    rw [hsecond] at hpending
    cases hpending

end Overseer.System
