import Overseer.Proofs.System.Advance

/-! # Sweeps

A sweep flags the traces that have been silent for too long and marks their tasks as lost. Other operations
may come between the two. What is flagged is lost from then on (`isLost_flagStalled`), and to mark a lost task
as lost takes it to its end, once (`aside_markLost`). When nothing comes between, the sweep leaves no task
whose trace alone has ended (`ne_stalled_sweep`).
-/

namespace Overseer.System

open Standing

variable {κ : Type} {fresh flagged : TaskId → Prop} {s s' : System κ} {id j : TaskId}

/-! ## Flags -/

theorem announceAll_silent (events : List Event) (s : System κ) :
    s.announceAll .silent events = { s with events := s.events ++ events } := by
  induction events generalizing s with
  | nil => simp [announceAll]
  | cons e events ih =>
    show (s.announce .silent e).announceAll .silent events = _
    rw [ih]
    simp [announce, Observer.silent]

theorem view_announceAll {events : List Event} (h : ∀ e ∈ events, e.notice? = none) (j : TaskId)
    (s : System κ) : (s.announceAll .silent events).view j = s.view j := by
  have hnone : (events.filter fun e => e.id == j).filterMap Event.notice? = [] :=
    List.filterMap_eq_nil_iff.mpr fun e he => h e (List.mem_of_mem_filter he)
  rw [announceAll_silent]
  simp [view, notices, hnone]

/-- A sweep of the traces alone changes the state of those that it flags. -/
theorem view_flagStalled (timeout : Duration) (j : TaskId) (s : System κ) :
    (s.flagStalled .silent timeout).2.view j
      = { s.view j with
          trace := (s.tracer.get? j).map fun t => (Tracer.flag timeout s.now t).state } := by
  have hnone : ∀ e ∈ (s.tracer.sweep timeout s.now).2.1, e.notice? = none := by
    intro e he
    obtain ⟨t, -, rfl⟩ := List.mem_map.mp he
    rfl
  refine (view_announceAll hnone j _).trans ?_
  have hid (t : Trace) : (Tracer.flag timeout s.now t).id = t.id := by
    unfold Tracer.flag
    split
    · rfl
    · rfl
  simp [view, Tracer.state?, Table.get?_map_values, Table.keys_map_values, notices,
    Option.map_map, Function.comp_def, hid]

theorem flag_state_of_isStalled {timeout : Duration} {now : Time} {t : Trace}
    (h : t.isStalled timeout now = true) : (Tracer.flag timeout now t).state = .lost := by
  rw [Tracer.flag, if_pos h]

theorem flag_of_not_isStalled {timeout : Duration} {now : Time} {t : Trace}
    (h : ¬ t.isStalled timeout now = true) : Tracer.flag timeout now t = t := by
  rw [Tracer.flag, if_neg h]

/-- Only a task that is running is flagged, and by its own id. -/
theorem leads_of_isStalled {timeout : Duration} {st : Standing} {t : Trace}
    (hst : s.view id = st.view id) (ht : s.tracer.get? id = some t)
    (h : t.isStalled timeout s.now = true) :
    st = .running ∧ t.id = id ∧
      (s.flagStalled .silent timeout).2.view id = (Standing.stalled true).view id := by
  have hprocessing : t.state = .processing := by
    simp only [Trace.isStalled, Bool.and_eq_true, decide_eq_true_eq] at h
    exact h.1
  have htrace : (st.view id).trace = some .processing := by
    rw [← hst, ← hprocessing]
    simp [view, Tracer.state?, ht]
  have hrunning : st = .running := by
    cases st with
    | running => rfl
    | settled state ended =>
      obtain rfl := Option.some.inj htrace
      cases ended
    | unknown | queued | admitted | discarded | stalled => cases htrace
  subst hrunning
  have hlabel : (s.tracer.get? id).map (·.id) = some id := congrArg View.label hst
  rw [ht] at hlabel
  refine ⟨rfl, Option.some.inj hlabel, ?_⟩
  rw [view_flagStalled, ht, Option.map_some, flag_state_of_isStalled h, hst]
  rfl

theorem aside_flagStalled (timeout : Duration) (s : System κ) :
    Aside fresh (· ∈ (s.flagStalled .silent timeout).1) s (s.flagStalled .silent timeout).2 where
  leads id st hst := by
    cases ht : s.tracer.get? id with
    | none =>
      refine ⟨st, ?_, .refl⟩
      rw [view_flagStalled, ht, ← hst]
      simp [view, Tracer.state?, ht]
    | some t =>
      by_cases h : t.isStalled timeout s.now = true
      · obtain ⟨rfl, hlabel, hview⟩ := leads_of_isStalled hst ht h
        have hmem : t ∈ s.tracer.values.filter (·.isStalled timeout s.now) :=
          List.mem_filter.mpr ⟨List.mem_map.mpr ⟨_, Table.mem_of_get? ht, rfl⟩, h⟩
        exact ⟨.stalled true, hview, .single (.flag (List.mem_map.mpr ⟨t, hmem, hlabel⟩))⟩
      · refine ⟨st, ?_, .refl⟩
        rw [view_flagStalled, ht, Option.map_some, flag_of_not_isStalled h, ← hst]
        simp [view, Tracer.state?, ht]
  limit := by
    simp [flagStalled, announceAll_silent]
  slots hs := by
    simpa [flagStalled, announceAll_silent] using hs
  workers := by
    simp [flagStalled, announceAll_silent]

/-- Each id stands somewhere in its lifecycle. -/
def Stands (s : System κ) : Prop := ∀ id, ∃ st : Standing, s.view id = st.view id

theorem Stands.nodup_tasks (h : s.Stands) : s.tasks.keys.Nodup := by
  rw [List.nodup_iff_count_le_one]
  intro id
  obtain ⟨st, hst⟩ := h id
  have hcount : s.tasks.keys.count id = (st.view id).tasks := congrArg View.tasks hst
  rw [hcount]
  cases st <;> simp [Standing.view]

theorem Stands.nodup_traces (h : s.Stands) : s.tracer.keys.Nodup := by
  rw [List.nodup_iff_count_le_one]
  intro id
  obtain ⟨st, hst⟩ := h id
  have hcount : s.tracer.keys.count id = (st.view id).traces := congrArg View.traces hst
  rw [hcount]
  cases st <;> simp [Standing.view]

/-- What a sweep flags is lost, if each id stands somewhere. -/
theorem isLost_flagStalled {timeout : Duration} (hs : s.Stands)
    (h : id ∈ (s.flagStalled .silent timeout).1) :
    ∃ st : Standing, (s.flagStalled .silent timeout).2.view id = st.view id ∧ st.IsLost := by
  obtain ⟨t, hmem, rfl⟩ := List.mem_map.mp h
  obtain ⟨hvalue, hstalled⟩ := List.mem_filter.mp hmem
  obtain ⟨⟨k, t'⟩, hentry, rfl⟩ := List.mem_map.mp hvalue
  have hget := Table.get?_of_mem hs.nodup_traces hentry
  obtain ⟨st, hst⟩ := hs k
  obtain ⟨rfl, hlabel, hview⟩ := leads_of_isStalled hst hget hstalled
  exact ⟨.stalled true, by rw [hlabel]; exact hview, Or.inl ⟨true, rfl⟩⟩

/-! ## Ends -/

theorem evict_eq (id : TaskId) (s : System κ) :
    ∃ q : Queue, q.limit = s.queue.limit ∧ q.pending = s.queue.pending ∧
      q.active = s.queue.active ∧ s.evict id = (s.withQueue q).withQueue (q.release id).2 := by
  unfold evict
  split
  · exact ⟨s.queue.cancelToken _, rfl, rfl, rfl, rfl⟩
  · exact ⟨s.queue, rfl, rfl, rfl, rfl⟩

theorem view_evict (id : TaskId) (s : System κ) :
    (s.evict id).view id = { s.view id with active := false } := by
  obtain ⟨q, -, hp, ha, h⟩ := evict_eq id s
  rw [h]
  refine (view_release id (s.withQueue q)).trans ?_
  rw [view_withQueue_eq hp ha]

theorem view_evict_of_ne (hj : j ≠ id) (s : System κ) : (s.evict id).view j = s.view j := by
  obtain ⟨q, -, hp, ha, h⟩ := evict_eq id s
  rw [h]
  refine (view_release_of_ne hj (s.withQueue q)).trans ?_
  rw [view_withQueue_eq hp ha]

theorem limit_evict (id : TaskId) (s : System κ) : (s.evict id).queue.limit = s.queue.limit := by
  obtain ⟨q, hl, -, -, h⟩ := evict_eq id s
  rw [h, ← hl]
  exact Queue.limit_release q id

theorem length_evict_le (id : TaskId) (s : System κ) :
    (s.evict id).queue.active.length ≤ s.queue.active.length := by
  obtain ⟨q, -, -, ha, h⟩ := evict_eq id s
  rw [h, ← ha]
  exact Queue.length_release_le q id

theorem workers_evict (id : TaskId) (s : System κ) : (s.evict id).workers = s.workers := by
  obtain ⟨q, -, -, -, h⟩ := evict_eq id s
  rw [h]
  rfl

/-- The token of the task is cancelled with the slot that it holds, and no other slot is freed. -/
theorem grows_evict (id : TaskId) (s : System κ) : s.queue.Grows (s.evict id).queue := by
  unfold evict
  split
  · exact (Queue.Grows.cancelToken _ _).trans (.release _ _)
  · exact .release _ _

theorem get?_evict (id : TaskId) (s : System κ) : (s.evict id).queue.active.get? id = none := by
  obtain ⟨q, -, -, -, h⟩ := evict_eq id s
  rw [h]
  exact Queue.get?_release q id

theorem get?_evict_of_ne (hj : j ≠ id) (s : System κ) :
    (s.evict id).queue.active.get? j = s.queue.active.get? j := by
  obtain ⟨q, -, -, ha, h⟩ := evict_eq id s
  rw [h, ← ha]
  exact Queue.get?_release_of_ne hj q

theorem isCancelled_evict {token : Token} (h : s.queue.active.get? id = some token)
    (hl : token.lineage ≠ []) : (s.evict id).queue.isCancelled token = true := by
  have he : s.evict id = s.withQueue ((s.queue.cancelToken token).release id).2 := by
    simp [evict, Queue.token?, h]
  rw [he]
  exact (Queue.Grows.release _ id).isCancelled (Tokens.isCancelled_cancel hl _)

theorem evict_of_free (h : s.queue.active.get? id = none) : s.evict id = s := by
  simp only [evict, Queue.token?, h]
  rw [Queue.release_of_free h]
  rfl

/-- Of a task whose trace is lost the store is all that has a say in its end. -/
theorem markLost_of_lost (hr : (s.view id).trace = some .lost) :
    s.markLost .silent id = match s.tasks.finish id .lost s.now with
      | .ok tasks =>
          (true, (({ s with tasks := tasks } : System κ).announce .silent (.taskLost id)).evict id)
      | .error _ => (false, s.evict id) := by
  obtain ⟨t, ht, hlost⟩ := exists_trace hr
  have hstate : s.tracer.state? id = some .lost := hr
  have hwon : s.tracer.markTerminal id .lost = (false, s.tracer) :=
    Tracer.markTerminal_of_isTerminal ht (by rw [hlost]; rfl) _
  cases hstore : s.tasks.finish id .lost s.now with
  | ok tasks => simp [markLost, hwon, hstate, hstore]
  | error refusal => simp [markLost, hwon, hstate, hstore]

/-- An open trace ends first. -/
theorem markLost_of_open {trace : Trace} (ht : s.tracer.get? id = some trace)
    (hopen : trace.state.isTerminal = false) :
    s.markLost .silent id
      = ({ s with tracer := s.tracer.set id { trace with state := .lost } } :
          System κ).markLost .silent id := by
  have hlost : ({ s with tracer := s.tracer.set id { trace with state := .lost } } :
      System κ).tracer.state? id = some .lost := by
    simp [Tracer.state?, Table.get?_set]
  rw [markLost_of_lost hlost]
  unfold markLost
  rw [Tracer.markTerminal_of_open ht hopen rfl]
  rfl

/-- Whose trace has ended otherwise, or who has none, is left alone. -/
theorem markLost_of_closed
    (h : ∀ b, (s.view id).trace = some b → b.isTerminal = true ∧ b ≠ .lost) :
    s.markLost .silent id = (false, s) := by
  have hwon : s.tracer.markTerminal id .lost = (false, s.tracer) := by
    cases ht : s.tracer.get? id with
    | none => simp [Tracer.markTerminal, ht]
    | some t =>
      have htrace : (s.view id).trace = some t.state := by simp [view, Tracer.state?, ht]
      exact Tracer.markTerminal_of_isTerminal ht (h _ htrace).1 _
  have hne : (s.tracer.state? id == some .lost) = false := by
    rw [beq_eq_false_iff_ne]
    intro hlost
    exact (h _ hlost).2 rfl
  unfold markLost
  rw [hwon]
  simp [hne]

theorem markLost_of_processing (hr : (s.view id).trace = some .lost)
    (htask : (s.view id).task = some .processing) :
    ∃ t, s.tasks.get? id = some t ∧ t.state = .processing ∧
      s.markLost .silent id
        = (true, (({ s with tasks := s.tasks.set id (t.lose s.now) } : System κ).announce .silent
            (.taskLost id)).evict id) := by
  obtain ⟨t, ht, hstate⟩ := exists_task htask
  have hstore : s.tasks.finish id .lost s.now = .ok (s.tasks.set id (t.lose s.now)) :=
    TaskStore.update_ok ht (Task.finish_lost hstate s.now)
  refine ⟨t, ht, hstate, ?_⟩
  rw [markLost_of_lost hr, hstore]

theorem markLost_of_ne_processing (hr : (s.view id).trace = some .lost)
    (htask : (s.view id).task ≠ some .processing) :
    s.markLost .silent id = (false, s.evict id) := by
  have hstore : ∃ e, s.tasks.finish id .lost s.now = .error e := by
    cases ht : s.tasks.get? id with
    | none => exact ⟨.unknown, by simp [TaskStore.finish, TaskStore.update, ht]⟩
    | some t =>
      have hmove : t.state.canMove Outcome.lost.state = false := by
        cases hstate : t.state with
        | processing => exact absurd (by simp [view, ht, hstate]) htask
        | pending | completed | failed | lost | aborted => rfl
      exact ⟨_, TaskStore.update_error ht (Task.finish_error hmove s.now)⟩
  obtain ⟨e, hstore⟩ := hstore
  rw [markLost_of_lost hr, hstore]

theorem markLost_stalled {w : Bool} (hst : s.view id = (Standing.stalled w).view id) :
    ∃ t, s.tasks.get? id = some t ∧
      (s.markLost .silent id).2
        = (({ s with tasks := s.tasks.set id (t.lose s.now) } : System κ).announce .silent
            (.taskLost id)).evict id := by
  obtain ⟨t, ht, -, h⟩ :=
    markLost_of_processing (congrArg View.trace hst) (congrArg View.task hst)
  exact ⟨t, ht, by rw [h]⟩

theorem view_markLost_stalled {w : Bool} (hst : s.view id = (Standing.stalled w).view id) :
    (s.markLost .silent id).2.view id = (Standing.settled .lost rfl w).view id := by
  obtain ⟨t, ht, h⟩ := markLost_stalled hst
  rw [h, view_evict, view_announce, view_setTask ht, hst]
  simp [Standing.view, Event.id, Event.notice?, Task.lose]

theorem view_markLost_stalled_of_ne {w : Bool} (hst : s.view id = (Standing.stalled w).view id)
    (hj : j ≠ id) : (s.markLost .silent id).2.view j = s.view j := by
  obtain ⟨t, ht, h⟩ := markLost_stalled hst
  have hid : (Event.taskLost id).id ≠ j := Ne.symm hj
  rw [h, view_evict_of_ne hj, view_announce_of_ne hid, view_setTask_of_ne ht hj]

theorem aside_markLost_stalled {w : Bool} (hst : s.view id = (Standing.stalled w).view id) :
    Aside fresh flagged s (s.markLost .silent id).2 := by
  refine Aside.of_one id (fun j hj => view_markLost_stalled_of_ne hst hj)
    (fun st hst' => ?_) ?_ ?_ ?_
  · obtain rfl : st = .stalled w := view_injective (hst'.symm.trans hst)
    exact ⟨_, view_markLost_stalled hst, .single (.lose w)⟩
  all_goals
    obtain ⟨t, -, h⟩ := markLost_stalled hst
    rw [h]
  · exact limit_evict id _
  · exact fun hs => Nat.le_trans (length_evict_le id _) hs
  · rw [workers_evict]
    exact List.prefix_refl _

/-- A task that has been lost before is not told of again. -/
theorem markLost_settled {w : Bool} (hst : s.view id = (Standing.settled .lost rfl w).view id) :
    (s.markLost .silent id).2 = s.evict id := by
  have htask : (s.view id).task ≠ some .processing := by
    rw [hst]
    simp [Standing.view]
  rw [markLost_of_ne_processing (congrArg View.trace hst) htask]

theorem view_markLost_settled {w : Bool} (hst : s.view id = (Standing.settled .lost rfl w).view id) :
    (s.markLost .silent id).2.view id = (Standing.settled .lost rfl w).view id := by
  rw [markLost_settled hst, view_evict, hst]
  rfl

theorem aside_markLost_settled {w : Bool} (hst : s.view id = (Standing.settled .lost rfl w).view id) :
    Aside fresh flagged s (s.markLost .silent id).2 := by
  have hview := view_markLost_settled hst
  rw [markLost_settled hst] at hview ⊢
  refine Aside.of_one id (fun j hj => view_evict_of_ne hj s) (fun st hst' => ?_) ?_ ?_ ?_
  · exact ⟨st, hview.trans (hst.symm.trans hst'), .refl⟩
  · exact limit_evict id s
  · exact fun hs => Nat.le_trans (length_evict_le id s) hs
  · simp [workers_evict]

/-- Marking a lost task as lost ends it if it has not ended, and only then tells of it. -/
theorem aside_markLost (h : ∃ st : Standing, s.view id = st.view id ∧ st.IsLost) :
    Aside fresh flagged s (s.markLost .silent id).2 := by
  obtain ⟨st, hst, ⟨w, rfl⟩ | ⟨w, rfl⟩⟩ := h
  · exact aside_markLost_stalled hst
  · exact aside_markLost_settled hst

/-- What is marked as lost is over. -/
theorem settled_markLost (h : ∃ st : Standing, s.view id = st.view id ∧ st.IsLost) :
    ∃ w, (s.markLost .silent id).2.view id = (Standing.settled .lost rfl w).view id := by
  obtain ⟨st, hst, ⟨w, rfl⟩ | ⟨w, rfl⟩⟩ := h
  · exact ⟨w, view_markLost_stalled hst⟩
  · exact ⟨w, view_markLost_settled hst⟩

/-- What is lost stays lost when other tasks are marked. -/
theorem isLost_markLost (h : ∃ st : Standing, s.view id = st.view id ∧ st.IsLost)
    (hj : ∃ st : Standing, s.view j = st.view j ∧ st.IsLost) :
    ∃ st : Standing, (s.markLost .silent id).2.view j = st.view j ∧ st.IsLost := by
  obtain ⟨st, hst, hlost⟩ := hj
  have haside : Aside nobody nobody s (s.markLost .silent id).2 := aside_markLost h
  obtain ⟨st', hst', hl⟩ := haside.leads j st hst
  exact ⟨st', hst', hl.isLost hlost⟩

/-! ## Whole sweeps -/

def markAllLost (ids : List TaskId) (s : System κ) : System κ :=
  ids.foldl (fun s id => (s.markLost .silent id).2) s

theorem aside_markAllLost {ids : List TaskId}
    (h : ∀ id ∈ ids, ∃ st : Standing, s.view id = st.view id ∧ st.IsLost) :
    Aside nobody nobody s (s.markAllLost ids) := by
  induction ids generalizing s with
  | nil => exact .refl s
  | cons id ids ih =>
    have hid := h id List.mem_cons_self
    have hfirst : Aside nobody nobody s (s.markLost .silent id).2 := aside_markLost hid
    exact hfirst.trans (ih fun j hj => isLost_markLost hid (h j (List.mem_cons_of_mem _ hj)))

theorem settled_markAllLost {ids : List TaskId}
    (h : ∀ id ∈ ids, ∃ st : Standing, s.view id = st.view id ∧ st.IsLost) (hj : j ∈ ids) :
    ∃ st : Standing, (s.markAllLost ids).view j = st.view j ∧ ∀ w, st ≠ .stalled w := by
  induction ids generalizing s with
  | nil => cases hj
  | cons id ids ih =>
    have hid := h id List.mem_cons_self
    have hrest : ∀ i ∈ ids, ∃ st : Standing,
        (s.markLost .silent id).2.view i = st.view i ∧ st.IsLost :=
      fun i hi => isLost_markLost hid (h i (List.mem_cons_of_mem _ hi))
    by_cases hi : j ∈ ids
    · exact ih hrest hi
    · obtain rfl : j = id := (List.mem_cons.mp hj).resolve_right hi
      obtain ⟨w, hview⟩ := settled_markLost hid
      obtain ⟨st, hst, hl⟩ := (aside_markAllLost hrest).leads j _ hview
      exact ⟨st, hst, hl.ne_stalled (fun h => h) (by simp)⟩

theorem aside_sweep (timeout : Duration) (hs : s.Stands) :
    Aside fresh (· ∈ (s.flagStalled .silent timeout).1) s (s.sweep .silent timeout).2 := by
  have hlost := fun id (h : id ∈ (s.flagStalled .silent timeout).1) => isLost_flagStalled hs h
  exact (aside_flagStalled timeout s).trans
    ((aside_markAllLost hlost).mono (fun _ h => h.elim) (fun _ h => h.elim))

theorem isLost_sweep {timeout : Duration} (hs : s.Stands)
    (h : id ∈ (s.sweep .silent timeout).1) :
    ∃ st : Standing, (s.sweep .silent timeout).2.view id = st.view id ∧ st.IsLost := by
  have hlost := fun id (h : id ∈ (s.flagStalled .silent timeout).1) => isLost_flagStalled hs h
  obtain ⟨st, hst, hislost⟩ := hlost id h
  obtain ⟨st', hst', hl⟩ := (aside_markAllLost hlost).leads id st hst
  exact ⟨st', hst', hl.isLost hislost⟩

theorem ne_stalled_sweep (timeout : Duration) (hs : s.Stands)
    (hn : ∀ id, ∃ st : Standing, s.view id = st.view id ∧ ∀ w, st ≠ .stalled w) (id : TaskId) :
    ∃ st : Standing, (s.sweep .silent timeout).2.view id = st.view id ∧ ∀ w, st ≠ .stalled w := by
  have hlost := fun id (h : id ∈ (s.flagStalled .silent timeout).1) => isLost_flagStalled hs h
  by_cases hmem : id ∈ (s.flagStalled .silent timeout).1
  · exact settled_markAllLost hlost hmem
  · obtain ⟨st, hst, hne⟩ := hn id
    have haside : Aside nobody _ s (s.sweep .silent timeout).2 := aside_sweep timeout hs
    obtain ⟨st', hst', hl⟩ := haside.leads id st hst
    exact ⟨st', hst', hl.ne_stalled hmem hne⟩

end Overseer.System
