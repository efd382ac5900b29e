import Overseer.Proofs.System.Sane

/-! # Each step leads from one sane system to another

There is a theorem `passes_…` for each step of a run but the submissions, which come with the scenes. The turns of
workers come last: whatever a turn comes to, it is `Worked`, and that is all that is used of it.
-/

namespace Overseer.System

variable {κ : Type} {s s' t : System κ} {id j : TaskId} {n : Nat} {w : Worker κ}

/-! ## Chores -/

theorem Private.perform (chore : Chore) (s : System κ) : Private chore.id s (chore.perform s) := by
  cases chore with
  | note id reason => exact .noteReason id reason s
  | gate id action detail => exact .record id _ s
  | close id reason => exact .finish id _ s

theorem passes_note (h : Sane s) (id : TaskId) (reason : FailureReason) :
    Passes still s (s.noteReason id reason) :=
  h.passes_of_view (fun _ => rfl) rfl rfl

theorem passes_record (h : Sane s) (id : TaskId) (step : Step) :
    Passes still s (s.record .silent id step) :=
  h.passes_of_view (view_record id step s) (queue_record id step s) (workers_record id step s)

theorem canMove_of_open {state : TaskState} (h : state.isTerminal = false) :
    state.canMove .aborted = true := by
  cases state with
  | pending | processing => rfl
  | completed | failed | lost | aborted => cases h

/-- A task that was pending is ended, if its trace has not ended before. -/
theorem view_close (h : Fine (s.view id)) (reason : FailureReason) :
    s.finish .silent id (.aborted reason) = s ∧
      (∀ state, (s.view id).trace = some state → state.isTerminal = true) ∨
    (s.finish .silent id (.aborted reason)).view id
      = { s.view id with
          task := some .aborted, trace := some .aborted,
          notices := (s.view id).notices ++ [.ended .aborted] } ∧
      ∃ state, (s.view id).task = some state ∧ (s.view id).trace = some state ∧
        state.isTerminal = false := by
  cases ht : (s.view id).trace with
  | none => exact Or.inl ⟨finish_of_none ht _, fun state hs => nomatch hs⟩
  | some state =>
    cases hopen : state.isTerminal with
    | true =>
      refine Or.inl ⟨finish_of_isTerminal ht hopen _, fun state' hs => ?_⟩
      obtain rfl := Option.some.inj hs
      exact hopen
    | false =>
      have ha := h.agree
      rw [ht] at ha
      have htask := ha.of_open hopen
      exact Or.inr ⟨view_finish htask (canMove_of_open hopen) ht hopen, state, htask, rfl, hopen⟩

theorem passes_close (h : Sane s) (hc : (s.view id).crew = []) (hq : (s.view id).queued = 0)
    (reason : FailureReason) : Passes still s (s.finish .silent id (.aborted reason)) := by
  rcases view_close (h.fine id) reason with ⟨he, -⟩ | ⟨hv, state, htask, -, -⟩
  · rw [he]
    exact h.passes_of_view (fun _ => rfl) rfl rfl
  · refine h.passes_of_private (.finish id _ s) ?_
    rw [hv]
    refine .of_known ?_ (((h.fine id).settle hq hc .aborted).ofNotices _)
      (.of_length rfl (Nat.le_refl _))
    intro hu
    rw [hu] at htask
    cases htask

/-! ## Admissions -/

theorem mem_crew_of_mem (hw : w ∈ s.workers) :
    w.phase.activity ∈ (s.view w.admission.id).crew := by
  obtain ⟨n, hn⟩ := List.mem_iff_getElem?.mp hw
  exact activity_mem_crew hn

theorem ne_of_pending (h : Sane s) (hid : id ∈ s.queue.pending) (hw : w ∈ s.workers) :
    w.admission.id ≠ id := by
  rintro rfl
  have hcrew := ((h.fine w.admission.id).pending (List.count_pos_iff.mpr hid)).2.2
  have hmem := mem_crew_of_mem hw
  rw [hcrew] at hmem
  cases hmem

/-- A task has one worker at most. -/
theorem eq_of_id (h : Sane s) {w v : Worker κ} (hw : w ∈ s.workers) (hv : v ∈ s.workers)
    (hid : v.admission.id = w.admission.id) : v = w := by
  have hle := (h.fine w.admission.id).crew_le
  rw [view, List.length_map] at hle
  have hw' : w ∈ s.workers.filter fun u => u.admission.id == w.admission.id :=
    List.mem_filter.mpr ⟨hw, by simp⟩
  have hv' : v ∈ s.workers.filter fun u => u.admission.id == w.admission.id :=
    List.mem_filter.mpr ⟨hv, by simp [hid]⟩
  generalize (s.workers.filter fun u => u.admission.id == w.admission.id) = crew at hle hw' hv'
  cases crew with
  | nil => cases hw'
  | cons u rest =>
    have hrest : rest = [] := by
      apply List.eq_nil_of_length_eq_zero
      rw [List.length_cons] at hle
      omega
    rw [hrest, List.mem_singleton] at hw' hv'
    rw [hw', hv']

/-- Who is admitted holds the slot that it is given, and all others keep theirs. -/
theorem manned_employ (h : Sane s) {a : Admission} {q : Queue}
    (hi : s.queue.inspect = .admitted a q) : ∀ w ∈ (s.employ a q).workers, Manned q w := by
  obtain ⟨rest, hp, -, -, hactive, -⟩ := Queue.inspect_admitted hi
  obtain ⟨-, -, -, hg, hdesc⟩ := Queue.inspect_open hi
  have hmem : a.id ∈ s.queue.pending := by
    rw [hp]
    exact List.mem_cons_self
  intro w hw
  rcases List.mem_append.mp hw with hold | hnew
  · have hget : q.active.get? w.admission.id = s.queue.active.get? w.admission.id := by
      rw [hactive, Table.get?_set_of_ne (ne_of_pending h hmem hold)]
    exact (h.manned w hold).grow hg hget
  · obtain rfl := List.mem_singleton.mp hnew
    have hget : q.active.get? a.id = some a.token := by
      rw [hactive, Table.get?_set]
    refine ⟨?_, fun _ => Or.inl hget⟩
    change q.shutdown.lineage ⊆ a.token.lineage
    rw [hg.shutdown]
    exact hdesc

theorem owned_employ (h : Sane s) {a : Admission} {q : Queue} {token : Token}
    (hi : s.queue.inspect = .admitted a q) (ht : q.active.get? j = some token) :
    ∃ w ∈ (s.employ a q).workers, w.admission = ⟨j, token⟩ := by
  obtain ⟨-, -, -, -, hactive, -⟩ := Queue.inspect_admitted hi
  rw [hactive] at ht
  by_cases he : j = a.id
  · subst he
    rw [Table.get?_set] at ht
    obtain rfl := Option.some.inj ht
    exact ⟨⟨a, .admitted⟩, List.mem_append_right _ (List.mem_singleton_self _), rfl⟩
  · rw [Table.get?_set_of_ne he] at ht
    obtain ⟨w, hw, hadm⟩ := h.owned j token ht
    exact ⟨w, List.mem_append_left _ hw, hadm⟩

theorem passes_employ (h : Sane s) {a : Admission} {q : Queue}
    (hi : s.queue.inspect = .admitted a q) : Passes still s (s.employ a q) := by
  obtain ⟨rest, hp, -⟩ := Queue.inspect_admitted hi
  obtain ⟨-, -, -, hg, -⟩ := Queue.inspect_open hi
  have hpos : 0 < (s.view a.id).queued := by
    refine List.count_pos_iff.mpr ?_
    rw [hp]
    exact List.mem_cons_self
  have hown : Fares a.id (s.view a.id) ((s.employ a q).view a.id) := by
    rw [view_employ hi (h.fine a.id).queued_le]
    refine .of_known ?_ ((h.fine a.id).grant hpos) ⟨fun _ => by simp, fun _ hq => ?_⟩
    · intro hu
      rw [hu] at hpos
      cases hpos
    · rw [hq] at hpos
      cases hpos
  refine h.passes_of_fares (h.fares_of_one hown fun j hj => view_employ_of_ne hi hj) hg
    (manned_employ h hi) (fun j token ht => owned_employ h hi ht) fun n w _ hn => ?_
  change (s.workers ++ [_])[n]? = some w
  rw [List.getElem?_append_left (List.getElem?_eq_some_iff.mp hn).1, hn]

/-! ## Losses -/

/-- A flag is for a trace that is under way. -/
theorem view_flagStalled_cases (timeout : Duration) (j : TaskId) (s : System κ) :
    (s.flagStalled .silent timeout).2.view j = s.view j ∨
    (s.view j).trace = some .processing ∧
      (s.flagStalled .silent timeout).2.view j = { s.view j with trace := some .lost } := by
  rw [view_flagStalled]
  cases ht : s.tracer.get? j with
  | none =>
    have hnone : (s.view j).trace = none := by simp [view, Tracer.state?, ht]
    exact Or.inl (by rw [Option.map_none, ← hnone])
  | some t =>
    have hsome : (s.view j).trace = some t.state := by simp [view, Tracer.state?, ht]
    by_cases h : t.isStalled timeout s.now = true
    · right
      have hprocessing : t.state = .processing := by
        simp only [Trace.isStalled, Bool.and_eq_true, decide_eq_true_eq] at h
        exact h.1
      refine ⟨by rw [hsome, hprocessing], ?_⟩
      rw [Option.map_some, flag_state_of_isStalled h]
    · left
      rw [Option.map_some, flag_of_not_isStalled h, ← hsome]

theorem passes_flagStalled (h : Sane s) (timeout : Duration) :
    Passes still s (s.flagStalled .silent timeout).2 := by
  have hq : (s.flagStalled .silent timeout).2.queue = s.queue := by
    simp [flagStalled, announceAll_silent]
  have hw : (s.flagStalled .silent timeout).2.workers = s.workers := by
    simp [flagStalled, announceAll_silent]
  refine h.passes_of_eq (fun j => ?_) hq hw
  rcases view_flagStalled_cases timeout j s with hv | ⟨ht, hv⟩
  · rw [hv]
    exact (h.fine j).fares j
  · have ha := (h.fine j).agree
    rw [ht] at ha
    rw [hv]
    refine .of_known ?_ ((h.fine j).lose (ha.of_open rfl) rfl) (.of_length rfl (Nat.le_refl _))
    intro hu
    rw [hu] at ht
    cases ht

theorem contains_of_get? {token : Token} (h : s.queue.active.get? id = some token) :
    (s.view id).active = true := by
  change s.queue.active.contains id = true
  rw [Table.contains_eq, h]
  rfl

/-- The slot of a task is freed, and whoever held it has a token that is cancelled. -/
theorem passes_evict (h : Sane s) (id : TaskId) : Passes still s (s.evict id) := by
  have hw := workers_evict id s
  have hg := grows_evict id s
  have hown : Fares id (s.view id) ((s.evict id).view id) := by
    rw [view_evict]
    refine ⟨(h.fine id).free, fun hu => ?_, .of_length rfl (Nat.le_refl _)⟩
    rw [hu]
    rfl
  refine h.passes_of_fares (h.fares_of_one hown fun j hj => view_evict_of_ne hj s) hg
    ?manned ?owned ?workers
  case manned =>
    intro w hmem
    rw [hw] at hmem
    have hm := h.manned w hmem
    by_cases he : w.admission.id = id
    · refine ⟨?_, fun hgone => Or.inr ?_⟩
      · rw [hg.shutdown]
        exact hm.descends
      · rcases hm.guarded hgone with hget | hc
        · rw [he] at hget
          exact isCancelled_evict hget (h.lineage_ne_nil hmem)
        · exact hg.isCancelled hc
    · exact hm.grow hg (get?_evict_of_ne he s)
  case owned =>
    intro j token ht
    rw [hw]
    by_cases he : j = id
    · subst he
      rw [get?_evict] at ht
      cases ht
    · rw [get?_evict_of_ne he] at ht
      exact h.owned j token ht
  case workers =>
    intro n w _ hn
    rw [hw]
    exact hn

/-- To mark a task as lost is between the system and the task, but for its slot. -/
theorem markLost_private (id : TaskId) (s : System κ) :
    ∃ t : System κ, Private id s t ∧ t.cancelReasons = s.cancelReasons ∧
      (s.markLost .silent id = (false, t) ∨ (s.markLost .silent id).2 = t.evict id) := by
  have htraced : ∃ tracer, (s.tracer.markTerminal id .lost).2 = tracer ∧
      Private id s { s with tracer := tracer } := by
    rcases Tracer.markTerminal_cases s.tracer id .lost with h | ⟨trace, htrace, h⟩
    · exact ⟨s.tracer, by rw [h], .refl id s⟩
    · exact ⟨_, by rw [h], fun j hj => view_setTrace_of_ne htrace hj, fun _ _ => rfl,
        .of_tasks rfl, rfl, rfl, rfl⟩
  obtain ⟨tracer, htracer, hprivate⟩ := htraced
  unfold markLost
  dsimp only
  rw [htracer]
  split
  · split
    · rename_i tasks hstore
      obtain ⟨task, task', htask, hmove, rfl⟩ := TaskStore.update_cases hstore
      have hset : Private id ({ s with tracer := tracer } : System κ)
          { s with tracer := tracer, tasks := s.tasks.set id task' } :=
        ⟨fun j hj => view_setTask_of_ne (s := { s with tracer := tracer }) htask hj,
          fun _ _ => rfl, .of_set htask (open_of_finish hmove) rfl, rfl, rfl, rfl⟩
      have hevent : (Event.taskLost id).id = id := rfl
      exact ⟨_, (hprivate.trans hset).trans (.announce hevent _), rfl, Or.inr rfl⟩
    · exact ⟨_, hprivate, rfl, Or.inr rfl⟩
  · exact ⟨_, hprivate, rfl, Or.inl rfl⟩

theorem reached_evict (id : TaskId) (s : System κ) : (s.evict id).reached = s.reached := by
  obtain ⟨q, -, -, -, h⟩ := evict_eq id s
  rw [h]
  rfl

theorem pending_evict (id : TaskId) (s : System κ) :
    (s.evict id).queue.pending = s.queue.pending := by
  obtain ⟨q, -, hp, -, h⟩ := evict_eq id s
  rw [h, ← hp]
  exact Queue.pending_release q id

/-- What is not touched when a task is marked as lost. -/
theorem markLost_frame (id : TaskId) (s : System κ) :
    Keeps s (s.markLost .silent id).2 ∧
      (s.markLost .silent id).2.cancelReasons = s.cancelReasons ∧
      (s.markLost .silent id).2.queue.pending = s.queue.pending ∧
      ∀ j, j ≠ id → (s.markLost .silent id).2.view j = s.view j := by
  obtain ⟨t, hprivate, hreasons, he | he⟩ := markLost_private id s
  · rw [he]
    exact ⟨hprivate.records, hreasons, congrArg Queue.pending hprivate.queue, hprivate.view⟩
  · obtain ⟨q, -, -, -, hq⟩ := evict_eq id t
    have htasks : (t.evict id).tasks = t.tasks := by
      rw [hq]
      rfl
    have hsame : (t.evict id).cancelReasons = t.cancelReasons := by
      rw [hq]
      rfl
    rw [he]
    refine ⟨hprivate.records.trans (.of_tasks htasks), hsame.trans hreasons,
      (pending_evict id t).trans (congrArg Queue.pending hprivate.queue), fun j hj => ?_⟩
    rw [view_evict_of_ne hj]
    exact hprivate.view j hj

/-- A task can be freed of its slot first and lost then. -/
theorem passes_markLost_of_lost (h : Sane s) (hr : (s.view id).trace = some .lost) :
    Passes still s (s.markLost .silent id).2 := by
  by_cases htask : (s.view id).task = some .processing
  · obtain ⟨task, htask', hstate, he⟩ := markLost_of_processing hr htask
    have hpass := passes_evict h id
    have hevict := view_evict id s
    have hcomm : (({ s with tasks := s.tasks.set id (task.lose s.now) } : System κ).announce .silent
          (.taskLost id)).evict id
        = ({ s.evict id with tasks := (s.evict id).tasks.set id (task.lose s.now) } : System κ).announce
          .silent (.taskLost id) := rfl
    have htask'' : (s.evict id).tasks.get? id = some task := htask'
    have hopen : task.state.isTerminal = false := by
      rw [hstate]
      rfl
    have hprivate : Private id (s.evict id)
        ({ s.evict id with tasks := (s.evict id).tasks.set id (task.lose s.now) } : System κ) :=
      ⟨fun j hj => view_setTask_of_ne htask'' hj, fun _ _ => rfl, .of_set htask'' hopen rfl, rfl,
        rfl, rfl⟩
    have hview : ((s.markLost .silent id).2).view id
        = { s.view id with
            task := some .lost, active := false,
            notices := (s.view id).notices ++ [.ended .lost] } := by
      rw [he, hcomm, view_announce, view_setTask htask'', hevict]
      simp [Event.id, Event.notice?, Task.lose]
    have hown : Fares id ((s.evict id).view id) ((s.markLost .silent id).2.view id) := by
      rw [hview, hevict]
      refine .of_known (fun hu => ?_) ((h.fine id).free.miss htask hr rfl _)
        (.of_length rfl (Nat.le_refl _))
      have hnone : (s.view id).task = none := congrArg View.task hu
      rw [htask] at hnone
      cases hnone
    rw [he, hcomm] at hown ⊢
    have hevent : (Event.taskLost id).id = id := rfl
    exact hpass.trans
      (hpass.sane.passes_of_private (hprivate.trans (.announce hevent _)) hown)
  · rw [markLost_of_ne_processing hr htask]
    exact passes_evict h id

theorem passes_markLost (h : Sane s) (id : TaskId) :
    Passes still s (s.markLost .silent id).2 := by
  cases hr : (s.view id).trace with
  | none =>
    rw [markLost_of_closed fun b hb => by rw [hr] at hb; cases hb]
    exact h.passes_of_view (fun _ => rfl) rfl rfl
  | some state =>
    by_cases hlost : state = .lost
    · subst hlost
      exact passes_markLost_of_lost h hr
    · cases hopen : state.isTerminal with
      | true =>
        have hclosed : ∀ b, (s.view id).trace = some b → b.isTerminal = true ∧ b ≠ .lost := by
          intro b hb
          rw [hr] at hb
          obtain rfl := Option.some.inj hb
          exact ⟨hopen, hlost⟩
        rw [markLost_of_closed hclosed]
        exact h.passes_of_view (fun _ => rfl) rfl rfl
      | false =>
        obtain ⟨trace, htrace, rfl⟩ := exists_trace hr
        have ha := (h.fine id).agree
        rw [hr] at ha
        have htask := ha.of_open hopen
        rw [markLost_of_open htrace hopen]
        have hid : ({ trace with state := .lost } : Trace).id = trace.id := rfl
        have hv := view_setTrace htrace hid
        have hprivate : Private id s
            ({ s with tracer := s.tracer.set id { trace with state := .lost } } : System κ) :=
          ⟨fun j hj => view_setTrace_of_ne htrace hj, fun _ _ => rfl, .of_tasks rfl, rfl, rfl, rfl⟩
        have hpass : Passes still s
            ({ s with tracer := s.tracer.set id { trace with state := .lost } } : System κ) := by
          refine h.passes_of_private hprivate ?_
          rw [hv]
          refine .of_known ?_ ((h.fine id).lose htask hopen) (.of_length rfl (Nat.le_refl _))
          intro hu
          rw [hu] at htask
          cases htask
        refine hpass.trans (passes_markLost_of_lost hpass.sane ?_)
        rw [hv]

/-! ## Turns -/

namespace Worked

variable (h : Worked n w.admission s s')
include h

theorem reached : s'.reached = s.reached := by
  cases h with
  | goesOn phase hq hb => exact hq.reached
  | leaves o hq hf => exact (reached_finish _ o _).trans hq.reached

theorem keeps : Keeps s s' := by
  cases h with
  | goesOn phase hq hb => exact .of_tasks hq.tasks
  | @leaves t o hq hf =>
    have hfinish : Keeps t (t.leave .silent n w.admission (some o)) := keeps_finish _ o t
    exact (Keeps.of_tasks hq.tasks).trans hfinish

theorem reasons_of_ne (hj : j ≠ w.admission.id) :
    s'.cancelReasons.get? j = s.cancelReasons.get? j := by
  cases h with
  | goesOn phase hq hb => exact congrArg (·.get? j) hq.reasons
  | @leaves t o hq hf =>
    have hfinish : (t.leave .silent n w.admission (some o)).cancelReasons.get? j
        = t.cancelReasons.get? j := (Private.finish w.admission.id o t).reasons j hj
    rw [hfinish, hq.reasons]

/-- A reason that has been noted stays or is dropped. -/
theorem lapse (j : TaskId) : s'.cancelReasons.get? j = s.cancelReasons.get? j ∨
    s'.cancelReasons.get? j = none := by
  by_cases hj : j = w.admission.id
  · subst hj
    cases h with
    | goesOn phase hq hb => exact Or.inl (congrArg (·.get? w.admission.id) hq.reasons)
    | @leaves t o hq hf =>
      have hleave : (t.leave .silent n w.admission (some o)).cancelReasons
          = (t.finish .silent w.admission.id o).cancelReasons := rfl
      rw [hleave]
      rcases cancelReasons_finish w.admission.id o t with he | he
      · rw [he, hq.reasons]
        exact Or.inl rfl
      · rw [he]
        exact Or.inr (Table.get?_remove _ _)
  · exact Or.inl (h.reasons_of_ne hj)

theorem grows : s.queue.Grows s'.queue := by
  have hquiet : ∀ t : System κ, Quiet s t → s.queue.Grows t.queue := by
    intro t hq
    refine ⟨?_, fun hc => ?_, hq.issued, hq.tokens⟩
    · rw [hq.queue]
    · rw [hq.queue]
      exact hc
  cases h with
  | @goesOn t phase hq hb => exact hquiet t hq
  | @leaves t o hq hf =>
    rw [queue_leave]
    exact (hquiet t hq).trans (.release _ _)

theorem pending : s'.queue.pending = s.queue.pending := by
  cases h with
  | @goesOn t phase hq hb =>
    show t.queue.pending = s.queue.pending
    rw [hq.queue]
  | leaves o hq hf =>
    rw [queue_leave, Queue.pending_release, hq.queue]

/-- No slot is taken in a turn. -/
theorem slot_before {token : Token} (ht : s'.queue.active.get? j = some token) :
    s.queue.active.get? j = some token := by
  cases h with
  | goesOn phase hq hb =>
    rw [← hq.active]
    exact ht
  | leaves o hq hf =>
    rw [queue_leave] at ht
    by_cases hj : j = w.admission.id
    · subst hj
      rw [Queue.get?_release] at ht
      cases ht
    · rw [Queue.get?_release_of_ne hj, hq.active] at ht
      exact ht

theorem keys : s'.queue.active.keys.Sublist s.queue.active.keys := by
  cases h with
  | goesOn phase hq hb => exact hq.active ▸ List.Sublist.refl _
  | leaves o hq hf =>
    rw [queue_leave, ← hq.active]
    exact Queue.keys_release _ _

theorem slot_of_ne (hj : j ≠ w.admission.id) :
    s'.queue.active.get? j = s.queue.active.get? j := by
  cases h with
  | goesOn phase hq hb => exact congrArg (·.get? j) hq.active
  | leaves o hq hf =>
    rw [queue_leave, Queue.get?_release_of_ne hj, hq.active]

/-- The worker is at work or has left; at work it keeps its slot. -/
theorem workers_eq : ∃ phase : Phase κ,
    s'.workers = s.workers.modify n (fun worker => { worker with phase := phase }) ∧
      (phase.activity ≠ .gone → s'.queue.active = s.queue.active) := by
  cases h with
  | goesOn phase hq hb =>
    exact ⟨phase, congrArg (List.modify · n _) hq.workers, fun _ => hq.active⟩
  | leaves o hq hf =>
    refine ⟨.ended, ?_, fun hgone => absurd rfl hgone⟩
    exact congrArg (List.modify · n _) ((workers_finish _ o _).trans hq.workers)

/-- A trace is open after a turn only if nothing was put down. -/
theorem trace_of_open (hwork : Working (s.view w.admission.id))
    {state : TaskState} (ht : (s'.view w.admission.id).trace = some state)
    (hopen : state.isTerminal = false) :
    (s.view w.admission.id).trace = some state ∧ s'.cancelReasons = s.cancelReasons := by
  cases h with
  | @goesOn t phase hq hb =>
    rw [← hq.view]
    exact ⟨ht, hq.reasons⟩
  | @leaves t o hq hf =>
    exfalso
    change ((t.finish .silent w.admission.id o).view w.admission.id).trace = some state at ht
    obtain ⟨task, htask, hne⟩ := hwork.busy
    have ha := hwork.agree
    rw [htask] at ha
    rw [← hq.view] at htask ha
    generalize hr : (t.view w.admission.id).trace = trace at ha
    have hended : ∀ b, trace = some b → b.isTerminal = true → False := by
      intro b hb hterminal
      subst hb
      rw [finish_of_isTerminal hr hterminal, hr] at ht
      obtain rfl := Option.some.inj ht
      rw [hopen] at hterminal
      cases hterminal
    cases ha with
    | missed => exact hne rfl
    | stalled => exact hended .lost rfl rfl
    | same =>
      cases hb : task.isTerminal with
      | true => exact hended task rfl hb
      | false =>
        obtain rfl := TaskState.eq_processing hne hb
        have hmove : TaskState.canMove .processing o.state = true := o.state_isTerminal
        rw [view_finish htask hmove hr rfl] at ht
        obtain rfl := Option.some.inj ht
        rw [o.state_isTerminal] at hopen
        cases hopen

/-- A worker that leaves its task aborted gives the reason on record. -/
theorem aborted {task : Task} (hbefore : (s.view w.admission.id).task ≠ some .aborted)
    (ht : s'.tasks.get? w.admission.id = some task) (ha : task.state = .aborted) :
    (∃ state, (s.view w.admission.id).trace = some state ∧ state.isTerminal = false) ∧
      ∃ reason, reason = (s.cancelReasons.get? w.admission.id).getD .aborted ∧
        task.failure = some ⟨reason, reason.name⟩ := by
  cases h with
  | goesOn phase hq hb =>
    have hsame : s.tasks.get? w.admission.id = some task := hq.tasks ▸ ht
    refine absurd ?_ hbefore
    simp [view, hsame, ha]
  | @leaves t o hq hf =>
    rw [← hq.view] at hbefore ⊢
    obtain ⟨htrace, reason, ho, hfailure⟩ := finish_aborted hbefore ht ha
    exact ⟨htrace, reason, hf.reason reason ho, hfailure⟩

theorem view_of_working (hw : s.workers[n]? = some w)
    (hwork : Working (s.view w.admission.id)) :
    Fine (s'.view w.admission.id) ∧ (s'.view w.admission.id).crew.length = 1 ∧
      (s'.view w.admission.id).queued = 0 := by
  have hended : ∀ b, (s.view w.admission.id).trace = some b → b.isTerminal = true →
      Fine (s'.view w.admission.id) ∧ (s'.view w.admission.id).crew.length = 1 ∧
        (s'.view w.admission.id).queued = 0 := by
    intro b hr hb
    rcases h.view_of_isTerminal hw hwork.crew hr hb with hv | hv
    · rw [hv]
      exact ⟨hwork.goOn, rfl, hwork.queued⟩
    · rw [hv]
      exact ⟨hwork.leave, rfl, hwork.queued⟩
  obtain ⟨state, htask, hne⟩ := hwork.busy
  have ha := hwork.agree
  rw [htask] at ha
  generalize hr : (s.view w.admission.id).trace = trace at ha
  cases ha with
  | missed => exact absurd rfl hne
  | stalled => exact hended .lost hr rfl
  | same =>
    cases hb : state.isTerminal with
    | true => exact hended state hr hb
    | false =>
      obtain rfl := TaskState.eq_processing hne hb
      rcases h.view_of_open hw hwork.crew htask hr with hv | ⟨o, hv⟩
      · rw [hv]
        exact ⟨hwork.goOn, rfl, hwork.queued⟩
      · rw [hv]
        exact ⟨hwork.settle o.state _, rfl, hwork.queued⟩

/-- Whoever is among the workers after a turn has been there before, or is the one whose turn it was. -/
theorem mem_workers (hw : s.workers[n]? = some w) (hc : (s.view w.admission.id).crew.length = 1)
    {v : Worker κ} (hv : v ∈ s'.workers) :
    v ∈ s.workers ∧ v.admission.id ≠ w.admission.id ∨
      ∃ phase : Phase κ, v = { w with phase := phase } ∧
        (phase.activity ≠ .gone → s'.queue.active = s.queue.active) := by
  obtain ⟨phase, hworkers, hslot⟩ := h.workers_eq
  obtain ⟨before, after, hs, hs'⟩ := exists_split hw
  rw [hworkers] at hv
  have hv' : v ∈ before ++ { w with phase := phase } :: after := hs' phase ▸ hv
  rcases List.mem_cons.mp (List.perm_middle.mem_iff.mp hv') with rfl | hold
  · exact Or.inr ⟨phase, rfl, hslot⟩
  · refine Or.inl ⟨?_, ne_of_split hs hc v hold⟩
    rw [hs]
    exact List.perm_middle.mem_iff.mpr (List.mem_cons_of_mem _ hold)

/-- A worker that has not left keeps its slot or has a token that is cancelled. -/
theorem manned (hw : s.workers[n]? = some w) (hc : (s.view w.admission.id).crew.length = 1)
    (hgone : w.phase.activity ≠ .gone) (hm : ∀ v ∈ s.workers, Manned s.queue v) :
    ∀ v ∈ s'.workers, Manned s'.queue v := by
  intro v hv
  rcases h.mem_workers hw hc hv with ⟨hold, hne⟩ | ⟨phase, rfl, hslot⟩
  · exact (hm v hold).grow h.grows (h.slot_of_ne hne)
  · have hold := hm w (List.mem_of_getElem? hw)
    refine ⟨?_, fun hphase => ?_⟩
    · rw [h.grows.shutdown]
      exact hold.descends
    · rw [hslot hphase]
      exact (hold.guarded hgone).imp_right h.grows.isCancelled

theorem owned {token : Token}
    (ho : ∀ token, s.queue.active.get? j = some token → ∃ v ∈ s.workers, v.admission = ⟨j, token⟩)
    (ht : s'.queue.active.get? j = some token) : ∃ v ∈ s'.workers, v.admission = ⟨j, token⟩ := by
  obtain ⟨v, hv, hadm⟩ := ho token (h.slot_before ht)
  obtain ⟨phase, hworkers, -⟩ := h.workers_eq
  obtain ⟨m, hm⟩ := List.mem_iff_getElem?.mp hv
  have hm' : s'.workers[m]? = some (if n = m then { v with phase := phase } else v) := by
    rw [hworkers, List.getElem?_modify, hm]
    split
    · rfl
    · rfl
  refine ⟨_, List.mem_of_getElem? hm', ?_⟩
  split
  · exact hadm
  · exact hadm

end Worked

/-- A turn that is `Worked`, after something between the system and the task of the worker. -/
theorem passes_worked (h : Sane s) (hw : s.workers[n]? = some w) (hgone : w.phase.activity ≠ .gone)
    (hp : Private w.admission.id s t) (hwork : Working (t.view w.admission.id))
    (hworked : Worked n w.admission t s') : Passes (· = n) s s' := by
  have hw' : t.workers[n]? = some w := hp.workers ▸ hw
  have hcrew : (t.view w.admission.id).crew = (s.view w.admission.id).crew := by
    simp only [view, hp.workers]
  have hlength : (s.view w.admission.id).crew.length = 1 := hcrew ▸ hwork.crew
  obtain ⟨hfine, hstays, hzero⟩ := hworked.view_of_working hw' hwork
  have hown : Fares w.admission.id (s.view w.admission.id) (s'.view w.admission.id) := by
    refine .of_known ?_ hfine (.of_length (hstays.trans hlength.symm) ?_)
    · intro hu
      rw [hu] at hlength
      cases hlength
    · rw [hzero]
      exact Nat.zero_le _
  have hother : ∀ j, j ≠ w.admission.id → s'.view j = s.view j :=
    fun j hj => (hworked.view_of_ne hw' hj).trans (hp.view j hj)
  refine h.passes_of_fares (h.fares_of_one hown hother) (hp.queue ▸ hworked.grows)
    ?manned ?owned ?workers
  case manned =>
    apply hworked.manned hw' hwork.crew hgone
    rw [hp.workers, hp.queue]
    exact h.manned
  case owned =>
    intro j token
    apply hworked.owned
    rw [hp.workers, hp.queue]
    exact h.owned j
  case workers =>
    intro m v hm hv
    obtain ⟨phase, hworkers, -⟩ := hworked.workers_eq
    rw [hworkers, List.getElem?_modify_ne _ _ (Ne.symm hm), hp.workers]
    exact hv

/-- What a turn comes to, of a worker that has its answer or asks nobody. The worker may take up its task first. -/
inductive Turned (n : Nat) (s : System κ) : System κ → Prop
  | idle : Turned n s s
  | worked {w : Worker κ} {t s' : System κ} (worker : s.workers[n]? = some w)
      (there : w.phase.activity ≠ .gone) (own : Private w.admission.id s t)
      (noted : t.cancelReasons = s.cancelReasons)
      (before : t = s ∨
        (t.view w.admission.id).task = some .processing ∧
          (t.view w.admission.id).trace = (s.view w.admission.id).trace.map begun)
      (working : Working (t.view w.admission.id)) (comes : Worked n w.admission t s') :
      Turned n s s'

namespace Turned

theorem passes (h : Turned n s s') (hs : Sane s) : Passes (· = n) s s' := by
  cases h with
  | idle => exact (hs.passes_of_view (fun _ => rfl) rfl rfl).mono fun _ hm => nomatch hm
  | worked hw hgone hp hn hb hwork hworked => exact passes_worked hs hw hgone hp hwork hworked

theorem reached (h : Turned n s s') : s'.reached = s.reached := by
  cases h with
  | idle => rfl
  | worked hw hgone hp hn hb hwork hworked => exact hworked.reached.trans hp.reached

theorem pending (h : Turned n s s') : s'.queue.pending = s.queue.pending := by
  cases h with
  | idle => rfl
  | worked hw hgone hp hn hb hwork hworked =>
    exact hworked.pending.trans (congrArg Queue.pending hp.queue)

/-- A worker keeps its admission, and one that has left does not come back. -/
theorem exists_before (h : Turned n s s') {v : Worker κ} (hv : v ∈ s'.workers) :
    ∃ u ∈ s.workers, u.admission = v.admission ∧
      (u.phase.activity = .gone → v.phase.activity = .gone) := by
  cases h with
  | idle => exact ⟨v, hv, rfl, fun hgone => hgone⟩
  | @worked w t _ hw hgone hp hn hb hwork hworked =>
    rw [← hp.workers] at hw ⊢
    rcases hworked.mem_workers hw hwork.crew hv with ⟨hold, -⟩ | ⟨phase, rfl, -⟩
    · exact ⟨v, hold, rfl, fun hg => hg⟩
    · exact ⟨w, List.mem_of_getElem? hw, rfl, fun hg => absurd hg hgone⟩

end Turned

variable [Cost κ] {settings : Settings κ}

theorem turned_turn (h : Sane s) (hc : s.consulted settings n = none) (execute : Execute κ) :
    Turned n s (s.turn .silent settings n execute) := by
  cases hw : s.workers[n]? with
  | none =>
    rw [turn_of_none hw]
    exact .idle
  | some w =>
    have hmem := activity_mem_crew hw
    cases hb : w.phase.activity with
    | gone =>
      rw [turn_of_gone hw hb]
      exact .idle
    | due =>
      rw [turn_of_due hw hb]
      rw [hb] at hmem
      have hfine := h.fine w.admission.id
      obtain ⟨t, hstarted, hworked⟩ := worked_begin (n := n) (hfine.due hmem) settings
      have hwork : Working (t.view w.admission.id) := by
        rw [hstarted.own]
        exact hfine.start hmem _
      refine .worked hw ?_ hstarted.toPrivate hstarted.noted (Or.inr ?_) hwork hworked
      · rw [hb]
        decide
      · rw [hstarted.own]
        exact ⟨rfl, rfl⟩
    | busy =>
      rw [hb] at hmem
      refine .worked hw ?_ (.refl _ s) rfl (Or.inl rfl) ((h.fine _).working hmem)
        (worked_turn_of_none hw hb hc execute)
      rw [hb]
      decide

/-- The system may have changed while the worker waited, if the worker is where it was. -/
theorem turned_answer {s₀ s₁ : System κ} (h : Sane s) (hw : s.workers[n]? = some w)
    (hw₀ : s₀.workers[n]? = some w) (hc : s₀.consulted settings n = some s₁) (poll : Poll κ) :
    Turned n s (s₀.turn .silent settings n fun _ => (poll, s)) := by
  obtain ⟨hb, hworked⟩ := worked_turn hw₀ hc fun _ => (poll, s)
  have hmem := activity_mem_crew hw
  rw [hb] at hmem
  refine .worked hw ?_ (.refl _ s) rfl (Or.inl rfl) ((h.fine _).working hmem) hworked
  rw [hb]
  decide

end Overseer.System
