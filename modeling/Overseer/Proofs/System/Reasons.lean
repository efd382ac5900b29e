import Overseer.Proofs.System.Marks

/-! # Why a task was stopped

What a task ends with is the reason on record, and that reason is written after the strike. So each tick is read here
for what it does to the files: a submission can be refused, a strike marks, a chore puts down, and all else is `Mute`.
In every scene of a run the files of all ids are clear (`Reasoned`).
-/

namespace Overseer.System

variable {κ : Type} {s s' : System κ} {c c' : Scene κ} {id j : TaskId}

/-! ## Scenes whose files are clear -/

structure Reasoned (traffic : Traffic) (c : Scene κ) : Prop where
  clear : ∀ id, Clear traffic (c.system.view id) (c.file id)
  fresh : ∀ id, id ∉ c.submitted → c.file id = ⟨[], [], [], [], none⟩
  /-- Only the last call has chores left. -/
  alone : traffic = .single → c.inFlight.dropLast.flatten = []

/-- A worker leaves its task aborted, for the reason on record. -/
structure GivenUp (s : System κ) (id : TaskId) (task : Task) : Prop where
  crew : (s.view id).crew ≠ []
  trace : ∃ state, (s.view id).trace = some state ∧ state.isTerminal = false
  failure : ∃ reason, reason = (s.cancelReasons.get? id).getD .aborted ∧
    task.failure = some ⟨reason, reason.name⟩

/-- Nothing is put down, and no trace is opened. -/
structure Mute (s s' : System κ) : Prop where
  keeps : Keeps s s'
  pending : ∀ id, s'.queue.pending.count id ≤ s.queue.pending.count id
  lapse : ∀ id, s'.cancelReasons.get? id = s.cancelReasons.get? id ∨
    s'.cancelReasons.get? id = none
  reason : ∀ id state, (s'.view id).trace = some state → state.isTerminal = false →
    (∃ before, (s.view id).trace = some before ∧ before.isTerminal = false) ∧
      s'.cancelReasons.get? id = s.cancelReasons.get? id
  /-- Only workers leave tasks aborted. -/
  aborted : ∀ id task, (s.view id).task ≠ some .aborted → s'.tasks.get? id = some task →
    task.state = .aborted → GivenUp s id task

theorem task_of_get? {task : Task} (h : s.tasks.get? id = some task) :
    (s.view id).task = some task.state := by
  simp [view, h]

/-- Who is not aborted is not aborted as long as its record is the same. -/
theorem givenUp_of_tasks (h : s'.tasks = s.tasks) {task : Task}
    (hbefore : (s.view id).task ≠ some .aborted) (ht : s'.tasks.get? id = some task)
    (ha : task.state = .aborted) : GivenUp s id task := by
  rw [h] at ht
  rw [task_of_get? ht, ha] at hbefore
  exact absurd rfl hbefore

namespace Mute

theorem of_view (hv : ∀ id, (s'.view id).trace = (s.view id).trace) (ht : s'.tasks = s.tasks)
    (hp : ∀ id, s'.queue.pending.count id ≤ s.queue.pending.count id)
    (hr : s'.cancelReasons = s.cancelReasons) : Mute s s' where
  keeps := .of_tasks ht
  pending := hp
  lapse id := Or.inl (by rw [hr])
  reason id state hs hopen := by
    rw [hv] at hs
    exact ⟨⟨state, hs, hopen⟩, by rw [hr]⟩
  aborted _ _ := givenUp_of_tasks ht

theorem employ {a : Admission} {q : Queue} (h : s.queue.inspect = .admitted a q) :
    Mute s (s.employ a q) := by
  obtain ⟨rest, hp, -, hrest, -, -⟩ := Queue.inspect_admitted h
  refine .of_view (fun _ => rfl) rfl (fun id => ?_) rfl
  change q.pending.count id ≤ s.queue.pending.count id
  rw [hp, hrest]
  exact (List.sublist_cons_self _ _).count_le id

theorem flagStalled (timeout : Duration) (s : System κ) :
    Mute s (s.flagStalled .silent timeout).2 := by
  have htasks : (s.flagStalled .silent timeout).2.tasks = s.tasks := by
    simp [System.flagStalled, announceAll_silent]
  refine ⟨.of_tasks htasks, fun id => Nat.le_of_eq ?_, fun id => Or.inl ?_,
    fun id state hs hopen => ?_, fun _ _ => givenUp_of_tasks htasks⟩
  · simp [System.flagStalled, announceAll_silent]
  · simp [System.flagStalled, announceAll_silent]
  · rcases view_flagStalled_cases timeout id s with hv | ⟨-, hv⟩
    · rw [hv] at hs
      exact ⟨⟨state, hs, hopen⟩, by simp [System.flagStalled, announceAll_silent]⟩
    · rw [hv] at hs
      obtain rfl := Option.some.inj hs
      cases hopen

theorem markLost (h : Sane s) (id : TaskId) : Mute s (s.markLost .silent id).2 := by
  obtain ⟨hkeeps, hreasons, hpending, hother⟩ := markLost_frame id s
  refine ⟨hkeeps, fun j => Nat.le_of_eq (by rw [hpending]), fun j => Or.inl (by rw [hreasons]),
    fun j state hs hopen => ?_, fun j task hbefore ht ha => absurd ?_ hbefore⟩
  · rw [hreasons]
    by_cases hj : j = id
    · subst hj
      by_cases hp : (s.view j).task = some .pending
      · rw [(markLost_of_pending (h.fine j) hp).2.2] at hs
        obtain rfl := Option.some.inj hs
        cases hopen
      · by_cases hw : (s.view j).task = some .processing
        · have hlost : ((s.markLost .silent j).2.view j).trace = some .lost :=
            (lost_of_working h hw).2.trace
          rw [hlost] at hs
          obtain rfl := Option.some.inj hs
          cases hopen
        · rw [markLost_of_over (h.fine j) hp hw] at hs
          exact ⟨⟨state, hs, hopen⟩, rfl⟩
    · rw [hother j hj] at hs
      exact ⟨⟨state, hs, hopen⟩, rfl⟩
  · have hended : ((s.markLost .silent id).2.view j).task = some .aborted := by
      rw [task_of_get? ht, ha]
    by_cases hj : j = id
    · subst hj
      by_cases hp : (s.view j).task = some .pending
      · rw [(markLost_of_pending (h.fine j) hp).2.1] at hended
        cases hended
      · by_cases hw : (s.view j).task = some .processing
        · obtain ⟨lost, hget, hstate⟩ := (lost_of_working h hw).2.after
          rw [task_of_get? hget, hstate] at hended
          cases hended
        · rw [markLost_of_over (h.fine j) hp hw] at hended
          exact hended
    · rw [← hother j hj]
      exact hended

theorem turned {n : Nat} (h : Turned n s s') (hs : Sane s) : Mute s s' := by
  cases h with
  | idle => exact .of_view (fun _ => rfl) rfl (fun _ => Nat.le_refl _) rfl
  | @worked w t _ hw hgone hp hn hb hwork hworked =>
    have hw' : t.workers[n]? = some w := hp.workers ▸ hw
    have hother : ∀ j, j ≠ w.admission.id → s'.view j = s.view j :=
      fun j hj => (hworked.view_of_ne hw' hj).trans (hp.view j hj)
    -- A trace that is open when the worker is at its task was open before it took it up.
    have hopened : ∀ state, (t.view w.admission.id).trace = some state →
        state.isTerminal = false →
        ∃ before, (s.view w.admission.id).trace = some before ∧ before.isTerminal = false := by
      intro state hsame hopen
      rcases hb with rfl | ⟨-, hbegun⟩
      · exact ⟨state, hsame, hopen⟩
      · rw [hbegun] at hsame
        obtain ⟨before, hbefore, he⟩ := Option.map_eq_some_iff.mp hsame
        refine ⟨before, hbefore, ?_⟩
        cases before with
        | pending | processing => rfl
        | completed | failed | lost | aborted =>
          rw [← he] at hopen
          cases hopen
    refine ⟨hp.records.trans hworked.keeps,
      fun j => Nat.le_of_eq (by rw [hworked.pending, hp.queue]), fun j => ?_,
      fun j state htrace hopen => ?_, fun j task hbefore ht ha => ?_⟩
    · rw [← hn]
      exact hworked.lapse j
    · by_cases hj : j = w.admission.id
      · subst hj
        obtain ⟨hsame, hreasons⟩ := hworked.trace_of_open hwork htrace hopen
        exact ⟨hopened state hsame hopen, by rw [hreasons, hn]⟩
      · rw [hother j hj] at htrace
        exact ⟨⟨state, htrace, hopen⟩, (hworked.reasons_of_ne hj).trans (hp.reasons j hj)⟩
    · by_cases hj : j = w.admission.id
      · subst hj
        have hbefore' : (t.view w.admission.id).task ≠ some .aborted := by
          rcases hb with rfl | ⟨hprocessing, -⟩
          · exact hbefore
          · rw [hprocessing]
            decide
        obtain ⟨⟨state, htrace, hopen⟩, reason, hr, hfailure⟩ :=
          hworked.aborted hbefore' ht ha
        refine ⟨List.ne_nil_of_mem (activity_mem_crew hw), hopened state htrace hopen, reason, ?_,
          hfailure⟩
        rw [← hn]
        exact hr
      · refine absurd ?_ hbefore
        rw [← hother j hj, task_of_get? ht, ha]

end Mute

namespace Reasoned

variable {traffic : Traffic} {settings : Settings κ}

theorem start (traffic : Traffic) (limit : Nat) (maxPending : Option Nat) (orders : List Order) :
    Reasoned traffic (Scene.start limit maxPending orders : Scene κ) where
  clear _ := .empty _
  fresh _ _ := rfl
  alone _ := rfl

theorem task_of_keeps (hk : Keeps s s') (ht : (s.view id).task = some .aborted) :
    (s'.view id).task = some .aborted := by
  obtain ⟨task, htask, hstate⟩ := exists_task ht
  have hkept := hk id task htask (by rw [hstate]; rfl)
  simp [view, hkept, hstate]

/-- Nothing is put down and nobody is struck. -/
theorem mute (h : Reasoned traffic c) {moves : Nat → Prop} (hp : Passes moves c.system c'.system)
    (hm : Mute c.system c'.system) (hs : c'.submitted = c.submitted)
    (hflight : c'.inFlight = c.inFlight) (hmarks : c'.marks = c.marks)
    (hnotes : c'.notes = c.notes) : Reasoned traffic c' := by
  have hfile : ∀ id, c'.file id
      = { c.file id with reason := c'.system.cancelReasons.get? id } := by
    intro id
    simp only [Scene.file, Scene.marked, Scene.noted, Scene.ahead, Scene.closing, hflight, hmarks,
      hnotes]
  refine ⟨fun id => ?_, fun id hid => ?_, fun hsingle => ?_⟩
  · rw [hfile]
    exact (h.clear id).mute (hm.pending id) (hp.follows id) (task_of_keeps hm.keeps) (hm.reason id)
  · have hnone := h.fresh id (hs ▸ hid)
    rw [hfile, hnone]
    rcases hm.lapse id with he | he
    · have hreason : c.system.cancelReasons.get? id = none := congrArg File.reason hnone
      rw [he, hreason]
    · rw [he]
  · rw [hflight]
    exact h.alone hsingle

/-- What a submission adds to a file. -/
theorem file_submit (c : Scene κ) (id : TaskId) (payload : Json) (j : TaskId) :
    (c.submit id payload).file j
      = { c.file j with
          marked := c.marked j ++ reasonsFor j (refusal (c.system.submit .silent id payload).1),
          noted := c.noted j ++ reasonsFor j (refusal (c.system.submit .silent id payload).1),
          reason := (c.system.submit .silent id payload).2.cancelReasons.get? j } := by
  simp only [Scene.file, Scene.marked, Scene.noted, Scene.submit, reasonsFor_append]
  rfl

theorem file_submit_of_ne (hu : c.system.view id = Standing.unknown.view id) (payload : Json)
    (hj : j ≠ id) : (c.submit id payload).file j = c.file j := by
  obtain ⟨hown, hreasons⟩ := refusal_cases payload hu
  have hnone : reasonsFor j (refusal (c.system.submit .silent id payload).1) = [] := by
    rcases hown with ⟨hr, -⟩ | ⟨hr, -⟩
    · rw [hr, reasonsFor_of_ne (Ne.symm hj)]
    · rw [hr]
      rfl
  rw [file_submit, hnone, List.append_nil, List.append_nil, hreasons j hj]
  rfl

/-- A submission that is refused is struck and told of at once. -/
theorem file_refused (hempty : c.file id = ⟨[], [], [], [], none⟩) {payload : Json}
    (hr : refusal (c.system.submit .silent id payload).1 = [(id, .rejected)]) :
    ∃ reason, (c.submit id payload).file id
      = ⟨[.rejected], [.rejected], [], [], reason⟩ := by
  have hmarks : c.marked id = [] := congrArg File.marked hempty
  have hnotes : c.noted id = [] := congrArg File.noted hempty
  rw [file_submit, hr, reasonsFor_single, hmarks, hnotes, hempty]
  exact ⟨_, rfl⟩

theorem submit (h : Reasoned traffic c) (hs : Sound settings c) (payload : Json)
    (new : id ∉ c.submitted) : Reasoned traffic (c.submit id payload) := by
  have hu := hs.fresh id new
  have hempty := h.fresh id new
  refine ⟨fun j => ?_, fun j hj => ?_, h.alone⟩
  · by_cases hj : j = id
    · subst hj
      change Clear traffic ((c.system.submit .silent j payload).2.view j) _
      rcases (refusal_cases payload hu).1 with ⟨hr, hv⟩ | ⟨hr, hv, hsame⟩
      · obtain ⟨reason, hfile⟩ := file_refused hempty hr
        rw [hv, hfile]
        exact .refused j reason
      · have hmarks : c.marked j = [] := congrArg File.marked hempty
        have hnotes : c.noted j = [] := congrArg File.noted hempty
        have hnone : c.system.cancelReasons.get? j = none := congrArg File.reason hempty
        rw [hv, file_submit, hr, hsame, hnone, hmarks, hnotes, hempty]
        exact .empty _
    · have hview : (c.submit id payload).system.view j = c.system.view j :=
        view_submit_of_ne payload (contains_of_unknown hu) hj
      rw [file_submit_of_ne hu payload hj, hview]
      exact h.clear j
  · obtain ⟨hne, hold⟩ := List.ne_and_not_mem_of_not_mem_cons hj
    rw [file_submit_of_ne hu payload hne]
    exact h.fresh j hold

/-- What a strike adds to a file. -/
theorem file_strike (c : Scene κ) (call : Intervention) (id : TaskId) :
    (c.strike call).file id
      = { c.file id with
          marked := c.marked id ++ c.system.struck call id,
          ahead := c.ahead id ++ c.system.struck call id,
          closing := c.closing id
            ++ reasonsFor id ((c.system.strike call).1.filterMap Chore.close?) } := by
  have hreason : (c.strike call).system.cancelReasons = c.system.cancelReasons := by
    show (c.system.strike call).2.cancelReasons = c.system.cancelReasons
    rw [strike_eq]
    rfl
  simp only [Scene.file, Scene.marked, Scene.noted, Scene.ahead, Scene.closing, struck, hreason]
  simp only [Scene.strike, List.flatten_append, List.flatten_singleton, List.filterMap_append,
    reasonsFor_append]

theorem file_strike_of_nil {call : Intervention} (h : c.system.struck call id = []) :
    (c.strike call).file id = c.file id := by
  have hnone : reasonsFor id ((c.system.strike call).1.filterMap Chore.close?) = [] :=
    List.subset_nil.mp (h ▸ closes_subset id (c.system.strike call).1)
  rw [file_strike, h, hnone, List.append_nil, List.append_nil, List.append_nil]
  rfl

theorem strike (h : Reasoned traffic c) (hs : Sound settings c) (call : Intervention)
    (clear : traffic = .single → c.inFlight.flatten = []) :
    Reasoned traffic (c.strike call) := by
  have hpass := passes_strike hs.sane call
  have hle := pending_strike_le c.system call
  refine ⟨fun id => ?_, fun id hid => ?_, fun hsingle => ?_⟩
  · have hfine := hs.sane.fine id
    have hview := view_strike c.system call id
    have hnew := closes_subset id (c.system.strike call).1
    change Clear traffic ((c.system.strike call).2.view id) _
    rcases struck_cases hs.sane call id with hnone | ⟨hid, hzero, reason, hne, hone⟩ |
      ⟨hactive, hne⟩
    · rw [file_strike_of_nil hnone]
      refine (h.clear id).mute (hle id) (hpass.follows id) (fun ht => ?_) fun state ht hopen => ?_
      · rw [hview]
        exact ht
      · rw [hview] at ht
        exact ⟨⟨state, ht, hopen⟩, rfl⟩
    · rw [file_strike, hview, hone, hzero]
      exact (h.clear id).remove hfine (List.count_pos_iff.mpr hid) hne (hone ▸ hnew)
    · have hcrew := (hfine.slot hactive).1
      have hqueued := hfine.queued_of_crew hcrew
      have hzero : (c.system.strike call).2.queue.pending.count id = (c.system.view id).queued := by
        have hle' := hle id
        change _ ≤ (c.system.view id).queued at hle'
        omega
      have hclosing : c.closing id = [] := by
        rw [List.eq_nil_iff_forall_not_mem]
        intro reason hmem
        exact hcrew (hs.assigned _ (mem_closes.mp hmem)).2.1
      have hnone : reasonsFor id ((c.system.strike call).1.filterMap Chore.close?) = [] := by
        rw [List.eq_nil_iff_forall_not_mem]
        intro reason hmem
        rcases chore_cases hs.sane (mem_closes.mp hmem) with ⟨hid, -, -⟩ | ⟨-, hnot⟩
        · exact hcrew (hfine.pending (List.count_pos_iff.mpr hid)).2.2
        · exact hnot reason rfl
      rw [file_strike, hview, hzero, hnone, List.append_nil]
      exact (h.clear id).cancel hcrew hqueued hclosing hne
  · have hu := hs.fresh id hid
    have hnone : c.system.struck call id = [] := by
      rcases struck_cases hs.sane call id with hnone | ⟨hmem, -, -⟩ | ⟨hactive, -⟩
      · exact hnone
      · have hpos : 0 < (c.system.view id).queued := List.count_pos_iff.mpr hmem
        rw [hu] at hpos
        cases hpos
      · rw [hu] at hactive
        cases hactive
    rw [file_strike_of_nil hnone]
    exact h.fresh id hid
  · show (c.inFlight ++ [_]).dropLast.flatten = []
    rw [List.dropLast_concat]
    exact clear hsingle

/-- A chore that puts nothing down for an id is not noticed there. -/
theorem perform_of_quiet {chore : Chore} (hq : ∀ reason, chore.reason? ≠ some (id, reason))
    (s : System κ) : (chore.perform s).view id = s.view id ∧
      (chore.perform s).cancelReasons.get? id = s.cancelReasons.get? id := by
  have hprivate := Private.perform chore s
  by_cases hid : id = chore.id
  · subst hid
    cases chore with
    | note i reason | close i reason => exact absurd rfl (hq reason)
    | gate i action detail =>
      refine ⟨view_record i _ s i, ?_⟩
      rw [Chore.perform, cancelReasons_record]
  · exact ⟨hprivate.view id hid, hprivate.reasons id hid⟩

/-- Whoever is told of why the token was cancelled has the reason on record, or has ended. -/
theorem perform_of_open (hfine : Fine (s.view id)) {chore : Chore} {reason : FailureReason}
    (hr : chore.reason? = some (id, reason)) {state : TaskState}
    (ht : ((chore.perform s).view id).trace = some state) (hopen : state.isTerminal = false) :
    (chore.perform s).cancelReasons.get? id = some reason := by
  cases chore with
  | gate => cases hr
  | note i r =>
    obtain ⟨rfl, rfl⟩ := Prod.mk.inj (Option.some.inj hr)
    exact Table.get?_set _ _ _
  | close i r =>
    obtain ⟨rfl, rfl⟩ := Prod.mk.inj (Option.some.inj hr)
    exfalso
    rcases view_close hfine r with ⟨he, hended⟩ | ⟨hv, -⟩
    · rw [Chore.perform, he] at ht
      rw [hended state ht] at hopen
      cases hopen
    · rw [Chore.perform, hv] at ht
      obtain rfl := Option.some.inj ht
      cases hopen

/-- What is in a file when a chore is done. -/
theorem file_perform (c : Scene κ) (chore : Chore) (left : List (List Chore)) (id : TaskId) :
    (c.perform chore left).file id
      = { marked := c.marked id,
          noted := c.noted id ++ reasonsFor id chore.reason?.toList,
          ahead := reasonsFor id (left.flatten.filterMap Chore.reason?),
          closing := reasonsFor id (left.flatten.filterMap Chore.close?),
          reason := (chore.perform c.system).cancelReasons.get? id } := by
  simp only [Scene.file, Scene.marked, Scene.noted, Scene.ahead, Scene.closing, Scene.perform,
    reasonsFor_append]

section Chores

variable {before after : List (List Chore)} {chore : Chore} {rest : List Chore}

theorem file_perform_of_quiet (next : c.inFlight = before ++ (chore :: rest) :: after)
    (hq : ∀ reason, chore.reason? ≠ some (id, reason)) :
    (c.perform chore (before ++ rest :: after)).file id = c.file id := by
  have hnone : ∀ f : Chore → Option (TaskId × FailureReason),
      (∀ reason, f chore ≠ some (id, reason)) → reasonsFor id (f chore).toList = [] := by
    intro f hf
    rw [List.eq_nil_iff_forall_not_mem]
    intro reason hr
    rw [mem_reasonsFor, Option.mem_toList] at hr
    exact hf reason hr
  have hclose : ∀ reason, chore.close? ≠ some (id, reason) := by
    intro reason hr
    exact hq reason (reason?_of_close? hr)
  rw [file_perform, hnone _ hq, List.append_nil, (perform_of_quiet hq c.system).2]
  simp only [Scene.file, Scene.marked, Scene.noted, Scene.ahead, Scene.closing, next,
    reasonsFor_left, reasonsFor_filterMap_cons, hnone _ hq, hnone _ hclose, List.nil_append]

/-- Where calls do not overlap it is the last call that goes on, and the others are over. -/
theorem last_of_single (h : Reasoned traffic c) (hsingle : traffic = .single)
    (next : c.inFlight = before ++ (chore :: rest) :: after) :
    before.flatten = [] ∧ after = [] := by
  have halone := h.alone hsingle
  rw [next] at halone
  cases after with
  | nil =>
    rw [List.dropLast_concat] at halone
    exact ⟨halone, rfl⟩
  | cons chores after =>
    rw [List.dropLast_append_cons, List.dropLast_cons_cons, List.flatten_append,
      List.flatten_cons] at halone
    simp at halone

/-- The reason of a chore is put down for its task. -/
theorem clear_perform (h : Reasoned traffic c) (hs : Sound settings c) {reason : FailureReason}
    (next : c.inFlight = before ++ (chore :: rest) :: after)
    (hr : chore.reason? = some (id, reason)) :
    Clear traffic ((chore.perform c.system).view id)
      ((c.perform chore (before ++ rest :: after)).file id) := by
  have hmem : chore ∈ c.inFlight.flatten := by
    rw [next]
    simp
  have hprivate := Private.perform chore c.system
  have hone : reasonsFor id chore.reason?.toList = [reason] := by
    rw [hr]
    exact reasonsFor_single id reason
  have hfewer : (before ++ rest :: after).flatten.Sublist c.inFlight.flatten := by
    rw [next]
    simp only [List.flatten_append, List.flatten_cons]
    exact ((List.sublist_cons_self _ _).append_right _).append_left _
  rw [file_perform, hone]
  refine (h.clear id).put ?_ (reasonsFor_sublist (hfewer.filterMap _) id).subset
    (reasonsFor_sublist (hfewer.filterMap _) id).subset (fun hsingle => ?_) (Nat.le_of_eq ?_)
    ((hs.passes_chore hmem).follows id) (task_of_keeps hprivate.records)
    fun state ht hopen => perform_of_open (hs.sane.fine id) hr ht hopen
  · exact mem_reasonsFor.mpr (List.mem_filterMap.mpr ⟨chore, hmem, hr⟩)
  · obtain ⟨hbefore, hafter⟩ := h.last_of_single hsingle next
    simp only [Scene.file, Scene.ahead, next, reasonsFor_left, reasonsFor_filterMap_cons, hone,
      hbefore, List.filterMap_nil]
    rfl
  · exact congrArg (fun q : Queue => q.pending.count id) hprivate.queue

theorem perform (h : Reasoned traffic c) (hs : Sound settings c)
    (next : c.inFlight = before ++ (chore :: rest) :: after) :
    Reasoned traffic (c.perform chore (before ++ rest :: after)) := by
  have hmem : chore ∈ c.inFlight.flatten := by
    rw [next]
    simp
  refine ⟨fun id => ?_, fun id hid => ?_, fun hsingle => ?_⟩
  · change Clear traffic ((chore.perform c.system).view id) _
    by_cases hr : ∃ reason, chore.reason? = some (id, reason)
    · obtain ⟨reason, hr⟩ := hr
      exact h.clear_perform hs next hr
    · have hq : ∀ reason, chore.reason? ≠ some (id, reason) := fun r he => hr ⟨r, he⟩
      rw [file_perform_of_quiet next hq, (perform_of_quiet hq c.system).1]
      exact h.clear id
  · rw [file_perform_of_quiet next fun reason he => ?_]
    · exact h.fresh id hid
    · exact hid (chore.id_of_reason? he ▸ (hs.assigned chore hmem).1)
  · obtain ⟨hbefore, rfl⟩ := h.last_of_single hsingle next
    show (before ++ [rest]).dropLast.flatten = []
    rw [List.dropLast_concat]
    exact hbefore

end Chores

end Reasoned

/-! ## Runs -/

/-- A tick as far as it is to do with reasons. -/
inductive Effect (traffic : Traffic) (c : Scene κ) : Scene κ → Prop
  | submit (id : TaskId) (payload : Json) (new : id ∉ c.submitted) :
      Effect traffic c (c.submit id payload)
  | strike (call : Intervention) (clear : traffic = .single → c.inFlight.flatten = []) :
      Effect traffic c (c.strike call)
  | chore {before after : List (List Chore)} {chore : Chore} {rest : List Chore}
      (next : c.inFlight = before ++ (chore :: rest) :: after) :
      Effect traffic c (c.perform chore (before ++ rest :: after))
  | mute {moves : Nat → Prop} {c' : Scene κ} (passes : Passes moves c.system c'.system)
      (mute : Mute c.system c'.system) (submitted : c'.submitted = c.submitted)
      (inFlight : c'.inFlight = c.inFlight) (marks : c'.marks = c.marks)
      (notes : c'.notes = c.notes) : Effect traffic c c'

section Runs

variable {traffic : Traffic} {settings : Settings κ}

theorem Reasoned.effect (h : Reasoned traffic c) (hs : Sound settings c)
    (hm : Effect traffic c c') : Reasoned traffic c' := by
  cases hm with
  | submit id payload new => exact h.submit hs payload new
  | strike call clear => exact h.strike hs call clear
  | chore next => exact h.perform hs next
  | mute hp hm hsub hflight hmarks hnotes => exact h.mute hp hm hsub hflight hmarks hnotes

variable [Cost κ]

theorem Sound.effect (hs : Sound settings c) (ht : Tick traffic settings c c') :
    Effect traffic c c' := by
  have hqueue : ∀ q : Queue, c.system.queue.Grows q → q.pending = c.system.queue.pending →
      q.active = c.system.queue.active → Effect traffic c (c.on (c.system.withQueue q)) := by
    intro q hg hp ha
    have hle : ∀ id, q.pending.count id ≤ c.system.queue.pending.count id :=
      fun id => Nat.le_of_eq (by rw [hp])
    exact .mute (hs.sane.passes_withQueue hg hle ha) (.of_view (fun _ => rfl) rfl hle rfl) rfl rfl
      rfl rfl
  have hsame : ∀ id, c.system.queue.pending.count id ≤ c.system.queue.pending.count id :=
    fun _ => Nat.le_refl _
  cases ht with
  | submit id payload new => exact .submit id payload new
  | strike call clear => exact .strike call clear
  | chore next => exact .chore next
  | pause => exact hqueue _ (.of_eq rfl rfl rfl) rfl rfl
  | resume => exact hqueue _ (.of_eq rfl rfl rfl) rfl rfl
  | shutdown => exact hqueue _ (.close _) rfl rfl
  | employ hi => exact .mute (passes_employ hs.sane hi) (.employ hi) rfl rfl rfl rfl
  | elapse clock =>
    exact .mute (hs.sane.passes_of_view (fun _ => rfl) rfl rfl)
      (.of_view (fun _ => rfl) rfl hsame rfl) rfl rfl rfl rfl
  | flag timeout =>
    exact .mute (passes_flagStalled hs.sane timeout) (.flagStalled timeout _) rfl rfl rfl rfl
  | markLost id =>
    exact .mute (passes_markLost hs.sane id) (.markLost hs.sane id) rfl rfl rfl rfl
  | turn n execute free hc =>
    have hturned := turned_turn hs.sane hc execute
    exact .mute (hturned.passes hs.sane) (.turned hturned hs.sane) rfl rfl rfl rfl
  | @ask n s free hc =>
    have hmute : Mute c.system s := by
      obtain ⟨calls, rfl⟩ := exists_reached hc
      exact .of_view (fun _ => rfl) rfl hsame rfl
    exact .mute (Sound.passes_consulted hs.sane hc) hmute rfl rfl rfl rfl
  | @answer before after n s poll waiting =>
    have hturned := hs.turned (n := n) (s := s) (by rw [waiting]; simp) poll
    exact .mute (hturned.passes hs.sane) (.turned hturned hs.sane) rfl rfl rfl rfl

theorem Reasoned.ticks (h : Reasoned traffic c) (hs : Sound settings c)
    (ht : Ticks traffic settings c c') : Reasoned traffic c' ∧ Sound settings c' := by
  induction ht with
  | refl => exact ⟨h, hs⟩
  | tail _ ht ih => exact ⟨ih.1.effect ih.2 (ih.2.effect ht), ih.2.tick ht⟩

end Runs

end Overseer.System
