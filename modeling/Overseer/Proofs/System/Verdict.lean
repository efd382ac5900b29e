import Overseer.Proofs.System.Reasons

/-! # The reason of a task that was aborted

A task is put down as aborted by a submission that is refused, by the call that has removed it, or by its worker. The
first two say what they have marked it with. The worker says what has been noted last, and if nothing has been noted
yet, that the task was aborted. So the reason is that of the last call that has struck the task when all calls have
put down what they had to; a worker that comes between a strike and its note misses the reason.
-/

namespace Overseer.System

variable {κ : Type} {s s' : System κ} {c c' : Scene κ} {id : TaskId} {reason : FailureReason}
  {traffic : Traffic} {settings : Settings κ}

def AbortedFor (s : System κ) (id : TaskId) (reason : FailureReason) : Prop :=
  ∃ task, s.tasks.get? id = some task ∧ task.state = .aborted ∧
    task.failure = some ⟨reason, reason.name⟩

/-- The reason of the call that has struck last. A shutdown strikes nobody and gives no reason of its own. -/
def Scene.due (c : Scene κ) (id : TaskId) : FailureReason := (c.marked id).getLast?.getD .aborted

structure Justified (traffic : Traffic) (c : Scene κ) (id : TaskId) (reason : FailureReason) :
    Prop where
  noted : reason = (c.noted id).getLast?.getD .aborted
  rejected : reason = .rejected ↔ .rejected ∈ c.marked id
  purged : reason = .purged ↔ .purged ∈ c.marked id
  due : traffic = .single → c.ahead id = [] → reason = c.due id

/-! ## What has ended -/

theorem AbortedFor.keep (h : AbortedFor s id reason) (hk : Keeps s s') :
    AbortedFor s' id reason := by
  obtain ⟨task, ht, ha, hfailure⟩ := h
  exact ⟨task, hk id task ht (by rw [ha]; rfl), ha, hfailure⟩

theorem keeps_submit (payload : Json) (hu : s.view id = Standing.unknown.view id) :
    Keeps s (s.submit .silent id payload).2 := by
  have hregister := (Private.register payload hu).records
  rcases submit_cases id payload s with ⟨step, cause, he⟩ | ⟨-, he⟩
  · rw [he]
    exact hregister.trans ((Private.record id step _).records.trans (keeps_finish id _ _))
  · rw [he]
    exact hregister

namespace Effect

/-- The record of a task that has ended stays as it is. -/
theorem keeps (hm : Effect traffic c c') (hs : Sound settings c) : Keeps c.system c'.system := by
  cases hm with
  | submit j payload new => exact keeps_submit payload (hs.fresh j new)
  | strike call clear =>
    have htasks : (c.strike call).system.tasks = c.system.tasks := by
      show (c.system.strike call).2.tasks = c.system.tasks
      rw [strike_eq]
      rfl
    exact .of_tasks htasks
  | @chore _ _ chore _ next => exact (Private.perform chore c.system).records
  | mute hp hmute => exact hmute.keeps

/-- Nobody strikes a task that has ended. -/
theorem marked (hm : Effect traffic c c') (hs : Sound settings c)
    (ht : (c.system.view id).task = some .aborted) : c'.marked id = c.marked id := by
  have hfine := hs.sane.fine id
  cases hm with
  | submit j payload new =>
    have hu := hs.fresh j new
    have hne : id ≠ j := by
      rintro rfl
      rw [hu] at ht
      cases ht
    exact congrArg File.marked (Reasoned.file_submit_of_ne hu payload hne)
  | strike call clear =>
    have hnone : c.system.struck call id = [] := by
      rcases struck_cases hs.sane call id with hnone | ⟨hid, -⟩ | ⟨hactive, -⟩
      · exact hnone
      · have hpending := (hfine.pending (List.count_pos_iff.mpr hid)).1
        rw [ht] at hpending
        cases hpending
      · obtain ⟨-, state, hstate, hopen⟩ := hfine.slot hactive
        rw [ht] at hstate
        obtain rfl := Option.some.inj hstate
        cases hopen
    exact congrArg File.marked (Reasoned.file_strike_of_nil hnone)
  | chore next => rfl
  | mute hp hmute hsub hflight hmarks hnotes =>
    show reasonsFor id c'.marks = reasonsFor id c.marks
    rw [hmarks]

end Effect

/-! ## Who ends a task -/

theorem last_eq {noted : List FailureReason} (h : reason = noted.getLast?.getD .aborted)
    (hne : reason ≠ .aborted) : reason ∈ noted := by
  cases hl : noted.getLast? with
  | none =>
    rw [hl] at h
    exact absurd h hne
  | some last =>
    rw [hl, Option.getD_some] at h
    rw [h]
    exact List.mem_of_getLast? hl

/-- A single strike, which has been noted at last. -/
theorem Justified.of_alone (hm : c.marked id = [reason])
    (hn : (c.noted id).getLast? = some reason) : Justified traffic c id reason where
  noted := by
    rw [hn]
    rfl
  rejected := by
    rw [hm, List.mem_singleton, eq_comm]
  purged := by
    rw [hm, List.mem_singleton, eq_comm]
  due _ _ := by
    rw [Scene.due, hm]
    rfl

/-- A worker has given the reason on record. -/
theorem Justified.of_worker (h : Clear traffic (c.system.view id) (c.file id))
    (hbefore : (c.system.view id).task ≠ some .aborted) {task : Task}
    (hg : GivenUp c.system id task)
    (hr : reason = (c.system.cancelReasons.get? id).getD .aborted) :
    Justified traffic c id reason := by
  obtain ⟨state, htrace, hopen⟩ := hg.trace
  have hrecord : c.system.cancelReasons.get? id = (c.noted id).getLast? :=
    h.reason state htrace hopen
  rw [hrecord] at hr
  have hnoted : c.noted id ⊆ c.marked id := h.noted
  refine ⟨hr, ⟨fun he => ?_, fun hmem => ?_⟩, ⟨fun he => ?_, fun hmem => ?_⟩,
    fun hsingle hahead => ?_⟩
  · subst he
    exact hnoted (last_eq hr (by decide))
  · exact absurd (h.rejected hmem) hbefore
  · subst he
    exact hnoted (last_eq hr (by decide))
  · exact absurd (h.purged hmem).2.1 hg.crew
  · have horder : c.marked id = c.noted id ++ c.ahead id := h.inOrder hsingle
    rw [Scene.due, horder, hahead, List.append_nil]
    exact hr

/-- A submission ends its task only if it is refused. -/
theorem failure_of_refused (payload : Json) (hu : s.view id = Standing.unknown.view id)
    {task : Task} (ht : (s.submit .silent id payload).2.tasks.get? id = some task)
    (ha : task.state = .aborted) :
    refusal (s.submit .silent id payload).1 = [(id, .rejected)] ∧
      task.failure = some ⟨.rejected, FailureReason.rejected.name⟩ := by
  have hpending : ((s.register .silent id payload).view id).task = some .pending := by
    rw [view_register payload hu]
    rfl
  rcases submit_cases id payload s with ⟨step, cause, he⟩ | ⟨-, he⟩
  · rw [he] at ht ⊢
    have hbefore : (((s.register .silent id payload).record .silent id step).view id).task
        ≠ some .aborted := by
      rw [view_record, hpending]
      decide
    obtain ⟨-, reason, hr, hfailure⟩ := finish_aborted hbefore ht ha
    obtain rfl := Outcome.aborted.inj hr
    exact ⟨rfl, hfailure⟩
  · rw [he] at ht
    have hsame : (s.register .silent id payload).tasks.get? id = some task := ht
    rw [task_of_get? hsame, ha] at hpending
    cases hpending

/-- Of the chores only the one that ends it leaves a task aborted. -/
theorem close_of_aborted {chore : Chore} (hbefore : (s.view id).task ≠ some .aborted)
    (hended : ((chore.perform s).view id).task = some .aborted) :
    ∃ reason, chore = .close id reason := by
  by_cases hid : id = chore.id
  · subst hid
    cases chore with
    | note i r => exact absurd hended hbefore
    | gate i action detail =>
      rw [Chore.perform, view_record] at hended
      exact absurd hended hbefore
    | close i r => exact ⟨r, rfl⟩
  · rw [(Private.perform chore s).view id hid] at hended
    exact absurd hended hbefore

/-- Whatever puts a task down as aborted, the reason is justified. -/
theorem Reasoned.justify (h : Reasoned traffic c) (hs : Sound settings c)
    (hm : Effect traffic c c') (hbefore : (c.system.view id).task ≠ some .aborted)
    (hended : (c'.system.view id).task = some .aborted) :
    ∃ reason, AbortedFor c'.system id reason ∧ Justified traffic c' id reason := by
  obtain ⟨task, htask, ha⟩ := exists_task hended
  cases hm with
  | submit j payload new =>
    have hu := hs.fresh j new
    by_cases hj : id = j
    · subst hj
      obtain ⟨hr, hfailure⟩ := failure_of_refused payload hu htask ha
      obtain ⟨_, hfile⟩ := Reasoned.file_refused (h.fresh id new) hr
      have hnoted : (c.submit id payload).noted id = [.rejected] := congrArg File.noted hfile
      exact ⟨.rejected, ⟨task, htask, ha, hfailure⟩,
        .of_alone (congrArg File.marked hfile) (by rw [hnoted]; rfl)⟩
    · refine absurd ?_ hbefore
      rw [← view_submit_of_ne payload (contains_of_unknown hu) hj]
      exact hended
  | strike call clear =>
    refine absurd ?_ hbefore
    have hview := congrArg View.task (view_strike c.system call id)
    exact hview.symm.trans hended
  | @chore before after chore rest next =>
    obtain ⟨reason, rfl⟩ := close_of_aborted hbefore hended
    have hmem : Chore.close id reason ∈ c.inFlight.flatten := by
      rw [next]
      simp
    have hclosing : reason ∈ c.closing id := mem_closes.mpr hmem
    have hmarked : c.marked id = [reason] := (h.clear id).closing reason hclosing
    obtain ⟨-, r, hr, hfailure⟩ := finish_aborted hbefore htask ha
    obtain rfl := Outcome.aborted.inj hr
    have hnoted : (c.perform (.close id reason) (before ++ rest :: after)).noted id
        = c.noted id ++ [reason] := by
      rw [← reasonsFor_single id reason]
      exact congrArg File.noted (Reasoned.file_perform c (.close id reason) _ id)
    refine ⟨reason, ⟨task, htask, ha, hfailure⟩, .of_alone hmarked ?_⟩
    rw [hnoted, List.getLast?_concat]
  | mute hp hmute hsub hflight hmarks hnotes =>
    have hgiven := hmute.aborted id task hbefore htask ha
    obtain ⟨reason, hr, hfailure⟩ := hgiven.failure
    have hj : Justified traffic c id reason := .of_worker (h.clear id) hbefore hgiven hr
    have hmarked : c'.marked id = c.marked id := congrArg (reasonsFor id) hmarks
    have hnoted : c'.noted id = c.noted id := congrArg (reasonsFor id) hnotes
    refine ⟨reason, ⟨task, htask, ha, hfailure⟩, ?_, ?_, ?_, ?_⟩
    · rw [hnoted]
      exact hj.noted
    · rw [hmarked]
      exact hj.rejected
    · rw [hmarked]
      exact hj.purged
    · rw [Scene.due, Scene.ahead, hmarked, hflight]
      exact hj.due

/-! ## The law -/

/-- A task was put down as aborted between two scenes, and the reason is the same in a later one. -/
structure PutDown (traffic : Traffic) (settings : Settings κ) [Cost κ] (before after c : Scene κ)
    (id : TaskId) (reason : FailureReason) : Prop where
  tick : Tick traffic settings before after
  since : Ticks traffic settings after c
  first : (before.system.tasks.get? id).map (·.state) ≠ some .aborted
  justified : Justified traffic after id reason
  record : AbortedFor c.system id reason
  /-- No call has struck the task since. -/
  marked : c.marked id = after.marked id

variable [Cost κ] {limit : Nat} {maxPending : Option Nat} {orders : List Order}

/-- In any run, each task that is aborted has been put down for a reason that was justified when it ended. -/
theorem aborted_justified (h : Ticks traffic settings (.start limit maxPending orders) c)
    (ha : (c.system.tasks.get? id).map (·.state) = some .aborted) :
    ∃ before after reason, Ticks traffic settings (.start limit maxPending orders) before ∧
      PutDown traffic settings before after c id reason := by
  have hsound := Sound.start settings limit maxPending orders
  have hreasoned : Reasoned traffic (Scene.start limit maxPending orders : Scene κ) :=
    .start traffic limit maxPending orders
  induction h with
  | refl => cases ha
  | @tail c c' hticks ht ih =>
    obtain ⟨hr, hs⟩ := hreasoned.ticks hsound hticks
    have hm := hs.effect ht
    by_cases hbefore : (c.system.tasks.get? id).map (·.state) = some .aborted
    · obtain ⟨before, after, reason, hrun, hdown⟩ := ih hbefore
      refine ⟨before, after, reason, hrun, hdown.tick, hdown.since.tail ht, hdown.first,
        hdown.justified, hdown.record.keep (hm.keeps hs), ?_⟩
      rw [hm.marked hs hbefore]
      exact hdown.marked
    · obtain ⟨reason, hrecord, hjustified⟩ := hr.justify hs hm hbefore ha
      exact ⟨c, c', reason, hticks, ht, .refl, hbefore, hjustified, hrecord, rfl⟩

/-- The stop is noted before the worker comes. -/
theorem aborted_justified_of_stop :
    ∃ c : Scene Float, AbortedFor c.system (.ofNat 7) .emergencyStop ∧
      ∃ before after reason, Ticks .single usual (.start 1 none []) before ∧
        PutDown .single usual before after c (.ofNat 7) reason := by
  have hrun : ∃ c : Scene Float, Ticks .single usual (.start 1 none []) c ∧
      AbortedFor c.system (.ofNat 7) .emergencyStop ∧
      (c.system.tasks.get? (.ofNat 7)).map (·.state) = some .aborted := by
    refine ⟨_, .tail (.tail (.tail (.tail (.tail (.tail .refl
      (.submit (.ofNat 7) (.object [("intent", .string "git")]) (by decide)))
      (.employ rfl))
      (.turn 0 (fun s => (.pending, s)) (by decide) rfl))
      (.strike .emergencyStop (fun _ => rfl)))
      (@Tick.chore _ _ _ _ _ [] [] _ _ rfl))
      (.turn 0 (fun s => (.pending, s)) (by decide) rfl), ⟨_, rfl, rfl, rfl⟩, rfl⟩
  obtain ⟨c, hticks, hrecord, hended⟩ := hrun
  exact ⟨c, hrecord, aborted_justified hticks hended⟩

/-- The worker comes after the stop has struck and before it has noted why. And where two calls overlap, the stop
can note why after the abort has, though it has struck before it. -/
theorem aborted_justified_not_due :
    (∃ c : Scene Float, Ticks .single usual (.start 1 none []) c ∧
      c.marked (.ofNat 7) = [.emergencyStop] ∧ AbortedFor c.system (.ofNat 7) .aborted) ∧
    ∃ c : Scene Float, Ticks .mixed usual (.start 1 none []) c ∧
      c.marked (.ofNat 7) = [.emergencyStop, .aborted] ∧ c.ahead (.ofNat 7) = [] ∧
      AbortedFor c.system (.ofNat 7) .emergencyStop := by
  constructor
  · refine ⟨_, .tail (.tail (.tail (.tail (.tail .refl
      (.submit (.ofNat 7) (.object [("intent", .string "git")]) (by decide)))
      (.employ rfl))
      (.turn 0 (fun s => (.pending, s)) (by decide) rfl))
      (.strike .emergencyStop (fun _ => rfl)))
      (.turn 0 (fun s => (.pending, s)) (by decide) rfl), rfl, ⟨_, rfl, rfl, rfl⟩⟩
  · refine ⟨_, .tail (.tail (.tail (.tail (.tail (.tail (.tail (.tail .refl
      (.submit (.ofNat 7) (.object [("intent", .string "git")]) (by decide)))
      (.employ rfl))
      (.turn 0 (fun s => (.pending, s)) (by decide) rfl))
      (.strike .emergencyStop (fun h => nomatch h)))
      (.strike (.abort (.ofNat 7)) (fun h => nomatch h)))
      (@Tick.chore _ _ _ _ _ [_] [] _ _ rfl))
      (@Tick.chore _ _ _ _ _ [] [_] _ _ rfl))
      (.turn 0 (fun s => (.pending, s)) (by decide) rfl), rfl, rfl, ⟨_, rfl, rfl, rfl⟩⟩

end Overseer.System
