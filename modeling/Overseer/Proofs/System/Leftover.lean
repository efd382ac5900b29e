import Overseer.Proofs.System.Clearance
import Overseer.Proofs.System.Marks

/-! # Reasons that are left over

Why a task has been told to stop is put down when its token is cancelled, and it is dropped when the task ends, if it
ends by `finish`. A task that is lost ends by `markLost`, and that drops nothing. What is on record for an id is
therefore told by the state of its task and by the calls that have hit it (`owed`): the reason of the last one as long as the
task goes on, and also once it is lost; after any other end, nothing. Each step keeps this (`Booked`).

A task that is lost can be hit no more, so what is left over of it stays for good. The last example is such a task.
-/

namespace Overseer.System

open Standing

variable {κ : Type} {s s' t : System κ} {id j : TaskId} {n : Nat} {w : Worker κ} {limit : Nat}
  {c : Chronicle κ} {d d' : Diary κ} {settings : Settings κ}

/-- What is on record for a task, by its state and the reasons of the calls that have hit it. -/
def owed (task : Option TaskState) (hits : List FailureReason) : Option FailureReason :=
  match task with
  | some .pending | some .processing | some .lost => hits.getLast?
  | some .completed | some .failed | some .aborted | none => none

theorem owed_nil (task : Option TaskState) : owed task [] = none := by
  unfold owed
  split <;> rfl

theorem owed_of_open {state : TaskState} (h : state.isTerminal = false)
    (hits : List FailureReason) : owed (some state) hits = hits.getLast? := by
  cases state with
  | pending | processing => rfl
  | completed | failed | lost | aborted => cases h

theorem owed_of_ended {state : TaskState} (h : state.isTerminal = true) (hne : state ≠ .lost)
    (hits : List FailureReason) : owed (some state) hits = none := by
  cases state with
  | pending | processing => cases h
  | lost => exact absurd rfl hne
  | completed | failed | aborted => rfl

/-- What has been told of the reasons for one id. -/
structure Booked (d : Diary κ) (id : TaskId) : Prop where
  entry : d.system.cancelReasons.get? id = owed (d.system.view id).task (reasonsFor id d.hits)
  new : id ∉ d.submitted → reasonsFor id d.hits = []

namespace Booked

variable {task : Task} (h : Booked d id)
include h

theorem unknown (hnone : d.system.tasks.get? id = none) :
    d.system.cancelReasons.get? id = none := by
  have hview : (d.system.view id).task = none := congrArg (Option.map Task.state) hnone
  rw [h.entry, hview]
  rfl

variable (htask : d.system.tasks.get? id = some task)
include htask

theorem live (hopen : task.state.isTerminal = false) :
    d.system.cancelReasons.get? id = (reasonsFor id d.hits).getLast? := by
  rw [h.entry, view_task htask, owed_of_open hopen]

theorem ended (hended : task.state.isTerminal = true) (hne : task.state ≠ .lost) :
    d.system.cancelReasons.get? id = none := by
  rw [h.entry, view_task htask, owed_of_ended hended hne]

theorem lost (hstate : task.state = .lost) :
    d.system.cancelReasons.get? id = (reasonsFor id d.hits).getLast? := by
  rw [h.entry, view_task htask, hstate]
  rfl

end Booked

/-- What is on record for a task is as it was, and so is what is owed. -/
structure Rests (id : TaskId) (s s' : System κ) : Prop where
  owed : ∀ hits, owed (s'.view id).task hits = owed (s.view id).task hits
  reason : s'.cancelReasons.get? id = s.cancelReasons.get? id

namespace Rests

theorem trans (h : Rests id s t) (h' : Rests id t s') : Rests id s s' where
  owed hits := (h'.owed hits).trans (h.owed hits)
  reason := h'.reason.trans h.reason

theorem of_view (hv : s'.view id = s.view id)
    (hr : s'.cancelReasons.get? id = s.cancelReasons.get? id) : Rests id s s' where
  owed _ := by rw [hv]
  reason := hr

theorem of_eq (ht : s'.tasks = s.tasks) (hr : s'.cancelReasons = s.cancelReasons) (id : TaskId) :
    Rests id s s' where
  owed hits := by simp only [view, ht]
  reason := by rw [hr]

theorem of_dossier (h : s'.dossier id = s.dossier id) : Rests id s s' where
  owed hits := congrArg (fun d : Dossier => System.owed (d.task.map Task.state) hits) h
  reason := congrArg Dossier.reason h

end Rests

theorem Booked.rest (h : Booked d id) (hrests : Rests id d.system d'.system)
    (hhits : reasonsFor id d'.hits = reasonsFor id d.hits) (hsub : d.submitted ⊆ d'.submitted) :
    Booked d' id where
  entry := by
    rw [hrests.reason, hrests.owed, hhits]
    exact h.entry
  new hnew := by
    rw [hhits]
    exact h.new fun hid => hnew (hsub hid)

/-- A task that has ended, and not by a loss, with nothing on record. -/
structure Closed (id : TaskId) (s : System κ) : Prop where
  ended : ∃ state, (s.view id).task = some state ∧ state.isTerminal = true ∧ state ≠ .lost
  reason : s.cancelReasons.get? id = none

theorem Closed.owed (h : Closed id s) (hits : List FailureReason) :
    owed (s.view id).task hits = none := by
  obtain ⟨state, htask, hended, hne⟩ := h.ended
  rw [htask, owed_of_ended hended hne]

theorem Booked.close (h : Booked d id) (hclosed : Closed id d'.system)
    (hhits : reasonsFor id d'.hits = reasonsFor id d.hits) (hsub : d.submitted ⊆ d'.submitted) :
    Booked d' id where
  entry := by rw [hclosed.reason, hclosed.owed]
  new hnew := by
    rw [hhits]
    exact h.new fun hid => hnew (hsub hid)

theorem Booked.follow (h : Booked d id)
    (hor : Rests id d.system d'.system ∨ Closed id d'.system)
    (hhits : reasonsFor id d'.hits = reasonsFor id d.hits) (hsub : d.submitted ⊆ d'.submitted) :
    Booked d' id :=
  hor.elim (h.rest · hhits hsub) (h.close · hhits hsub)

/-! ## Turns -/

/-- A task that a worker ends has nothing on record any more. -/
theorem Worked.rests_or (h : Worked n w.admission s s')
    (ht : ∃ state, state ≠ .pending ∧ (s.view w.admission.id).task = some state ∧
      (s.view w.admission.id).trace = some state) :
    Rests w.admission.id s s' ∨ Closed w.admission.id s' := by
  obtain ⟨state, hne, htask, htrace⟩ := ht
  cases h with
  | @goesOn t phase hq hb =>
    have hphase : Rests w.admission.id t (t.setPhase n phase) := ⟨fun _ => rfl, rfl⟩
    exact Or.inl ((Rests.of_eq hq.tasks hq.reasons _).trans hphase)
  | @leaves t o hq hf =>
    have hquiet : Rests w.admission.id s t := .of_eq hq.tasks hq.reasons _
    have hleave : (t.leave .silent n w.admission (some o)).tasks
        = (t.finish .silent w.admission.id o).tasks := rfl
    have hreason : (t.leave .silent n w.admission (some o)).cancelReasons
        = (t.finish .silent w.admission.id o).cancelReasons := rfl
    rw [← hq.view] at htask htrace
    cases hended : state.isTerminal with
    | true =>
      rw [finish_of_isTerminal htrace hended] at hleave hreason
      exact Or.inl (hquiet.trans (.of_eq hleave hreason _))
    | false =>
      right
      obtain rfl := TaskState.eq_processing hne hended
      have hmove : TaskState.canMove .processing o.state = true := o.state_isTerminal
      obtain ⟨task, htask', hstate⟩ := exists_task htask
      obtain ⟨trace, htrace', hopen⟩ := exists_trace htrace
      obtain ⟨task', e, -, -, -, he⟩ := finish_of_open htask' (hstate ▸ hmove) htrace'
        (by rw [hopen]; rfl)
      refine ⟨⟨o.state, ?_, o.state_isTerminal, ?_⟩, ?_⟩
      · exact congrArg View.task (view_finish htask hmove htrace rfl)
      · cases o with
        | lost => exact absurd rfl hf.known
        | completed | failed | aborted => exact fun hlost => nomatch hlost
      · rw [hreason, he]
        exact Table.get?_remove _ _

/-- To begin a task makes no difference to what is on record for it. -/
theorem Stint.rests_or (h : Stint n s s') (id : TaskId) : Rests id s s' ∨ Closed id s' := by
  cases h with
  | idle => exact Or.inl (.of_eq rfl rfl id)
  | @worked w t s' hw own noted before taken comes =>
    by_cases hid : id = w.admission.id
    · subst hid
      have hbegun : Rests w.admission.id s t := by
        rcases before with rfl | ⟨hpending, hprocessing⟩
        · exact .of_eq rfl rfl _
        · refine ⟨fun hits => ?_, by rw [noted]⟩
          rw [hpending, hprocessing]
          rfl
      exact (comes.rests_or taken).imp_left hbegun.trans
    · have hview : s'.view id = s.view id :=
        (comes.view_of_ne (own.workers ▸ hw) hid).trans (own.view id hid)
      exact Or.inl (.of_view hview ((comes.reasons_of_ne hid).trans (by rw [noted])))

/-! ## Hits -/

/-- Who is hit by a stop of everything. -/
theorem reasonsFor_stopHits (h : Tenure s) (id : TaskId) :
    reasonsFor id s.stopHits = if id ∈ s.queue.active.keys then [.emergencyStop] else [] := by
  refine (reasonsFor_map s.queue.active.keys .emergencyStop id).trans ?_
  split
  · rename_i hid
    rw [List.count_eq_one_of_mem h.single hid]
    rfl
  · rename_i hid
    rw [List.count_eq_zero.mpr hid]
    rfl

theorem abortHits_of_error {e : AbortError} (h : (s.abort .silent id).1 = .error e) :
    s.abortHits id = [] := by
  simp only [abortHits, h]

theorem reasonsFor_abortHits_of_ne (hj : j ≠ id) : reasonsFor id (s.abortHits j) = [] := by
  unfold abortHits
  split
  · exact reasonsFor_of_ne hj _
  · rfl

/-- An abort is refused, takes its task out of the queue or hits it. -/
theorem Kept.abort_dealt (hk : Kept .whole limit c) (h : Tenure c.system) (id : TaskId) :
    ((c.system.abort .silent id).2 = c.system ∧ c.system.abortHits id = []) ∨
    (∃ q, Dealt (TakenOut "abort" "removed from queue by operator" .aborted) [id]
        (c.system.withQueue q) (c.system.abort .silent id).2 ∧ c.system.abortHits id = []) ∨
    ∃ q, Dealt (Warned "abort" "cancellation requested by operator" .aborted) [id]
        (c.system.withQueue q) (c.system.abort .silent id).2 ∧
      c.system.abortHits id = [(id, .aborted)] ∧ id ∈ c.system.queue.active.keys := by
  rcases hk.abort_cases h id with
    ⟨-, -, he⟩ | ⟨-, task, htask, ⟨-, he⟩ | ⟨hopen, hanswer, -, hwithdrawn | htold⟩⟩
  · exact Or.inl ⟨by rw [he], abortHits_of_error (by rw [he])⟩
  · exact Or.inl ⟨by rw [he], abortHits_of_error (by rw [he])⟩
  · have hmem := hwithdrawn.queued
    have hqueue : (c.system.queue.abort id).1 = .removedPending := by simp [Queue.abort, hmem]
    refine Or.inr (Or.inl ⟨{ c.system.queue with pending := c.system.queue.pending.erase id }, ?_,
      by simp only [abortHits, hanswer, hqueue]⟩)
    rw [abort_of_pending htask hopen hmem]
    exact dealt_discard (hk.waits hmem).1
  · obtain ⟨token, hslot, -⟩ := htold.slot
    have hnot : id ∉ c.system.queue.pending := by
      intro hmem
      rw [(hk.waits hmem).2] at hslot
      cases hslot
    have hqueue : (c.system.queue.abort id).1 = .cancelRequested := by
      simp [Queue.abort, Queue.token?, hnot, hslot]
    have hkeys := mem_keys_active.mpr ⟨token, hslot⟩
    refine Or.inr (Or.inr ⟨c.system.queue.cancelToken token, ?_,
      by simp only [abortHits, hanswer, hqueue], hkeys⟩)
    rw [abort_of_active htask hopen hnot hslot]
    exact dealt_note (hk.traced hkeys)

/-! ## Each step -/

theorem TakenOut.closed {action detail : String} {reason : FailureReason} {now : Time}
    (h : TakenOut action detail reason id now (s.dossier id) (s'.dossier id)) : Closed id s' where
  ended := by
    obtain ⟨task, -, -, htask⟩ := h.task
    exact ⟨.aborted, congrArg (Option.map Task.state) htask, rfl, by decide⟩
  reason := h.reason

theorem cancelReasons_sweep (timeout : Duration) (s : System κ) :
    (s.sweep .silent timeout).2.cancelReasons = s.cancelReasons := by
  have hflags : (s.flagStalled .silent timeout).2.cancelReasons = s.cancelReasons := by
    simp only [flagStalled, announceAll_silent]
  rw [← hflags]
  exact foldl_keeps (fun s : System κ => s.cancelReasons)
    (fun s id => (markLost_frame id s).2.1) _ _

/-- A task that a sweep takes for lost was under way, and it is owed what it was owed. -/
theorem Kept.rests_sweep (hk : Kept .whole limit c) (h : Tenure c.system) (timeout : Duration)
    (id : TaskId) : Rests id c.system (c.system.sweep .silent timeout).2 := by
  have hexact := sweepsExactly hk.stands h timeout
  refine ⟨fun hits => ?_, by rw [cancelReasons_sweep]⟩
  by_cases ho : Overdue timeout c.system id
  · have hrunning := congrArg View.task (of_overdue hk.stands ho).1
    obtain ⟨task, -, hlost⟩ := (hexact.reaped id ho).task
    have htask : ((c.system.sweep .silent timeout).2.view id).task = some .lost :=
      congrArg (Option.map Task.state) hlost
    rw [htask, hrunning]
    rfl
  · have htask : ((c.system.sweep .silent timeout).2.view id).task = (c.system.view id).task :=
      congrArg (Option.map Task.state) (hexact.others id ho).task
    rw [htask]

/-- Who holds a slot has been submitted and has not ended. -/
theorem Kept.owed_of_active (hk : Kept .whole limit c) (hid : id ∈ c.system.queue.active.keys) :
    id ∈ c.submitted ∧ ∀ hits, owed (c.system.view id).task hits = hits.getLast? := by
  obtain ⟨st, hst, hsub, hne⟩ := hk.cases_of_whole id
  have hactive : (st.view id).active = true := by
    rw [← hst]
    exact Table.mem_keys_iff.mp hid
  rw [hst]
  cases st with
  | unknown | queued | discarded | settled => cases hactive
  | stalled w => exact absurd rfl (hne w)
  | admitted | running => exact ⟨hsub.mpr (fun he => nomatch he), fun _ => rfl⟩

theorem Booked.of_hit {action detail : String} {reason : FailureReason} {now : Time}
    (hw : Warned action detail reason id now (s.dossier id) (d.system.dossier id))
    (hopen : ∀ hits, owed (s.view id).task hits = hits.getLast?) {hits : List FailureReason}
    (hhits : reasonsFor id d.hits = hits ++ [reason]) (hsub : id ∈ d.submitted) : Booked d id where
  entry := by
    have htask : (d.system.view id).task = (s.view id).task :=
      congrArg (Option.map Task.state) hw.task
    have hreason : d.system.cancelReasons.get? id = some reason := hw.reason
    rw [hreason, htask, hopen, hhits, List.getLast?_concat]
  new hnew := absurd hsub hnew

/-- Before a task is submitted there is nothing on record for it, and then there still is not. -/
theorem reason_submit (payload : Json) (h : s.cancelReasons.get? id = none) :
    (s.submit .silent id payload).2.cancelReasons.get? id = none := by
  have hregister := cancelReasons_register id payload s
  rcases submit_cases id payload s with ⟨step, cause, he⟩ | ⟨-, he⟩
  · rw [he]
    rcases cancelReasons_finish id (.aborted .rejected)
      ((s.register .silent id payload).record .silent id step) with hsame | hremoved
    · rw [hsame, cancelReasons_record, hregister]
      exact h
    · rw [hremoved]
      exact Table.get?_remove _ _
  · rw [he]
    show (s.register .silent id payload).cancelReasons.get? id = none
    rw [hregister]
    exact h

section Steps

theorem Upheld.booked_submit (hu : Upheld settings limit d) (hb : ∀ j, Booked d j)
    {id : TaskId} (payload : Json) (new : id ∉ d.submitted) (j : TaskId) :
    Booked (d.submit id payload) j := by
  have hunknown := hu.kept.view_of_new new
  by_cases hj : j = id
  · subst hj
    have hnone : d.system.cancelReasons.get? j = none := by
      rw [(hb j).entry, hunknown]
      rfl
    have hhits : reasonsFor j (d.submit j payload).hits = [] := (hb j).new new
    refine ⟨?_, fun _ => hhits⟩
    rw [hhits, owed_nil]
    exact reason_submit payload hnone
  · exact (hb j).rest (.of_view (view_submit_of_ne payload (contains_of_unknown hunknown) hj)
      ((refusal_cases payload hunknown).2 j hj)) rfl (List.subset_cons_self _ _)

theorem Upheld.booked_abort (hu : Upheld settings limit d) (hb : ∀ j, Booked d j)
    (id j : TaskId) : Booked (d.abort id) j := by
  have hsub : d.submitted ⊆ (d.abort id).submitted := List.Subset.refl _
  have hhits : reasonsFor j (d.abort id).hits
      = reasonsFor j d.hits ++ reasonsFor j (d.system.abortHits id) := reasonsFor_append j _ _
  rcases hu.kept.abort_dealt hu.tenure id with
    ⟨he, hnone⟩ | ⟨q, hdealt, hnone⟩ | ⟨q, hdealt, hone, hkeys⟩
  · rw [hnone] at hhits
    have hrests : Rests j d.system (d.abort id).system := by
      show Rests j d.system (d.system.abort .silent id).2
      rw [he]
      exact .of_eq rfl rfl j
    exact (hb j).rest hrests (hhits.trans (List.append_nil _)) hsub
  · rw [hnone] at hhits
    refine (hb j).follow ?_ (hhits.trans (List.append_nil _)) hsub
    by_cases hj : j = id
    · subst hj
      exact Or.inr (hdealt.each j (List.mem_singleton_self j)).closed
    · exact Or.inl (.of_dossier (hdealt.others j (List.mem_singleton.not.mpr hj)))
  · rw [hone] at hhits
    by_cases hj : j = id
    · subst hj
      rw [reasonsFor_single] at hhits
      obtain ⟨hsubmitted, hopen⟩ := hu.kept.owed_of_active hkeys
      exact .of_hit (hdealt.each j (List.mem_singleton_self j)) hopen hhits hsubmitted
    · rw [reasonsFor_of_ne (Ne.symm hj), List.append_nil] at hhits
      exact (hb j).rest (.of_dossier (hdealt.others j (List.mem_singleton.not.mpr hj))) hhits hsub

theorem Upheld.booked_purge (hu : Upheld settings limit d) (hb : ∀ j, Booked d j) (j : TaskId) :
    Booked (d.on (d.system.purge .silent).2) j := by
  have hexact := hu.kept.purges
  refine (hb j).follow ?_ rfl (List.Subset.refl _)
  by_cases hj : j ∈ d.system.queue.pending
  · exact Or.inr (hexact.taken j hj).closed
  · exact Or.inl (.of_dossier (hexact.others j hj))

theorem Upheld.booked_stop (hu : Upheld settings limit d) (hb : ∀ j, Booked d j) (j : TaskId) :
    Booked d.stop j := by
  have hexact := hu.kept.stops hu.tenure
  have hhits : reasonsFor j d.stop.hits = reasonsFor j d.hits ++ reasonsFor j d.system.stopHits :=
    reasonsFor_append j _ _
  rw [reasonsFor_stopHits hu.tenure] at hhits
  by_cases hkeys : j ∈ d.system.queue.active.keys
  · rw [if_pos hkeys] at hhits
    obtain ⟨hsubmitted, hopen⟩ := hu.kept.owed_of_active hkeys
    exact .of_hit (hexact.warned j hkeys) hopen hhits hsubmitted
  · rw [if_neg hkeys, List.append_nil] at hhits
    refine (hb j).follow ?_ hhits (List.Subset.refl _)
    by_cases hj : j ∈ d.system.queue.pending
    · exact Or.inr (hexact.taken j hj).closed
    · exact Or.inl (.of_dossier (hexact.others j hkeys hj))

variable [Cost κ]

theorem Upheld.booked (hu : Upheld settings limit d) (h : Happens settings d d')
    (hb : ∀ j, Booked d j) (j : TaskId) : Booked d' j := by
  have hself : d.submitted ⊆ d.submitted := List.Subset.refl _
  cases h with
  | submit id payload new => exact hu.booked_submit hb payload new j
  | abort id => exact hu.booked_abort hb id j
  | purge => exact hu.booked_purge hb j
  | emergencyStop => exact hu.booked_stop hb j
  | pause | resume | shutdown | employ | cancel | elapse =>
    exact (hb j).rest ⟨fun _ => rfl, rfl⟩ rfl hself
  | sweep timeout => exact (hb j).rest (hu.kept.rests_sweep hu.tenure timeout j) rfl hself
  | turn n execute free h => exact (hb j).follow ((hu.kept.stint_turn h execute).rests_or j) rfl hself
  | ask n free h =>
    obtain ⟨calls, rfl⟩ := exists_reached h
    exact (hb j).rest ⟨fun _ => rfl, rfl⟩ rfl hself
  | answer n poll waiting => exact (hb j).follow ((hu.stint_answer waiting poll).rests_or j) rfl hself

theorem Upheld.booked_unfolds (hu : Upheld settings limit d) (h : Unfolds settings d d')
    (hb : ∀ j, Booked d j) (j : TaskId) : Booked d' j := by
  induction h generalizing j with
  | refl => exact hb j
  | tail hbefore h ih => exact (hu.unfolds hbefore).booked h ih j

/-! ## What is left over -/

/-- A task that is lost is not hit any more, and it stays lost. -/
theorem Upheld.stays_lost (hu : Upheld settings limit d) (h : Happens settings d d')
    (hlost : (d.system.view id).task = some .lost) :
    (d'.system.view id).task = some .lost ∧ reasonsFor id d'.hits = reasonsFor id d.hits := by
  constructor
  · obtain ⟨st, hst⟩ := hu.kept.stands id
    obtain ⟨st', hst', hl⟩ := (hu.advance h).leads id st hst
    rw [hst']
    exact hl.task_eq rfl (hst ▸ hlost)
  · obtain ⟨task, htask, hstate⟩ := exists_task hlost
    have hended : task.state.isTerminal = true := by
      rw [hstate]
      rfl
    cases h with
    | abort i =>
      show reasonsFor id (d.hits ++ d.system.abortHits i) = _
      rw [reasonsFor_append]
      by_cases hi : i = id
      · subst hi
        rw [abortHits_of_error (congrArg Prod.fst (abort_of_isTerminal htask hended)),
          show reasonsFor i [] = [] from rfl, List.append_nil]
      · rw [reasonsFor_abortHits_of_ne hi, List.append_nil]
    | emergencyStop =>
      show reasonsFor id (d.hits ++ d.system.stopHits) = _
      have hfree : id ∉ d.system.queue.active.keys := by
        rw [Table.mem_keys_iff, (hu.kept.ended htask hended).2]
        exact Bool.false_ne_true
      rw [reasonsFor_append, reasonsFor_stopHits hu.tenure, if_neg hfree, List.append_nil]
    | submit | purge | pause | resume | shutdown | employ | cancel | elapse | sweep | turn | ask
    | answer => rfl

theorem Upheld.lost_unfolds (hu : Upheld settings limit d) (h : Unfolds settings d d')
    (hlost : (d.system.view id).task = some .lost) :
    (d'.system.view id).task = some .lost ∧ reasonsFor id d'.hits = reasonsFor id d.hits := by
  induction h with
  | refl => exact ⟨hlost, rfl⟩
  | tail hbefore h ih =>
    obtain ⟨hstill, hhits⟩ := (hu.unfolds hbefore).stays_lost h ih.1
    exact ⟨hstill, hhits.trans ih.2⟩

/-- For whom there is a reason on record, and which. -/
structure ReasonsHeld (settings : Settings κ) (d : Diary κ) : Prop where
  unknown : ∀ id, d.system.tasks.get? id = none → d.system.cancelReasons.get? id = none
  /-- A task that has not ended has the reason of the call that hit it last. -/
  live : ∀ id task, d.system.tasks.get? id = some task → task.state.isTerminal = false →
    d.system.cancelReasons.get? id = (reasonsFor id d.hits).getLast?
  hit : ∀ id reason task, (id, reason) ∈ d.hits → d.system.tasks.get? id = some task →
    task.state.isTerminal = false → (d.system.cancelReasons.get? id).isSome = true
  ended : ∀ id task, d.system.tasks.get? id = some task → task.state.isTerminal = true →
    task.state ≠ .lost → d.system.cancelReasons.get? id = none
  /-- A task that is lost keeps what it had. -/
  lost : ∀ id task, d.system.tasks.get? id = some task → task.state = .lost →
    d.system.cancelReasons.get? id = (reasonsFor id d.hits).getLast? ∧
      ∀ d', Unfolds settings d d' →
        d'.system.cancelReasons.get? id = d.system.cancelReasons.get? id
  /-- So reasons outlive their tasks if and only if a task is lost that has been hit. -/
  outlived : (∃ id task, d.system.tasks.get? id = some task ∧ task.state.isTerminal = true ∧
      (d.system.cancelReasons.get? id).isSome = true) ↔
    ∃ id task reason, d.system.tasks.get? id = some task ∧ task.state = .lost ∧ (id, reason) ∈ d.hits

theorem isSome_getLast?_iff {hits : List (TaskId × FailureReason)} :
    (reasonsFor id hits).getLast?.isSome = true ↔ ∃ reason, (id, reason) ∈ hits := by
  rw [List.getLast?_isSome]
  constructor
  · intro h
    obtain ⟨reason, hmem⟩ := List.exists_mem_of_ne_nil _ h
    exact ⟨reason, mem_reasonsFor.mp hmem⟩
  · rintro ⟨reason, hmem⟩
    exact List.ne_nil_of_mem (mem_reasonsFor.mpr hmem)

/-- In every state of every run in which sweeps are whole. -/
theorem reasons_held {maxPending : Option Nat} {orders : List Order}
    (h : Unfolds settings (.start limit maxPending orders) d) : ReasonsHeld settings d := by
  have hstart := Upheld.start settings limit maxPending orders
  have hu := hstart.unfolds h
  have hbooked := hstart.booked_unfolds h (fun _ => ⟨rfl, fun _ => rfl⟩)
  refine
    { unknown := fun id hnone => (hbooked id).unknown hnone
      live := fun id _ htask hopen => (hbooked id).live htask hopen
      hit := ?_
      ended := fun id _ htask hended hne => (hbooked id).ended htask hended hne
      lost := fun id task htask hstate => ⟨(hbooked id).lost htask hstate, fun d' hrun => ?_⟩
      outlived := ?_ }
  · intro id reason task hmem htask hopen
    rw [(hbooked id).live htask hopen, isSome_getLast?_iff]
    exact ⟨reason, hmem⟩
  · have hgone : (d.system.view id).task = some .lost := by rw [view_task htask, hstate]
    obtain ⟨hstill, hhits⟩ := hu.lost_unfolds hrun hgone
    rw [(hu.booked_unfolds hrun hbooked id).entry, (hbooked id).entry, hstill, hgone, hhits]
  · constructor
    · rintro ⟨id, task, htask, hended, hsome⟩
      have hstate : task.state = .lost := by
        by_contra hne
        rw [(hbooked id).ended htask hended hne] at hsome
        cases hsome
      rw [(hbooked id).lost htask hstate, isSome_getLast?_iff] at hsome
      obtain ⟨reason, hmem⟩ := hsome
      exact ⟨id, task, reason, htask, hstate, hmem⟩
    · rintro ⟨id, task, reason, htask, hstate, hmem⟩
      refine ⟨id, task, htask, by rw [hstate]; rfl, ?_⟩
      rw [(hbooked id).lost htask hstate, isSome_getLast?_iff]
      exact ⟨reason, hmem⟩

end Steps

/-- A task that is being worked on is aborted, and its worker has not yet seen it. -/
theorem reasons_held_of_aborted :
    ∃ d : Diary Float, ReasonsHeld usual d ∧ d.hits = [(.ofNat 7, .aborted)] ∧
      (d.system.tasks.get? (.ofNat 7)).map Task.state = some .processing ∧
      d.system.cancelReasons.get? (.ofNat 7) = some .aborted := by
  obtain ⟨d, hrun, hhits, hstate, hreason⟩ : ∃ d : Diary Float,
      Unfolds usual (.start 1 none []) d ∧ d.hits = [(.ofNat 7, .aborted)] ∧
      (d.system.tasks.get? (.ofNat 7)).map Task.state = some .processing ∧
      d.system.cancelReasons.get? (.ofNat 7) = some .aborted := by
    have hwaiting : Unfolds usual (.start 1 none []) _ :=
      .single (.submit (.ofNat 7) (.object [("intent", .string "git")]) (by decide))
    have hbegun := (hwaiting.tail (.employ rfl)).tail (.turn 0 (fun s => (.pending, s)) rfl rfl)
    exact ⟨_, hbegun.tail (.abort (.ofNat 7)), rfl, rfl, rfl⟩
  exact ⟨d, reasons_held hrun, hhits, hstate, hreason⟩

/-- The same task, when it is then silent for too long and is swept away. -/
theorem reason_outlives_lost :
    ∃ d : Diary Float, Unfolds usual (.start 1 none []) d ∧
      (d.system.tasks.get? (.ofNat 7)).map Task.state = some .lost ∧
      d.system.cancelReasons.get? (.ofNat 7) = some .aborted := by
  have hwaiting : Unfolds usual (.start 1 none []) _ :=
    .single (.submit (.ofNat 7) (.object [("intent", .string "git")]) (by decide))
  have hbegun := (hwaiting.tail (.employ rfl)).tail (.turn 0 (fun s => (.pending, s)) rfl rfl)
  have haborted := hbegun.tail (.abort (.ofNat 7))
  have hlate := haborted.tail (.elapse ⟨10000000000, 10000000000⟩)
  exact ⟨_, hlate.tail (.sweep (.ofSecs 5)), rfl, rfl⟩

end Overseer.System
