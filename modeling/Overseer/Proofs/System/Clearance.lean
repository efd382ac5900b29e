import Overseer.Proofs.System.Diary

/-! # What a purge and an emergency stop do

Both change the queue in one step and then go from task to task. All that the system holds of one task is its
`Dossier`, and of a pass over some ids it is said what has become of the dossiers of these, and that it has left
everything else alone (`Dealt`). A pass over distinct ids does to each of them what it would do if there were no
others (`dealt_foldl`). Whoever is taken out of the queue is `TakenOut`, and whoever holds a slot when everything is stopped
is `Warned`; nobody is both, since a task that is pending has no slot.

A queue that is paused stays so until it is resumed, and a paused queue admits nobody (`Upheld.barred`).
-/

namespace Overseer

/-- The record of a task that is aborted. -/
def Task.abandon (t : Task) (reason : FailureReason) (now : Time) : Task :=
  { t with state := .aborted, finishedAt := some now, failure := some ⟨reason, reason.name⟩ }

theorem Task.finish_aborted {t : Task} (h : t.state.canMove .aborted = true)
    (reason : FailureReason) (now : Time) :
    t.finish (.aborted reason) now = .ok (t.abandon reason now) :=
  (t.finish_eq (.aborted reason) now).trans (if_pos h)

/-- A trace that has got a step. -/
def Trace.grown (t : Trace) (step : Step) (now : Time) : Trace :=
  { t with steps := t.steps ++ [⟨step, now⟩], lastActivity := now }

namespace System

open Standing

variable {κ : Type} {s s' s'' : System κ} {id j : TaskId} {ids : List TaskId} {task : Task}
  {trace : Trace} {action detail : String} {reason : FailureReason}

/-! ## Dossiers -/

/-- All that is held of one task, but for its slot and its worker, and all that has been told of it. -/
structure Dossier where
  task : Option Task
  trace : Option Trace
  /-- Why it has been told to stop. -/
  reason : Option FailureReason
  told : List Event

def dossier (s : System κ) (id : TaskId) : Dossier where
  task := s.tasks.get? id
  trace := s.tracer.get? id
  reason := s.cancelReasons.get? id
  told := s.events.filter (·.id == id)

theorem dossier_announce (e : Event) (j : TaskId) (s : System κ) :
    (s.announce .silent e).dossier j
      = { s.dossier j with told := (s.dossier j).told ++ if e.id = j then [e] else [] } := by
  by_cases h : e.id = j
  · simp [dossier, announce, Observer.silent, h]
  · simp [dossier, announce, Observer.silent, h]

section Record

variable (h : s.tracer.get? id = some trace) (hid : trace.id = id) (step : Step)
include h hid

theorem dossier_record : (s.record .silent id step).dossier id
    = { s.dossier id with
        trace := some (trace.grown step s.now)
        told := (s.dossier id).told ++ [.ofStep id trace.steps.length step] } := by
  rw [record_of_get? h, hid, dossier_announce]
  simp [dossier, Table.get?_set, Event.ofStep, Event.id, Trace.grown, Trace.push]

theorem dossier_record_of_ne (hj : j ≠ id) :
    (s.record .silent id step).dossier j = s.dossier j := by
  rw [record_of_get? h, hid, dossier_announce]
  simp [dossier, Table.get?_set_of_ne hj, Event.ofStep, Event.id, Ne.symm hj]

end Record

section Finish

variable (ht : s.tasks.get? id = some task) (ha : task.state.canMove .aborted = true)
  (hr : s.tracer.get? id = some trace) (hb : trace.state.isTerminal = false)
  (reason : FailureReason)
include ht ha hr hb

theorem finish_abandon : s.finish .silent id (.aborted reason)
    = ({ s with
          tracer := s.tracer.set id { trace with state := .aborted }
          cancelReasons := s.cancelReasons.remove id
          tasks := s.tasks.set id (task.abandon reason s.now) } : System κ).announce .silent
        (.taskAborted id reason) := by
  have hstore : s.tasks.finish id (.aborted reason) s.now
      = .ok (s.tasks.set id (task.abandon reason s.now)) :=
    TaskStore.update_ok ht (Task.finish_aborted ha reason s.now)
  have hwon : s.tracer.markTerminal id (Outcome.aborted reason).state
      = (true, s.tracer.set id { trace with state := .aborted }) :=
    Tracer.markTerminal_of_open hr hb rfl
  unfold finish
  rw [hwon]
  simp only [now] at hstore ⊢
  rw [hstore]
  rfl

theorem dossier_abandon : (s.finish .silent id (.aborted reason)).dossier id
    = ⟨some (task.abandon reason s.now), some { trace with state := .aborted }, none,
        (s.dossier id).told ++ [.taskAborted id reason]⟩ := by
  rw [finish_abandon ht ha hr hb, dossier_announce]
  simp [dossier, Table.get?_set, Table.get?_remove, Event.id]

theorem dossier_abandon_of_ne (hj : j ≠ id) :
    (s.finish .silent id (.aborted reason)).dossier j = s.dossier j := by
  rw [finish_abandon ht ha hr hb, dossier_announce]
  simp [dossier, Table.get?_set_of_ne hj, Table.get?_remove_of_ne hj, Event.id, Ne.symm hj]

theorem clock_abandon : (s.finish .silent id (.aborted reason)).clock = s.clock := by
  rw [finish_abandon ht ha hr hb]
  rfl

end Finish

/-! ## Passes over some ids -/

/-- Each of `ids` has been dealt with, and nothing else has been done. -/
structure Dealt (deal : TaskId → Time → Dossier → Dossier → Prop) (ids : List TaskId)
    (s s' : System κ) : Prop where
  each : ∀ id ∈ ids, deal id s.now (s.dossier id) (s'.dossier id)
  others : ∀ id, id ∉ ids → s'.dossier id = s.dossier id
  queue : s'.queue = s.queue
  clock : s'.clock = s.clock
  workers : s'.workers = s.workers
  reached : s'.reached = s.reached

variable {deal : TaskId → Time → Dossier → Dossier → Prop} {ready : TaskId → Dossier → Prop}

theorem Dealt.nil (s : System κ) : Dealt deal [] s s where
  each _ h := nomatch h
  others _ _ := rfl
  queue := rfl
  clock := rfl
  workers := rfl
  reached := rfl

theorem Dealt.cons (hid : id ∉ ids) (h : Dealt deal [id] s s') (h' : Dealt deal ids s' s'') :
    Dealt deal (id :: ids) s s'' where
  each j hj := by
    have hnow : s'.now = s.now := congrArg Clock.reading h.clock
    rcases List.mem_cons.mp hj with rfl | hj
    · rw [h'.others j hid]
      exact h.each j (List.mem_singleton_self j)
    · have hne : j ∉ [id] := fun he => hid (List.mem_singleton.mp he ▸ hj)
      rw [← h.others j hne, ← hnow]
      exact h'.each j hj
  others j hj := by
    rw [List.mem_cons, not_or, ← List.mem_singleton] at hj
    exact (h'.others j hj.2).trans (h.others j hj.1)
  queue := h'.queue.trans h.queue
  clock := h'.clock.trans h.clock
  workers := h'.workers.trans h.workers
  reached := h'.reached.trans h.reached

/-- Who is ready is dealt with, whoever has been dealt with before. -/
theorem dealt_foldl {f : System κ → TaskId → System κ}
    (hf : ∀ s id, ready id (s.dossier id) → Dealt deal [id] s (f s id)) (hnodup : ids.Nodup)
    (hready : ∀ id ∈ ids, ready id (s.dossier id)) : Dealt deal ids s (ids.foldl f s) := by
  induction ids generalizing s with
  | nil => exact .nil s
  | cons id ids ih =>
    obtain ⟨hid, hnodup⟩ := List.nodup_cons.mp hnodup
    have hfirst := hf s id (hready id List.mem_cons_self)
    refine .cons hid hfirst (ih hnodup fun j hj => ?_)
    have hne : j ∉ [id] := fun he => hid (List.mem_singleton.mp he ▸ hj)
    rw [hfirst.others j hne]
    exact hready j (List.mem_cons_of_mem _ hj)

/-! ## The two ways to be dealt with -/

/-- A task that was pending has been ended, and its trace tells by whom. -/
structure TakenOut (action detail : String) (reason : FailureReason) (id : TaskId) (now : Time)
    (d d' : Dossier) : Prop where
  task : ∃ task, d.task = some task ∧ task.state = .pending ∧
    d'.task = some (task.abandon reason now)
  trace : ∃ trace, d.trace = some trace ∧ trace.state = .pending ∧
    d'.trace = some { trace.grown (.okGate component action detail) now with state := .aborted } ∧
    d'.told = d.told ++
      [.ofStep id trace.steps.length (.okGate component action detail), .taskAborted id reason]
  reason : d'.reason = none

/-- A task whose worker has been told to stop. Its state is left to the worker. -/
structure Warned (action detail : String) (reason : FailureReason) (id : TaskId) (now : Time)
    (d d' : Dossier) : Prop where
  task : d'.task = d.task
  trace : ∃ trace, d.trace = some trace ∧
    d'.trace = some (trace.grown (.okGate component action detail) now) ∧
    d'.told = d.told ++ [.ofStep id trace.steps.length (.okGate component action detail)]
  reason : d'.reason = some reason

/-- Who waits in the queue. -/
def Waits (id : TaskId) (d : Dossier) : Prop :=
  (∃ task, d.task = some task ∧ task.state = .pending) ∧
    ∃ trace, d.trace = some trace ∧ trace.id = id ∧ trace.state = .pending

/-- Who has a trace. -/
def Traced (id : TaskId) (d : Dossier) : Prop := ∃ trace, d.trace = some trace ∧ trace.id = id

theorem dealt_discard (h : Waits id (s.dossier id)) :
    Dealt (TakenOut action detail reason) [id] s
      (s.discard .silent action detail reason id) := by
  obtain ⟨⟨task, ht, hpending⟩, trace, hr, hid, hopen⟩ := h
  have hrecord := dossier_record hr hid (.okGate component action detail)
  have hothers := fun (j : TaskId) (hj : j ≠ id) =>
    dossier_record_of_ne hr hid (.okGate component action detail) hj
  have hprivate := Private.record id (.okGate component action detail) s
  have hclock := clock_record id (.okGate component action detail) s
  have hpush : (trace.grown (.okGate component action detail) s.now).state = .pending := hopen
  unfold discard
  generalize s.record .silent id (.okGate component action detail) = u
    at hrecord hothers hprivate hclock ⊢
  have hnow : u.now = s.now := congrArg Clock.reading hclock
  have ht' : u.tasks.get? id = some task := (congrArg Dossier.task hrecord).trans ht
  have hr' : u.tracer.get? id = some (trace.grown (.okGate component action detail) s.now) :=
    congrArg Dossier.trace hrecord
  have ha : task.state.canMove .aborted = true := by rw [hpending]; rfl
  have hb : (trace.grown (.okGate component action detail) s.now).state.isTerminal = false := by
    rw [hpush]
    rfl
  have hfinish := Private.finish id (.aborted reason) u
  refine ⟨fun i hi => ?_, fun i hi => ?_, hfinish.queue.trans hprivate.queue,
    (clock_abandon ht' ha hr' hb reason).trans hclock, hfinish.workers.trans hprivate.workers,
    hfinish.reached.trans hprivate.reached⟩
  · obtain rfl := List.mem_singleton.mp hi
    rw [dossier_abandon ht' ha hr' hb, hrecord, hnow]
    refine ⟨⟨task, ht, hpending, rfl⟩, ⟨trace, hr, hopen, rfl, ?_⟩, rfl⟩
    simp
  · rw [List.mem_singleton] at hi
    rw [dossier_abandon_of_ne ht' ha hr' hb reason hi, hothers i hi]

theorem dealt_note (h : Traced id (s.dossier id)) :
    Dealt (Warned action detail reason) [id] s
      ((s.noteReason id reason).record .silent id (.okGate component action detail)) := by
  obtain ⟨trace, hr, hid⟩ := h
  have hr' : (s.noteReason id reason).tracer.get? id = some trace := hr
  have hprivate := Private.record id (.okGate component action detail) (s.noteReason id reason)
  refine ⟨fun i hi => ?_, fun i hi => ?_, hprivate.queue, clock_record id _ _, hprivate.workers,
    hprivate.reached⟩
  · obtain rfl := List.mem_singleton.mp hi
    rw [dossier_record hr' hid]
    exact ⟨rfl, ⟨trace, hr, rfl, rfl⟩, Table.get?_set _ _ _⟩
  · rw [List.mem_singleton] at hi
    rw [dossier_record_of_ne hr' hid _ hi]
    simp [dossier, noteReason, Table.get?_set_of_ne hi]

/-! ## Who waits and who holds a slot -/

section Kept

variable {watch : Watch} {limit : Nat} {c : Chronicle κ}

theorem Kept.nodup_pending (hk : Kept watch limit c) : c.system.queue.pending.Nodup := by
  rw [List.nodup_iff_count_le_one]
  intro id
  obtain ⟨st, hst, -⟩ := hk.standing id
  have hcount : c.system.queue.pending.count id = (st.view id).queued := congrArg View.queued hst
  rw [hcount]
  cases st <;> simp [Standing.view]

theorem Kept.waits (hk : Kept watch limit c) (hid : id ∈ c.system.queue.pending) :
    Waits id (c.system.dossier id) ∧ c.system.queue.active.get? id = none := by
  obtain ⟨st, hst, -⟩ := hk.standing id
  obtain rfl := eq_queued hst hid
  obtain ⟨task, htask, hpending⟩ := exists_task (congrArg View.task hst)
  obtain ⟨trace, htrace, hopen⟩ := exists_trace (congrArg View.trace hst)
  exact ⟨⟨⟨task, htask, hpending⟩, trace, htrace, hk.stands.filed.label id trace htrace, hopen⟩,
    get?_of_inactive (congrArg View.active hst)⟩

/-- Of the tasks that are pending those wait in the queue that hold no slot. -/
theorem Kept.mem_pending_iff (hk : Kept .whole limit c) : id ∈ c.system.queue.pending ↔
    (∃ task, c.system.tasks.get? id = some task ∧ task.state = .pending) ∧
      c.system.queue.active.get? id = none := by
  constructor
  · intro hid
    exact ⟨(hk.waits hid).1.1, (hk.waits hid).2⟩
  · rintro ⟨⟨task, htask, hpending⟩, hfree⟩
    rcases hk.pending htask hpending with ⟨hone, -⟩ | ⟨-, hactive, -⟩
    · exact List.count_pos_iff.mp (by rw [hone]; exact Nat.one_pos)
    · rw [Table.contains_eq, hfree] at hactive
      cases hactive

theorem mem_keys_active : id ∈ s.queue.active.keys ↔ ∃ token, s.queue.active.get? id = some token := by
  rw [Table.mem_keys_iff, Table.contains_eq, Option.isSome_iff_exists]

theorem Kept.traced (hk : Kept watch limit c) (hid : id ∈ c.system.queue.active.keys) :
    Traced id (c.system.dossier id) := by
  obtain ⟨st, hst, -⟩ := hk.standing id
  have hactive : (st.view id).active = true := by
    rw [← hst]
    exact Table.mem_keys_iff.mp hid
  have hopen : ∃ state, (st.view id).trace = some state := by
    cases st with
    | unknown => cases hactive
    | queued | admitted | running | discarded | stalled | settled => exact ⟨_, rfl⟩
  obtain ⟨state, hstate⟩ := hopen
  rw [← hst] at hstate
  obtain ⟨trace, htrace, -⟩ := exists_trace hstate
  exact ⟨trace, htrace, hk.stands.filed.label id trace htrace⟩

end Kept

/-! ## Tokens -/

section Tokens

variable (h : Tenure s)
include h

/-- The number of the token of a slot is that of nobody else. -/
theorem Tenure.number_of_slot {token : Token} (hslot : token ∈ s.queue.active.values) :
    ∃ number ancestors, token.lineage = number :: ancestors ∧
      number ∉ s.queue.shutdown.lineage ∧
      ∀ a ∈ s.admissions, s.queue.active.get? a.id ≠ some a.token → number ∉ a.token.lineage := by
  obtain ⟨⟨id, token⟩, hmem, rfl⟩ := List.mem_map.mp hslot
  have hget := Table.get?_of_mem h.single hmem
  have howned := h.owned id token hget
  obtain ⟨k, hk, hroot, -⟩ := h.numbered _ howned
  refine ⟨k, _, hk, hroot, fun a ha hne hmem => ?_⟩
  obtain ⟨m, hm, -⟩ := h.numbered a ha
  rw [hm] at hmem
  rcases List.mem_cons.mp hmem with rfl | hmem
  · have hsame : token = a.token := by
      cases token
      cases a with
      | mk id' token' =>
        cases token'
        exact congrArg Token.mk (hk.trans hm.symm)
    obtain rfl := h.apart _ howned a ha hsame
    exact hne hget
  · exact hroot hmem

/-- With a stop of everything the tokens of those are cancelled that hold a slot. -/
theorem Tenure.isCancelled_emergencyStop {a : Admission} (ha : a ∈ s.admissions) :
    s.queue.emergencyStop.2.isCancelled a.token = true ↔
      s.queue.isCancelled a.token = true ∨ s.queue.active.get? a.id = some a.token := by
  change (s.queue.active.values.foldl Tokens.cancel s.queue.tokens).isCancelled a.token = true ↔ _
  by_cases hslot : s.queue.active.get? a.id = some a.token
  · obtain ⟨k, hk, -⟩ := h.numbered a ha
    have hmem : a.token ∈ s.queue.active.values :=
      List.mem_map.mpr ⟨_, Table.mem_of_get? hslot, rfl⟩
    refine iff_of_true (Tokens.isCancelled_cancelAll hmem ?_ _) (Or.inr hslot)
    rw [hk]
    exact List.cons_ne_nil _ _
  · rw [Tokens.isCancelled_cancelAll_of_notMem fun token hmem => ?_]
    · exact ⟨Or.inl, fun hor => hor.resolve_right hslot⟩
    · obtain ⟨number, ancestors, hl, -, hne⟩ := h.number_of_slot hmem
      exact ⟨number, ancestors, hl, hne a ha hslot⟩

theorem Tenure.isCancelled_emergencyStop_shutdown :
    s.queue.emergencyStop.2.isCancelled s.queue.shutdown
      = s.queue.isCancelled s.queue.shutdown := by
  refine Tokens.isCancelled_cancelAll_of_notMem (fun token hmem => ?_) _
  obtain ⟨number, ancestors, hl, hroot, -⟩ := h.number_of_slot hmem
  exact ⟨number, ancestors, hl, hroot⟩

end Tokens

/-! ## Purges -/

structure PurgesExactly (s : System κ) : Prop where
  purged : (s.purge .silent).1 = s.queue.pending
  /-- These are the pending tasks without a slot, each once. -/
  pending : ∀ id, id ∈ s.queue.pending ↔
    (∃ task, s.tasks.get? id = some task ∧ task.state = .pending) ∧
      s.queue.active.get? id = none
  once : s.queue.pending.Nodup
  taken : ∀ id ∈ s.queue.pending, TakenOut "purge" "removed from queue by purge" .purged id s.now
    (s.dossier id) ((s.purge .silent).2.dossier id)
  others : ∀ id, id ∉ s.queue.pending → (s.purge .silent).2.dossier id = s.dossier id
  /-- No slot and no token is another. -/
  queue : (s.purge .silent).2.queue = { s.queue with pending := [] }
  workers : (s.purge .silent).2.workers = s.workers
  reached : (s.purge .silent).2.reached = s.reached

theorem dealt_discardAll (h : ∀ id ∈ ids, Waits id (s.dossier id)) (hnodup : ids.Nodup)
    (action detail : String) (reason : FailureReason) :
    Dealt (TakenOut action detail reason) ids s (s.discardAll action detail reason ids) :=
  dealt_foldl (fun _ _ hwaits => dealt_discard hwaits) hnodup h

theorem Kept.purges {limit : Nat} {c : Chronicle κ} (hk : Kept .whole limit c) :
    PurgesExactly c.system := by
  have hdealt : Dealt (TakenOut "purge" "removed from queue by purge" .purged)
      c.system.queue.pending (c.system.withQueue { c.system.queue with pending := [] })
      (c.system.purge .silent).2 :=
    dealt_discardAll (s := c.system.withQueue { c.system.queue with pending := [] })
      (fun id hid => (hk.waits hid).1) hk.nodup_pending _ _ _
  exact
    { purged := rfl
      pending := fun id => hk.mem_pending_iff
      once := hk.nodup_pending
      taken := hdealt.each
      others := hdealt.others
      queue := hdealt.queue
      workers := hdealt.workers
      reached := hdealt.reached }

/-! ## Stops -/

structure StopsExactly (s : System κ) : Prop where
  purged : (s.emergencyStop .silent).1.purged = s.queue.pending
  cancelled : ∀ id, id ∈ (s.emergencyStop .silent).1.cancelled ↔
    ∃ token, s.queue.active.get? id = some token
  /-- Nobody is named twice. -/
  once : ((s.emergencyStop .silent).1.cancelled ++ (s.emergencyStop .silent).1.purged).Nodup
  taken : ∀ id ∈ (s.emergencyStop .silent).1.purged,
    TakenOut "emergency_stop" "removed from queue by emergency stop" .emergencyStop id s.now
      (s.dossier id) ((s.emergencyStop .silent).2.dossier id)
  warned : ∀ id ∈ (s.emergencyStop .silent).1.cancelled,
    Warned "emergency_stop" "cancelled by emergency stop" .emergencyStop id s.now
      (s.dossier id) ((s.emergencyStop .silent).2.dossier id)
  others : ∀ id, id ∉ (s.emergencyStop .silent).1.cancelled →
    id ∉ (s.emergencyStop .silent).1.purged →
    (s.emergencyStop .silent).2.dossier id = s.dossier id
  /-- The token of each slot is cancelled. -/
  told : ∀ id token, s.queue.active.get? id = some token →
    (s.emergencyStop .silent).2.isCancelled token = true
  /-- No other token is: not that of a worker whose slot has been taken from it. -/
  spared : ∀ a ∈ s.admissions, s.queue.active.get? a.id ≠ some a.token →
    (s.emergencyStop .silent).2.isCancelled a.token = s.isCancelled a.token
  /-- Nor the token that all others descend from. -/
  root : (s.emergencyStop .silent).2.isCancelled s.queue.shutdown = s.isCancelled s.queue.shutdown
  /-- The queue is paused with nothing pending, and every slot is held as before. -/
  queue : (s.emergencyStop .silent).2.queue
    = { s.queue with
        paused := true, pending := [], tokens := (s.emergencyStop .silent).2.queue.tokens }
  workers : (s.emergencyStop .silent).2.workers = s.workers
  reached : (s.emergencyStop .silent).2.reached = s.reached

theorem Kept.stops {limit : Nat} {c : Chronicle κ} (hk : Kept .whole limit c)
    (h : Tenure c.system) : StopsExactly c.system := by
  -- First those who hold a slot are warned, and then those are taken out who wait.
  have hnote (s : System κ) (id : TaskId) : Traced id (s.dossier id) → Dealt _ [id] s (s.noteStop .silent id) :=
    dealt_note
  have hwarned : Dealt (Warned "emergency_stop" "cancelled by emergency stop" .emergencyStop)
      c.system.queue.active.keys (c.system.withQueue c.system.queue.emergencyStop.2)
      (c.system.queue.active.keys.foldl (fun s id => s.noteStop .silent id)
        (c.system.withQueue c.system.queue.emergencyStop.2)) :=
    dealt_foldl hnote h.single fun id hid => hk.traced hid
  have heq : (c.system.emergencyStop .silent).2
      = (c.system.queue.active.keys.foldl (fun s id => s.noteStop .silent id)
          (c.system.withQueue c.system.queue.emergencyStop.2)).discardAll "emergency_stop"
        "removed from queue by emergency stop" .emergencyStop c.system.queue.pending := rfl
  generalize c.system.queue.active.keys.foldl (fun s id => s.noteStop .silent id)
    (c.system.withQueue c.system.queue.emergencyStop.2) = t at hwarned heq
  have hapart : ∀ id ∈ c.system.queue.pending, id ∉ c.system.queue.active.keys := by
    intro id hid hkeys
    obtain ⟨token, hslot⟩ := mem_keys_active.mp hkeys
    rw [(hk.waits hid).2] at hslot
    cases hslot
  have hsame : ∀ id ∈ c.system.queue.pending, t.dossier id = c.system.dossier id :=
    fun id hid => hwarned.others id (hapart id hid)
  have hwaits : ∀ id ∈ c.system.queue.pending, Waits id (t.dossier id) :=
    fun id hid => hsame id hid ▸ (hk.waits hid).1
  have htaken := dealt_discardAll hwaits hk.nodup_pending "emergency_stop"
    "removed from queue by emergency stop" .emergencyStop
  rw [← heq] at htaken
  have hqueue : (c.system.emergencyStop .silent).2.queue = c.system.queue.emergencyStop.2 :=
    htaken.queue.trans hwarned.queue
  have hcancelled : ∀ token, (c.system.emergencyStop .silent).2.isCancelled token
      = c.system.queue.emergencyStop.2.isCancelled token := fun token => by
    unfold isCancelled
    rw [hqueue]
  have hnow : t.now = c.system.now := congrArg Clock.reading hwarned.clock
  exact
    { purged := rfl
      cancelled := fun id => mem_keys_active
      once := h.single.append hk.nodup_pending fun id hkeys hid => hapart id hid hkeys
      taken := fun id hid => hsame id hid ▸ hnow ▸ htaken.each id hid
      warned := fun id hid => by
        rw [htaken.others id fun hpending => hapart id hpending hid]
        exact hwarned.each id hid
      others := fun id hkeys hpending =>
        (htaken.others id hpending).trans (hwarned.others id hkeys)
      told := fun id token hslot => by
        rw [hcancelled]
        exact (h.isCancelled_emergencyStop (h.owned id token hslot)).mpr (Or.inr hslot)
      spared := fun a ha hne => by
        rw [hcancelled, Bool.eq_iff_iff, h.isCancelled_emergencyStop ha]
        exact or_iff_left hne
      root := (hcancelled _).trans h.isCancelled_emergencyStop_shutdown
      queue := by
        rw [hqueue]
        rfl
      workers := htaken.workers.trans hwarned.workers
      reached := htaken.reached.trans hwarned.reached }

/-! ## A queue that is paused -/

theorem queue_performAll (chores : List Chore) (s : System κ) :
    (Chore.performAll chores s).queue = s.queue :=
  foldl_keeps (fun s : System κ => s.queue) (fun s chore => (Private.perform chore s).queue) chores s

section Paused

variable (h : s.queue.paused = true)
include h

theorem paused_strike (call : Intervention) : (s.strike call).2.queue.paused = true := by
  rcases strike_cases s call with ⟨id, -, -, he⟩ | ⟨id, token, -, -, he⟩ | ⟨id, -, -, he⟩ |
    ⟨-, he⟩ | ⟨-, he⟩
  · rw [he]
    exact h
  · rw [he]
    exact h
  · rw [he]
    exact h
  · rw [he]
    exact h
  · rw [he]
    rfl

theorem paused_abort (id : TaskId) : (s.abort .silent id).2.queue.paused = true := by
  rcases abort_eq_or id s with he | he
  · rw [he]
    exact h
  · rw [he, queue_performAll]
    exact paused_strike h _

theorem paused_purge : (s.purge .silent).2.queue.paused = true := by
  rw [purge_eq, queue_performAll]
  exact paused_strike h _

theorem paused_submit (id : TaskId) (payload : Json) :
    (s.submit .silent id payload).2.queue.paused = true := by
  rcases submit_cases id payload s with ⟨step, cause, he⟩ | ⟨-, he⟩
  · rw [he, queue_finish, queue_record, queue_register]
    exact h
  · rw [he]
    exact h

end Paused

theorem paused_emergencyStop (s : System κ) :
    (s.emergencyStop .silent).2.queue.paused = true := by
  rw [emergencyStop_eq, queue_performAll]
  rfl

theorem paused_evict (id : TaskId) (s : System κ) :
    (s.evict id).queue.paused = s.queue.paused := by
  unfold evict
  split
  · exact (Queue.flags_release _ id).1
  · exact (Queue.flags_release _ id).1

theorem paused_markLost (id : TaskId) (s : System κ) :
    (s.markLost .silent id).2.queue.paused = s.queue.paused := by
  obtain ⟨t, hprivate, -, he | he⟩ := markLost_private id s
  · rw [he, hprivate.queue]
  · rw [he, paused_evict, hprivate.queue]

theorem paused_sweep (timeout : Duration) (s : System κ) :
    (s.sweep .silent timeout).2.queue.paused = s.queue.paused := by
  have hflags : (s.flagStalled .silent timeout).2.queue = s.queue := (flagStalled_frame timeout s).2.1
  rw [← hflags]
  exact foldl_keeps (fun s : System κ => s.queue.paused) (fun s id => paused_markLost id s) _ _

theorem Stint.paused {n : Nat} (h : Stint n s s') : s'.queue.paused = s.queue.paused := by
  cases h with
  | idle => rfl
  | worked hw own noted before taken comes =>
    rw [← own.queue]
    cases comes with
    | goesOn phase hq hb => rw [setPhase, hq.queue]
    | leaves o hq hf => rw [queue_leave, (Queue.flags_release _ _).1, hq.queue]

/-- A submission to a queue that is open and has room is accepted, and waits behind the others. -/
theorem submit_ok (hc : s.queue.closed = false) (hf : s.queue.isFull = false) (id : TaskId)
    (payload : Json) : (s.submit .silent id payload).1 = .ok id ∧
      (s.submit .silent id payload).2.queue.pending = s.queue.pending ++ [id] := by
  have hqueue := queue_register id payload s
  have henqueue : s.queue.enqueue id
      = .ok (Queue.wake { s.queue with pending := s.queue.pending ++ [id] }) := by
    simp [Queue.enqueue, Queue.push, hc, hf, Except.map]
  have he : s.submit .silent id payload = (.ok id, (s.register .silent id payload).withQueue
      (Queue.wake { s.queue with pending := s.queue.pending ++ [id] })) := by
    simp only [submit, hqueue, henqueue]
  rw [he]
  exact ⟨rfl, rfl⟩

section Runs

variable [Cost κ] {settings : Settings κ} {limit : Nat} {d d' : Diary κ}

theorem Happens.resumed_le (h : Happens settings d d') : d.resumed ≤ d'.resumed := by
  cases h with
  | resume => exact Nat.le_succ _
  | submit | abort | purge | emergencyStop | pause | shutdown | employ | cancel | elapse | sweep
  | turn | ask | answer => exact Nat.le_refl _

theorem resumed_le_of_unfolds (h : Unfolds settings d d') : d.resumed ≤ d'.resumed := by
  induction h with
  | refl => exact Nat.le_refl _
  | tail _ h ih => exact Nat.le_trans ih h.resumed_le

/-- Only to resume the queue ends a pause. -/
theorem Upheld.paused (hu : Upheld settings limit d) (h : Happens settings d d')
    (hr : d'.resumed = d.resumed) (hp : d.system.queue.paused = true) :
    d'.system.queue.paused = true := by
  cases h with
  | submit id payload new => exact paused_submit hp id payload
  | abort id => exact paused_abort hp id
  | purge => exact paused_purge hp
  | emergencyStop => exact paused_emergencyStop _
  | pause => rfl
  | resume => exact absurd hr (Nat.succ_ne_self _)
  | shutdown | cancel | elapse => exact hp
  | employ hi => exact absurd (hp.symm.trans (Queue.inspect_open hi).2.1) Bool.noConfusion
  | sweep timeout => exact (paused_sweep timeout d.system).trans hp
  | turn n execute free h => exact (hu.kept.stint_turn h execute).paused.trans hp
  | ask n free h =>
    obtain ⟨calls, rfl⟩ := exists_reached h
    exact hp
  | answer n poll waiting => exact (hu.stint_answer waiting poll).paused.trans hp

/-- A queue that is paused admits nobody. -/
theorem Upheld.admissions (hu : Upheld settings limit d) (h : Happens settings d d')
    (hp : d.system.queue.paused = true) : d'.system.admissions = d.system.admissions := by
  rcases hu.cases h with ⟨hact, -⟩ | ⟨n, s, hs, rfl⟩ | ⟨n, hstint, -⟩
  · rcases hact.abides_or with habides | ⟨a, q, hi, -⟩
    · exact habides.admissions
    · exact absurd (hp.symm.trans (Queue.inspect_open hi).2.1) Bool.noConfusion
  · obtain ⟨calls, rfl⟩ := exists_reached hs
    rfl
  · exact hstint.abides.admissions

/-- What is left of a run while the queue is paused. -/
structure Barred (d d' : Diary κ) : Prop where
  paused : d'.system.queue.paused = true
  admissions : d'.system.admissions = d.system.admissions
  idle : ∀ a q, d'.system.queue.inspect ≠ .admitted a q
  /-- A submission is accepted as if the queue were not paused. -/
  accepts : ∀ id payload, d'.system.queue.closed = false → d'.system.queue.isFull = false →
    (d'.system.submit .silent id payload).1 = .ok id ∧
      (d'.system.submit .silent id payload).2.queue.pending = d'.system.queue.pending ++ [id]

theorem Upheld.barred (hu : Upheld settings limit d) (hp : d.system.queue.paused = true)
    (h : Unfolds settings d d') (hr : d'.resumed = d.resumed) : Barred d d' := by
  have hboth : d'.system.queue.paused = true ∧ d'.system.admissions = d.system.admissions := by
    induction h with
    | refl => exact ⟨hp, rfl⟩
    | @tail e e' hbefore h ih =>
      have hle := resumed_le_of_unfolds hbefore
      have hle' := h.resumed_le
      obtain ⟨hpaused, hsame⟩ := ih (by omega)
      have hu' := hu.unfolds hbefore
      exact ⟨hu'.paused h (by omega) hpaused, (hu'.admissions h hpaused).trans hsame⟩
  refine ⟨hboth.1, hboth.2, fun a q hi => ?_, fun id payload hc hf => submit_ok hc hf id payload⟩
  exact absurd (hboth.1.symm.trans (Queue.inspect_open hi).2.1) Bool.noConfusion

structure ClearsExactly (settings : Settings κ) (d : Diary κ) : Prop where
  purge : PurgesExactly d.system
  stop : StopsExactly d.system
  /-- Until the queue is resumed. -/
  after : ∀ d', Unfolds settings d.stop d' → d'.resumed = d.resumed → Barred d.stop d'

/-- At any moment of any run in which sweeps are whole. -/
theorem clears_exactly {maxPending : Option Nat} {orders : List Order}
    (h : Unfolds settings (.start limit maxPending orders) d) : ClearsExactly settings d := by
  have hu := (Upheld.start settings limit maxPending orders).unfolds h
  have hstop : Happens settings d d.stop := .emergencyStop
  exact ⟨hu.kept.purges, hu.kept.stops hu.tenure,
    fun d' hrun hr => (hu.happens hstop).barred (paused_emergencyStop _) hrun hr⟩

/-- The first of two tasks holds the only slot and is being worked on, and the second waits. -/
theorem clears_exactly_of_two :
    ∃ d : Diary Float, d.submitted = [.ofNat 8, .ofNat 7] ∧ ClearsExactly usual d ∧
      (d.system.purge .silent).1 = [.ofNat 8] ∧
      (d.system.emergencyStop .silent).1 = ⟨[.ofNat 7], [.ofNat 8]⟩ := by
  have hrun : ∃ d : Diary Float, Unfolds usual (.start 1 none []) d ∧
      d.submitted = [.ofNat 8, .ofNat 7] ∧ (d.system.purge .silent).1 = [.ofNat 8] ∧
      (d.system.emergencyStop .silent).1 = ⟨[.ofNat 7], [.ofNat 8]⟩ :=
    ⟨_, ((((Relation.ReflTransGen.refl.tail
      (.submit (.ofNat 7) (.object [("intent", .string "git")]) (by decide))).tail
      (.submit (.ofNat 8) .null (by decide))).tail (.employ rfl)).tail
        (.turn 0 (fun s => (.pending, s)) rfl rfl)), rfl, rfl, rfl⟩
  obtain ⟨d, hunfolds, hsubmitted, hpurged, hstopped⟩ := hrun
  exact ⟨d, hsubmitted, clears_exactly hunfolds, hpurged, hstopped⟩

end Runs

end System

end Overseer
