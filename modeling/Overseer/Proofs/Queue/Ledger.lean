import Overseer.Proofs.Queue.Page
import Mathlib.Data.List.Induction

/-! # The ledger of a queue

A queue has many callers: those who bring tasks, those who wait for an admission, those who hold one, and
operators. Two of them may free the same slot, and any of the operators may take a task out of the list. The
`Ledger` is the queue with its callers and with what its answers have said so far, and a run is any list of calls.
Each call turns the page of a ledger into a next one, so a run that brings no id twice stays balanced.
-/

namespace Overseer

/-- What the callers of a queue can do. -/
inductive QueueCall
  | enqueue (id : TaskId)
  /-- Someone asks for an admission. -/
  | arrive
  /-- The waiter with this number is polled. -/
  | poll (n : Nat)
  /-- The waiter with this number is dropped. -/
  | giveUp (n : Nat)
  /-- The admission with this number is dropped. -/
  | drop (n : Nat)
  | release (id : TaskId)
  | purge
  | abort (id : TaskId)
  | emergencyStop
  | pause
  | resume
  | close
  deriving DecidableEq

/-- A queue, its callers and its answers. -/
structure Ledger where
  queue : Queue
  waiters : List Waiter
  /-- The admissions that nobody has dropped. -/
  held : List Admission
  accepted : List TaskId
  admitted : List TaskId
  released : List TaskId
  /-- What each purge, emergency stop and abort took out of the list of pending tasks. -/
  handedBack : List (List TaskId)

namespace Ledger

def empty (limit : Nat) (maxPending : Option Nat) : Ledger :=
  ⟨.new limit maxPending, [], [], [], [], [], []⟩

/-- A slot is released, if there is one. -/
def release (l : Ledger) (id : TaskId) : Ledger :=
  let (freed, queue) := l.queue.release id
  { l with queue := queue, released := if freed then l.released ++ [id] else l.released }

def poll (l : Ledger) (n : Nat) (waiter : Waiter) : Ledger :=
  match waiter.poll l.queue with
  | .closed => { l with waiters := l.waiters.eraseIdx n }
  | .waiting waiter => { l with waiters := l.waiters.set n waiter }
  | .admitted a queue =>
      { l with queue := queue, waiters := l.waiters.eraseIdx n, held := l.held ++ [a],
               admitted := l.admitted ++ [a.id] }

def perform (l : Ledger) : QueueCall → Ledger
  | .enqueue id =>
      match l.queue.enqueue id with
      | .error _ => l
      | .ok queue => { l with queue := queue, accepted := l.accepted ++ [id] }
  | .arrive => { l with waiters := l.waiters ++ [.fresh] }
  | .poll n =>
      match l.waiters[n]? with
      | none => l
      | some waiter => l.poll n waiter
  | .giveUp n => { l with waiters := l.waiters.eraseIdx n }
  | .drop n =>
      match l.held[n]? with
      | none => l
      | some a =>
          { l.release a.id with queue := l.queue.dropAdmission a, held := l.held.eraseIdx n }
  | .release id => l.release id
  | .purge =>
      let (purged, queue) := l.queue.purge
      { l with queue := queue, handedBack := l.handedBack ++ [purged] }
  | .abort id =>
      match l.queue.abort id with
      | (.removedPending, queue) =>
          { l with queue := queue, handedBack := l.handedBack ++ [[id]] }
      | (_, queue) => { l with queue := queue }
  | .emergencyStop =>
      let (stopped, queue) := l.queue.emergencyStop
      { l with queue := queue, handedBack := l.handedBack ++ [stopped.purged] }
  | .pause => { l with queue := l.queue.pause }
  | .resume => { l with queue := l.queue.resume }
  | .close => { l with queue := l.queue.close }

def performAll (l : Ledger) (calls : List QueueCall) : Ledger := calls.foldl perform l

/-- The ledger of a new queue after some calls. -/
def run (limit : Nat) (maxPending : Option Nat) (calls : List QueueCall) : Ledger :=
  (empty limit maxPending).performAll calls

end Ledger

def QueueCall.enqueued? : QueueCall → Option TaskId
  | .enqueue id => some id
  | _ => none

/-- The ids that the calls bring, accepted or not. -/
def enqueued (calls : List QueueCall) : List TaskId := calls.filterMap QueueCall.enqueued?

def Ledger.page (l : Ledger) : Page :=
  ⟨l.queue.pending, l.queue.active, l.held, l.accepted, l.admitted, l.released, l.handedBack⟩

namespace Ledger

open Page

variable {l l' : Ledger} {call : QueueCall} {calls : List QueueCall} {limit : Nat}
  {maxPending : Option Nat}

/-! ## One call -/

/-- What one call does to a ledger. Admissions that were held may be gone after it. -/
structure Step (l l' : Ledger) : Prop where
  limit : l'.queue.limit = l.queue.limit
  maxPending : l'.queue.maxPending = l.queue.maxPending
  page : ∃ p, Next l.queue.limit l.queue.maxPending l.page p ∧
    ∃ held ⊆ p.held, l'.page = { p with held := held }

theorem Step.of_next (hl : l'.queue.limit = l.queue.limit)
    (hm : l'.queue.maxPending = l.queue.maxPending)
    (hn : Next l.queue.limit l.queue.maxPending l.page l'.page) : Step l l' :=
  ⟨hl, hm, l'.page, hn, l'.held, List.Subset.refl _, rfl⟩

theorem Step.of_page (hl : l'.queue.limit = l.queue.limit)
    (hm : l'.queue.maxPending = l.queue.maxPending) (hp : l'.page = l.page) : Step l l' :=
  .of_next hl hm (hp ▸ .keep)

theorem step_release (l : Ledger) (id : TaskId) : Step l (l.release id) := by
  by_cases h : l.queue.active.contains id = true
  · have he : l.release id
        = { l with queue := Queue.wake { l.queue with active := l.queue.active.remove id },
                   released := l.released ++ [id] } := by
      simp [release, Queue.release, Queue.free, h]
    rw [he]
    exact .of_next rfl rfl (.release id h)
  · have he : l.release id = l := by
      simp [release, Queue.release, Queue.free, h]
    rw [he]
    exact .of_page rfl rfl rfl

theorem step_drop (l : Ledger) (n : Nat) : Step l (l.perform (.drop n)) := by
  cases h : l.held[n]? with
  | none =>
    simp only [perform, h]
    exact .of_page rfl rfl rfl
  | some a =>
    simp only [perform, h]
    obtain ⟨hl, hm, p, hn, held, hs, hp⟩ := step_release l a.id
    have hheld : l.held = held := congrArg Page.held hp
    refine ⟨hl, hm, p, hn, l.held.eraseIdx n, ?_, ?_⟩
    · intro b hb
      exact hs (hheld ▸ List.mem_of_mem_eraseIdx hb)
    · exact congrArg (fun q : Page => { q with held := l.held.eraseIdx n }) hp

theorem step_enqueue (l : Ledger) (id : TaskId) : Step l (l.perform (.enqueue id)) := by
  cases h : l.queue.enqueue id with
  | error cause =>
    simp only [perform, h]
    exact .of_page rfl rfl rfl
  | ok queue =>
    obtain ⟨rfl, -, room⟩ := Queue.enqueue_ok h
    simp only [perform, h]
    exact .of_next rfl rfl (.accept id room)

theorem step_poll (l : Ledger) (n : Nat) : Step l (l.perform (.poll n)) := by
  cases hw : l.waiters[n]? with
  | none =>
    simp only [perform, hw]
    exact .of_page rfl rfl rfl
  | some waiter =>
    simp only [perform, hw, poll]
    cases h : waiter.poll l.queue with
    | closed => exact .of_page rfl rfl rfl
    | waiting waiter => exact .of_page rfl rfl rfl
    | admitted a queue =>
      have hi := Waiter.inspect_of_poll h
      obtain ⟨rest, head, room, hp, ha, hl⟩ := Queue.inspect_admitted hi
      obtain ⟨-, -, hm, -, -⟩ := Queue.inspect_open hi
      refine ⟨hl, hm, _, .grant a rest head room, l.held ++ [a], List.Subset.refl _, ?_⟩
      simp only [page, hp, ha]

/-- What purge and emergency stop have in common. -/
theorem next_handBack_all (h : l.page.Balanced l.queue.limit l.queue.maxPending) :
    Next l.queue.limit l.queue.maxPending l.page
      { l.page with pending := [], handedBack := l.handedBack ++ [l.queue.pending] } := by
  have hnone : (l.queue.pending.filter fun id => !l.queue.pending.contains id) = [] := by
    rw [List.filter_eq_nil_iff]
    intro id hid
    simp [hid]
  have hn : Next l.queue.limit l.queue.maxPending l.page _ :=
    .handBack l.queue.pending h.nodup_pending (List.Subset.refl _)
  rwa [show l.page.pending = l.queue.pending from rfl, hnone] at hn

theorem step_abort (h : l.page.Balanced l.queue.limit l.queue.maxPending) (id : TaskId) :
    Step l (l.perform (.abort id)) := by
  rcases Queue.abort_cases l.queue id with ⟨hid, ha⟩ | ⟨token, -, ha⟩ | ha
  · have herase : l.queue.pending.erase id
        = l.queue.pending.filter fun j => !([id].contains j) := by
      have hn : l.queue.pending.Nodup := h.nodup_pending
      rw [hn.erase_eq_filter]
      apply List.filter_congr
      intro j _
      by_cases hj : j = id
      · simp [hj]
      · simp [hj]
    simp only [perform, ha, herase]
    have there : [id] ⊆ l.page.pending := List.cons_subset.mpr ⟨hid, List.nil_subset _⟩
    exact .of_next rfl rfl (.handBack [id] (List.nodup_singleton id) there)
  · simp only [perform, ha]
    exact .of_page rfl rfl rfl
  · simp only [perform, ha]
    exact .of_page rfl rfl rfl

theorem step_perform (h : l.page.Balanced l.queue.limit l.queue.maxPending) (call : QueueCall) :
    Step l (l.perform call) := by
  cases call with
  | enqueue id => exact step_enqueue l id
  | poll n => exact step_poll l n
  | drop n => exact step_drop l n
  | release id => exact step_release l id
  | purge => exact .of_next rfl rfl (next_handBack_all h)
  | emergencyStop => exact .of_next rfl rfl (next_handBack_all h)
  | abort id => exact step_abort h id
  | arrive | giveUp | pause | resume => exact .of_page rfl rfl rfl
  | close => exact .of_page rfl rfl rfl

theorem Step.balanced (h : Step l l') (hb : l.page.Balanced l.queue.limit l.queue.maxPending)
    (hd : l'.accepted.Nodup) : l'.page.Balanced l'.queue.limit l'.queue.maxPending := by
  obtain ⟨hl, hm, p, hn, held, hs, hp⟩ := h
  have hda : p.accepted.Nodup := by
    have he : l'.accepted = p.accepted := congrArg Page.accepted hp
    exact he ▸ hd
  rw [hl, hm, hp]
  exact (hb.next hn hda).drop hs

/-! ## A run of calls -/

theorem performAll_append (l : Ledger) (calls more : List QueueCall) :
    l.performAll (calls ++ more) = (l.performAll calls).performAll more :=
  List.foldl_append

theorem run_append (limit : Nat) (maxPending : Option Nat) (calls more : List QueueCall) :
    run limit maxPending (calls ++ more) = (run limit maxPending calls).performAll more :=
  performAll_append _ _ _

theorem accepted_perform (l : Ledger) (call : QueueCall) :
    (l.perform call).accepted.Sublist (l.accepted ++ call.enqueued?.toList) := by
  have hsame : ∀ l' : Ledger, l'.accepted = l.accepted →
      l'.accepted.Sublist (l.accepted ++ call.enqueued?.toList) := by
    intro l' h
    rw [h]
    exact List.sublist_append_left _ _
  cases call with
  | enqueue id =>
    simp only [perform]
    split
    · exact hsame l rfl
    · exact List.Sublist.refl _
  | poll n =>
    apply hsame
    simp only [perform, poll]
    split
    · rfl
    · split
      · rfl
      · rfl
      · rfl
  | drop n =>
    apply hsame
    simp only [perform]
    split
    · rfl
    · rfl
  | abort id =>
    apply hsame
    simp only [perform]
    split
    · rfl
    · rfl
  | arrive | giveUp | release | purge | emergencyStop | pause | resume | close =>
    exact hsame _ rfl

theorem accepted_run (limit : Nat) (maxPending : Option Nat) (calls : List QueueCall) :
    (run limit maxPending calls).accepted.Sublist (enqueued calls) := by
  induction calls using List.reverseRecOn with
  | nil => exact List.Sublist.refl _
  | append_singleton calls call ih =>
    have hlast : enqueued (calls ++ [call]) = enqueued calls ++ call.enqueued?.toList := by
      cases h : call.enqueued? with
      | none => simp [enqueued, h]
      | some id => simp [enqueued, h]
    rw [run_append, hlast]
    exact (accepted_perform _ call).trans (ih.append_right _)

theorem balanced_run (limit : Nat) (maxPending : Option Nat) (calls : List QueueCall)
    (h : (enqueued calls).Nodup) :
    (run limit maxPending calls).page.Balanced (max limit 1) maxPending ∧
      (run limit maxPending calls).queue.limit = max limit 1 ∧
      (run limit maxPending calls).queue.maxPending = maxPending := by
  induction calls using List.reverseRecOn with
  | nil => exact ⟨balanced_empty _ _, rfl, rfl⟩
  | append_singleton calls call ih =>
    have hsub : (enqueued calls).Sublist (enqueued (calls ++ [call])) := by
      rw [enqueued, enqueued, List.filterMap_append]
      exact List.sublist_append_left _ _
    obtain ⟨hb, hl, hm⟩ := ih (h.sublist hsub)
    have hd := h.sublist (accepted_run limit maxPending (calls ++ [call]))
    rw [run_append] at hd ⊢
    have hb' : (run limit maxPending calls).page.Balanced
        (run limit maxPending calls).queue.limit (run limit maxPending calls).queue.maxPending := by
      rw [hl, hm]
      exact hb
    have hstep := step_perform hb' call
    have hnext := hstep.balanced hb' hd
    rw [hstep.limit, hstep.maxPending, hl, hm] at hnext
    exact ⟨hnext, hstep.limit.trans hl, hstep.maxPending.trans hm⟩

/-! ## Standstill -/

/-- Nobody is admitted from a queue that is paused or closed. -/
def Idle (l : Ledger) : Prop := l.queue.paused = true ∨ l.queue.closed = true

theorem poll_of_idle (h : l.Idle) (n : Nat) (waiter : Waiter) :
    (l.poll n waiter).admitted = l.admitted ∧ (l.poll n waiter).queue = l.queue := by
  unfold poll
  cases hp : waiter.poll l.queue with
  | closed => exact ⟨rfl, rfl⟩
  | waiting waiter => exact ⟨rfl, rfl⟩
  | admitted a queue =>
    obtain ⟨hclosed, hpaused, -, -, -⟩ := Queue.inspect_open (Waiter.inspect_of_poll hp)
    rcases h with h | h
    · rw [hpaused] at h
      cases h
    · rw [hclosed] at h
      cases h

/-- What an idle queue is asked to do leaves the list of admissions alone. Only `resume` can end a pause, and
nothing opens a queue again. -/
theorem perform_of_idle (h : l.Idle) (call : QueueCall) :
    (l.perform call).admitted = l.admitted ∧
      (l.queue.closed = true → (l.perform call).queue.closed = true) ∧
      (call ≠ .resume → l.queue.paused = true → (l.perform call).queue.paused = true) := by
  cases call with
  | enqueue id =>
    simp only [perform]
    cases he : l.queue.enqueue id with
    | error cause => exact ⟨rfl, fun hc => hc, fun _ hp => hp⟩
    | ok queue =>
      obtain ⟨rfl, -⟩ := Queue.enqueue_ok he
      exact ⟨rfl, fun hc => hc, fun _ hp => hp⟩
  | poll n =>
    simp only [perform]
    split
    · exact ⟨rfl, fun hc => hc, fun _ hp => hp⟩
    · rename_i waiter _
      obtain ⟨ha, hq⟩ := poll_of_idle h n waiter
      rw [hq]
      exact ⟨ha, fun hc => hc, fun _ hp => hp⟩
  | drop n =>
    simp only [perform]
    split
    · exact ⟨rfl, fun hc => hc, fun _ hp => hp⟩
    · rename_i a _
      obtain ⟨hp, hc⟩ := Queue.flags_release l.queue a.id
      exact ⟨rfl, fun h => hc.trans h, fun _ h => hp.trans h⟩
  | release id =>
    obtain ⟨hp, hc⟩ := Queue.flags_release l.queue id
    exact ⟨rfl, fun h => hc.trans h, fun _ h => hp.trans h⟩
  | abort id =>
    rcases Queue.abort_cases l.queue id with ⟨-, ha⟩ | ⟨token, -, ha⟩ | ha
    · simp only [perform, ha]
      exact ⟨trivial, fun hc => hc, fun _ hp => hp⟩
    · simp only [perform, ha]
      exact ⟨trivial, fun hc => hc, fun _ hp => hp⟩
    · simp only [perform, ha]
      exact ⟨trivial, fun hc => hc, fun _ hp => hp⟩
  | arrive | giveUp | purge => exact ⟨rfl, fun hc => hc, fun _ hp => hp⟩
  | emergencyStop | pause => exact ⟨rfl, fun hc => hc, fun _ _ => rfl⟩
  | resume => exact ⟨rfl, fun hc => hc, fun hr => absurd rfl hr⟩
  | close => exact ⟨rfl, fun _ => rfl, fun _ hp => hp⟩

theorem performAll_of_closed (h : l.queue.closed = true) (calls : List QueueCall) :
    (l.performAll calls).admitted = l.admitted := by
  induction calls generalizing l with
  | nil => rfl
  | cons call calls ih =>
    obtain ⟨ha, hc, -⟩ := perform_of_idle (Or.inr h) call
    exact (ih (hc h)).trans ha

theorem performAll_of_paused (h : l.queue.paused = true) (hr : .resume ∉ calls) :
    (l.performAll calls).admitted = l.admitted := by
  induction calls generalizing l with
  | nil => rfl
  | cons call calls ih =>
    obtain ⟨hne, hr⟩ := List.ne_and_not_mem_of_not_mem_cons hr
    obtain ⟨ha, -, hp⟩ := perform_of_idle (Or.inl h) call
    exact (ih (hp (Ne.symm hne) h) hr).trans ha

/-! ## The law of the queue -/

/-- What can be said of a queue after any calls, and of what may be called next. -/
structure Orderly (limit : Nat) (maxPending : Option Nat) (calls : List QueueCall) : Prop where
  balanced : (run limit maxPending calls).page.Balanced (max limit 1) maxPending
  paused : ∀ stop ∈ [QueueCall.pause, .emergencyStop], ∀ more, QueueCall.resume ∉ more →
    (run limit maxPending (calls ++ stop :: more)).admitted
      = (run limit maxPending calls).admitted
  closed : ∀ more,
    (run limit maxPending (calls ++ .close :: more)).admitted
      = (run limit maxPending calls).admitted
  /-- A rejected enqueue may as well not have been called. -/
  rejected : ∀ id cause, (run limit maxPending calls).queue.enqueue id = .error cause →
    ∀ more, run limit maxPending (calls ++ .enqueue id :: more)
      = run limit maxPending (calls ++ more)
  /-- Dropping an admission frees the slot of its task and no other. -/
  dropped : ∀ n a, (run limit maxPending calls).held[n]? = some a →
    let before := (run limit maxPending calls).queue
    let after := (run limit maxPending (calls ++ [.drop n])).queue
    after.active.get? a.id = none ∧
      (∀ id, id ≠ a.id → after.active.get? id = before.active.get? id) ∧
      (before.active.get? a.id = none → after = before)

theorem orderly_dropped {n : Nat} {a : Admission} (h : l.held[n]? = some a) :
    (l.perform (.drop n)).queue.active.get? a.id = none ∧
      (∀ id, id ≠ a.id →
        (l.perform (.drop n)).queue.active.get? id = l.queue.active.get? id) ∧
      (l.queue.active.get? a.id = none → (l.perform (.drop n)).queue = l.queue) := by
  have hq : (l.perform (.drop n)).queue = (l.queue.release a.id).2 := by
    simp only [perform, h]
    rfl
  rw [hq]
  rcases Queue.release_cases l.queue a.id with hr | ⟨hr, hfree⟩
  · rw [hr]
    refine ⟨Table.get?_remove _ _, fun id hne => Table.get?_remove_of_ne hne _, ?_⟩
    intro hnone
    have hc : l.queue.active.contains a.id = false := by
      rw [Table.contains_eq, hnone]
      rfl
    rw [← hr]
    simp [Queue.release, Queue.free, hc]
  · rw [hr]
    rw [Table.contains_eq] at hfree
    exact ⟨by simpa using hfree, fun _ _ => rfl, fun _ => rfl⟩

theorem orderly (limit : Nat) (maxPending : Option Nat) (calls : List QueueCall)
    (h : (enqueued calls).Nodup) : Orderly limit maxPending calls := by
  constructor
  · exact (balanced_run limit maxPending calls h).1
  · intro stop hstop more hr
    rw [run_append]
    have hp : ((run limit maxPending calls).perform stop).queue.paused = true ∧
        ((run limit maxPending calls).perform stop).admitted
          = (run limit maxPending calls).admitted := by
      simp only [List.mem_cons, List.not_mem_nil, or_false] at hstop
      rcases hstop with rfl | rfl
      · exact ⟨rfl, rfl⟩
      · exact ⟨rfl, rfl⟩
    exact (performAll_of_paused hp.1 hr).trans hp.2
  · intro more
    rw [run_append]
    have hc : ((run limit maxPending calls).perform .close).queue.closed = true := rfl
    exact performAll_of_closed hc more
  · intro id cause hrej more
    rw [run_append, run_append]
    have hsame : (run limit maxPending calls).perform (.enqueue id)
        = run limit maxPending calls := by
      simp only [perform, hrej]
    have hcons : (run limit maxPending calls).performAll (.enqueue id :: more)
        = ((run limit maxPending calls).perform (.enqueue id)).performAll more := rfl
    rw [hcons, hsame]
  · intro n a ha
    rw [run_append]
    exact orderly_dropped ha

/-- Two slots, room for three: the fourth task is rejected, the second is aborted while it waits, and the slot
of the first is freed before its admission is dropped. -/
def busyDay : List QueueCall :=
  [.enqueue (.ofNat 1), .enqueue (.ofNat 2), .enqueue (.ofNat 3), .enqueue (.ofNat 4), .arrive,
    .arrive, .poll 1, .abort (.ofNat 2), .release (.ofNat 1), .drop 0, .poll 0, .purge]

theorem orderly_busyDay :
    (enqueued busyDay).Nodup ∧ Orderly 2 (some 3) busyDay ∧
      (run 2 (some 3) busyDay).accepted = [.ofNat 1, .ofNat 2, .ofNat 3] ∧
      (run 2 (some 3) busyDay).admitted = [.ofNat 1, .ofNat 3] ∧
      (run 2 (some 3) busyDay).released = [.ofNat 1] ∧
      (run 2 (some 3) busyDay).handedBack = [[.ofNat 2], []] :=
  ⟨by decide, orderly 2 (some 3) busyDay (by decide), by decide, by decide, by decide, by decide⟩

end Ledger

end Overseer
