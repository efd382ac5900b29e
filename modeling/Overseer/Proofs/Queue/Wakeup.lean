import Overseer.Proofs.Queue.Basic

/-! # No wake-up is missed

Who waits for an admission registers for wake-ups first, then looks at the queue under the lock, and only then
sleeps. Who changes the queue does so under the lock and announces it once the lock is free, so that anyone can
register, look or fall asleep between a change and its announcement. The `Lobby` is the queue with its callers at
these stages and with the announcements that are under way, and a run is any list of such small steps.

A caller that sleeps and has not been notified has seen a queue that was `Still`. What ends the stillness of a
queue puts an announcement under way, and an announcement that arrives leaves nobody unnotified.
-/

namespace Overseer

/-! ## The small steps -/

/-- What is left to do of an operation once its change has been made. -/
inductive Announcement
  | wake
  /-- Closing a queue cancels its token before it wakes the waiters. -/
  | cancelAndWake
  deriving DecidableEq

/-- What can happen to the queue under the lock, apart from an admission. -/
inductive QueueChange
  | enqueue (id : TaskId)
  | release (id : TaskId)
  | resume
  | close
  | purge
  | abort (id : TaskId)
  | pause
  | emergencyStop
  deriving DecidableEq

namespace QueueChange

/-- The change under the lock, and what remains to be announced. -/
def perform (q : Queue) : QueueChange → Queue × Option Announcement
  | .enqueue id =>
      match q.push id with
      | .error _ => (q, none)
      | .ok q => (q, some .wake)
  | .release id =>
      let (freed, q) := q.free id
      (q, if freed then some .wake else none)
  | .resume => (q.unpause, some .wake)
  | .close => (q.shut, some .cancelAndWake)
  | .purge => (q.purge.2, none)
  | .abort id => ((q.abort id).2, none)
  | .pause => (q.pause, none)
  | .emergencyStop => (q.emergencyStop.2, none)

/-- The whole operation, as those who call it know it. -/
def whole (q : Queue) : QueueChange → Queue
  | .enqueue id =>
      match q.enqueue id with
      | .error _ => q
      | .ok q => q
  | .release id => (q.release id).2
  | .resume => q.resume
  | .close => q.close
  | .purge => q.purge.2
  | .abort id => (q.abort id).2
  | .pause => q.pause
  | .emergencyStop => q.emergencyStop.2

end QueueChange

/-- What the queue becomes when everything that remains is done at once. -/
def Announcement.finish (q : Queue) : Option Announcement → Queue
  | none => q
  | some .wake => q.wake
  | some .cancelAndWake => (q.cancelToken q.shutdown).wake

/-- An operation that nobody interrupts is its change and then its announcement. -/
theorem QueueChange.whole_eq (q : Queue) (change : QueueChange) :
    change.whole q = Announcement.finish (change.perform q).1 (change.perform q).2 := by
  cases change with
  | enqueue id =>
    simp only [whole, perform, Queue.enqueue]
    cases q.push id with
    | error e => rfl
    | ok q' => rfl
  | release id =>
    simp only [whole, perform, Queue.release]
    cases (q.free id).1 with
    | true => rfl
    | false => rfl
  | resume | close | purge | abort | pause | emergencyStop => rfl

/-- How far a caller has come on its way to an admission. -/
inductive Caller
  | arriving
  /-- Registered when the queue had been woken this often, and about to look. -/
  | registered (since : Nat)
  | asleep (since : Nat)
  | served (admission : Admission)
  /-- Told that the queue is closed. -/
  | dismissed
  deriving DecidableEq

namespace Caller

/-- What a registered caller finds under the lock. -/
def look (q : Queue) (since : Nat) : Caller × Queue :=
  match q.inspect with
  | .closed => (.dismissed, q)
  | .admitted admission q => (.served admission, q)
  | .nothing => (.asleep since, q)

/-- The next step of a caller. One that has been served comes back for another admission. -/
def proceed (q : Queue) : Caller → Caller × Queue
  | .arriving => (.registered q.wakeups, q)
  | .registered since => look q since
  | .asleep since => (if (Waiter.asleep since).isWoken q then .arriving else .asleep since, q)
  | .served _ => (.arriving, q)
  | .dismissed => (.dismissed, q)

def ofWaited (q : Queue) : Waited → Caller × Queue
  | .closed => (.dismissed, q)
  | .admitted admission q => (.served admission, q)
  | .waiting .fresh => (.arriving, q)
  | .waiting (.asleep since) => (.asleep since, q)

/-- A fresh waiter that is polled registers and looks, without interruption. -/
theorem proceed_proceed_arriving (q : Queue) :
    proceed (proceed q .arriving).2 (proceed q .arriving).1
      = ofWaited q (Waiter.fresh.poll q) := by
  show look q q.wakeups = ofWaited q (Waiter.look q)
  unfold look Waiter.look
  cases q.inspect with
  | closed | admitted | nothing => rfl

end Caller

/-- A queue with its callers, and the announcements that have not arrived. -/
structure Lobby where
  queue : Queue
  callers : List Caller
  announcements : List Announcement

inductive LobbyStep
  | arrive
  /-- The caller with this number does its next step. -/
  | proceed (n : Nat)
  /-- The caller with this number is dropped. -/
  | giveUp (n : Nat)
  | change (change : QueueChange)
  /-- The operation with this number goes on with what it has to announce. -/
  | announce (n : Nat)
  deriving DecidableEq

namespace Lobby

def empty (limit : Nat) (maxPending : Option Nat) : Lobby := ⟨.new limit maxPending, [], []⟩

def perform (l : Lobby) : LobbyStep → Lobby
  | .arrive => { l with callers := l.callers ++ [.arriving] }
  | .proceed n =>
      match l.callers[n]? with
      | none => l
      | some caller =>
          let (caller, queue) := caller.proceed l.queue
          { l with queue := queue, callers := l.callers.set n caller }
  | .giveUp n => { l with callers := l.callers.eraseIdx n }
  | .change change =>
      let (queue, announcement) := change.perform l.queue
      { l with queue := queue, announcements := l.announcements ++ announcement.toList }
  | .announce n =>
      match l.announcements[n]? with
      | none => l
      | some .wake =>
          { l with queue := l.queue.wake, announcements := l.announcements.eraseIdx n }
      | some .cancelAndWake =>
          { l with queue := l.queue.cancelToken l.queue.shutdown,
                   announcements := l.announcements.set n .wake }

/-- A new queue after some steps. -/
def run (limit : Nat) (maxPending : Option Nat) (steps : List LobbyStep) : Lobby :=
  steps.foldl perform (empty limit maxPending)

end Lobby

/-! ## Stillness -/

namespace Queue

/-- An open queue that has nothing to hand out. -/
structure Still (q : Queue) : Prop where
  isOpen : q.closed = false
  nothing : q.paused = true ∨ q.limit ≤ q.active.length ∨ q.pending = []

theorem still_of_inspect {q : Queue} (h : q.inspect = .nothing) : q.Still := by
  rcases inspect_cases q with ⟨-, he⟩ | ⟨hopen, hnothing, -⟩ | ⟨id, rest, -, -, -, -, he⟩
  · rw [he] at h
    cases h
  · exact ⟨hopen, hnothing⟩
  · rw [he] at h
    cases h

theorem closed_of_inspect {q : Queue} (h : q.inspect = .closed) : q.closed = true := by
  rcases inspect_cases q with ⟨hclosed, -⟩ | ⟨-, -, he⟩ | ⟨id, rest, -, -, -, -, he⟩
  · exact hclosed
  · rw [he] at h
    cases h
  · rw [he] at h
    cases h

theorem not_still_of_inspect {q q' : Queue} {a : Admission} (h : q.inspect = .admitted a q') :
    ¬q.Still := by
  obtain ⟨rest, hp, hfree, -⟩ := inspect_admitted h
  obtain ⟨-, hpaused, -⟩ := inspect_open h
  rintro ⟨-, hs | hs | hs⟩
  · rw [hpaused] at hs
    cases hs
  · omega
  · rw [hp] at hs
    cases hs

theorem wakeups_of_inspect {q q' : Queue} {a : Admission} (h : q.inspect = .admitted a q') :
    q'.wakeups = q.wakeups := by
  obtain ⟨id, rest, -, -, -, -, hgrant⟩ := grant_of_inspect h
  cases hgrant
  rfl

/-- From `q` to `q'` no sleeper is forgotten: one that has not been notified may go on sleeping, because the queue
is still or because an announcement is coming. -/
structure Heeds (q : Queue) (coming : Prop) (q' : Queue) (coming' : Prop) : Prop where
  wakeups : q.wakeups ≤ q'.wakeups
  closed : q.closed = true → q'.closed = true
  still : q'.wakeups = q.wakeups → q.Still ∨ coming → q'.Still ∨ coming'

namespace Heeds

variable {q q' : Queue} {coming coming' : Prop}

theorem of_coming (hw : q'.wakeups = q.wakeups) (hc : q.closed = true → q'.closed = true)
    (h : coming') : Heeds q coming q' coming' :=
  ⟨Nat.le_of_eq hw.symm, hc, fun _ _ => Or.inr h⟩

/-- A change that has nothing to announce keeps a still queue still. -/
theorem of_still (hw : q'.wakeups = q.wakeups) (hc : q'.closed = q.closed)
    (h : q.Still → q'.Still) : Heeds q coming q' coming :=
  ⟨Nat.le_of_eq hw.symm, fun hclosed => hc.trans hclosed, fun _ hs => hs.imp_left h⟩

theorem refl (q : Queue) (coming : Prop) : Heeds q coming q coming := of_still rfl rfl id

theorem quiet {more : Prop} (h : Heeds q coming q' coming) :
    Heeds q coming q' (coming ∨ more) :=
  ⟨h.wakeups, h.closed, fun hw hs => (h.still hw hs).imp_right Or.inl⟩

theorem look (q : Queue) (coming : Prop) (since : Nat) :
    Heeds q coming (Caller.look q since).2 coming := by
  unfold Caller.look
  cases h : q.inspect with
  | closed | nothing => exact refl q coming
  | admitted a q' =>
    have hs : ¬q.Still := not_still_of_inspect h
    obtain ⟨-, -, -, hgrows, -⟩ := inspect_open h
    exact ⟨Nat.le_of_eq (wakeups_of_inspect h).symm, hgrows.closed,
      fun _ => Or.imp_left (absurd · hs)⟩

theorem proceed (q : Queue) (coming : Prop) (caller : Caller) :
    Heeds q coming (caller.proceed q).2 coming := by
  cases caller with
  | registered since => exact look q coming since
  | arriving | asleep | served | dismissed => exact refl q coming

/-- Whatever ends the stillness of a queue has something to announce. -/
theorem change (q : Queue) (coming : Prop) (change : QueueChange) :
    Heeds q coming (change.perform q).1
      (coming ∨ (change.perform q).2.toList ≠ []) := by
  cases change with
  | enqueue id =>
    unfold QueueChange.perform Queue.push
    by_cases hclosed : q.closed
    · simp only [hclosed, if_true]
      exact (refl q coming).quiet
    · by_cases hfull : q.isFull
      · simp only [hclosed, hfull, if_true]
        exact (refl q coming).quiet
      · simp only [hclosed, hfull]
        exact of_coming rfl (absurd · hclosed) (Or.inr (List.cons_ne_nil _ _))
  | release id =>
    unfold QueueChange.perform Queue.free
    by_cases hactive : q.active.contains id
    · simp only [hactive, if_true]
      exact of_coming rfl (fun hc => hc) (Or.inr (List.cons_ne_nil _ _))
    · simp only [hactive]
      exact (refl q coming).quiet
  | resume => exact of_coming rfl (fun hc => hc) (Or.inr (List.cons_ne_nil _ _))
  | close => exact of_coming rfl (fun _ => rfl) (Or.inr (List.cons_ne_nil _ _))
  | purge =>
    exact quiet (of_still rfl rfl fun hs => ⟨hs.isOpen, Or.inr (Or.inr rfl)⟩)
  | abort id =>
    rcases abort_cases q id with ⟨-, ha⟩ | ⟨token, -, ha⟩ | ha
    · refine quiet ?_
      simp only [QueueChange.perform, ha]
      refine of_still rfl rfl fun hs => ⟨hs.isOpen, ?_⟩
      refine hs.nothing.imp_right (Or.imp_right fun hp => ?_)
      simp only [hp, List.erase_nil]
    · refine quiet ?_
      simp only [QueueChange.perform, ha]
      exact of_still rfl rfl fun hs => ⟨hs.isOpen, hs.nothing⟩
    · refine quiet ?_
      simp only [QueueChange.perform, ha]
      exact refl q coming
  | pause => exact quiet (of_still rfl rfl fun hs => ⟨hs.isOpen, Or.inl rfl⟩)
  | emergencyStop => exact quiet (of_still rfl rfl fun hs => ⟨hs.isOpen, Or.inl rfl⟩)

theorem wake (q : Queue) : Heeds q coming q.wake coming' where
  wakeups := Nat.le_succ _
  closed h := h
  still h := absurd h (Nat.succ_ne_self _)

end Heeds

end Queue

/-! ## Nobody is forgotten -/

/-- What holds of a caller that is not forgotten, whether an announcement is `coming` or not. -/
def Caller.Heeded (q : Queue) (coming : Prop) : Caller → Prop
  | .arriving | .served _ => True
  | .registered since => since ≤ q.wakeups
  | .asleep since => since ≤ q.wakeups ∧ (since = q.wakeups → q.Still ∨ coming)
  | .dismissed => q.closed = true

namespace Caller.Heeded

variable {q q' : Queue} {coming coming' : Prop} {caller : Caller}

theorem follow (h : caller.Heeded q coming) (hq : q.Heeds coming q' coming') :
    caller.Heeded q' coming' := by
  cases caller with
  | arriving | served => trivial
  | registered since => exact Nat.le_trans h hq.wakeups
  | asleep since =>
    obtain ⟨hle, hs⟩ := h
    have hw := hq.wakeups
    refine ⟨Nat.le_trans hle hw, fun he => ?_⟩
    have hsame : q'.wakeups = q.wakeups := by omega
    exact hq.still hsame (hs (he.trans hsame))
  | dismissed => exact hq.closed h

/-- The caller registered before it looked, so a wake-up since then counts. -/
theorem proceed (h : caller.Heeded q coming) :
    (caller.proceed q).1.Heeded (caller.proceed q).2 coming := by
  cases caller with
  | arriving => exact Nat.le_refl _
  | registered since =>
    show (look q since).1.Heeded (look q since).2 coming
    unfold look
    cases hi : q.inspect with
    | closed => exact Queue.closed_of_inspect hi
    | admitted a q' => trivial
    | nothing => exact ⟨h, fun _ => Or.inl (Queue.still_of_inspect hi)⟩
  | asleep since =>
    simp only [Caller.proceed]
    split
    · trivial
    · exact h
  | served => trivial
  | dismissed => exact h

end Caller.Heeded

/-- A caller that cannot go on has been told that the queue is closed, or sleeps and has not been notified. -/
theorem Caller.of_stuck {q : Queue} {caller : Caller} (h : caller.proceed q = (caller, q)) :
    caller = .dismissed ∨ caller = .asleep q.wakeups := by
  have hstop := congrArg Prod.fst h
  cases caller with
  | arriving | served => cases hstop
  | registered since =>
    simp only [proceed, look] at hstop
    cases hi : q.inspect with
    | closed | admitted | nothing =>
      rw [hi] at hstop
      cases hstop
  | asleep since =>
    have hsince : since = q.wakeups ∧ q.isCancelled q.shutdown = false := by
      simpa [proceed, Waiter.isWoken] using hstop
    exact Or.inr (congrArg Caller.asleep hsince.1)
  | dismissed => exact Or.inl rfl

namespace Lobby

variable {l : Lobby}

def Attended (l : Lobby) : Prop :=
  ∀ caller ∈ l.callers, caller.Heeded l.queue (l.announcements ≠ [])

theorem attended_perform (h : l.Attended) (step : LobbyStep) : (l.perform step).Attended := by
  intro caller hm
  cases step with
  | arrive =>
    rcases List.mem_append.mp hm with hm | hm
    · exact h caller hm
    · rw [List.mem_singleton.mp hm]
      trivial
  | proceed n =>
    simp only [perform] at hm ⊢
    cases hn : l.callers[n]? with
    | none =>
      rw [hn] at hm
      exact h caller hm
    | some one =>
      rw [hn] at hm
      rcases List.mem_or_eq_of_mem_set hm with hm | rfl
      · exact (h caller hm).follow (.proceed l.queue _ one)
      · exact (h one (List.mem_of_getElem? hn)).proceed
  | giveUp n => exact h caller (List.mem_of_mem_eraseIdx hm)
  | change change =>
    have hq : l.queue.Heeds (l.announcements ≠ []) (l.perform (.change change)).queue
        ((l.perform (.change change)).announcements ≠ []) := by
      have hc := Queue.Heeds.change l.queue (l.announcements ≠ []) change
      refine ⟨hc.wakeups, hc.closed, fun hw hs => (hc.still hw hs).imp_right ?_⟩
      simp only [perform, ne_eq, List.append_eq_nil_iff, not_and_or]
      exact id
    exact (h caller hm).follow hq
  | announce n =>
    simp only [perform] at hm ⊢
    cases hn : l.announcements[n]? with
    | none =>
      rw [hn] at hm
      exact h caller hm
    | some announcement =>
      rw [hn] at hm
      cases announcement with
      | wake => exact (h caller hm).follow (.wake l.queue)
      | cancelAndWake =>
        refine (h caller hm).follow (.of_coming rfl id ?_)
        have hne := List.ne_nil_of_mem (List.mem_of_getElem? hn)
        simpa [List.set_eq_nil_iff] using hne

theorem attended_run (limit : Nat) (maxPending : Option Nat) (steps : List LobbyStep) :
    (run limit maxPending steps).Attended := by
  have hstart : (empty limit maxPending).Attended := fun _ hm => absurd hm List.not_mem_nil
  unfold run
  generalize empty limit maxPending = l at hstart ⊢
  induction steps generalizing l with
  | nil => exact hstart
  | cons step steps ih => exact ih _ (attended_perform hstart step)

/-- Nothing is coming, so a sleeper that has not been notified has a still queue before it. -/
theorem Attended.woken_or_still (h : l.Attended) (hnone : l.announcements = []) {since : Nat}
    (hm : Caller.asleep since ∈ l.callers) : since < l.queue.wakeups ∨ l.queue.Still := by
  obtain ⟨hle, hs⟩ := h _ hm
  rcases Nat.lt_or_eq_of_le hle with hlt | he
  · exact Or.inl hlt
  · exact Or.inr ((hs he).resolve_right (absurd hnone))

/-- Once nothing is left to announce, whoever sleeps while there is something to hand out, or after the queue has been
closed, has been notified. So with a caller around and with nobody able to go on, the queue is closed, paused,
empty or full. -/
theorem no_missed_wakeup (limit : Nat) (maxPending : Option Nat) (steps : List LobbyStep)
    (h : (run limit maxPending steps).announcements = []) :
    let l := run limit maxPending steps
    let q := l.queue
    (∀ since, Caller.asleep since ∈ l.callers →
      q.closed = true ∨ (q.paused = false ∧ q.pending ≠ [] ∧ q.active.length < q.limit) →
      since < q.wakeups) ∧
    (l.callers ≠ [] → (∀ caller ∈ l.callers, caller.proceed q = (caller, q)) →
      q.closed = true ∨ q.paused = true ∨ q.pending = [] ∨ q.limit ≤ q.active.length) := by
  intro l q
  have hall : l.Attended := attended_run limit maxPending steps
  constructor
  · intro since hm hwork
    refine (hall.woken_or_still h hm).resolve_right fun (hs : q.Still) => ?_
    rcases hwork with hclosed | ⟨hp, hne, hfree⟩
    · rw [hs.isOpen] at hclosed
      cases hclosed
    · rcases hs.nothing with hs | hs | hs
      · rw [hp] at hs
        cases hs
      · omega
      · exact hne hs
  · intro hne hidle
    obtain ⟨caller, hm⟩ := List.exists_mem_of_ne_nil _ hne
    rcases Caller.of_stuck (hidle caller hm) with rfl | rfl
    · exact Or.inl (hall _ hm)
    · rcases (hall.woken_or_still h hm).resolve_left (Nat.lt_irrefl _) with ⟨-, hs | hs | hs⟩
      · exact Or.inr (Or.inl hs)
      · exact Or.inr (Or.inr (Or.inr hs))
      · exact Or.inr (Or.inr (Or.inl hs))

/-- Two callers, one slot and two tasks. The first task comes after one caller has fallen asleep and while the other
has registered and not yet looked. -/
def lateTask : List LobbyStep :=
  [.arrive, .arrive, .proceed 0, .proceed 0, .proceed 1, .change (.enqueue (.ofNat 1)),
    .announce 0]

/-- Each caller has its turns until both sleep again. -/
def settled : List LobbyStep :=
  lateTask ++ [.proceed 1, .change (.enqueue (.ofNat 2)), .announce 0, .proceed 0, .proceed 0,
    .proceed 0, .proceed 1, .proceed 1, .proceed 1]

theorem no_missed_wakeup_lateTask :
    (Caller.asleep 0 ∈ (run 1 none lateTask).callers ∧
      (run 1 none lateTask).queue.pending = [.ofNat 1] ∧
      0 < (run 1 none lateTask).queue.wakeups) ∧
    ((run 1 none settled).callers = [.asleep 2, .asleep 2] ∧
      (run 1 none settled).queue.pending = [.ofNat 2] ∧
      ((run 1 none settled).queue.closed = true ∨ (run 1 none settled).queue.paused = true ∨
        (run 1 none settled).queue.pending = [] ∨
        (run 1 none settled).queue.limit ≤ (run 1 none settled).queue.active.length)) := by
  refine ⟨⟨by decide, by decide, ?_⟩, by decide, by decide, ?_⟩
  · exact (no_missed_wakeup 1 none lateTask rfl).1 0 (by decide)
      (Or.inr ⟨rfl, by decide, by decide⟩)
  · refine (no_missed_wakeup 1 none settled rfl).2 (by decide) ?_
    intro caller hm
    have hc : caller = .asleep 2 := by
      have hall : (run 1 none settled).callers = [.asleep 2, .asleep 2] := by decide
      rw [hall] at hm
      simpa using hm
    rw [hc]
    rfl

end Lobby

end Overseer
