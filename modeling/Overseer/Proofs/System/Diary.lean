import Overseer.Proofs.System.Stall

/-! # Diaries

In a `Diary` each call of an operator and each sweep is one step, and any number of workers may wait for the executor
while the rest goes on. It also has down whom an abort or an emergency stop has told to stop, and how often the queue
has been resumed.

`Upheld` is what every step keeps: all that is kept along a run (`Kept`, `Tenure`), and that each worker that waits is
where its turn began. For this a step is one of three things: something done from outside, a question to the executor,
or the turn of a worker that has its answer or asks nobody. The last is a `Stint`. It takes up one task at most, and all
that it comes to is read off `Worked`.
-/

namespace Overseer.System

open Standing

variable {κ : Type}

structure Diary (κ : Type) extends Chronicle κ where
  /-- The workers that wait for the executor, each with the system that its turn found. -/
  asking : Table Nat (System κ)
  /-- Whom an abort or an emergency stop has told to stop, each with the reason of the call. -/
  hits : List (TaskId × FailureReason)
  /-- How often the queue has been resumed. -/
  resumed : Nat

/-- Whom an abort tells to stop: a task that was pending it ends itself. -/
def abortHits (s : System κ) (id : TaskId) : List (TaskId × FailureReason) :=
  match (s.abort .silent id).1, (s.queue.abort id).1 with
  | .ok (), .cancelRequested => [(id, .aborted)]
  | _, _ => []

/-- Whom an emergency stop tells to stop. -/
def stopHits (s : System κ) : List (TaskId × FailureReason) :=
  (s.emergencyStop .silent).1.cancelled.map fun id => (id, .emergencyStop)

namespace Diary

/-- Before anything has been done. -/
def start (limit : Nat) (maxPending : Option Nat) (orders : List Order) : Diary κ :=
  ⟨.start limit maxPending orders, [], [], 0⟩

variable (d : Diary κ)

def on (s : System κ) : Diary κ := { d with system := s }

def submit (id : TaskId) (payload : Json) : Diary κ :=
  { d with system := (d.system.submit .silent id payload).2, submitted := id :: d.submitted }

def abort (id : TaskId) : Diary κ :=
  { d with system := (d.system.abort .silent id).2, hits := d.hits ++ d.system.abortHits id }

def stop : Diary κ :=
  { d with system := (d.system.emergencyStop .silent).2, hits := d.hits ++ d.system.stopHits }

def resume : Diary κ := { d with system := d.system.resume.2, resumed := d.resumed + 1 }

def sweep (timeout : Duration) : Diary κ :=
  { d with
    system := (d.system.sweep .silent timeout).2
    flagged := (d.system.sweep .silent timeout).1 ++ d.flagged }

/-- A worker asks the executor. -/
def ask (n : Nat) (s : System κ) : Diary κ :=
  { d with system := s, asking := d.asking.set n d.system }

end Diary

variable {s s' s₀ s₁ : System κ} {n : Nat} {w : Worker κ} {settings : Settings κ} {limit : Nat}
  {c : Chronicle κ}

/-- What every step keeps. -/
structure Upheld (settings : Settings κ) (limit : Nat) (d : Diary κ) : Prop where
  kept : Kept .whole limit d.toChronicle
  tenure : Tenure d.system
  waiting : ∀ n s, d.asking.get? n = some s →
    ∃ w s', d.system.workers[n]? = some w ∧ s.workers[n]? = some w ∧ s.consulted settings n = some s'

theorem Upheld.start (settings : Settings κ) (limit : Nat) (maxPending : Option Nat)
    (orders : List Order) : Upheld settings (max limit 1) (Diary.start limit maxPending orders) where
  kept := .start .whole limit maxPending orders
  tenure := .new limit maxPending orders
  waiting _ _ h := nomatch h

/-! ## Stints -/

/-- What a turn comes to, of a worker that has its answer or asks nobody. The worker may take up its task first. -/
inductive Stint (n : Nat) (s : System κ) : System κ → Prop
  | idle : Stint n s s
  | worked {w : Worker κ} {t s' : System κ} (worker : s.workers[n]? = some w)
      (own : Private w.admission.id s t) (noted : t.cancelReasons = s.cancelReasons)
      (before : t = s ∨
        (s.view w.admission.id).task = some .pending ∧
          (t.view w.admission.id).task = some .processing)
      (taken : ∃ state, state ≠ .pending ∧ (t.view w.admission.id).task = some state ∧
        (t.view w.admission.id).trace = some state)
      (comes : Worked n w.admission t s') (advance : Advance nobody nobody s s') : Stint n s s'

namespace Stint

variable (h : Stint n s s')
include h

theorem advance : Advance nobody nobody s s' := by
  cases h with
  | idle => exact (Aside.refl s).toAdvance
  | worked hw own noted before taken comes advance => exact advance

theorem abides : Abides s s' := by
  cases h with
  | idle => exact .refl s
  | worked hw own noted before taken comes => exact (Abides.of_private own).trans (.worked comes)

theorem workers_of_ne {m : Nat} (hm : m ≠ n) : s'.workers[m]? = s.workers[m]? := by
  cases h with
  | idle => rfl
  | worked hw own noted before taken comes =>
    obtain ⟨phase, hworkers, -⟩ := comes.workers_eq
    rw [hworkers, own.workers, List.getElem?_modify_ne _ _ (Ne.symm hm)]

end Stint

/-- A worker at work has taken up its task, and without a split sweep the trace goes with the task. -/
theorem Kept.stint_of_busy (hk : Kept .whole limit c) (hw : c.system.workers[n]? = some w)
    (hb : w.phase.activity = .busy) (h : Worked n w.admission c.system s') :
    Stint n c.system s' := by
  refine .worked hw (.refl _ _) rfl (Or.inl rfl) ?_ h (advance_worked h hw hb)
  obtain ⟨st, hst, -, hne⟩ := hk.cases_of_whole w.admission.id
  rcases cases_of_busy hst hw hb with rfl | rfl | ⟨state, ended, rfl⟩
  · exact ⟨.processing, by decide, congrArg View.task hst, congrArg View.trace hst⟩
  · exact absurd rfl (hne true)
  · refine ⟨state, ?_, congrArg View.task hst, congrArg View.trace hst⟩
    rintro rfl
    cases ended

variable [Cost κ]

theorem Kept.stint_turn (hk : Kept .whole limit c) (h : c.system.consulted settings n = none)
    (execute : Execute κ) : Stint n c.system (c.system.turn .silent settings n execute) := by
  cases hw : c.system.workers[n]? with
  | none =>
    rw [turn_of_none hw]
    exact .idle
  | some w =>
    cases hb : w.phase.activity with
    | gone =>
      rw [turn_of_gone hw hb]
      exact .idle
    | due =>
      obtain ⟨st, hst, -⟩ := hk.standing w.admission.id
      obtain rfl := eq_admitted hst hw hb
      obtain ⟨t, hstarted, hworked⟩ := worked_begin (n := n) (congrArg View.task hst) settings
      have htask : (t.view w.admission.id).task = some .processing := by
        rw [hstarted.own]
      have htrace : (t.view w.admission.id).trace = some .processing := by
        rw [hstarted.own, hst]
        rfl
      rw [turn_of_due hw hb]
      exact .worked hw hstarted.toPrivate hstarted.noted
        (Or.inr ⟨congrArg View.task hst, htask⟩) ⟨.processing, by decide, htask, htrace⟩ hworked
        (advance_begin hw hst settings)
    | busy => exact hk.stint_of_busy hw hb (worked_turn_of_none hw hb h execute)

/-- The system may have changed while the worker waited, if the worker is where it was. -/
theorem Kept.stint_answer (hk : Kept .whole limit c) (hw : c.system.workers[n]? = some w)
    (hw₀ : s₀.workers[n]? = some w) (h : s₀.consulted settings n = some s₁) (poll : Poll κ) :
    Stint n c.system (s₀.turn .silent settings n fun _ => (poll, c.system)) := by
  obtain ⟨hb, hworked⟩ := worked_turn hw₀ h fun _ => (poll, c.system)
  exact hk.stint_of_busy hw hb hworked

/-! ## Steps -/

/-- The executor has answered a worker, or has said that it has not finished yet. -/
def Diary.answer (settings : Settings κ) (n : Nat) (s : System κ) (poll : Poll κ) (d : Diary κ) :
    Diary κ :=
  { d with
    system := s.turn .silent settings n fun _ => (poll, d.system)
    asking := d.asking.remove n }

inductive Happens (settings : Settings κ) (d : Diary κ) : Diary κ → Prop
  | submit (id : TaskId) (payload : Json) (new : id ∉ d.submitted) :
      Happens settings d (d.submit id payload)
  | abort (id : TaskId) : Happens settings d (d.abort id)
  | purge : Happens settings d (d.on (d.system.purge .silent).2)
  | emergencyStop : Happens settings d d.stop
  | pause : Happens settings d (d.on d.system.pause.2)
  | resume : Happens settings d d.resume
  | shutdown : Happens settings d (d.on d.system.shutdown)
  | employ {a : Admission} {q : Queue} (h : d.system.queue.inspect = .admitted a q) :
      Happens settings d (d.on (d.system.employ a q))
  /-- Whoever holds a token may cancel it. -/
  | cancel (token : Token) :
      Happens settings d (d.on (d.system.withQueue (d.system.queue.cancelToken token)))
  | elapse (clock : Clock) : Happens settings d (d.on { d.system with clock := clock })
  | sweep (timeout : Duration) : Happens settings d (d.sweep timeout)
  /-- A worker that waits for nothing and asks nobody. -/
  | turn (n : Nat) (execute : Execute κ) (free : d.asking.get? n = none)
      (h : d.system.consulted settings n = none) :
      Happens settings d (d.on (d.system.turn .silent settings n execute))
  | ask (n : Nat) {s : System κ} (free : d.asking.get? n = none)
      (h : d.system.consulted settings n = some s) : Happens settings d (d.ask n s)
  | answer (n : Nat) {s : System κ} (poll : Poll κ) (waiting : d.asking.get? n = some s) :
      Happens settings d (d.answer settings n s poll)

abbrev Unfolds (settings : Settings κ) : Diary κ → Diary κ → Prop :=
  Relation.ReflTransGen (Happens settings)

variable {d d' : Diary κ}

theorem Upheld.stint_answer (hu : Upheld settings limit d) (waiting : d.asking.get? n = some s)
    (poll : Poll κ) : Stint n d.system (d.answer settings n s poll).system := by
  obtain ⟨w, s₁, hw, hw₀, hs⟩ := hu.waiting n s waiting
  exact hu.kept.stint_answer hw hw₀ hs poll

/-- The three things that a step can be. -/
theorem Upheld.cases (hu : Upheld settings limit d) (h : Happens settings d d') :
    (Act .whole d.toChronicle d'.toChronicle ∧ d'.asking = d.asking) ∨
    (∃ n s, d.system.consulted settings n = some s ∧ d' = d.ask n s) ∨
    ∃ n, Stint n d.system d'.system ∧ d'.toChronicle = d.toChronicle.on d'.system ∧
      ∀ m s, d'.asking.get? m = some s → m ≠ n ∧ d.asking.get? m = some s := by
  cases h with
  | submit id payload new => exact Or.inl ⟨.submit id payload new, rfl⟩
  | abort id => exact Or.inl ⟨.abort id, rfl⟩
  | purge => exact Or.inl ⟨.purge, rfl⟩
  | emergencyStop => exact Or.inl ⟨.emergencyStop, rfl⟩
  | pause => exact Or.inl ⟨.pause, rfl⟩
  | resume => exact Or.inl ⟨.resume, rfl⟩
  | shutdown => exact Or.inl ⟨.shutdown, rfl⟩
  | employ hi => exact Or.inl ⟨.employ hi, rfl⟩
  | cancel token => exact Or.inl ⟨.cancel token, rfl⟩
  | elapse clock => exact Or.inl ⟨.elapse clock, rfl⟩
  | sweep timeout => exact Or.inl ⟨.sweep timeout, rfl⟩
  | ask n free h => exact Or.inr (Or.inl ⟨n, _, h, rfl⟩)
  | turn n execute free h =>
    refine Or.inr (Or.inr ⟨n, hu.kept.stint_turn h execute, rfl, fun m s hm => ⟨?_, hm⟩⟩)
    rintro rfl
    exact absurd (free.symm.trans hm) (fun he => nomatch he)
  | answer n poll waiting =>
    refine Or.inr (Or.inr ⟨n, hu.stint_answer waiting poll, rfl, fun m s hm => ?_⟩)
    by_cases he : m = n
    · subst he
      exact absurd ((Table.get?_remove d.asking m).symm.trans hm) (fun he => nomatch he)
    · exact ⟨he, (Table.get?_remove_of_ne he d.asking).symm.trans hm⟩

theorem Upheld.happens (hu : Upheld settings limit d) (h : Happens settings d d') :
    Upheld settings limit d' := by
  rcases hu.cases h with ⟨hact, hasking⟩ | ⟨n, s, hs, rfl⟩ | ⟨n, hstint, hsystem, hasking⟩
  · obtain ⟨hkept, haside⟩ := hu.kept.act hact
    refine ⟨hkept, hu.tenure.act hact, fun m s hm => ?_⟩
    obtain ⟨w, s', hw, hw₀, hs⟩ := hu.waiting m s (hasking ▸ hm)
    obtain ⟨more, hmore⟩ := haside.workers
    refine ⟨w, s', ?_, hw₀, hs⟩
    rw [← hmore, List.getElem?_append_left (List.getElem?_eq_some_iff.mp hw).1, hw]
  · have hworkers : s.workers = d.system.workers := by
      obtain ⟨calls, rfl⟩ := exists_reached hs
      rfl
    refine ⟨(hu.kept.aside (aside_consulted hs)).1, hu.tenure.consulted hs, fun m s₀ hm => ?_⟩
    change ∃ w s', s.workers[m]? = some w ∧ _
    rw [hworkers]
    by_cases he : m = n
    · subst he
      obtain rfl := Option.some.inj ((Table.get?_set d.asking m d.system).symm.trans hm)
      obtain ⟨w, hw, -⟩ := exists_of_consulted hs
      exact ⟨w, s, hw, hw, hs⟩
    · exact hu.waiting m s₀ ((Table.get?_set_of_ne he d.asking d.system).symm.trans hm)
  · refine ⟨?_, hu.tenure.abide hstint.abides, fun m s hm => ?_⟩
    · rw [hsystem]
      exact hu.kept.advance hstint.advance
    · obtain ⟨hne, hm⟩ := hasking m s hm
      rw [hstint.workers_of_ne hne]
      exact hu.waiting m s hm

/-- Every task goes forward. -/
theorem Upheld.advance (hu : Upheld settings limit d) (h : Happens settings d d') :
    Advance anybody anybody d.system d'.system := by
  rcases hu.cases h with ⟨hact, -⟩ | ⟨n, s, hs, rfl⟩ | ⟨n, hstint, -⟩
  · exact (hu.kept.act hact).2.toAdvance
  · exact (hu.kept.aside (aside_consulted hs)).2.toAdvance
  · exact hstint.advance.mono (fun _ h => h.elim) (fun _ h => h.elim)

theorem Upheld.unfolds (hu : Upheld settings limit d) (h : Unfolds settings d d') :
    Upheld settings limit d' := by
  induction h with
  | refl => exact hu
  | tail _ h ih => exact ih.happens h

end Overseer.System
