import Overseer.Proofs.System.Sweep
import Overseer.Proofs.System.Turn

/-! # Runs of the system

A run goes on by operations from outside, in any order, and by turns of the workers. A `Chronicle` is the
system together with the ids that have been submitted and those that a sweep has flagged; an id is submitted
once. While a worker asks the executor, other operations may come in between.

A watchdog comes in two kinds: either each of its sweeps is one step, or the flags and what follows from them
are steps of their own. In both cases `Kept` holds all along a run: each id stands somewhere in its lifecycle,
the ids that stand anywhere are those that have been submitted, what has been flagged is lost, and the slots
suffice.
-/

namespace Overseer.System

open Standing

variable {κ : Type}

structure Chronicle (κ : Type) where
  system : System κ
  /-- The ids that have been submitted, those that were rejected among them. -/
  submitted : List TaskId
  /-- The ids whose traces a sweep has flagged. -/
  flagged : List TaskId

def Chronicle.on (c : Chronicle κ) (s : System κ) : Chronicle κ := { c with system := s }

inductive Watch
  /-- Nothing comes between the flags of a sweep and their consequences. -/
  | whole
  | split
  deriving DecidableEq

/-- What is done to the system from outside. -/
inductive Act (watch : Watch) (c : Chronicle κ) : Chronicle κ → Prop
  | submit (id : TaskId) (payload : Json) (new : id ∉ c.submitted) :
      Act watch c
        { c with system := (c.system.submit .silent id payload).2, submitted := id :: c.submitted }
  | abort (id : TaskId) : Act watch c (c.on (c.system.abort .silent id).2)
  | pause : Act watch c (c.on c.system.pause.2)
  | resume : Act watch c (c.on c.system.resume.2)
  | purge : Act watch c (c.on (c.system.purge .silent).2)
  | emergencyStop : Act watch c (c.on (c.system.emergencyStop .silent).2)
  | shutdown : Act watch c (c.on c.system.shutdown)
  /-- The dispatcher gets an admission and hands it to a worker. -/
  | employ {a : Admission} {q : Queue} (h : c.system.queue.inspect = .admitted a q) :
      Act watch c (c.on (c.system.employ a q))
  /-- Whoever holds a token may cancel it. -/
  | cancel (token : Token) :
      Act watch c (c.on (c.system.withQueue (c.system.queue.cancelToken token)))
  | elapse (clock : Clock) : Act watch c (c.on { c.system with clock := clock })
  | sweep (timeout : Duration) :
      Act watch c
        { c with
          system := (c.system.sweep .silent timeout).2
          flagged := (c.system.sweep .silent timeout).1 ++ c.flagged }
  | flag (timeout : Duration) (allowed : watch = .split) :
      Act watch c
        { c with
          system := (c.system.flagStalled .silent timeout).2
          flagged := (c.system.flagStalled .silent timeout).1 ++ c.flagged }
  | markLost (id : TaskId) (allowed : watch = .split) (flagged : id ∈ c.flagged) :
      Act watch c (c.on (c.system.markLost .silent id).2)

abbrev Acts (watch : Watch) : Chronicle κ → Chronicle κ → Prop := Relation.ReflTransGen (Act watch)

/-- Before anything has been done. -/
def Chronicle.start (limit : Nat) (maxPending : Option Nat) (orders : List Order) : Chronicle κ :=
  ⟨.new limit maxPending orders, [], []⟩

/-- What a run keeps. -/
structure Kept (watch : Watch) (limit : Nat) (c : Chronicle κ) : Prop where
  standing : ∀ id, ∃ st : Standing, c.system.view id = st.view id ∧
    (id ∈ c.submitted ↔ st ≠ .unknown) ∧ (id ∈ c.flagged → st.IsLost) ∧
    (watch = .whole → ∀ w, st ≠ .stalled w)
  size : c.system.queue.limit = limit
  slots : c.system.queue.active.length ≤ limit

/-! ## Operations keep what a run keeps -/

variable {watch : Watch} {limit : Nat} {c c' : Chronicle κ}

namespace Kept

theorem start (watch : Watch) (limit : Nat) (maxPending : Option Nat) (orders : List Order) :
    Kept watch (max limit 1) (Chronicle.start limit maxPending orders : Chronicle κ) where
  standing id := ⟨.unknown, rfl, by simp [Chronicle.start], by simp [Chronicle.start], by simp⟩
  size := rfl
  slots := Nat.zero_le _

theorem stands (h : Kept watch limit c) : c.system.Stands := by
  intro id
  obtain ⟨st, hst, -⟩ := h.standing id
  exact ⟨st, hst⟩

/-- Nothing is submitted and nothing flagged. -/
theorem advance (h : Kept watch limit c) {s : System κ}
    (ha : Advance nobody nobody c.system s) : Kept watch limit (c.on s) where
  standing id := by
    obtain ⟨st, hst, hsub, hflag, hwhole⟩ := h.standing id
    obtain ⟨st', hst', hl⟩ := ha.leads id st hst
    refine ⟨st', hst', hsub.trans ⟨fun hne => hl.ne_unknown hne, fun hne he => ?_⟩,
      fun hmem => hl.isLost (hflag hmem), fun hw => hl.ne_stalled (fun h => h) (hwhole hw)⟩
    exact hne (hl.eq_unknown (fun h => h) he)
  size := ha.limit.trans h.size
  slots := h.size ▸ ha.slots (h.size.symm ▸ h.slots)

/-- An id that has not been submitted is in no store and not in the queue. -/
theorem view_of_new (h : Kept watch limit c) {id : TaskId} (new : id ∉ c.submitted) :
    c.system.view id = Standing.unknown.view id := by
  obtain ⟨st, hst, hsub, -⟩ := h.standing id
  have he : st = .unknown := Classical.byContradiction fun hne => new (hsub.mpr hne)
  rw [hst, he]

theorem submit (h : Kept watch limit c) {id : TaskId} (payload : Json) (new : id ∉ c.submitted) :
    Kept watch limit
      { c with
        system := (c.system.submit .silent id payload).2
        submitted := id :: c.submitted } where
  standing j := by
    have hid := h.view_of_new new
    by_cases hj : j = id
    · subst hj
      have hflag : j ∉ c.flagged := by
        intro hmem
        obtain ⟨st, hst, -, hflag, -⟩ := h.standing j
        obtain rfl : st = .unknown := view_injective (hst.symm.trans hid)
        rcases hflag hmem with ⟨w, hw⟩ | ⟨w, hw⟩
        · cases hw
        · cases hw
      rcases view_submit payload hid with hv | hv
      · exact ⟨.queued, hv, by simp, fun hmem => absurd hmem hflag, by simp⟩
      · exact ⟨.discarded, hv, by simp, fun hmem => absurd hmem hflag, by simp⟩
    · obtain ⟨st, hst, hsub, hrest⟩ := h.standing j
      have hv := view_submit_of_ne payload (contains_of_unknown hid) hj
      exact ⟨st, hv.trans hst, by simpa [hj] using hsub, hrest⟩
  size := (submit_frame id payload c.system).1.trans h.size
  slots := (submit_frame id payload c.system).2.1 ▸ h.slots

/-- What a sweep flags, at once or in the end, is lost. -/
theorem flag (h : Kept watch limit c) {s : System κ} {ids : List TaskId}
    (ha : Advance nobody (· ∈ ids) c.system s)
    (hlost : ∀ id ∈ ids, ∃ st : Standing, s.view id = st.view id ∧ st.IsLost)
    (hwhole : watch = .whole → ∀ id, ∃ st : Standing, s.view id = st.view id ∧ ∀ w, st ≠ .stalled w) :
    Kept watch limit { c with system := s, flagged := ids ++ c.flagged } where
  standing id := by
    obtain ⟨st, hst, hsub, hflag, -⟩ := h.standing id
    obtain ⟨st', hst', hl⟩ := ha.leads id st hst
    refine ⟨st', hst', hsub.trans ⟨fun hne => hl.ne_unknown hne, fun hne he => ?_⟩,
      fun hmem => ?_, fun hw => ?_⟩
    · exact hne (hl.eq_unknown (fun h => h) he)
    · rcases List.mem_append.mp hmem with hnew | hold
      · obtain ⟨st'', hst'', hislost⟩ := hlost id hnew
        exact view_injective (hst''.symm.trans hst') ▸ hislost
      · exact hl.isLost (hflag hold)
    · obtain ⟨st'', hst'', hne⟩ := hwhole hw id
      exact view_injective (hst''.symm.trans hst') ▸ hne
  size := ha.limit.trans h.size
  slots := h.size ▸ ha.slots (h.size.symm ▸ h.slots)

theorem isLost (h : Kept watch limit c) {id : TaskId} (hid : id ∈ c.flagged) :
    ∃ st : Standing, c.system.view id = st.view id ∧ st.IsLost := by
  obtain ⟨st, hst, -, hflag, -⟩ := h.standing id
  exact ⟨st, hst, hflag hid⟩

theorem aside (h : Kept watch limit c) {s : System κ} (ha : Aside nobody nobody c.system s) :
    Kept watch limit (c.on s) ∧ Aside anybody anybody c.system s :=
  ⟨h.advance ha.toAdvance, ha.mono (fun _ hid => hid.elim) (fun _ hid => hid.elim)⟩

theorem act (h : Kept watch limit c) (ha : Act watch c c') :
    Kept watch limit c' ∧ Aside anybody anybody c.system c'.system := by
  cases ha with
  | submit id payload new =>
    exact ⟨h.submit payload new, aside_submit payload (h.view_of_new new) trivial⟩
  | abort id => exact h.aside (aside_abort id c.system)
  | pause => exact h.aside (aside_pause c.system)
  | resume => exact h.aside (aside_resume c.system)
  | purge => exact h.aside (aside_purge c.system)
  | emergencyStop => exact h.aside (aside_emergencyStop c.system)
  | shutdown => exact h.aside (aside_shutdown c.system)
  | employ hq => exact h.aside (aside_employ hq)
  | cancel token => exact h.aside (aside_cancelToken token c.system)
  | elapse clock => exact h.aside (aside_elapse clock c.system)
  | sweep timeout =>
    refine ⟨h.flag (aside_sweep timeout h.stands).toAdvance
      (fun id hid => isLost_sweep h.stands hid) (fun hw => ?_),
      (aside_sweep timeout h.stands).mono (fun _ hid => hid) (fun _ _ => trivial)⟩
    refine ne_stalled_sweep timeout h.stands fun id => ?_
    obtain ⟨st, hst, -, -, hne⟩ := h.standing id
    exact ⟨st, hst, hne hw⟩
  | flag timeout allowed =>
    refine ⟨h.flag (aside_flagStalled timeout c.system).toAdvance
      (fun id hid => isLost_flagStalled h.stands hid) (fun hw => ?_),
      (aside_flagStalled timeout c.system).mono (fun _ hid => hid) (fun _ _ => trivial)⟩
    rw [hw] at allowed
    cases allowed
  | markLost id allowed hid => exact h.aside (aside_markLost (h.isLost hid))

theorem acts (h : Kept watch limit c) (ha : Acts watch c c') :
    Kept watch limit c' ∧ Aside anybody anybody c.system c'.system := by
  induction ha with
  | refl => exact ⟨h, .refl _⟩
  | tail _ ha ih =>
    obtain ⟨hkept, haside⟩ := ih.1.act ha
    exact ⟨hkept, ih.2.trans haside⟩

end Kept

/-! ## Runs -/

variable {settings : Settings κ} {n : Nat} {execute : Execute κ}

/-- A turn asks the executor or it does not. What the executor does to the system, or lets others do, are
operations from outside. -/
inductive Answered (watch : Watch) (settings : Settings κ) (n : Nat) (execute : Execute κ)
    (c : Chronicle κ) : Chronicle κ → Prop
  | unasked (h : c.system.consulted settings n = none) : Answered watch settings n execute c c
  | asked {s : System κ} {c' : Chronicle κ} (h : c.system.consulted settings n = some s)
      (acts : Acts watch (c.on s) c') (answer : (execute s).2 = c'.system) :
      Answered watch settings n execute c c'

/-- A turn that asks nobody leaves room for nothing else. -/
theorem eq_of_unasked (ha : Answered watch settings n execute c c')
    (h : c.system.consulted settings n = none) : c' = c := by
  cases ha with
  | unasked => rfl
  | asked hs =>
    rw [h] at hs
    cases hs

namespace Kept

theorem answered (h : Kept watch limit c) (ha : Answered watch settings n execute c c') :
    Kept watch limit c' ∧ Aside anybody anybody c.system c'.system := by
  cases ha with
  | unasked => exact ⟨h, .refl _⟩
  | asked hs acts =>
    obtain ⟨hkept, haside⟩ := h.aside (aside_consulted hs)
    obtain ⟨hkept', haside'⟩ := hkept.acts acts
    exact ⟨hkept', haside.trans haside'⟩

end Kept

variable [Cost κ]

inductive Move (watch : Watch) (settings : Settings κ) (c : Chronicle κ) : Chronicle κ → Prop
  | act {c' : Chronicle κ} (h : Act watch c c') : Move watch settings c c'
  | turn (n : Nat) (execute : Execute κ) {c' : Chronicle κ}
      (h : Answered watch settings n execute c c') :
      Move watch settings c (c'.on (c.system.turn .silent settings n execute))

abbrev Moves (watch : Watch) (settings : Settings κ) : Chronicle κ → Chronicle κ → Prop :=
  Relation.ReflTransGen (Move watch settings)

namespace Kept

/-- A turn of a worker that is at work, seen from where the answer finds the system. -/
theorem worked (h : Kept watch limit c) (ha : Answered watch settings n execute c c')
    {w : Worker κ} (hw : c.system.workers[n]? = some w) (hb : w.phase.activity = .busy) :
    c'.system.workers[n]? = some w ∧
      Worked n w.admission c'.system (c.system.turn .silent settings n execute) := by
  have hprefix := (h.answered ha).2.workers
  have hw' : c'.system.workers[n]? = some w := by
    obtain ⟨more, hmore⟩ := hprefix
    rw [← hmore, List.getElem?_append_left (List.getElem?_eq_some_iff.mp hw).1, hw]
  cases ha with
  | unasked hnone => exact ⟨hw', worked_turn_of_none hw hb hnone execute⟩
  | asked hs acts answer =>
    rw [← answer]
    exact ⟨by rw [answer]; exact hw', (worked_turn hw hs execute).2⟩

theorem turn (h : Kept watch limit c) (ha : Answered watch settings n execute c c') :
    Kept watch limit (c'.on (c.system.turn .silent settings n execute)) ∧
      Advance anybody anybody c.system (c.system.turn .silent settings n execute) := by
  cases hw : c.system.workers[n]? with
  | none =>
    obtain rfl := eq_of_unasked ha (consulted_of_none hw settings)
    rw [turn_of_none hw]
    exact ⟨h, (Aside.refl _).toAdvance⟩
  | some w =>
    cases hb : w.phase.activity with
    | gone =>
      obtain rfl := eq_of_unasked ha (consulted_of_ne_busy hw (by rw [hb]; decide) settings)
      rw [turn_of_gone hw hb]
      exact ⟨h, (Aside.refl _).toAdvance⟩
    | due =>
      obtain rfl := eq_of_unasked ha (consulted_of_ne_busy hw (by rw [hb]; decide) settings)
      obtain ⟨st, hst, -⟩ := h.standing w.admission.id
      obtain rfl := eq_admitted hst hw hb
      rw [turn_of_due hw hb]
      exact ⟨h.advance (advance_begin hw hst settings), advance_begin hw hst settings⟩
    | busy =>
      obtain ⟨hkept, haside⟩ := h.answered ha
      obtain ⟨hw', hworked⟩ := h.worked ha hw hb
      exact ⟨hkept.advance (advance_worked hworked hw' hb),
        haside.toAdvance.trans (advance_worked hworked hw' hb)⟩

theorem move (h : Kept watch limit c) (hm : Move watch settings c c') :
    Kept watch limit c' ∧ Advance anybody anybody c.system c'.system := by
  cases hm with
  | act ha =>
    obtain ⟨hkept, haside⟩ := h.act ha
    exact ⟨hkept, haside.toAdvance⟩
  | turn n execute ha => exact h.turn ha

theorem moves (h : Kept watch limit c) (hm : Moves watch settings c c') :
    Kept watch limit c' ∧ Advance anybody anybody c.system c'.system := by
  induction hm with
  | refl => exact ⟨h, (Aside.refl _).toAdvance⟩
  | tail _ hm ih =>
    obtain ⟨hkept, hadvance⟩ := ih.1.move hm
    exact ⟨hkept, ih.2.trans hadvance⟩

end Kept

end Overseer.System
