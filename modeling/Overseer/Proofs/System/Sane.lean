import Overseer.Proofs.System.Scene
import Overseer.Proofs.System.Sweep

/-! # What survives every interleaving

Where calls overlap, and where any task may be marked as lost at any time, a task and its trace can differ: a trace
can be lost while its task is pending or is being worked on. `Fine` says what a view can be like at worst, and
`Manned` that a worker which has not left either holds the slot of its task or has a token that is cancelled.
A `Sane` system has both of all ids and workers, and whatever is done to a sane system leads to a sane one
(`Passes`). Whoever has got a worker keeps it, and whoever has none and is not pending will not get one.
-/

namespace Overseer

theorem TaskState.eq_processing {state : TaskState} (hne : state ≠ .pending)
    (hopen : state.isTerminal = false) : state = .processing := by
  cases state with
  | processing => rfl
  | pending => exact absurd rfl hne
  | completed | failed | lost | aborted => cases hopen

namespace System

variable {κ : Type}

/-! ## Views -/

/-- The states of a task and of its trace. -/
inductive Agree : Option TaskState → Option TaskState → Prop
  | unknown : Agree none none
  | same (state : TaskState) : Agree (some state) (some state)
  /-- Lost before it was started. -/
  | missed : Agree (some .pending) (some .lost)
  | stalled : Agree (some .processing) (some .lost)

theorem Agree.of_open {task : Option TaskState} {state : TaskState}
    (h : Agree task (some state)) (hopen : state.isTerminal = false) : task = some state := by
  cases h with
  | same => rfl
  | missed | stalled => cases hopen

structure Fine (v : View) : Prop where
  agree : Agree v.task v.trace
  queued_le : v.queued ≤ 1
  crew_le : v.crew.length ≤ 1
  pending : 0 < v.queued → v.task = some .pending ∧ v.active = false ∧ v.crew = []
  slot : v.active = true → v.crew ≠ [] ∧ ∃ state, v.task = some state ∧ state.isTerminal = false
  due : .due ∈ v.crew → v.task = some .pending
  busy : .busy ∈ v.crew → ∃ state, v.task = some state ∧ state ≠ .pending

/-- How a task has it whose worker is at work, or is about to be. -/
structure Working (v : View) : Prop where
  agree : Agree v.task v.trace
  queued : v.queued = 0
  crew : v.crew.length = 1
  slot : v.active = true → ∃ state, v.task = some state ∧ state.isTerminal = false
  busy : ∃ state, v.task = some state ∧ state ≠ .pending

section Views

variable {v : View}

theorem fine_unknown (id : TaskId) : Fine (Standing.unknown.view id) where
  agree := .unknown
  queued_le := Nat.zero_le 1
  crew_le := Nat.zero_le 1
  pending h := nomatch h
  slot h := nomatch h
  due h := nomatch h
  busy h := nomatch h

theorem fine_queued (id : TaskId) : Fine (Standing.queued.view id) where
  agree := .same .pending
  queued_le := Nat.le_refl 1
  crew_le := Nat.zero_le 1
  pending _ := ⟨rfl, rfl, rfl⟩
  slot h := nomatch h
  due h := nomatch h
  busy h := nomatch h

theorem fine_discarded (id : TaskId) : Fine (Standing.discarded.view id) where
  agree := .same .aborted
  queued_le := Nat.zero_le 1
  crew_le := Nat.zero_le 1
  pending h := nomatch h
  slot h := nomatch h
  due h := nomatch h
  busy h := nomatch h

namespace Fine

theorem dequeue (h : Fine v) {n : Nat} (hn : n ≤ v.queued) : Fine { v with queued := n } where
  agree := h.agree
  queued_le := Nat.le_trans hn h.queued_le
  crew_le := h.crew_le
  pending hpos := h.pending (Nat.lt_of_lt_of_le hpos hn)
  slot := h.slot
  due := h.due
  busy := h.busy

theorem grant (h : Fine v) (hq : 0 < v.queued) :
    Fine { v with queued := 0, active := true, crew := v.crew ++ [.due] } := by
  obtain ⟨htask, -, hcrew⟩ := h.pending hq
  have hone : v.crew ++ [.due] = [.due] := by rw [hcrew]; rfl
  rw [hone]
  exact {
    agree := h.agree
    queued_le := Nat.zero_le 1
    crew_le := Nat.le_refl 1
    pending := fun h => nomatch h
    slot := fun _ => ⟨List.cons_ne_nil _ _, _, htask, rfl⟩
    due := fun _ => htask
    busy := fun h => by simp at h }

/-- The trace alone is lost, of a task that has not ended. -/
theorem lose (h : Fine v) {state : TaskState} (ht : v.task = some state)
    (hopen : state.isTerminal = false) : Fine { v with trace := some .lost } where
  agree := by
    rw [ht]
    cases state with
    | pending => exact .missed
    | processing => exact .stalled
    | completed | failed | lost | aborted => cases hopen
  queued_le := h.queued_le
  crew_le := h.crew_le
  pending := h.pending
  slot := h.slot
  due := h.due
  busy := h.busy

theorem free (h : Fine v) : Fine { v with active := false } where
  agree := h.agree
  queued_le := h.queued_le
  crew_le := h.crew_le
  pending hq := ⟨(h.pending hq).1, rfl, (h.pending hq).2.2⟩
  slot h := nomatch h
  due := h.due
  busy := h.busy

theorem ofNotices (h : Fine v) (notices : List Notice) : Fine { v with notices := notices } :=
  ⟨h.agree, h.queued_le, h.crew_le, h.pending, h.slot, h.due, h.busy⟩

/-- A task that nobody has and that is not pending ends. -/
theorem settle (h : Fine v) (hq : v.queued = 0) (hc : v.crew = []) (state : TaskState) :
    Fine { v with task := some state, trace := some state } where
  agree := .same state
  queued_le := h.queued_le
  crew_le := h.crew_le
  pending hpos := by
    simp only [hq] at hpos
    cases hpos
  slot ha := absurd hc (h.slot ha).1
  due hd := by
    rw [hc] at hd
    cases hd
  busy hb := by
    rw [hc] at hb
    cases hb

/-- A task whose slot has been freed is lost while it is worked on. -/
theorem miss (h : Fine v) (ht : v.task = some .processing) (hr : v.trace = some .lost)
    (ha : v.active = false) (notices : List Notice) :
    Fine { v with task := some .lost, notices := notices } where
  agree := by
    rw [hr]
    exact .same .lost
  queued_le := h.queued_le
  crew_le := h.crew_le
  pending hq := by
    have hp := (h.pending hq).1
    rw [ht] at hp
    cases hp
  slot hs := by
    rw [ha] at hs
    cases hs
  due hd := by
    have hp := h.due hd
    rw [ht] at hp
    cases hp
  busy _ := ⟨_, rfl, by decide⟩

theorem crew_eq (h : Fine v) {x : Activity} (hx : x ∈ v.crew) : v.crew = [x] := by
  cases hc : v.crew with
  | nil =>
    rw [hc] at hx
    cases hx
  | cons y rest =>
    have hle := h.crew_le
    rw [hc] at hle hx
    have hrest : rest = [] := by
      apply List.eq_nil_of_length_eq_zero
      rw [List.length_cons] at hle
      omega
    rw [hrest, List.mem_singleton] at hx
    rw [hrest, hx]

theorem queued_of_crew (h : Fine v) (hc : v.crew ≠ []) : v.queued = 0 := by
  apply Nat.eq_zero_of_not_pos
  intro hpos
  exact hc (h.pending hpos).2.2

theorem working (h : Fine v) (hb : .busy ∈ v.crew) : Working v where
  agree := h.agree
  queued := h.queued_of_crew (List.ne_nil_of_mem hb)
  crew := by
    rw [h.crew_eq hb]
    rfl
  slot ha := (h.slot ha).2
  busy := h.busy hb

/-- A task that a worker takes up. -/
theorem start (h : Fine v) (hd : .due ∈ v.crew) (notices : List Notice) :
    Working
      { v with task := some .processing, trace := v.trace.map begun, notices := notices } where
  agree := by
    have htask := h.due hd
    have ha := h.agree
    rw [htask] at ha
    cases ht : v.trace with
    | none =>
      rw [ht] at ha
      cases ha
    | some state =>
      rw [ht] at ha
      cases ha with
      | same => exact .same .processing
      | missed => exact .stalled
  queued := h.queued_of_crew (List.ne_nil_of_mem hd)
  crew := by
    rw [h.crew_eq hd]
    rfl
  slot _ := ⟨_, rfl, rfl⟩
  busy := ⟨_, rfl, by decide⟩

end Fine

namespace Working

theorem goOn (h : Working v) : Fine { v with crew := [.busy] } where
  agree := h.agree
  queued_le := by
    simp only [h.queued]
    exact Nat.zero_le 1
  crew_le := Nat.le_refl 1
  pending hpos := by
    simp only [h.queued] at hpos
    cases hpos
  slot ha := ⟨List.cons_ne_nil _ _, h.slot ha⟩
  due hd := by simp at hd
  busy _ := h.busy

/-- Nothing is asked of a task that its worker has left, but that its states agree. -/
theorem left (h : Working v) {task trace : Option TaskState} (ha : Agree task trace)
    (notices : List Notice) :
    Fine { v with
      task := task, trace := trace, active := false, crew := [.gone], notices := notices } where
  agree := ha
  queued_le := by
    simp only [h.queued]
    exact Nat.zero_le 1
  crew_le := Nat.le_refl 1
  pending hpos := by
    simp only [h.queued] at hpos
    cases hpos
  slot hs := nomatch hs
  due hd := by simp at hd
  busy hb := by simp at hb

theorem leave (h : Working v) : Fine { v with active := false, crew := [.gone] } :=
  h.left h.agree v.notices

theorem settle (h : Working v) (state : TaskState) (notices : List Notice) :
    Fine { v with
      task := some state, trace := some state, active := false, crew := [.gone],
      notices := notices } :=
  h.left (.same state) notices

end Working

/-- Workers come only to who is pending, and stay on the roll. -/
structure Follows (v v' : View) : Prop where
  crew : v.crew ≠ [] → v'.crew ≠ []
  free : v.crew = [] → v.queued = 0 → v'.crew = [] ∧ v'.queued = 0

theorem Follows.of_length {v v' : View} (hc : v'.crew.length = v.crew.length)
    (hq : v'.queued ≤ v.queued) : Follows v v' where
  crew hne he := by
    rw [he, List.length_nil] at hc
    exact hne (List.eq_nil_of_length_eq_zero hc.symm)
  free he hz := by
    rw [he, List.length_nil] at hc
    exact ⟨List.eq_nil_of_length_eq_zero hc, by omega⟩

theorem Follows.refl (v : View) : Follows v v := .of_length rfl (Nat.le_refl _)

theorem Follows.trans {v v' v'' : View} (h : Follows v v') (h' : Follows v' v'') :
    Follows v v'' where
  crew hc := h'.crew (h.crew hc)
  free hc hq := by
    obtain ⟨hc', hq'⟩ := h.free hc hq
    exact h'.free hc' hq'

end Views

/-- What a step may make of what is seen of an id. -/
structure Fares (id : TaskId) (v v' : View) : Prop where
  fine : Fine v'
  fresh : v = Standing.unknown.view id → v' = Standing.unknown.view id
  follows : Follows v v'

theorem Fares.of_known {id : TaskId} {v v' : View} (hv : v ≠ Standing.unknown.view id) (hf : Fine v')
    (h : Follows v v') : Fares id v v' :=
  ⟨hf, fun hu => absurd hu hv, h⟩

theorem Fine.fares {v : View} (h : Fine v) (id : TaskId) : Fares id v v := ⟨h, fun hu => hu, .refl v⟩

/-! ## Workers -/

/-- The token of a worker descends from that of the queue, and nobody takes its slot but with its token. -/
structure Manned (q : Queue) (w : Worker κ) : Prop where
  descends : q.shutdown.lineage ⊆ w.admission.token.lineage
  guarded : w.phase.activity ≠ .gone →
    q.active.get? w.admission.id = some w.admission.token ∨
      q.isCancelled w.admission.token = true

theorem Manned.grow {q q' : Queue} {w : Worker κ} (h : Manned q w) (hg : q.Grows q')
    (ha : q'.active.get? w.admission.id = q.active.get? w.admission.id) : Manned q' w where
  descends := by
    rw [hg.shutdown]
    exact h.descends
  guarded hw := by
    rw [ha]
    exact (h.guarded hw).imp_right hg.isCancelled

/-! ## Systems -/

structure Sane (s : System κ) : Prop where
  fine : ∀ id, Fine (s.view id)
  /-- The token of the queue is one that can be cancelled. -/
  root : s.queue.shutdown.lineage ≠ []
  manned : ∀ w ∈ s.workers, Manned s.queue w
  /-- A slot is held by a worker. -/
  owned : ∀ id token, s.queue.active.get? id = some token →
    ∃ w ∈ s.workers, w.admission = ⟨id, token⟩

/-- From one sane system to another. The workers for which `moves` does not stand are where they were. -/
structure Passes (moves : Nat → Prop) (s s' : System κ) : Prop where
  sane : Sane s'
  fresh : ∀ id, s.view id = Standing.unknown.view id → s'.view id = Standing.unknown.view id
  follows : ∀ id, Follows (s.view id) (s'.view id)
  grows : s.queue.Grows s'.queue
  workers : ∀ n w, ¬ moves n → s.workers[n]? = some w → s'.workers[n]? = some w

def still : Nat → Prop := fun _ => False

variable {moves : Nat → Prop} {s s' s'' t : System κ} {id j : TaskId} {n : Nat} {w : Worker κ}

theorem Passes.trans (h : Passes moves s s') (h' : Passes moves s' s'') : Passes moves s s'' where
  sane := h'.sane
  fresh id hid := h'.fresh id (h.fresh id hid)
  follows id := (h.follows id).trans (h'.follows id)
  grows := h.grows.trans h'.grows
  workers n w hn hw := h'.workers n w hn (h.workers n w hn hw)

theorem Passes.mono {moves' : Nat → Prop} (hm : ∀ n, moves n → moves' n)
    (h : Passes moves s s') : Passes moves' s s' :=
  ⟨h.sane, h.fresh, h.follows, h.grows, fun n w hn hw => h.workers n w (fun hm' => hn (hm n hm')) hw⟩

namespace Sane

theorem new (limit : Nat) (maxPending : Option Nat) (orders : List Order) :
    Sane (System.new limit maxPending orders : System κ) where
  fine id := fine_unknown id
  root := List.cons_ne_nil _ _
  manned _ hw := nomatch hw
  owned _ _ h := nomatch h

theorem lineage_ne_nil (h : Sane s) (hw : w ∈ s.workers) : w.admission.token.lineage ≠ [] := by
  intro he
  have hsub := (h.manned w hw).descends
  rw [he, List.subset_nil] at hsub
  exact h.root hsub

/-- Where one id is concerned, all others are seen as before. -/
theorem fares_of_one (h : Sane s) (hown : Fares id (s.view id) (s'.view id))
    (hother : ∀ j, j ≠ id → s'.view j = s.view j) (j : TaskId) :
    Fares j (s.view j) (s'.view j) := by
  by_cases he : j = id
  · subst he
    exact hown
  · rw [hother j he]
    exact (h.fine j).fares j

/-- A step passes if every id fares well and the slots are manned and owned after it. -/
theorem passes_of_fares (h : Sane s) (hfares : ∀ id, Fares id (s.view id) (s'.view id))
    (hgrows : s.queue.Grows s'.queue) (hmanned : ∀ w ∈ s'.workers, Manned s'.queue w)
    (howned : ∀ id token, s'.queue.active.get? id = some token →
      ∃ w ∈ s'.workers, w.admission = ⟨id, token⟩)
    (hworkers : ∀ n w, ¬ moves n → s.workers[n]? = some w → s'.workers[n]? = some w) :
    Passes moves s s' where
  sane :=
    { fine := fun id => (hfares id).fine
      root := by
        rw [hgrows.shutdown]
        exact h.root
      manned := hmanned
      owned := howned }
  fresh id := (hfares id).fresh
  follows id := (hfares id).follows
  grows := hgrows
  workers := hworkers

/-- The queue and the workers are left alone. -/
theorem passes_of_eq (h : Sane s) (hfares : ∀ id, Fares id (s.view id) (s'.view id))
    (hq : s'.queue = s.queue) (hw : s'.workers = s.workers) : Passes still s s' := by
  refine h.passes_of_fares hfares ?grows ?manned ?owned ?workers
  case grows =>
    rw [hq]
    exact .refl _
  case manned =>
    rw [hq, hw]
    exact h.manned
  case owned =>
    rw [hq, hw]
    exact h.owned
  case workers =>
    intro n w _ hn
    rw [hw]
    exact hn

/-- Nothing of what is seen changes. -/
theorem passes_of_view (h : Sane s) (hv : ∀ id, s'.view id = s.view id)
    (hq : s'.queue = s.queue) (hw : s'.workers = s.workers) : Passes still s s' := by
  refine h.passes_of_eq (fun id => ?_) hq hw
  rw [hv]
  exact (h.fine id).fares id

/-- What is between the system and one task passes if the task fares well. -/
theorem passes_of_private (h : Sane s) (hp : Private id s s')
    (hown : Fares id (s.view id) (s'.view id)) : Passes still s s' :=
  h.passes_of_eq (h.fares_of_one hown hp.view) hp.queue hp.workers

/-- The queue changes, and no slot is taken or freed. -/
theorem passes_withQueue (h : Sane s) {q : Queue} (hg : s.queue.Grows q)
    (hp : ∀ id, q.pending.count id ≤ s.queue.pending.count id) (ha : q.active = s.queue.active) :
    Passes still s (s.withQueue q) := by
  refine h.passes_of_fares (fun id => ?fares) hg ?manned ?owned fun _ _ _ hn => hn
  case fares =>
    have hview : (s.withQueue q).view id = { s.view id with queued := q.pending.count id } := by
      rw [view_withQueue, ha]
      rfl
    rw [hview]
    refine ⟨(h.fine id).dequeue (hp id), fun hu => ?_, .of_length rfl (hp id)⟩
    have hzero : (s.view id).queued = 0 := by
      rw [hu]
      rfl
    have hcount : q.pending.count id = 0 := Nat.le_zero.mp (hzero ▸ hp id)
    rw [hu, hcount]
    rfl
  case manned =>
    intro w hw
    have hget : q.active.get? w.admission.id = s.queue.active.get? w.admission.id := by rw [ha]
    exact (h.manned w hw).grow hg hget
  case owned =>
    intro id token ht
    exact h.owned id token (ha ▸ ht)

end Sane

end System

end Overseer
