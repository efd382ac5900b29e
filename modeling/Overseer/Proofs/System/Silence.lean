import Overseer.Proofs.System.Loss

/-! # Cancellation stops the calls

A task is halted when each of its workers has left or has a token that is cancelled, and when none can come: the task
is not pending and has been submitted, or the queue is closed. No tick takes a task out of this, and the executor is
asked for a task only by a worker whose token stands. So whatever halts a task silences it, also while a call of
that task is under way and whatever the executor answers then.
-/

namespace Overseer.System

variable {κ : Type} {s s' : System κ} {c c' : Scene κ} {id : TaskId}

/-- Nobody works for the task any more, but for workers that have been told to stop. -/
structure Halted (c : Scene κ) (id : TaskId) : Prop where
  workers : ∀ w ∈ c.system.workers, w.admission.id = id →
    w.phase.activity = .gone ∨ c.system.isCancelled w.admission.token = true
  pending : id ∈ c.system.queue.pending → c.system.queue.closed = true
  submitted : id ∉ c.submitted → c.system.queue.closed = true

/-! ## What does not end a halt -/

/-- The workers are those from before and the queue has gained nothing. -/
structure Lingers (id : TaskId) (s s' : System κ) : Prop where
  grows : s.queue.Grows s'.queue
  before : ∀ v ∈ s'.workers, v.admission.id = id → ∃ u ∈ s.workers, u.admission = v.admission ∧
    (u.phase.activity = .gone → v.phase.activity = .gone)
  pending : id ∈ s'.queue.pending → id ∈ s.queue.pending
  reached : (s'.reached.filter fun call => call.1 == id) = s.reached.filter fun call => call.1 == id

namespace Lingers

theorem of_queue (hg : s.queue.Grows s'.queue) (hw : s'.workers = s.workers)
    (hp : s'.queue.pending ⊆ s.queue.pending) (hr : s'.reached = s.reached) :
    Lingers id s s' where
  grows := hg
  before v hv _ := ⟨v, hw ▸ hv, rfl, fun h => h⟩
  pending hid := hp hid
  reached := by
    rw [hr]

theorem of_private {j : TaskId} (h : Private j s s') : Lingers id s s' :=
  .of_queue (h.queue ▸ .refl _) h.workers (by rw [h.queue]; exact List.Subset.refl _) h.reached

theorem of_turned {n : Nat} (h : Turned n s s') (hs : Sane s) : Lingers id s s' where
  grows := (h.passes hs).grows
  before _ hv _ := h.exists_before hv
  pending hid := h.pending ▸ hid
  reached := by
    rw [h.reached]

theorem trans {s'' : System κ} (h : Lingers id s s') (h' : Lingers id s' s'') :
    Lingers id s s'' where
  grows := h.grows.trans h'.grows
  before v hv hid := by
    obtain ⟨u, hu, he, hgone⟩ := h'.before v hv hid
    obtain ⟨t, ht, he', hgone'⟩ := h.before u hu (he ▸ hid)
    exact ⟨t, ht, he'.trans he, fun hg => hgone (hgone' hg)⟩
  pending hid := h.pending (h'.pending hid)
  reached := h'.reached.trans h.reached

theorem evict (j : TaskId) (s : System κ) : Lingers id s (s.evict j) :=
  .of_queue (grows_evict j s) (workers_evict j s)
    (by rw [pending_evict]; exact List.Subset.refl _) (reached_evict j s)

theorem markLost (j : TaskId) (s : System κ) : Lingers id s (s.markLost .silent j).2 := by
  obtain ⟨t, hprivate, -, he | he⟩ := markLost_private j s
  · rw [he]
    exact .of_private hprivate
  · rw [he]
    exact (Lingers.of_private hprivate).trans (.evict j t)

theorem flagStalled (timeout : Duration) (s : System κ) :
    Lingers id s (s.flagStalled .silent timeout).2 := by
  simp only [System.flagStalled, announceAll_silent]
  exact .of_queue (.refl _) rfl (List.Subset.refl _) rfl

theorem strike (h : Sane s) (call : Intervention) : Lingers id s (s.strike call).2 := by
  have hworkers : (s.strike call).2.workers = s.workers := by
    rw [strike_eq]
    rfl
  have hreached : (s.strike call).2.reached = s.reached := by
    rw [strike_eq]
    rfl
  refine .of_queue (passes_strike h call).grows hworkers (fun j hj => ?_) hreached
  have hle := pending_strike_le s call j
  exact List.count_pos_iff.mp (Nat.lt_of_lt_of_le (List.count_pos_iff.mpr hj) hle)

theorem perform (chore : Chore) (s : System κ) : Lingers id s (chore.perform s) :=
  .of_private (.perform chore s)

end Lingers

namespace Halted

theorem linger (h : Halted c id) (hl : Lingers id c.system c'.system)
    (hs : c.submitted ⊆ c'.submitted) : Halted c' id ∧ c'.calls id = c.calls id := by
  refine ⟨⟨fun v hv hid => ?_, fun hp => ?_, fun hn => ?_⟩, hl.reached⟩
  · obtain ⟨u, hu, he, hgone⟩ := hl.before v hv hid
    rcases h.workers u hu (he ▸ hid) with hg | hc
    · exact Or.inl (hgone hg)
    · exact Or.inr (hl.grows.isCancelled (he ▸ hc))
  · exact hl.grows.closed (h.pending (hl.pending hp))
  · exact hl.grows.closed (h.submitted fun hid => hn (hs hid))

theorem submit (h : Halted c id) {j : TaskId} (payload : Json) (new : j ∉ c.submitted)
    (hu : c.system.view j = Standing.unknown.view j) :
    Halted (c.submit j payload) id ∧ (c.submit j payload).calls id = c.calls id := by
  have hg := grows_submit j payload c.system
  obtain ⟨-, -, hw⟩ := submit_frame j payload c.system
  have hsub : c.submitted ⊆ (c.submit j payload).submitted := List.subset_cons_self _ _
  rcases submit_cases j payload c.system with ⟨step, cause, he⟩ | ⟨hopen, he⟩
  · have hprivate : Private j c.system (c.system.submit .silent j payload).2 := by
      rw [he]
      exact (Private.register payload hu).trans ((Private.record j step _).trans (.finish j _ _))
    have hl : Lingers id c.system (c.submit j payload).system := .of_private hprivate
    exact h.linger hl hsub
  · -- An open queue takes only what was not submitted before, and then the halted task is another one.
    have hne : id ≠ j := by
      rintro rfl
      have hclosed := h.submitted new
      rw [hopen] at hclosed
      cases hclosed
    have hl : Lingers id c.system (c.submit j payload).system := by
      refine ⟨hg, fun v hv _ => ⟨v, hw ▸ hv, rfl, fun hgone => hgone⟩, fun hid => ?_, ?_⟩
      · have hp : (c.submit j payload).system.queue.pending = c.system.queue.pending ++ [j] := by
          show (c.system.submit .silent j payload).2.queue.pending = _
          rw [he]
          rfl
        rw [hp, List.mem_append, List.mem_singleton] at hid
        exact hid.resolve_right hne
      · have hr : (c.submit j payload).system.reached = c.system.reached := by
          show (c.system.submit .silent j payload).2.reached = _
          rw [he]
          exact (Private.register payload hu).reached
        rw [hr]
    exact h.linger hl hsub

/-- Whoever is admitted was pending in an open queue. -/
theorem employ (h : Halted c id) {a : Admission} {q : Queue}
    (hi : c.system.queue.inspect = .admitted a q) :
    Halted (c.on (c.system.employ a q)) id ∧
      (c.on (c.system.employ a q)).calls id = c.calls id := by
  obtain ⟨rest, hp, -, hrest, -, -⟩ := Queue.inspect_admitted hi
  obtain ⟨hopen, -, -, hg, -⟩ := Queue.inspect_open hi
  have hne : a.id ≠ id := by
    rintro rfl
    have hmem : a.id ∈ c.system.queue.pending := by
      rw [hp]
      exact List.mem_cons_self
    have hclosed := h.pending hmem
    rw [hopen] at hclosed
    cases hclosed
  refine h.linger ⟨hg, fun v hv hid => ?_, fun hmem => ?_, rfl⟩ (List.Subset.refl _)
  · rcases List.mem_append.mp hv with hold | hnew
    · exact ⟨v, hold, rfl, fun hgone => hgone⟩
    · obtain rfl := List.mem_singleton.mp hnew
      exact absurd hid hne
  · have hmem' : id ∈ rest := hrest ▸ hmem
    rw [hp]
    exact List.mem_cons_of_mem _ hmem'

end Halted

variable {traffic : Traffic} {settings : Settings κ}

/-- A worker that asks for a call has not been told to stop. -/
theorem Halted.ask (h : Halted c id) {n : Nat}
    (hc : c.system.consulted settings n = some s) :
    Halted { c with system := s, asking := (n, c.system) :: c.asking } id ∧
      s.reached.filter (fun call => call.1 == id) = c.calls id := by
  obtain ⟨w, hw, hgone, hstands, hcalls⟩ := exists_of_consulted hc
  have hne : id ≠ w.admission.id := by
    intro he
    rcases h.workers w (List.mem_of_getElem? hw) he.symm with hg | hcancelled
    · exact hgone hg
    · rw [hstands] at hcancelled
      cases hcancelled
  have hl : Lingers id c.system s := by
    have hsame : s.queue = c.system.queue ∧ s.workers = c.system.workers := by
      obtain ⟨calls, rfl⟩ := exists_reached hc
      exact ⟨rfl, rfl⟩
    refine ⟨hsame.1 ▸ .refl _, fun v hv _ => ⟨v, hsame.2 ▸ hv, rfl, fun hg => hg⟩, ?_,
      hcalls id hne⟩
    rw [hsame.1]
    exact fun hid => hid
  exact h.linger hl (List.Subset.refl _)

/-! ## What halts a task -/

theorem notMem_pending_of_mem (h : Sane s) {w : Worker κ} (hw : w ∈ s.workers) :
    w.admission.id ∉ s.queue.pending := by
  intro hid
  exact ne_of_pending h hid hw rfl

theorem Halted.of_removed (hsub : id ∈ c.submitted) (hc : (c.system.view id).crew = [])
    (hp : id ∉ c.system.queue.pending) : Halted c id where
  workers w hw hid := by
    have hmem := mem_crew_of_mem hw
    rw [hid, hc] at hmem
    cases hmem
  pending hid := absurd hid hp
  submitted hn := absurd hsub hn

namespace Sound

variable (h : Sound settings c)
include h

theorem submitted_of_mem {w : Worker κ} (hw : w ∈ c.system.workers) :
    w.admission.id ∈ c.submitted := by
  apply h.submitted_of_ne
  intro hu
  have hmem := mem_crew_of_mem hw
  rw [hu] at hmem
  cases hmem

theorem submitted_of_pending (hid : id ∈ c.system.queue.pending) : id ∈ c.submitted := by
  apply h.submitted_of_ne
  intro hu
  have hpos : 0 < (c.system.view id).queued := List.count_pos_iff.mpr hid
  rw [hu] at hpos
  cases hpos

/-- A worker whose token is cancelled is the only one that its task has or will have. -/
theorem halted_of_cancelled {w : Worker κ} (hw : w ∈ c.system.workers)
    (hc : c.system.isCancelled w.admission.token = true) : Halted c w.admission.id where
  workers v hv hid := by
    obtain rfl := eq_of_id h.sane hw hv hid
    exact Or.inr hc
  pending hid := absurd hid (notMem_pending_of_mem h.sane hw)
  submitted hn := absurd (h.submitted_of_mem hw) hn

theorem crew_of_pending (hid : id ∈ c.system.queue.pending) : (c.system.view id).crew = [] :=
  ((h.sane.fine id).pending (List.count_pos_iff.mpr hid)).2.2

/-- To cancel the token that the queue has for a task halts it. -/
theorem halted_of_cancelToken {q : Queue} (hg : c.system.queue.Grows q) (hid : id ∈ c.submitted)
    (hp : id ∉ q.pending)
    (hc : ∀ token, c.system.queue.active.get? id = some token → token.lineage ≠ [] →
      q.isCancelled token = true) : Halted (c.on (c.system.withQueue q)) id where
  workers w hw he := by
    have hm := h.sane.manned w hw
    by_cases hgone : w.phase.activity = .gone
    · exact Or.inl hgone
    · rcases hm.guarded hgone with hget | hcancelled
      · rw [he] at hget
        exact Or.inr (hc _ hget (h.sane.lineage_ne_nil hw))
      · exact Or.inr (hg.isCancelled hcancelled)
  pending hid := absurd hid hp
  submitted hn := absurd hid hn

end Sound

namespace Sound

variable (h : Sound settings c)
include h

theorem halted_rejected {payload : Json} (new : id ∉ c.submitted)
    (hr : ∃ e, (c.system.submit .silent id payload).1 = .error e) :
    Halted (c.submit id payload) id := by
  have hu := h.fresh id new
  have hq : (c.system.submit .silent id payload).2.queue = c.system.queue := by
    rcases submit_cases id payload c.system with ⟨step, cause, he⟩ | ⟨-, he⟩
    · rw [he, queue_finish, queue_record, queue_register]
    · obtain ⟨e, herror⟩ := hr
      rw [he] at herror
      cases herror
  have hw := (submit_frame id payload c.system).2.2
  refine .of_removed List.mem_cons_self ?_ ?_
  · have hcrew : (c.system.view id).crew = [] := congrArg View.crew hu
    show ((c.system.submit .silent id payload).2.view id).crew = []
    rw [← hcrew]
    simp only [view, hw]
  · have hzero : c.system.queue.pending.count id = 0 := congrArg View.queued hu
    show id ∉ (c.system.submit .silent id payload).2.queue.pending
    rw [hq]
    exact List.count_eq_zero.mp hzero

theorem halted_aborted (hne : (c.system.queue.abort id).1 ≠ .notQueued) :
    Halted (c.strike (.abort id)) id := by
  have hview := view_strike c.system (.abort id) id
  rcases strike_cases c.system (.abort id) with ⟨j, hj, hcall, he⟩ | ⟨j, token, ht, hcall, he⟩ |
    ⟨j, hcall, hnone, -⟩ | ⟨hcall, -⟩ | ⟨hcall, -⟩
  · obtain rfl := Intervention.abort.inj hcall
    have hle : c.system.queue.pending.count id ≤ 1 := (h.sane.fine id).queued_le
    refine .of_removed (h.submitted_of_pending hj) ?_ ?_
    · show ((c.system.strike (.abort id)).2.view id).crew = []
      rw [hview]
      exact h.crew_of_pending hj
    · show id ∉ (c.system.strike (.abort id)).2.queue.pending
      rw [he]
      show id ∉ c.system.queue.pending.erase id
      rw [← List.count_eq_zero, List.count_erase_self]
      omega
  · obtain rfl := Intervention.abort.inj hcall
    have hsub : id ∈ c.submitted := by
      apply h.submitted_of_ne
      intro hu
      have hactive := contains_of_get? ht
      rw [hu] at hactive
      cases hactive
    have hp : id ∉ c.system.queue.pending := by
      intro hid
      have hactive := ((h.sane.fine id).pending (List.count_pos_iff.mpr hid)).2.1
      rw [contains_of_get? ht] at hactive
      cases hactive
    have hhalted := h.halted_of_cancelToken (Queue.Grows.cancelToken c.system.queue token) hsub hp
      fun token' ht' hl => by
        obtain rfl := Option.some.inj (ht.symm.trans ht')
        exact Tokens.isCancelled_cancel hl _
    have hsystem : (c.strike (.abort id)).system
        = c.system.withQueue (c.system.queue.cancelToken token) := congrArg Prod.snd he
    refine ⟨?_, ?_, fun hn => absurd hsub hn⟩
    · rw [hsystem]
      exact hhalted.workers
    · rw [hsystem]
      exact hhalted.pending
  · obtain rfl := Intervention.abort.inj hcall
    exact absurd hnone hne
  · cases hcall
  · cases hcall

theorem halted_purged (hid : id ∈ c.system.queue.pending) : Halted (c.strike .purge) id :=
  .of_removed (h.submitted_of_pending hid) (h.crew_of_pending hid) List.not_mem_nil

theorem halted_stopped (hid : id ∈ c.submitted) : Halted (c.strike .emergencyStop) id := by
  have hhalted := h.halted_of_cancelToken (Queue.Grows.emergencyStop c.system.queue) hid
    List.not_mem_nil fun token ht hl =>
      Tokens.isCancelled_cancelAll (List.mem_map.mpr ⟨_, Table.mem_of_get? ht, rfl⟩) hl _
  exact ⟨hhalted.workers, hhalted.pending, hhalted.submitted⟩

theorem halted_lost (hw : (c.system.markLost .silent id).1 = true) :
    Halted (c.on (c.system.markLost .silent id).2) id := by
  have hfine := h.sane.fine id
  have htask : (c.system.view id).task = some .processing := by
    by_contra hne
    by_cases hp : (c.system.view id).task = some .pending
    · rw [(markLost_of_pending hfine hp).1] at hw
      cases hw
    · rw [markLost_of_over hfine hp hne] at hw
      cases hw
  obtain ⟨-, hlost⟩ := lost_of_working h.sane htask
  refine ⟨hlost.workers, fun hid => ?_, fun hn => absurd (h.submitted_of_ne fun hu => ?_) hn⟩
  · obtain ⟨task, ht, hstate⟩ := hlost.after
    have hpending := (((passes_markLost h.sane id).sane.fine id).pending
      (List.count_pos_iff.mpr hid)).1
    have hover : ((c.system.markLost .silent id).2.view id).task = some .lost := by
      simp [view, ht, hstate]
    rw [hover] at hpending
    cases hpending
  · rw [hu] at htask
    cases htask

/-- A closed queue has cancelled whatever descends from its token, and takes nothing. -/
theorem halted_shut (id : TaskId) : Halted (c.on c.system.shutdown) id where
  workers w hw _ := by
    have hroot : c.system.queue.close.isCancelled c.system.queue.shutdown = true :=
      Tokens.isCancelled_cancel h.sane.root _
    exact Or.inr (Tokens.isCancelled_of_subset (h.sane.manned w hw).descends hroot)
  pending _ := rfl
  submitted _ := rfl

end Sound

/-! ## Runs -/

variable [Cost κ]

/-- No tick ends a halt, and none brings a call. -/
theorem Halted.tick (h : Halted c id) (hs : Sound settings c) (ht : Tick traffic settings c c') :
    Halted c' id ∧ c'.calls id = c.calls id := by
  have hqueue : ∀ q : Queue, c.system.queue.Grows q → q.pending = c.system.queue.pending →
      Lingers id c.system (c.system.withQueue q) :=
    fun q hg hp => .of_queue hg rfl (by rw [← hp]; exact List.Subset.refl _) rfl
  cases ht with
  | submit j payload new => exact h.submit payload new (hs.fresh j new)
  | strike call clear => exact h.linger (.strike hs.sane call) (List.Subset.refl _)
  | chore next => exact h.linger (.perform _ _) (List.Subset.refl _)
  | pause => exact h.linger (hqueue _ (.of_eq rfl rfl rfl) rfl) (List.Subset.refl _)
  | resume => exact h.linger (hqueue _ (.of_eq rfl rfl rfl) rfl) (List.Subset.refl _)
  | shutdown => exact h.linger (hqueue _ (.close _) rfl) (List.Subset.refl _)
  | employ hi => exact h.employ hi
  | elapse clock =>
    exact h.linger (.of_queue (.refl _) rfl (List.Subset.refl _) rfl) (List.Subset.refl _)
  | flag timeout => exact h.linger (.flagStalled timeout _) (List.Subset.refl _)
  | markLost j => exact h.linger (.markLost j _) (List.Subset.refl _)
  | turn n execute free hc =>
    exact h.linger (.of_turned (turned_turn hs.sane hc execute) hs.sane) (List.Subset.refl _)
  | ask n free hc => exact h.ask hc
  | answer poll waiting =>
    refine h.linger (.of_turned (hs.turned ?_ poll) hs.sane) (List.Subset.refl _)
    rw [waiting]
    simp

/-- However the scene goes on, no call for the task reaches the executor. -/
def Silent (settings : Settings κ) (c : Scene κ) (id : TaskId) : Prop :=
  ∀ c', Ticks .mixed settings c c' → c'.calls id = c.calls id

theorem Halted.silent (h : Halted c id) (hs : Sound settings c) : Silent settings c id := by
  intro c' ht
  have hall : Halted c' id ∧ Sound settings c' ∧ c'.calls id = c.calls id := by
    induction ht with
    | refl => exact ⟨h, hs, rfl⟩
    | tail _ ht ih =>
      obtain ⟨hhalted, hsound, hcalls⟩ := ih
      obtain ⟨hhalted', hcalls'⟩ := hhalted.tick hsound ht
      exact ⟨hhalted', hsound.tick ht, hcalls'.trans hcalls⟩
  exact hall.2.2

/-! ## The law -/

/-- After whatever cancels a task, rejects it or takes it out of the queue, its executor hears no more of it. -/
structure Hushed (settings : Settings κ) (c : Scene κ) : Prop where
  cancelled : ∀ w ∈ c.system.workers, c.system.isCancelled w.admission.token = true →
    Silent settings c w.admission.id
  rejected : ∀ id payload, id ∉ c.submitted →
    (∃ e, (c.system.submit .silent id payload).1 = .error e) →
    Silent settings (c.submit id payload) id
  aborted : ∀ id, (c.system.queue.abort id).1 ≠ .notQueued →
    Silent settings (c.strike (.abort id)) id
  purged : ∀ id ∈ c.system.queue.pending, Silent settings (c.strike .purge) id
  stopped : ∀ id ∈ c.submitted, Silent settings (c.strike .emergencyStop) id
  lost : ∀ id, (c.system.markLost .silent id).1 = true →
    Silent settings (c.on (c.system.markLost .silent id).2) id
  shut : ∀ id, Silent settings (c.on c.system.shutdown) id

variable {limit : Nat} {maxPending : Option Nat} {orders : List Order}

/-- At any moment of any run, while calls are under way and whatever comes after. -/
theorem hushed (h : Ticks .mixed settings (.start limit maxPending orders) c) :
    Hushed settings c := by
  have hs : Sound settings c := (Sound.start settings limit maxPending orders).ticks h
  have hstrike : ∀ call, Sound settings (c.strike call) := hs.strike
  constructor
  · intro w hw hc
    exact (hs.halted_of_cancelled hw hc).silent hs
  · intro id payload new hr
    exact (hs.halted_rejected new hr).silent (hs.submit payload new)
  · intro id hne
    exact (hs.halted_aborted hne).silent (hstrike _)
  · intro id hid
    exact (hs.halted_purged hid).silent (hstrike _)
  · intro id hid
    exact (hs.halted_stopped hid).silent (hstrike _)
  · intro id hw
    exact (hs.halted_lost hw).silent (hs.on (passes_markLost hs.sane id))
  · intro id
    have hshut : Tick .mixed settings c (c.on c.system.shutdown) := .shutdown
    exact (hs.halted_shut id).silent (hs.tick hshut)

/-- Everything is stopped while the executor has the call of a task. -/
theorem hushed_while_calling :
    ∃ c : Scene Float, c.asking.length = 1 ∧ (c.calls (.ofNat 7)).length = 1 ∧
      (∃ w ∈ c.system.workers, w.admission.id = .ofNat 7 ∧
        c.system.isCancelled w.admission.token = true) ∧ Silent usual c (.ofNat 7) := by
  have hrun : ∃ c : Scene Float, Ticks .mixed usual (.start 1 none []) c ∧
      c.asking.length = 1 ∧ (c.calls (.ofNat 7)).length = 1 ∧
      ∃ w ∈ c.system.workers, w.admission.id = .ofNat 7 ∧
        c.system.isCancelled w.admission.token = true := by
    refine ⟨_, .tail (.tail (.tail (.tail (.tail (.tail .refl
      (.submit (.ofNat 7) (.object [("intent", .string "git")]) (by decide)))
      (.employ rfl))
      (.turn 0 (fun s => (.pending, s)) (by decide) rfl))
      (.turn 0 (fun s => (.pending, s)) (by decide) rfl))
      (.ask 0 (by decide) rfl))
      (.strike .emergencyStop (fun h => nomatch h)), rfl, rfl, ?_⟩
    exact ⟨_, List.mem_cons_self, rfl, rfl⟩
  obtain ⟨c, hticks, hasking, hcalls, w, hw, hid, hcancelled⟩ := hrun
  have hsilent := (hushed hticks).cancelled w hw hcancelled
  exact ⟨c, hasking, hcalls, ⟨w, hw, hid, hcancelled⟩, hid ▸ hsilent⟩

end Overseer.System
