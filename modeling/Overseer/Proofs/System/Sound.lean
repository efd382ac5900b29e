import Overseer.Proofs.System.Passage

/-! # Sound scenes

A scene is sound when its system is sane, nothing is known of an id before it is submitted, each chore that is left
still finds its task as the strike has left it, and each worker that waits for the executor is where its turn
began. Every tick leads from a sound scene to a sound one.
-/

namespace Overseer.System

variable {κ : Type}

/-- How a chore finds its task: a note is for one that has a worker, an end for one that nobody has. -/
def Assigned (v : View) : Chore → Prop
  | .note _ _ => v.crew ≠ []
  | .gate _ _ _ => True
  | .close _ _ => v.crew = [] ∧ v.queued = 0

theorem Assigned.follow {v v' : View} {chore : Chore} (hf : Follows v v')
    (h : Assigned v chore) : Assigned v' chore := by
  cases chore with
  | note => exact hf.crew h
  | gate => trivial
  | close => exact hf.free h.1 h.2

/-! ## Strikes -/

variable {s : System κ} {id : TaskId} {call : Intervention} {chore : Chore}

/-- The three things that a strike can do to the queue, and its chores for them. -/
theorem strike_cases (s : System κ) (call : Intervention) :
    (∃ id ∈ s.queue.pending, call = .abort id ∧ s.strike call
      = (Chore.ofRemoved "abort" "removed from queue by operator" .aborted id,
        s.withQueue { s.queue with pending := s.queue.pending.erase id })) ∨
    (∃ id token, s.queue.active.get? id = some token ∧ call = .abort id ∧ s.strike call
      = (Chore.ofCancelled "abort" "cancellation requested by operator" .aborted id,
        s.withQueue (s.queue.cancelToken token))) ∨
    (∃ id, call = .abort id ∧ (s.queue.abort id).1 = .notQueued ∧ s.strike call = ([], s)) ∨
    (call = .purge ∧ s.strike call
      = (s.queue.pending.flatMap
          (Chore.ofRemoved "purge" "removed from queue by purge" .purged),
        s.withQueue s.queue.purge.2)) ∨
    (call = .emergencyStop ∧ s.strike call
      = (s.queue.active.keys.flatMap
          (Chore.ofCancelled "emergency_stop" "cancelled by emergency stop" .emergencyStop)
        ++ s.queue.pending.flatMap
          (Chore.ofRemoved "emergency_stop" "removed from queue by emergency stop"
            .emergencyStop),
        s.withQueue s.queue.emergencyStop.2)) := by
  cases call with
  | abort id =>
    rcases Queue.abort_cases s.queue id with ⟨hid, h⟩ | ⟨token, ht, h⟩ | h
    · exact Or.inl ⟨id, hid, rfl, by simp only [strike, h]⟩
    · exact Or.inr (Or.inl ⟨id, token, ht, rfl, by simp only [strike, h]⟩)
    · refine Or.inr (Or.inr (Or.inl ⟨id, rfl, by rw [h], ?_⟩))
      simp only [strike, h]
      rfl
  | purge => exact Or.inr (Or.inr (Or.inr (Or.inl ⟨rfl, rfl⟩)))
  | emergencyStop => exact Or.inr (Or.inr (Or.inr (Or.inr ⟨rfl, rfl⟩)))

/-- Nothing but the queue is struck. -/
theorem strike_eq (s : System κ) (call : Intervention) :
    (s.strike call).2 = s.withQueue (s.strike call).2.queue := by
  rcases strike_cases s call with ⟨_, -, -, he⟩ | ⟨_, _, -, -, he⟩ | ⟨_, -, -, he⟩ | ⟨-, he⟩ |
    ⟨-, he⟩
  all_goals
    rw [he]
    rfl

theorem pending_strike_le (s : System κ) (call : Intervention) (id : TaskId) :
    (s.strike call).2.queue.pending.count id ≤ s.queue.pending.count id := by
  rcases strike_cases s call with ⟨i, -, -, he⟩ | ⟨_, token, -, -, he⟩ | ⟨_, -, -, he⟩ |
    ⟨-, he⟩ | ⟨-, he⟩
  · rw [he]
    exact List.erase_sublist.count_le id
  · rw [he]
    exact Nat.le_refl _
  · exact Nat.le_of_eq (congrArg (fun p => p.2.queue.pending.count id) he)
  · rw [he]
    exact Nat.zero_le _
  · rw [he]
    exact Nat.zero_le _

theorem passes_strike (h : Sane s) (call : Intervention) : Passes still s (s.strike call).2 := by
  have hnil : ∀ id : TaskId, ([] : List TaskId).count id ≤ s.queue.pending.count id :=
    fun _ => Nat.zero_le _
  rcases strike_cases s call with ⟨id, -, -, he⟩ | ⟨id, token, -, -, he⟩ | ⟨id, -, -, he⟩ |
    ⟨-, he⟩ | ⟨-, he⟩
  · rw [he]
    exact h.passes_withQueue (.of_eq rfl rfl rfl)
      (fun j => List.erase_sublist.count_le j) rfl
  · rw [he]
    exact h.passes_withQueue (.cancelToken _ _) (fun _ => Nat.le_refl _) rfl
  · rw [he]
    exact h.passes_of_view (fun _ => rfl) rfl rfl
  · rw [he]
    exact h.passes_withQueue (.of_eq rfl rfl rfl) hnil rfl
  · rw [he]
    exact h.passes_withQueue (.emergencyStop _) hnil rfl

theorem view_strike (s : System κ) (call : Intervention) (id : TaskId) :
    (s.strike call).2.view id
      = { s.view id with queued := (s.strike call).2.queue.pending.count id } := by
  rcases strike_cases s call with ⟨_, -, -, he⟩ | ⟨_, token, -, -, he⟩ | ⟨_, -, -, he⟩ |
    ⟨-, he⟩ | ⟨-, he⟩
  all_goals
    rw [he]
    rfl

/-- A chore of a strike is for a task that was pending and is not any more, or for one that has a worker. -/
theorem chore_cases (h : Sane s) (hc : chore ∈ (s.strike call).1) :
    (chore.id ∈ s.queue.pending ∧ (s.strike call).2.queue.pending.count chore.id = 0 ∧
      ∀ reason, chore ≠ .note chore.id reason) ∨
    ((∃ token, s.queue.active.get? chore.id = some token) ∧
      ∀ reason, chore ≠ .close chore.id reason) := by
  have hremoved : ∀ action detail reason id, chore ∈ Chore.ofRemoved action detail reason id →
      chore.id = id ∧ ∀ r, chore ≠ .note chore.id r := by
    intro action detail reason id hmem
    simp only [Chore.ofRemoved, List.mem_cons, List.not_mem_nil, or_false] at hmem
    rcases hmem with rfl | rfl
    · exact ⟨rfl, fun _ he => nomatch he⟩
    · exact ⟨rfl, fun _ he => nomatch he⟩
  have hcancelled : ∀ action detail reason id,
      chore ∈ Chore.ofCancelled action detail reason id →
      chore.id = id ∧ ∀ r, chore ≠ .close chore.id r := by
    intro action detail reason id hmem
    simp only [Chore.ofCancelled, List.mem_cons, List.not_mem_nil, or_false] at hmem
    rcases hmem with rfl | rfl
    · exact ⟨rfl, fun _ he => nomatch he⟩
    · exact ⟨rfl, fun _ he => nomatch he⟩
  rcases strike_cases s call with ⟨id, hid, -, he⟩ | ⟨id, token, ht, -, he⟩ | ⟨id, -, -, he⟩ |
    ⟨-, he⟩ | ⟨-, he⟩
  · rw [he] at hc ⊢
    obtain ⟨rfl, hne⟩ := hremoved _ _ _ _ hc
    refine Or.inl ⟨hid, ?_, hne⟩
    have hle : s.queue.pending.count chore.id ≤ 1 := (h.fine chore.id).queued_le
    show (s.queue.pending.erase chore.id).count chore.id = 0
    rw [List.count_erase_self]
    omega
  · rw [he] at hc
    obtain ⟨rfl, hne⟩ := hcancelled _ _ _ _ hc
    exact Or.inr ⟨⟨token, ht⟩, hne⟩
  · rw [he] at hc
    cases hc
  · rw [he] at hc ⊢
    obtain ⟨id, hid, hmem⟩ := List.mem_flatMap.mp hc
    obtain ⟨rfl, hne⟩ := hremoved _ _ _ _ hmem
    exact Or.inl ⟨hid, rfl, hne⟩
  · rw [he] at hc ⊢
    rcases List.mem_append.mp hc with hc | hc
    · obtain ⟨id, hid, hmem⟩ := List.mem_flatMap.mp hc
      obtain ⟨rfl, hne⟩ := hcancelled _ _ _ _ hmem
      rw [Table.mem_keys_iff, Table.contains_eq, Option.isSome_iff_exists] at hid
      exact Or.inr ⟨hid, hne⟩
    · obtain ⟨id, hid, hmem⟩ := List.mem_flatMap.mp hc
      obtain ⟨rfl, hne⟩ := hremoved _ _ _ _ hmem
      exact Or.inl ⟨hid, rfl, hne⟩

theorem assigned_strike (h : Sane s) (hc : chore ∈ (s.strike call).1) :
    s.view chore.id ≠ Standing.unknown.view chore.id ∧
      Assigned ((s.strike call).2.view chore.id) chore := by
  have hfine := h.fine chore.id
  rw [view_strike]
  rcases chore_cases h hc with ⟨hid, hzero, hne⟩ | ⟨⟨token, ht⟩, hne⟩
  · have hpos : 0 < (s.view chore.id).queued := List.count_pos_iff.mpr hid
    refine ⟨fun hu => ?_, ?_⟩
    · rw [hu] at hpos
      cases hpos
    · cases chore with
      | note id reason => exact absurd rfl (hne reason)
      | gate => trivial
      | close => exact ⟨(hfine.pending hpos).2.2, hzero⟩
  · have hactive := contains_of_get? ht
    refine ⟨fun hu => ?_, ?_⟩
    · rw [hu] at hactive
      cases hactive
    · cases chore with
      | note => exact (hfine.slot hactive).1
      | gate => trivial
      | close id reason => exact absurd rfl (hne reason)

/-! ## Submissions -/

theorem grows_submit (id : TaskId) (payload : Json) (s : System κ) :
    s.queue.Grows (s.submit .silent id payload).2.queue := by
  rcases submit_cases id payload s with ⟨step, cause, hs⟩ | ⟨-, hs⟩
  · rw [hs, queue_finish, queue_record, queue_register]
    exact .refl _
  · rw [hs]
    exact .of_eq rfl rfl rfl

theorem sane_submit (h : Sane s) (payload : Json) (hu : s.view id = Standing.unknown.view id) :
    Sane (s.submit .silent id payload).2 := by
  obtain ⟨-, hactive, hworkers⟩ := submit_frame id payload s
  have hg := grows_submit id payload s
  refine ⟨fun j => ?_, ?_, fun w hw => ?_, ?_⟩
  · by_cases he : j = id
    · subst he
      rcases view_submit payload hu with hv | hv
      · rw [hv]
        exact fine_queued j
      · rw [hv]
        exact fine_discarded j
    · rw [view_submit_of_ne payload (contains_of_unknown hu) he]
      exact h.fine j
  · rw [hg.shutdown]
    exact h.root
  · rw [hworkers] at hw
    exact (h.manned w hw).grow hg (by rw [hactive])
  · rw [hactive, hworkers]
    exact h.owned

/-! ## Scenes -/

variable {traffic : Traffic} {settings : Settings κ} {c c' : Scene κ} {moves : Nat → Prop}

structure Sound (settings : Settings κ) (c : Scene κ) : Prop where
  sane : Sane c.system
  fresh : ∀ id, id ∉ c.submitted → c.system.view id = Standing.unknown.view id
  assigned : ∀ chore ∈ c.inFlight.flatten,
    chore.id ∈ c.submitted ∧ Assigned (c.system.view chore.id) chore
  apart : (c.asking.map (·.1)).Nodup
  waiting : ∀ n s, (n, s) ∈ c.asking →
    ∃ w s', c.system.workers[n]? = some w ∧ s.workers[n]? = some w ∧
      s.consulted settings n = some s'

namespace Sound

theorem start (settings : Settings κ) (limit : Nat) (maxPending : Option Nat)
    (orders : List Order) : Sound settings (.start limit maxPending orders) where
  sane := .new limit maxPending orders
  fresh _ _ := rfl
  assigned _ h := nomatch h
  apart := List.nodup_nil
  waiting _ _ h := nomatch h

theorem submitted_of_ne (h : Sound settings c)
    (hne : c.system.view id ≠ Standing.unknown.view id) : id ∈ c.submitted :=
  Classical.byContradiction fun hid => hne (h.fresh id hid)

/-- The scene goes on without a submission. Chores are done or new and assigned, and whoever still waits has not
moved. -/
theorem next (h : Sound settings c) (hp : Passes moves c.system c'.system)
    (hs : c'.submitted = c.submitted)
    (hc : ∀ chore ∈ c'.inFlight.flatten, chore ∈ c.inFlight.flatten ∨
      chore.id ∈ c.submitted ∧ Assigned (c'.system.view chore.id) chore)
    (ha : c'.asking.Sublist c.asking) (hm : ∀ n s, (n, s) ∈ c'.asking → ¬ moves n) :
    Sound settings c' where
  sane := hp.sane
  fresh id hid := hp.fresh id (h.fresh id (hs ▸ hid))
  assigned chore hmem := by
    rw [hs]
    rcases hc chore hmem with hold | hnew
    · obtain ⟨hid, hassigned⟩ := h.assigned chore hold
      exact ⟨hid, hassigned.follow (hp.follows chore.id)⟩
    · exact hnew
  apart := h.apart.sublist (ha.map _)
  waiting n s hmem := by
    obtain ⟨w, s', hw, hw₀, hcons⟩ := h.waiting n s (ha.subset hmem)
    exact ⟨w, s', hp.workers n w (hm n s hmem) hw, hw₀, hcons⟩

/-- Only the system changes, and no worker moves. -/
theorem on (h : Sound settings c) {s : System κ} (hp : Passes still c.system s) :
    Sound settings (c.on s) :=
  h.next hp rfl (fun _ hmem => Or.inl hmem) (List.Sublist.refl _) fun _ _ _ hm => hm

theorem submit (h : Sound settings c) {id : TaskId} (payload : Json) (new : id ∉ c.submitted) :
    Sound settings (c.submit id payload) where
  sane := sane_submit h.sane payload (h.fresh id new)
  fresh j hj := by
    have hsplit := List.ne_and_not_mem_of_not_mem_cons hj
    have hu := contains_of_unknown (h.fresh id new)
    exact (view_submit_of_ne payload hu hsplit.1).trans (h.fresh j hsplit.2)
  assigned chore hmem := by
    obtain ⟨hid, hassigned⟩ := h.assigned chore hmem
    have hne : chore.id ≠ id := fun he => new (he ▸ hid)
    refine ⟨List.mem_cons_of_mem _ hid, ?_⟩
    have hv := view_submit_of_ne payload (contains_of_unknown (h.fresh id new)) hne
    exact (congrArg (Assigned · chore) hv).mpr hassigned
  apart := h.apart
  waiting n s hmem := by
    have hw : (c.system.submit .silent id payload).2.workers = c.system.workers :=
      (submit_frame id payload c.system).2.2
    obtain ⟨w, s', hn, hrest⟩ := h.waiting n s hmem
    exact ⟨w, s', (congrArg (·[n]?) hw).trans hn, hrest⟩

theorem strike (h : Sound settings c) (call : Intervention) : Sound settings (c.strike call) := by
  refine h.next (passes_strike h.sane call) rfl (fun chore hmem => ?_) (List.Sublist.refl _)
    fun _ _ _ hm => hm
  have hmem' : chore ∈ c.inFlight.flatten ++ (c.system.strike call).1 := by
    have he : (c.strike call).inFlight = c.inFlight ++ [(c.system.strike call).1] := rfl
    rw [he, List.flatten_append] at hmem
    simpa using hmem
  rcases List.mem_append.mp hmem' with hold | hnew
  · exact Or.inl hold
  · obtain ⟨hne, hassigned⟩ := assigned_strike h.sane hnew
    exact Or.inr ⟨h.submitted_of_ne hne, hassigned⟩

theorem passes_chore (h : Sound settings c) {chore : Chore} (hmem : chore ∈ c.inFlight.flatten) :
    Passes still c.system (chore.perform c.system) := by
  obtain ⟨-, hassigned⟩ := h.assigned chore hmem
  cases chore with
  | note id reason => exact passes_note h.sane id reason
  | gate id action detail => exact passes_record h.sane id _
  | close id reason => exact passes_close h.sane hassigned.1 hassigned.2 reason

theorem perform (h : Sound settings c) {before after : List (List Chore)} {chore : Chore}
    {rest : List Chore} (hnext : c.inFlight = before ++ (chore :: rest) :: after) :
    Sound settings (c.perform chore (before ++ rest :: after)) := by
  have hmem : chore ∈ c.inFlight.flatten := by
    rw [hnext]
    simp
  refine h.next (h.passes_chore hmem) rfl (fun other ho => Or.inl ?_) (List.Sublist.refl _)
    fun _ _ _ hm => hm
  have he : (c.perform chore (before ++ rest :: after)).inFlight = before ++ rest :: after := rfl
  rw [he] at ho
  rw [hnext]
  simp only [List.flatten_append, List.flatten_cons, List.mem_append, List.mem_cons] at ho ⊢
  rcases ho with ho | ho | ho
  · exact Or.inl ho
  · exact Or.inr (Or.inl (Or.inr ho))
  · exact Or.inr (Or.inr ho)

theorem passes_consulted {s s' : System κ} {n : Nat} (h : Sane s)
    (hc : s.consulted settings n = some s') : Passes still s s' := by
  obtain ⟨calls, rfl⟩ := exists_reached hc
  exact h.passes_of_view (fun _ => rfl) rfl rfl

theorem ask (h : Sound settings c) {n : Nat} {s : System κ} (free : n ∉ c.asking.map (·.1))
    (hc : c.system.consulted settings n = some s) :
    Sound settings { c with system := s, asking := (n, c.system) :: c.asking } := by
  have hon := h.on (passes_consulted h.sane hc)
  obtain ⟨w, hw, -⟩ := exists_of_consulted hc
  refine ⟨hon.sane, hon.fresh, hon.assigned, List.nodup_cons.mpr ⟨free, h.apart⟩, ?_⟩
  intro m t hmem
  rcases List.mem_cons.mp hmem with he | hmem
  · obtain ⟨rfl, rfl⟩ := Prod.mk.inj he
    exact ⟨w, s, (passes_consulted h.sane hc).workers m w (fun hm => hm) hw, hw, hc⟩
  · exact hon.waiting m t hmem

variable [Cost κ]

theorem turn (h : Sound settings c) {n : Nat} (free : n ∉ c.asking.map (·.1))
    (hc : c.system.consulted settings n = none) (execute : Execute κ) :
    Sound settings (c.on (c.system.turn .silent settings n execute)) := by
  refine h.next ((turned_turn h.sane hc execute).passes h.sane) rfl (fun _ hmem => Or.inl hmem)
    (List.Sublist.refl _) fun m s hmem he => ?_
  subst he
  exact free (List.mem_map.mpr ⟨(m, s), hmem, rfl⟩)

theorem turned (h : Sound settings c) {n : Nat} {s : System κ} (hmem : (n, s) ∈ c.asking)
    (poll : Poll κ) : Turned n c.system (s.turn .silent settings n fun _ => (poll, c.system)) := by
  obtain ⟨w, s', hw, hw₀, hc⟩ := h.waiting n s hmem
  exact turned_answer h.sane hw hw₀ hc poll

theorem answer (h : Sound settings c) {before after : List (Nat × System κ)} {n : Nat}
    {s : System κ} (poll : Poll κ) (waiting : c.asking = before ++ (n, s) :: after) :
    Sound settings (c.answer settings n s poll (before ++ after)) := by
  have hmem : (n, s) ∈ c.asking := by
    rw [waiting]
    simp
  refine h.next ((h.turned hmem poll).passes h.sane) rfl (fun _ hmem => Or.inl hmem) ?_
    fun m t ht he => ?_
  · rw [waiting]
    exact List.Sublist.append_left (List.sublist_cons_self _ _) _
  · subst he
    have hapart := h.apart
    rw [waiting, List.map_append, List.map_cons] at hapart
    have hnot := (List.nodup_middle.mp hapart).notMem
    rw [← List.map_append] at hnot
    exact hnot (List.mem_map.mpr ⟨(m, t), ht, rfl⟩)

/-- Every tick leads from a sound scene to a sound one. -/
theorem tick (h : Sound settings c) (ht : Tick traffic settings c c') : Sound settings c' := by
  cases ht with
  | submit id payload new => exact h.submit payload new
  | strike call clear => exact h.strike call
  | chore next => exact h.perform next
  | pause => exact h.on (h.sane.passes_withQueue (.of_eq rfl rfl rfl) (fun _ => Nat.le_refl _) rfl)
  | resume => exact h.on (h.sane.passes_withQueue (.of_eq rfl rfl rfl) (fun _ => Nat.le_refl _) rfl)
  | shutdown => exact h.on (h.sane.passes_withQueue (.close _) (fun _ => Nat.le_refl _) rfl)
  | employ hi => exact h.on (passes_employ h.sane hi)
  | elapse clock => exact h.on (h.sane.passes_of_view (fun _ => rfl) rfl rfl)
  | flag timeout => exact h.on (passes_flagStalled h.sane timeout)
  | markLost id => exact h.on (passes_markLost h.sane id)
  | turn n execute free hc => exact h.turn free hc execute
  | ask n free hc => exact h.ask free hc
  | answer poll waiting => exact h.answer poll waiting

theorem ticks (h : Sound settings c) (ht : Ticks traffic settings c c') : Sound settings c' := by
  induction ht with
  | refl => exact h
  | tail _ ht ih => exact ih.tick ht

end Sound

end Overseer.System
