import Overseer.Proofs.System.Loss

/-! # Marks and notes

A strike and the note that tells of it are two steps. For each id there is a file on what the strikes have marked it
with, what has been noted and what is still ahead. It is clear when the reasons that have been noted, or
are ahead, are reasons that it was marked with, when a task that is pending has no mark and one that was removed has
the mark of the strike that removed it, and when the reason on record is the last one noted, for as long as the trace
is open (`Clear`). Where calls do not overlap, the notes come in the order of the marks.
-/

namespace Overseer.System

variable {κ : Type} {s : System κ} {c : Scene κ} {id j : TaskId}

/-! ## Marks -/

theorem reasonsFor_append (id : TaskId) (l l' : List (TaskId × FailureReason)) :
    reasonsFor id (l ++ l') = reasonsFor id l ++ reasonsFor id l' := by
  simp [reasonsFor]

theorem reasonsFor_single (id : TaskId) (reason : FailureReason) :
    reasonsFor id [(id, reason)] = [reason] := by
  simp [reasonsFor]

theorem reasonsFor_of_ne (hj : j ≠ id) (reason : FailureReason) :
    reasonsFor id [(j, reason)] = [] := by
  simp [reasonsFor, hj]

theorem mem_reasonsFor {l : List (TaskId × FailureReason)} {reason : FailureReason} :
    reason ∈ reasonsFor id l ↔ (id, reason) ∈ l := by
  constructor
  · intro h
    obtain ⟨⟨i, r⟩, hfilter, hr⟩ := List.mem_map.mp h
    obtain ⟨hmem, he⟩ := List.mem_filter.mp hfilter
    have hi : i = id := by simpa using he
    rw [← hi, ← hr]
    exact hmem
  · intro h
    exact List.mem_map.mpr ⟨(id, reason), List.mem_filter.mpr ⟨h, by simp⟩, rfl⟩

theorem reasonsFor_sublist {l l' : List (TaskId × FailureReason)} (h : l.Sublist l')
    (id : TaskId) : (reasonsFor id l).Sublist (reasonsFor id l') :=
  (h.filter _).map _

theorem reasonsFor_map (ids : List TaskId) (reason : FailureReason) (id : TaskId) :
    reasonsFor id (ids.map fun i => (i, reason)) = List.replicate (ids.count id) reason := by
  induction ids with
  | nil => rfl
  | cons i ids ih =>
    rw [List.map_cons, ← List.singleton_append, reasonsFor_append, ih]
    by_cases hi : i = id
    · subst hi
      rw [reasonsFor_single, List.count_cons_self, List.replicate_succ]
      rfl
    · rw [reasonsFor_of_ne hi, List.count_cons_of_ne hi]
      rfl

/-- Chores that put down one reason for each of some ids. -/
theorem reasonsFor_flatMap {f : TaskId → List Chore} {reason : FailureReason}
    (hf : ∀ i, (f i).filterMap Chore.reason? = [(i, reason)]) (ids : List TaskId) (id : TaskId) :
    reasonsFor id ((ids.flatMap f).filterMap Chore.reason?)
      = List.replicate (ids.count id) reason := by
  rw [List.filterMap_flatMap, funext hf, ← List.map_eq_flatMap, reasonsFor_map]

theorem reasonsFor_flatMap_of_notMem {f : TaskId → List Chore} {reason : FailureReason}
    (hf : ∀ i, (f i).filterMap Chore.reason? = [(i, reason)]) {ids : List TaskId} (h : id ∉ ids) :
    reasonsFor id ((ids.flatMap f).filterMap Chore.reason?) = [] := by
  rw [reasonsFor_flatMap hf, List.count_eq_zero.mpr h]
  rfl

theorem reasonsFor_flatMap_of_nodup {f : TaskId → List Chore} {reason : FailureReason}
    (hf : ∀ i, (f i).filterMap Chore.reason? = [(i, reason)]) {ids : List TaskId} (hid : id ∈ ids)
    (hone : ids.count id ≤ 1) :
    reasonsFor id ((ids.flatMap f).filterMap Chore.reason?) = [reason] := by
  have hpos := List.count_pos_iff.mpr hid
  have hcount : ids.count id = 1 := by omega
  rw [reasonsFor_flatMap hf, hcount]
  rfl

/-- What a strike marks an id with. -/
def struck (s : System κ) (call : Intervention) (id : TaskId) : List FailureReason :=
  reasonsFor id ((s.strike call).1.filterMap Chore.reason?)

/-- A stop marks those who hold a slot and those who are pending, and nobody is both. -/
theorem struck_emergencyStop (h : Sane s) (id : TaskId) :
    (id ∈ s.queue.pending ∧ s.struck .emergencyStop id = [.emergencyStop]) ∨
    (id ∉ s.queue.pending ∧ s.struck .emergencyStop id
      = List.replicate (s.queue.active.keys.count id) .emergencyStop) := by
  let cancelled := Chore.ofCancelled "emergency_stop" "cancelled by emergency stop" .emergencyStop
  let removed :=
    Chore.ofRemoved "emergency_stop" "removed from queue by emergency stop" .emergencyStop
  have hcancelled : ∀ i, (cancelled i).filterMap Chore.reason? = [(i, .emergencyStop)] :=
    fun _ => rfl
  have hremoved : ∀ i, (removed i).filterMap Chore.reason? = [(i, .emergencyStop)] := fun _ => rfl
  have hstruck : s.struck .emergencyStop id
      = reasonsFor id ((s.queue.active.keys.flatMap cancelled).filterMap Chore.reason?)
        ++ reasonsFor id ((s.queue.pending.flatMap removed).filterMap Chore.reason?) := by
    rw [← reasonsFor_append, ← List.filterMap_append]
    rfl
  rw [hstruck]
  by_cases hid : id ∈ s.queue.pending
  · have hpos := List.count_pos_iff.mpr hid
    have hkeys : id ∉ s.queue.active.keys := by
      intro hmem
      have hactive : (s.view id).active = true := Table.mem_keys_iff.mp hmem
      rw [((h.fine id).pending hpos).2.1] at hactive
      cases hactive
    refine Or.inl ⟨hid, ?_⟩
    rw [reasonsFor_flatMap_of_notMem hcancelled hkeys,
      reasonsFor_flatMap_of_nodup hremoved hid (h.fine id).queued_le]
    rfl
  · refine Or.inr ⟨hid, ?_⟩
    rw [reasonsFor_flatMap hcancelled, reasonsFor_flatMap_of_notMem hremoved hid, List.append_nil]

/-- Who is pending is removed and marked once; who is marked otherwise holds a slot. -/
theorem struck_cases (h : Sane s) (call : Intervention) (id : TaskId) :
    s.struck call id = [] ∨
    (id ∈ s.queue.pending ∧ (s.strike call).2.queue.pending.count id = 0 ∧
      ∃ reason, reason ≠ .rejected ∧ s.struck call id = [reason]) ∨
    ((s.view id).active = true ∧
      ∀ reason ∈ s.struck call id, reason ≠ .rejected ∧ reason ≠ .purged) := by
  have hone : s.queue.pending.count id ≤ 1 := (h.fine id).queued_le
  rcases strike_cases s call with ⟨i, hi, -, he⟩ | ⟨i, token, ht, -, he⟩ | ⟨i, -, -, he⟩ |
    ⟨-, he⟩ | ⟨rfl, he⟩
  · have hreason : (Chore.ofRemoved "abort" "removed from queue by operator" .aborted i).filterMap
        Chore.reason? = [(i, .aborted)] := rfl
    rw [struck, he, hreason]
    by_cases hid : i = id
    · subst hid
      refine Or.inr (Or.inl ⟨hi, ?_, .aborted, by decide, reasonsFor_single i .aborted⟩)
      show (s.queue.pending.erase i).count i = 0
      rw [List.count_erase_self]
      omega
    · exact Or.inl (reasonsFor_of_ne hid .aborted)
  · have hreason : (Chore.ofCancelled "abort" "cancellation requested by operator" .aborted
        i).filterMap Chore.reason? = [(i, .aborted)] := rfl
    rw [struck, he, hreason]
    by_cases hid : i = id
    · subst hid
      refine Or.inr (Or.inr ⟨contains_of_get? ht, fun reason hr => ?_⟩)
      rw [reasonsFor_single, List.mem_singleton] at hr
      subst hr
      decide
    · exact Or.inl (reasonsFor_of_ne hid .aborted)
  · rw [struck, he]
    exact Or.inl rfl
  · rw [struck, he]
    by_cases hid : id ∈ s.queue.pending
    · exact Or.inr (Or.inl
        ⟨hid, rfl, .purged, by decide, reasonsFor_flatMap_of_nodup (fun _ => rfl) hid hone⟩)
    · exact Or.inl (reasonsFor_flatMap_of_notMem (fun _ => rfl) hid)
  · rw [he]
    rcases struck_emergencyStop h id with ⟨hid, hmarks⟩ | ⟨-, hmarks⟩
    · exact Or.inr (Or.inl ⟨hid, rfl, .emergencyStop, by decide, hmarks⟩)
    · rw [hmarks]
      by_cases hkeys : id ∈ s.queue.active.keys
      · refine Or.inr (Or.inr ⟨Table.mem_keys_iff.mp hkeys, fun reason hr => ?_⟩)
        rw [List.eq_of_mem_replicate hr]
        decide
      · rw [List.count_eq_zero.mpr hkeys]
        exact Or.inl rfl

/-- A submission is refused and marked, or it is queued. -/
theorem refusal_cases (payload : Json) (hu : s.view id = Standing.unknown.view id) :
    (refusal (s.submit .silent id payload).1 = [(id, .rejected)] ∧
        (s.submit .silent id payload).2.view id = Standing.discarded.view id ∨
      refusal (s.submit .silent id payload).1 = [] ∧
        (s.submit .silent id payload).2.view id = Standing.queued.view id ∧
        (s.submit .silent id payload).2.cancelReasons = s.cancelReasons) ∧
    ∀ j, j ≠ id →
      (s.submit .silent id payload).2.cancelReasons.get? j = s.cancelReasons.get? j := by
  have hview := view_submit payload hu
  have hregister := cancelReasons_register id payload s
  rcases submit_cases id payload s with ⟨step, cause, he⟩ | ⟨-, he⟩
  · have hqueue : ((s.submit .silent id payload).2.view id).queued = (s.view id).queued := by
      rw [he]
      simp only [view, queue_finish, queue_record, queue_register]
    refine ⟨Or.inl ⟨by rw [he]; rfl, hview.resolve_left fun hv => ?_⟩, fun j hj => ?_⟩
    · rw [hv, hu] at hqueue
      cases hqueue
    · rw [he]
      have hfinish := (Private.finish id (.aborted .rejected)
        ((s.register .silent id payload).record .silent id step)).reasons j hj
      rw [hfinish, cancelReasons_record, hregister]
  · have hqueue : ((s.submit .silent id payload).2.view id).queued
        = (s.queue.pending ++ [id]).count id := by
      rw [he]
      rfl
    have hreasons : (s.submit .silent id payload).2.cancelReasons = s.cancelReasons := by
      rw [he]
      exact hregister
    refine ⟨Or.inr ⟨by rw [he]; rfl, hview.resolve_right fun hv => ?_, hreasons⟩,
      fun j _ => by rw [hreasons]⟩
    rw [hv, List.count_append, List.count_singleton_self] at hqueue
    cases hqueue

/-! ## Files -/

/-- All that is known of the reasons for one id. -/
structure File where
  marked : List FailureReason
  noted : List FailureReason
  ahead : List FailureReason
  /-- With what the chores ahead will end the task. -/
  closing : List FailureReason
  /-- What is on record. -/
  reason : Option FailureReason

def Chore.close? : Chore → Option (TaskId × FailureReason)
  | close id reason => some (id, reason)
  | _ => none

def Scene.closing (c : Scene κ) (id : TaskId) : List FailureReason :=
  reasonsFor id (c.inFlight.flatten.filterMap Chore.close?)

def Scene.file (c : Scene κ) (id : TaskId) : File :=
  ⟨c.marked id, c.noted id, c.ahead id, c.closing id, c.system.cancelReasons.get? id⟩

theorem Chore.id_of_reason? (chore : Chore) {reason : FailureReason}
    (h : chore.reason? = some (id, reason)) : chore.id = id := by
  cases chore with
  | gate => cases h
  | note | close => exact congrArg Prod.fst (Option.some.inj h)

theorem reason?_of_close? {chore : Chore} {p : TaskId × FailureReason}
    (h : chore.close? = some p) : chore.reason? = some p := by
  cases chore with
  | note | gate => cases h
  | close => exact h

theorem mem_closes {l : List Chore} {reason : FailureReason} :
    reason ∈ reasonsFor id (l.filterMap Chore.close?) ↔ .close id reason ∈ l := by
  rw [mem_reasonsFor, List.mem_filterMap]
  constructor
  · rintro ⟨chore, hmem, he⟩
    cases chore with
    | note | gate => cases he
    | close i r =>
      obtain ⟨rfl, rfl⟩ := Prod.mk.inj (Option.some.inj he)
      exact hmem
  · intro hmem
    exact ⟨_, hmem, rfl⟩

section Left

variable (f : Chore → Option (TaskId × FailureReason)) (before after : List (List Chore))
  (chore : Chore) (rest : List Chore) (id : TaskId)

theorem reasonsFor_filterMap_cons :
    reasonsFor id ((chore :: rest).filterMap f)
      = reasonsFor id (f chore).toList ++ reasonsFor id (rest.filterMap f) := by
  cases hc : f chore with
  | none =>
    rw [List.filterMap_cons_none hc]
    rfl
  | some p =>
    rw [List.filterMap_cons_some hc, ← reasonsFor_append, Option.toList_some,
      List.singleton_append]

/-- What the calls have left. -/
theorem reasonsFor_left :
    reasonsFor id ((before ++ rest :: after).flatten.filterMap f)
      = reasonsFor id (before.flatten.filterMap f)
        ++ (reasonsFor id (rest.filterMap f) ++ reasonsFor id (after.flatten.filterMap f)) := by
  simp only [List.flatten_append, List.flatten_cons, List.filterMap_append, reasonsFor_append]

end Left

theorem closes_subset (id : TaskId) (l : List Chore) :
    reasonsFor id (l.filterMap Chore.close?) ⊆ reasonsFor id (l.filterMap Chore.reason?) := by
  intro reason hmem
  rw [mem_reasonsFor, List.mem_filterMap]
  exact ⟨_, mem_closes.mp hmem, rfl⟩

structure Clear (traffic : Traffic) (v : View) (f : File) : Prop where
  pending : 0 < v.queued → f.marked = []
  /-- Who is to be ended was struck once, by the call that ends it. -/
  closing : ∀ reason ∈ f.closing, f.marked = [reason]
  ahead : f.ahead ⊆ f.marked
  noted : f.noted ⊆ f.marked
  purged : .purged ∈ f.marked → f.marked = [.purged] ∧ v.crew = [] ∧ v.queued = 0
  rejected : .rejected ∈ f.marked → v.task = some .aborted
  reason : ∀ state, v.trace = some state → state.isTerminal = false →
    f.reason = f.noted.getLast?
  inOrder : traffic = .single → f.marked = f.noted ++ f.ahead

namespace Clear

variable {traffic : Traffic} {v v' : View} {f : File}

theorem empty (v : View) : Clear traffic v ⟨[], [], [], [], none⟩ where
  pending _ := rfl
  closing _ h := nomatch h
  ahead := List.nil_subset _
  noted := List.nil_subset _
  purged h := nomatch h
  rejected h := nomatch h
  reason _ _ _ := rfl
  inOrder _ := rfl

/-- A task that has been refused. -/
theorem refused (id : TaskId) (reason : Option FailureReason) :
    Clear traffic (Standing.discarded.view id) ⟨[.rejected], [.rejected], [], [], reason⟩ where
  pending h := nomatch h
  closing _ h := nomatch h
  ahead := List.nil_subset _
  noted := List.Subset.refl _
  purged h := absurd (List.mem_singleton.mp h) (by decide)
  rejected _ := rfl
  reason state hs hopen := by
    obtain rfl := Option.some.inj hs
    cases hopen
  inOrder _ := rfl

/-- Nobody is struck and nothing is put down. -/
theorem mute (h : Clear traffic v f) (hq : v'.queued ≤ v.queued) (hf : Follows v v')
    (hk : v.task = some .aborted → v'.task = some .aborted) {reason : Option FailureReason}
    (hr : ∀ state, v'.trace = some state → state.isTerminal = false →
      (∃ before, v.trace = some before ∧ before.isTerminal = false) ∧ reason = f.reason) :
    Clear traffic v' { f with reason := reason } where
  pending hpos := h.pending (Nat.lt_of_lt_of_le hpos hq)
  closing := h.closing
  ahead := h.ahead
  noted := h.noted
  purged hmem := by
    obtain ⟨hone, hcrew, hqueued⟩ := h.purged hmem
    exact ⟨hone, hf.free hcrew hqueued⟩
  rejected hmem := hk (h.rejected hmem)
  reason state htrace hopen := by
    obtain ⟨⟨before, hbefore, hopen'⟩, he⟩ := hr state htrace hopen
    exact he.trans (h.reason before hbefore hopen')
  inOrder := h.inOrder

/-- A task that was pending is struck, for the first time. -/
theorem remove (h : Clear traffic v f) (hfine : Fine v) (hq : 0 < v.queued)
    {reason : FailureReason} (hne : reason ≠ .rejected) {closing : List FailureReason}
    (hc : closing ⊆ [reason]) :
    Clear traffic { v with queued := 0 }
      { f with
        marked := f.marked ++ [reason], ahead := f.ahead ++ [reason],
        closing := f.closing ++ closing } := by
  have hmarked := h.pending hq
  have hnoted : f.noted = [] := List.subset_nil.mp (hmarked ▸ h.noted)
  have hahead : f.ahead = [] := List.subset_nil.mp (hmarked ▸ h.ahead)
  have hclosing : f.closing = [] := by
    rw [List.eq_nil_iff_forall_not_mem]
    intro r hr
    have hone := h.closing r hr
    rw [hmarked] at hone
    cases hone
  rw [hmarked, hahead, hclosing]
  refine ⟨(fun hpos => nomatch hpos), fun r hr => ?_, List.Subset.refl _, ?_, fun hmem => ?_,
    fun hmem => ?_, h.reason, fun _ => ?_⟩
  · rw [List.mem_singleton.mp (hc hr)]
    rfl
  · rw [hnoted]
    exact List.nil_subset _
  · have he : FailureReason.purged = reason := List.mem_singleton.mp hmem
    rw [← he]
    exact ⟨rfl, (hfine.pending hq).2.2, rfl⟩
  · exact absurd (List.mem_singleton.mp hmem).symm hne
  · rw [hnoted]
    rfl

/-- The token of a task is cancelled. -/
theorem cancel (h : Clear traffic v f) (hcrew : v.crew ≠ []) (hq : v.queued = 0)
    (hclosing : f.closing = []) {reasons : List FailureReason}
    (hne : ∀ reason ∈ reasons, reason ≠ .rejected ∧ reason ≠ .purged) :
    Clear traffic v
      { f with marked := f.marked ++ reasons, ahead := f.ahead ++ reasons } where
  pending hpos := by
    rw [hq] at hpos
    cases hpos
  closing r hr := by
    simp only [hclosing] at hr
    cases hr
  ahead := List.append_subset.mpr
    ⟨List.Subset.trans h.ahead (List.subset_append_left _ _), List.subset_append_right _ _⟩
  noted := List.Subset.trans h.noted (List.subset_append_left _ _)
  purged hmem := by
    rcases List.mem_append.mp hmem with hold | hnew
    · exact absurd (h.purged hold).2.1 hcrew
    · exact absurd rfl (hne _ hnew).2
  rejected hmem := by
    rcases List.mem_append.mp hmem with hold | hnew
    · exact h.rejected hold
    · exact absurd rfl (hne _ hnew).1
  reason := h.reason
  inOrder hs := by
    show f.marked ++ reasons = f.noted ++ (f.ahead ++ reasons)
    rw [h.inOrder hs, List.append_assoc]

/-- A reason that was ahead is put down. -/
theorem put (h : Clear traffic v f) {reason : FailureReason} {ahead closing : List FailureReason}
    {onRecord : Option FailureReason} (hr : reason ∈ f.ahead) (ha : ahead ⊆ f.ahead)
    (hc : closing ⊆ f.closing) (hs : traffic = .single → f.ahead = reason :: ahead)
    (hq : v'.queued ≤ v.queued) (hf : Follows v v')
    (hk : v.task = some .aborted → v'.task = some .aborted)
    (ho : ∀ state, v'.trace = some state → state.isTerminal = false → onRecord = some reason) :
    Clear traffic v'
      { f with
        noted := f.noted ++ [reason], ahead := ahead, closing := closing, reason := onRecord } where
  pending hpos := h.pending (Nat.lt_of_lt_of_le hpos hq)
  closing r hmem := h.closing r (hc hmem)
  ahead := List.Subset.trans ha h.ahead
  noted := List.append_subset.mpr
    ⟨h.noted, List.cons_subset.mpr ⟨h.ahead hr, List.nil_subset _⟩⟩
  purged hmem := by
    obtain ⟨hone, hcrew, hqueued⟩ := h.purged hmem
    exact ⟨hone, hf.free hcrew hqueued⟩
  rejected hmem := hk (h.rejected hmem)
  reason state htrace hopen := by
    rw [ho state htrace hopen]
    simp
  inOrder hsingle := by
    show f.marked = f.noted ++ [reason] ++ ahead
    rw [h.inOrder hsingle, hs hsingle]
    simp

end Clear

end Overseer.System
