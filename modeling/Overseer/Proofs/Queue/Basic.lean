import Overseer.Proofs.Table
import Overseer.Proofs.Token
import Overseer.Queue.Waiter

/-! # What the queue does to its lists

Of the queue it counts who is pending and who is active. Each operation is said here to change the one or the
other, or to find that it cannot.
-/

namespace Overseer

namespace Queue

/-! ## Slots -/

theorem release_cases (q : Queue) (id : TaskId) :
    (q.release id).2 = wake { q with active := q.active.remove id } ∨
    (q.release id).2 = q ∧ q.active.contains id = false := by
  by_cases h : q.active.contains id
  · exact Or.inl (by simp [release, free, h])
  · exact Or.inr (by simp [release, free, h])

theorem pending_release (q : Queue) (id : TaskId) : (q.release id).2.pending = q.pending := by
  rcases release_cases q id with h | ⟨h, -⟩
  · rw [h]
    rfl
  · rw [h]

theorem limit_release (q : Queue) (id : TaskId) : (q.release id).2.limit = q.limit := by
  rcases release_cases q id with h | ⟨h, -⟩
  · rw [h]
    rfl
  · rw [h]

theorem tokens_release (q : Queue) (id : TaskId) :
    (q.release id).2.tokens = q.tokens ∧ (q.release id).2.shutdown = q.shutdown := by
  rcases release_cases q id with h | ⟨h, -⟩
  · rw [h]
    exact ⟨rfl, rfl⟩
  · rw [h]
    exact ⟨rfl, rfl⟩

theorem flags_release (q : Queue) (id : TaskId) :
    (q.release id).2.paused = q.paused ∧ (q.release id).2.closed = q.closed := by
  rcases release_cases q id with h | ⟨h, -⟩
  · rw [h]
    exact ⟨rfl, rfl⟩
  · rw [h]
    exact ⟨rfl, rfl⟩

theorem contains_release (q : Queue) (id : TaskId) :
    (q.release id).2.active.contains id = false := by
  rcases release_cases q id with h | ⟨h, hc⟩
  · rw [h, wake, Table.contains_eq, Table.get?_remove]
    rfl
  · rw [h, hc]

theorem contains_release_of_ne {j id : TaskId} (hj : j ≠ id) (q : Queue) :
    (q.release id).2.active.contains j = q.active.contains j := by
  rcases release_cases q id with h | ⟨h, -⟩
  · rw [h, wake, Table.contains_eq, Table.contains_eq, Table.get?_remove_of_ne hj]
  · rw [h]

theorem get?_release (q : Queue) (id : TaskId) : (q.release id).2.active.get? id = none := by
  have h := contains_release q id
  rw [Table.contains_eq] at h
  simpa using h

theorem get?_release_of_ne {j id : TaskId} (hj : j ≠ id) (q : Queue) :
    (q.release id).2.active.get? j = q.active.get? j := by
  rcases release_cases q id with h | ⟨h, -⟩
  · rw [h]
    exact Table.get?_remove_of_ne hj _
  · rw [h]

/-- A slot that is free is not freed. -/
theorem release_of_free {q : Queue} {id : TaskId} (h : q.active.get? id = none) :
    (q.release id).2 = q := by
  have hc : q.active.contains id = false := by
    rw [Table.contains_eq, h]
    rfl
  simp [release, free, hc]

theorem keys_release (q : Queue) (id : TaskId) :
    (q.release id).2.active.keys.Sublist q.active.keys := by
  rcases release_cases q id with h | ⟨h, -⟩
  · rw [h]
    exact Table.keys_remove_sublist _ _
  · rw [h]

theorem length_release_le (q : Queue) (id : TaskId) :
    (q.release id).2.active.length ≤ q.active.length := by
  rcases release_cases q id with h | ⟨h, -⟩
  · rw [h]
    exact Table.length_remove_le _ _
  · simp [h]

/-! ## What no operation takes back -/

/-- Tokens stay issued and cancelled, and a queue that has been closed stays closed. -/
structure Grows (q q' : Queue) : Prop where
  shutdown : q'.shutdown = q.shutdown
  closed : q.closed = true → q'.closed = true
  issued : q.tokens.issued ≤ q'.tokens.issued
  cancelled : q.tokens.cancelled ⊆ q'.tokens.cancelled

namespace Grows

variable {q q' q'' : Queue}

theorem refl (q : Queue) : Grows q q := ⟨rfl, fun h => h, Nat.le_refl _, List.Subset.refl _⟩

theorem of_eq (hs : q'.shutdown = q.shutdown) (hc : q'.closed = q.closed)
    (ht : q'.tokens = q.tokens) : Grows q q' where
  shutdown := hs
  closed h := hc.trans h
  issued := Nat.le_of_eq (congrArg Tokens.issued ht.symm)
  cancelled := by
    rw [ht]
    exact List.Subset.refl _

theorem trans (h : Grows q q') (h' : Grows q' q'') : Grows q q'' :=
  ⟨h'.shutdown.trans h.shutdown, fun hc => h'.closed (h.closed hc),
    Nat.le_trans h.issued h'.issued, List.Subset.trans h.cancelled h'.cancelled⟩

theorem isCancelled (h : Grows q q') {token : Token} (hc : q.isCancelled token = true) :
    q'.isCancelled token = true := Tokens.isCancelled_mono h.cancelled hc

theorem release (q : Queue) (id : TaskId) : Grows q (q.release id).2 := by
  rcases release_cases q id with h | ⟨h, -⟩
  · rw [h]
    exact .of_eq rfl rfl rfl
  · rw [h]
    exact .refl q

theorem cancelToken (q : Queue) (token : Token) : Grows q (q.cancelToken token) :=
  ⟨rfl, fun hc => hc, Nat.le_of_eq (Tokens.issued_cancel _ _).symm, Tokens.subset_cancel _ _⟩

theorem emergencyStop (q : Queue) : Grows q q.emergencyStop.2 :=
  ⟨rfl, fun hc => hc, Nat.le_of_eq (Tokens.issued_cancelAll _ _).symm,
    Tokens.subset_cancelAll _ _⟩

theorem close (q : Queue) : Grows q q.close :=
  ⟨rfl, fun _ => rfl, Nat.le_of_eq (Tokens.issued_cancel _ _).symm, Tokens.subset_cancel _ _⟩

end Grows

/-! ## Taking tasks and handing them out -/

theorem enqueue_ok {q q' : Queue} {id : TaskId} (h : q.enqueue id = .ok q') :
    q' = wake { q with pending := q.pending ++ [id] } ∧ q.closed = false ∧
      ∀ most, q.maxPending = some most → q.pending.length < most := by
  unfold enqueue push at h
  split at h
  · cases h
  · rename_i hopen
    split at h
    · cases h
    · rename_i hroom
      have he : wake { q with pending := q.pending ++ [id] } = q' := Except.ok.inj h
      refine ⟨he.symm, by simpa using hopen, ?_⟩
      intro most hmost
      simpa [isFull, hmost] using hroom

/-- All that a look at the queue can come to. -/
theorem inspect_cases (q : Queue) :
    (q.closed = true ∧ q.inspect = .closed) ∨
    (q.closed = false ∧ (q.paused = true ∨ q.limit ≤ q.active.length ∨ q.pending = []) ∧
      q.inspect = .nothing) ∨
    ∃ id rest, q.closed = false ∧ q.paused = false ∧ q.active.length < q.limit ∧
      q.pending = id :: rest ∧ q.inspect = .admitted (q.grant id rest).1 (q.grant id rest).2 := by
  unfold inspect
  cases hclosed : q.closed with
  | true => exact Or.inl ⟨rfl, rfl⟩
  | false =>
    right
    cases hpaused : q.paused with
    | true => exact Or.inl ⟨rfl, Or.inl rfl, rfl⟩
    | false =>
      by_cases hfull : q.limit ≤ q.active.length
      · exact Or.inl ⟨rfl, Or.inr (Or.inl hfull), by simp [hfull]⟩
      · cases hp : q.pending with
        | nil => exact Or.inl ⟨rfl, Or.inr (Or.inr rfl), by simp⟩
        | cons id rest =>
          refine Or.inr ⟨id, rest, rfl, rfl, Nat.lt_of_not_le hfull, rfl, ?_⟩
          simp [hfull]

theorem grant_of_inspect {q q' : Queue} {a : Admission} (h : q.inspect = .admitted a q') :
    ∃ id rest, q.closed = false ∧ q.paused = false ∧ q.active.length < q.limit ∧
      q.pending = id :: rest ∧ q.grant id rest = (a, q') := by
  rcases inspect_cases q with ⟨-, he⟩ | ⟨-, -, he⟩ | ⟨id, rest, hopen, hpaused, hfree, hp, he⟩
  · rw [he] at h
    cases h
  · rw [he] at h
    cases h
  · rw [he] at h
    cases h
    exact ⟨id, rest, hopen, hpaused, hfree, hp, rfl⟩

/-- Only an open queue that is not paused admits, and only into a slot that is free. -/
theorem inspect_admitted {q q' : Queue} {a : Admission} (h : q.inspect = .admitted a q') :
    ∃ rest, q.pending = a.id :: rest ∧ q.active.length < q.limit ∧
      q'.pending = rest ∧ q'.active = q.active.set a.id a.token ∧ q'.limit = q.limit := by
  obtain ⟨id, rest, -, -, hfree, hp, hgrant⟩ := grant_of_inspect h
  cases hgrant
  exact ⟨rest, hp, hfree, rfl, rfl, rfl⟩

theorem inspect_open {q q' : Queue} {a : Admission} (h : q.inspect = .admitted a q') :
    q.closed = false ∧ q.paused = false ∧ q'.maxPending = q.maxPending ∧ q.Grows q' ∧
      q.shutdown.lineage ⊆ a.token.lineage := by
  obtain ⟨id, rest, hopen, hpaused, -, -, hgrant⟩ := grant_of_inspect h
  cases hgrant
  exact ⟨hopen, hpaused, rfl, ⟨rfl, fun hc => hc, Nat.le_succ _, List.Subset.refl _⟩,
    List.subset_cons_self _ _⟩

/-- The token of an admission has a number that was never issued, and descends from that of the queue. -/
theorem inspect_token {q q' : Queue} {a : Admission} (h : q.inspect = .admitted a q') :
    a.token.lineage = q.tokens.issued :: q.shutdown.lineage ∧
      q'.tokens.issued = q.tokens.issued + 1 := by
  obtain ⟨id, rest, -, -, -, -, hgrant⟩ := grant_of_inspect h
  cases hgrant
  exact ⟨rfl, rfl⟩

theorem abort_cases (q : Queue) (id : TaskId) :
    (id ∈ q.pending ∧
      q.abort id = (.removedPending, { q with pending := q.pending.erase id })) ∨
    (∃ token, q.active.get? id = some token ∧
      q.abort id = (.cancelRequested, q.cancelToken token)) ∨
    q.abort id = (.notQueued, q) := by
  unfold abort
  split
  · rename_i h
    exact Or.inl ⟨List.contains_iff_mem.mp h, rfl⟩
  · split
    · rename_i token h
      exact Or.inr (Or.inl ⟨token, h, rfl⟩)
    · exact Or.inr (Or.inr rfl)

end Queue

theorem Waiter.inspect_of_poll {w : Waiter} {q q' : Queue} {a : Admission}
    (h : w.poll q = .admitted a q') : q.inspect = .admitted a q' := by
  unfold poll at h
  split at h
  · unfold look at h
    cases hi : q.inspect with
    | closed =>
      rw [hi] at h
      cases h
    | nothing =>
      rw [hi] at h
      cases h
    | admitted b q'' =>
      rw [hi] at h
      cases h
      rfl
  · cases h

end Overseer
