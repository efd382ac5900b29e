import Overseer.Proofs.System.Run
import Overseer.Proofs.System.Sound

/-! # Who holds what

An admission comes with a token of its own, which descends from that of the queue and from no other. Slots are held
by those who have been admitted, with the tokens that they have been given, and it is for them that the executor is
asked: that is `Tenure`. Admissions and the calls of workers add to it. Everything else admits nobody and calls nobody
(`Abides`), so tenure is kept along every run.
-/

namespace Overseer.System

variable {κ : Type} {s s' s'' t : System κ} {id : TaskId} {n : Nat}

/-- All that have been admitted, those that have left among them. -/
def admissions (s : System κ) : List Admission := s.workers.map (·.admission)

structure Tenure (s : System κ) : Prop where
  root : ∀ k ∈ s.queue.shutdown.lineage, k < s.queue.tokens.issued
  numbered : ∀ a ∈ s.admissions, ∃ k, a.token.lineage = k :: s.queue.shutdown.lineage ∧
    k ∉ s.queue.shutdown.lineage ∧ k < s.queue.tokens.issued
  apart : ∀ a ∈ s.admissions, ∀ b ∈ s.admissions, a.token = b.token → a = b
  owned : ∀ id token, s.queue.active.get? id = some token → ⟨id, token⟩ ∈ s.admissions
  single : s.queue.active.keys.Nodup
  callers : ∀ call ∈ s.reached, ∃ a ∈ s.admissions, a.id = call.1

/-- Nobody is admitted and nobody is called. -/
structure Abides (s s' : System κ) : Prop where
  grows : s.queue.Grows s'.queue
  slots : ∀ id token, s'.queue.active.get? id = some token → s.queue.active.get? id = some token
  keys : s'.queue.active.keys.Sublist s.queue.active.keys
  admissions : s'.admissions = s.admissions
  reached : s'.reached = s.reached

namespace Abides

theorem refl (s : System κ) : Abides s s := ⟨.refl _, fun _ _ h => h, List.Sublist.refl _, rfl, rfl⟩

theorem trans (h : Abides s s') (h' : Abides s' s'') : Abides s s'' where
  grows := h.grows.trans h'.grows
  slots id token ht := h.slots id token (h'.slots id token ht)
  keys := h'.keys.trans h.keys
  admissions := h'.admissions.trans h.admissions
  reached := h'.reached.trans h.reached

theorem of_queue (hq : s'.queue = s.queue) (hw : s'.workers = s.workers)
    (hr : s'.reached = s.reached) : Abides s s' where
  grows := hq ▸ .refl _
  slots _ _ ht := hq ▸ ht
  keys := hq ▸ List.Sublist.refl _
  admissions := congrArg (List.map _) hw
  reached := hr

theorem withQueue {q : Queue} (hg : s.queue.Grows q) (ha : q.active = s.queue.active) :
    Abides s (s.withQueue q) :=
  ⟨hg, fun _ _ ht => ha ▸ ht, ha ▸ List.Sublist.refl _, rfl, rfl⟩

theorem of_private (h : Private id s s') : Abides s s' := .of_queue h.queue h.workers h.reached

theorem evict (id : TaskId) (s : System κ) : Abides s (s.evict id) where
  grows := grows_evict id s
  slots j token ht := by
    by_cases hj : j = id
    · subst hj
      rw [get?_evict] at ht
      cases ht
    · rw [get?_evict_of_ne hj] at ht
      exact ht
  keys := by
    obtain ⟨q, -, -, ha, he⟩ := evict_eq id s
    rw [he, ← ha]
    exact Queue.keys_release q id
  admissions := congrArg (List.map _) (workers_evict id s)
  reached := reached_evict id s

theorem markLost (id : TaskId) (s : System κ) : Abides s (s.markLost .silent id).2 := by
  obtain ⟨t, hprivate, -, he | he⟩ := markLost_private id s
  · rw [he]
    exact .of_private hprivate
  · rw [he]
    exact (Abides.of_private hprivate).trans (.evict id t)

theorem flagStalled (timeout : Duration) (s : System κ) :
    Abides s (s.flagStalled .silent timeout).2 := by
  simp only [System.flagStalled, announceAll_silent]
  exact .of_queue rfl rfl rfl

/-- What each of a number of steps abides by, all of them do. -/
theorem foldl {α : Type} {f : System κ → α → System κ} (h : ∀ s x, Abides s (f s x))
    (xs : List α) (s : System κ) : Abides s (xs.foldl f s) := by
  induction xs generalizing s with
  | nil => exact .refl s
  | cons x xs ih => exact (h s x).trans (ih _)

theorem sweep (timeout : Duration) (s : System κ) : Abides s (s.sweep .silent timeout).2 :=
  (Abides.flagStalled timeout s).trans (.foldl (fun s id => .markLost id s) _ _)

theorem strike (s : System κ) (call : Intervention) : Abides s (s.strike call).2 := by
  rcases strike_cases s call with ⟨id, -, -, he⟩ | ⟨id, token, -, -, he⟩ | ⟨id, -, -, he⟩ |
    ⟨-, he⟩ | ⟨-, he⟩
  · rw [he]
    exact .withQueue (.of_eq rfl rfl rfl) rfl
  · rw [he]
    exact .withQueue (.cancelToken _ _) rfl
  · rw [he]
    exact .refl s
  · rw [he]
    exact .withQueue (.of_eq rfl rfl rfl) rfl
  · rw [he]
    exact .withQueue (.emergencyStop _) rfl

/-- A call of an operator is its strike and its chores. -/
theorem intervene (s : System κ) (call : Intervention) :
    Abides s (Chore.performAll (s.strike call).1 (s.strike call).2) :=
  (Abides.strike s call).trans (.foldl (fun s chore => .of_private (.perform chore s)) _ _)

theorem abort (id : TaskId) (s : System κ) : Abides s (s.abort .silent id).2 := by
  rcases abort_eq_or id s with h | h
  · rw [h]
    exact .refl s
  · rw [h]
    exact .intervene s _

theorem submit (id : TaskId) (payload : Json) (s : System κ) :
    Abides s (s.submit .silent id payload).2 := by
  have hregister : Abides s (s.register .silent id payload) :=
    .of_queue (queue_register id payload s) (workers_register id payload s) (reached_record id _ _)
  rcases submit_cases id payload s with ⟨step, cause, hs⟩ | ⟨-, hs⟩
  · rw [hs]
    exact hregister.trans (.of_private ((Private.record id step _).trans (.finish id _ _)))
  · rw [hs]
    refine hregister.trans (.withQueue ?_ ?_)
    · rw [queue_register]
      exact .of_eq rfl rfl rfl
    · rw [queue_register]
      rfl

theorem worked {w : Worker κ} (h : Worked n w.admission s s') : Abides s s' where
  grows := h.grows
  slots _ _ ht := h.slot_before ht
  keys := h.keys
  admissions := by
    obtain ⟨phase, hw, -⟩ := h.workers_eq
    unfold System.admissions
    rw [hw]
    apply List.ext_getElem?
    intro m
    by_cases hm : n = m
    · subst hm
      simp [Function.comp_def]
    · simp [hm]
  reached := h.reached

end Abides

namespace Tenure

theorem new (limit : Nat) (maxPending : Option Nat) (orders : List Order) :
    Tenure (System.new limit maxPending orders : System κ) where
  root k hk := by
    obtain rfl := List.mem_singleton.mp hk
    exact Nat.zero_lt_one
  numbered _ ha := nomatch ha
  apart _ ha := nomatch ha
  owned _ _ h := nomatch h
  single := List.nodup_nil
  callers _ h := nomatch h

theorem abide (h : Tenure s) (ha : Abides s s') : Tenure s' where
  root := by
    rw [ha.grows.shutdown]
    exact fun k hk => Nat.lt_of_lt_of_le (h.root k hk) ha.grows.issued
  numbered := by
    rw [ha.grows.shutdown, ha.admissions]
    intro a hmem
    obtain ⟨k, hk, hroot, hlt⟩ := h.numbered a hmem
    exact ⟨k, hk, hroot, Nat.lt_of_lt_of_le hlt ha.grows.issued⟩
  apart := by
    rw [ha.admissions]
    exact h.apart
  owned id token ht := by
    rw [ha.admissions]
    exact h.owned id token (ha.slots id token ht)
  single := ha.keys.nodup h.single
  callers := by
    rw [ha.reached, ha.admissions]
    exact h.callers

/-- Who is admitted is given a number that nobody has. -/
theorem employ (h : Tenure s) {a : Admission} {q : Queue} (hi : s.queue.inspect = .admitted a q) :
    Tenure (s.employ a q) := by
  obtain ⟨rest, -, -, -, hactive, -⟩ := Queue.inspect_admitted hi
  obtain ⟨-, -, -, hg, -⟩ := Queue.inspect_open hi
  obtain ⟨hlineage, hissued⟩ := Queue.inspect_token hi
  have hadm : (s.employ a q).admissions = s.admissions ++ [a] := by
    simp [System.admissions, System.employ]
  have hold : ∀ b ∈ s.admissions, b.token ≠ a.token := by
    intro b hb he
    obtain ⟨k, hk, -, hlt⟩ := h.numbered b hb
    rw [he, hlineage] at hk
    obtain ⟨rfl, -⟩ := List.cons.inj hk
    exact Nat.lt_irrefl _ hlt
  constructor
  case root =>
    show ∀ k ∈ q.shutdown.lineage, k < q.tokens.issued
    rw [hg.shutdown]
    exact fun k hk => Nat.lt_of_lt_of_le (h.root k hk) hg.issued
  case numbered =>
    rw [hadm]
    intro b hb
    show ∃ k, b.token.lineage = k :: q.shutdown.lineage ∧ k ∉ q.shutdown.lineage ∧
      k < q.tokens.issued
    rw [hg.shutdown]
    rcases List.mem_append.mp hb with hb | hb
    · obtain ⟨k, hk, hroot, hlt⟩ := h.numbered b hb
      exact ⟨k, hk, hroot, Nat.lt_of_lt_of_le hlt hg.issued⟩
    · obtain rfl := List.mem_singleton.mp hb
      refine ⟨_, hlineage, fun hk => Nat.lt_irrefl _ (h.root _ hk), ?_⟩
      rw [hissued]
      exact Nat.lt_succ_self _
  case apart =>
    rw [hadm]
    intro b hb c hc he
    rcases List.mem_append.mp hb with hb | hb <;> rcases List.mem_append.mp hc with hc | hc
    · exact h.apart b hb c hc he
    · rw [List.mem_singleton.mp hc] at he
      exact absurd he (hold b hb)
    · rw [List.mem_singleton.mp hb] at he
      exact absurd he.symm (hold c hc)
    · rw [List.mem_singleton.mp hb, List.mem_singleton.mp hc]
  case owned =>
    rw [hadm]
    intro id token ht
    change q.active.get? id = some token at ht
    rw [hactive] at ht
    by_cases hid : id = a.id
    · subst hid
      rw [Table.get?_set] at ht
      obtain rfl := Option.some.inj ht
      exact List.mem_append_right _ (List.mem_singleton_self _)
    · rw [Table.get?_set_of_ne hid] at ht
      exact List.mem_append_left _ (h.owned id token ht)
  case single =>
    show q.active.keys.Nodup
    rw [hactive]
    exact Table.nodup_keys_set h.single _ _
  case callers =>
    rw [hadm]
    intro call hcall
    obtain ⟨b, hb, he⟩ := h.callers call hcall
    exact ⟨b, List.mem_append_left _ hb, he⟩

/-- A call that is new on record is that of a worker. -/
theorem consulted {settings : Settings κ} (h : Tenure s) (hc : s.consulted settings n = some s') :
    Tenure s' := by
  unfold System.consulted at hc
  split at hc
  · rename_i a job call reached hw
    split at hc
    · cases hc
    · split at hc
      · obtain rfl := Option.some.inj hc
        exact h
      · obtain rfl := Option.some.inj hc
        refine ⟨h.root, h.numbered, h.apart, h.owned, h.single, fun call hcall => ?_⟩
        rcases List.mem_append.mp hcall with hcall | hcall
        · exact h.callers call hcall
        · obtain rfl := List.mem_singleton.mp hcall
          exact ⟨a, List.mem_map.mpr ⟨_, List.mem_of_getElem? hw, rfl⟩, rfl⟩
  · cases hc

/-! ## Cancelling one token -/

theorem isCancelled_cancelToken (h : Tenure s) {a : Admission} (ha : a ∈ s.admissions) :
    (s.queue.cancelToken a.token).isCancelled a.token = true := by
  obtain ⟨k, hk, -⟩ := h.numbered a ha
  exact Tokens.isCancelled_cancel (by rw [hk]; exact List.cons_ne_nil _ _) _

/-- Nobody else is told to stop. -/
theorem isCancelled_cancelToken_of_ne (h : Tenure s) {a b : Admission} (ha : a ∈ s.admissions)
    (hb : b ∈ s.admissions) (hne : a ≠ b) :
    (s.queue.cancelToken a.token).isCancelled b.token = s.queue.isCancelled b.token := by
  obtain ⟨k, hk, hroot, -⟩ := h.numbered a ha
  obtain ⟨m, hm, -⟩ := h.numbered b hb
  refine Tokens.isCancelled_cancel_of_notMem hk ?_ _
  rw [hm, List.mem_cons, not_or]
  refine ⟨?_, hroot⟩
  rintro rfl
  refine hne (h.apart a ha b hb ?_)
  cases a
  cases b
  exact congrArg Token.mk (hk.trans hm.symm)

/-- The token that all others descend from is not cancelled with one of them. -/
theorem isCancelled_cancelToken_shutdown (h : Tenure s) {a : Admission} (ha : a ∈ s.admissions) :
    (s.queue.cancelToken a.token).isCancelled s.queue.shutdown
      = s.queue.isCancelled s.queue.shutdown := by
  obtain ⟨k, hk, hroot, -⟩ := h.numbered a ha
  exact Tokens.isCancelled_cancel_of_notMem hk hroot _

end Tenure

/-! ## Runs -/

variable {watch : Watch} {limit : Nat} {settings : Settings κ} {execute : Execute κ}
  {c c' : Chronicle κ}

/-- Nothing that is done from outside admits anybody, but for an admission. -/
theorem Act.abides_or (ha : Act watch c c') : Abides c.system c'.system ∨
    ∃ a q, c.system.queue.inspect = .admitted a q ∧ c'.system = c.system.employ a q := by
  cases ha with
  | submit id payload new => exact Or.inl (.submit id payload _)
  | abort id => exact Or.inl (.abort id _)
  | pause => exact Or.inl (.withQueue (.of_eq rfl rfl rfl) rfl)
  | resume => exact Or.inl (.withQueue (.of_eq rfl rfl rfl) rfl)
  | purge =>
    left
    show Abides c.system (c.system.purge .silent).2
    rw [purge_eq]
    exact .intervene _ _
  | emergencyStop =>
    left
    show Abides c.system (c.system.emergencyStop .silent).2
    rw [emergencyStop_eq]
    exact .intervene _ _
  | shutdown => exact Or.inl (.withQueue (.close _) rfl)
  | employ hi => exact Or.inr ⟨_, _, hi, rfl⟩
  | cancel token => exact Or.inl (.withQueue (.cancelToken _ _) rfl)
  | elapse clock => exact Or.inl (.of_queue rfl rfl rfl)
  | sweep timeout => exact Or.inl (.sweep timeout _)
  | flag timeout allowed => exact Or.inl (.flagStalled timeout _)
  | markLost id allowed flagged => exact Or.inl (.markLost id _)

namespace Tenure

theorem act (h : Tenure c.system) (ha : Act watch c c') : Tenure c'.system := by
  rcases ha.abides_or with habides | ⟨a, q, hi, he⟩
  · exact h.abide habides
  · rw [he]
    exact h.employ hi

theorem acts (h : Tenure c.system) (ha : Acts watch c c') : Tenure c'.system := by
  induction ha with
  | refl => exact h
  | tail _ ha ih => exact ih.act ha

theorem answered (h : Tenure c.system) (ha : Answered watch settings n execute c c') :
    Tenure c'.system := by
  cases ha with
  | unasked => exact h
  | asked hs acts => exact Tenure.acts (c := c.on _) (h.consulted hs) acts

variable [Cost κ]

theorem turn (h : Tenure c.system) (hk : Kept watch limit c)
    (ha : Answered watch settings n execute c c') :
    Tenure (c.system.turn .silent settings n execute) := by
  cases hw : c.system.workers[n]? with
  | none =>
    rw [turn_of_none hw]
    exact h
  | some w =>
    cases hb : w.phase.activity with
    | gone =>
      rw [turn_of_gone hw hb]
      exact h
    | due =>
      obtain ⟨st, hst, -⟩ := hk.standing w.admission.id
      obtain rfl := eq_admitted hst hw hb
      obtain ⟨t, hstarted, hworked⟩ :=
        worked_begin (n := n) (congrArg View.task hst) settings
      rw [turn_of_due hw hb]
      exact h.abide ((Abides.of_private hstarted.toPrivate).trans (.worked hworked))
    | busy => exact (h.answered ha).abide (.worked (hk.worked ha hw hb).2)

theorem moves (h : Tenure c.system) (hk : Kept watch limit c) (hm : Moves watch settings c c') :
    Tenure c'.system := by
  induction hm with
  | refl => exact h
  | tail hbefore hm ih =>
    cases hm with
    | act ha => exact ih.act ha
    | turn n execute ha => exact ih.turn (hk.moves hbefore).1 ha

end Tenure

end Overseer.System
