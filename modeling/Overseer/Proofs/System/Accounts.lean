import Overseer.Proofs.System.Landing
import Overseer.Proofs.System.Silence

/-! # Accounts of calls

What the executor is called for on behalf of a task is accounted for by its worker: at each phase the calls so far are
those that the plan of the payload has led to (`Phase.Accounts`). A direct plan leads to one call, and a healing plan to
the calls of one session, which goes by the answers to its own calls. Every turn of a worker takes it from a phase that
accounts for its calls to another.
-/

namespace Overseer

variable {κ : Type}

/-- An output that the call came to is among the answers. -/
def Healing.Exchange.Heard (heard : List (Answer κ)) (x : Healing.Exchange κ) : Prop :=
  ∀ output, x.ending = .answered (.ok output) → .ok output ∈ heard

/-- What the executor answers when it is asked. -/
def Poll.told : Poll κ → List (Answer κ)
  | .ready answer => [answer]
  | .panic _ | .pending => []

namespace System

variable [Cost κ]

/-! ## Accounts -/

section

variable (settings : Settings κ) (payload : Json) (p : Plan) (heard : List (Answer κ))

/-- The calls of a session that stands at a point. -/
def Led (session : Healing.Session κ) (point : Healing.Point κ) (calls : List Invocation) : Prop :=
  ∃ log, Healing.Stands settings.healing settings.estimator (p.target.getD "") log session point ∧
    (∀ x ∈ log, x.Heard heard) ∧ calls = log.map (·.invocation settings.healing p.params)

/-- The calls that a payload can have led to. -/
def Settled (calls : List Invocation) : Prop :=
  match plan payload settings.routes with
  | .error _ => calls = []
  | .ok p =>
      match p.route with
      | .direct capability => calls = [] ∨ calls = [⟨capability, p.params⟩]
      | .healing => ∃ session point, Led settings p heard session point calls

/-- The job is the next one of the plan. -/
def Job.Follows (calls : List Invocation) : Job κ → Prop
  | .direct capability params => p.route = .direct capability ∧ params = p.params ∧ calls = []
  | .healing params session stage =>
      p.route = .healing ∧ params = p.params ∧ Led settings p heard session (.calling stage) calls

/-- The calls that a worker has made when it is in a phase, where it may be waiting for the executor. -/
def Phase.Accounts (asking : Prop) (calls : List Invocation) : Phase κ → Prop
  | .admitted => calls = []
  | .between params session =>
      ∃ p, plan payload settings.routes = .ok p ∧ p.route = .healing ∧ params = p.params ∧
        Led settings p heard session .head calls
  | .entering job =>
      ∃ p, plan payload settings.routes = .ok p ∧ Job.Follows settings p heard calls job
  | .calling job _ reached =>
      ∃ p before, plan payload settings.routes = .ok p ∧ Job.Follows settings p heard before job ∧
        (reached = true ∨ asking → calls = before ++ [Job.invocation settings job]) ∧
        (¬ (reached = true ∨ asking) → calls = before)
  | .ended => Settled settings payload heard calls

end

variable {settings : Settings κ} {payload : Json} {p : Plan} {heard heard' : List (Answer κ)}
  {asking : Prop} {calls before : List Invocation} {job : Job κ} {answer : Answer κ}

theorem settled_nil (settings : Settings κ) (payload : Json) (heard : List (Answer κ)) :
    Settled settings payload heard [] := by
  unfold Settled
  split
  · rfl
  · split
    · exact Or.inl rfl
    · exact ⟨_, _, [], .start, fun _ hx => absurd hx List.not_mem_nil, rfl⟩

theorem Led.mono {session : Healing.Session κ} {point : Healing.Point κ} (hsub : heard ⊆ heard')
    (h : Led settings p heard session point calls) : Led settings p heard' session point calls := by
  obtain ⟨log, hstands, hheard, hcalls⟩ := h
  exact ⟨log, hstands, fun x hx output ho => hsub (hheard x hx output ho), hcalls⟩

theorem Led.settled {session : Healing.Session κ} {point : Healing.Point κ}
    (hp : plan payload settings.routes = .ok p) (hroute : p.route = .healing)
    (h : Led settings p heard session point calls) : Settled settings payload heard calls := by
  unfold Settled
  simp only [hp, hroute]
  exact ⟨session, point, h⟩

theorem Settled.mono (hsub : heard ⊆ heard') (h : Settled settings payload heard calls) :
    Settled settings payload heard' calls := by
  unfold Settled at h ⊢
  split
  · rename_i hplan
    rwa [hplan] at h
  · rename_i p hplan
    rw [hplan] at h
    dsimp only at h
    split
    · rename_i hroute
      rwa [hroute] at h
    · rename_i hroute
      rw [hroute] at h
      obtain ⟨session, point, hled⟩ := h
      exact ⟨session, point, hled.mono hsub⟩

/-- A session that goes on is accounted for at its next point. -/
theorem Led.accounts {session : Healing.Session κ} {point : Healing.Point κ}
    (hp : plan payload settings.routes = .ok p) (hroute : p.route = .healing)
    (h : Led settings p heard session point calls) (asking : Prop) :
    Phase.Accounts settings payload heard asking calls (point.phase p.params session) := by
  cases point with
  | head => exact ⟨p, hp, hroute, rfl, h⟩
  | calling stage => exact ⟨p, hp, hroute, rfl, h⟩
  | ended status => exact h.settled hp hroute

/-! ## Jobs -/

theorem Job.Follows.mono (hsub : heard ⊆ heard') (h : Job.Follows settings p heard calls job) :
    Job.Follows settings p heard' calls job := by
  cases job with
  | direct => exact h
  | healing => exact ⟨h.1, h.2.1, h.2.2.mono hsub⟩

/-- A call that comes back is accounted for in the phase after it. -/
theorem Job.Follows.answered (hp : plan payload settings.routes = .ok p)
    (h : Job.Follows settings p heard before job) (answer : Answer κ)
    (hanswer : ∀ output, answer = .ok output → answer ∈ heard) (asking : Prop) :
    Phase.Accounts settings payload heard asking (before ++ [Job.invocation settings job])
      (Job.next settings answer job) := by
  cases job with
  | direct capability params =>
    obtain ⟨hroute, rfl, rfl⟩ := h
    show Settled settings payload heard _
    unfold Settled
    simp only [hp, hroute]
    exact Or.inr rfl
  | healing params session stage =>
    obtain ⟨hroute, rfl, log, hstands, hheard, rfl⟩ := h
    refine Led.accounts hp hroute ⟨_, hstands.answered answer, fun x hx output ho => ?_, ?_⟩ asking
    · rcases List.mem_append.mp hx with hold | hnew
      · exact hheard x hold output ho
      · obtain rfl := List.mem_singleton.mp hnew
        obtain rfl := Ending.answered.inj ho
        exact hanswer output rfl
    · rw [List.map_append]
      rfl

theorem Job.Follows.cancelled (hp : plan payload settings.routes = .ok p)
    (h : Job.Follows settings p heard before job) (asking : Prop) :
    Phase.Accounts settings payload heard asking (before ++ [Job.invocation settings job])
      (Job.next settings (.error .cancelled) job) :=
  h.answered hp _ (fun _ ho => by cases ho) asking

/-- A call that is given up before the executor has it is not made. -/
theorem Job.Follows.refused (hp : plan payload settings.routes = .ok p)
    (h : Job.Follows settings p heard before job) (asking : Prop) :
    Phase.Accounts settings payload heard asking before
      (Job.next settings (.error .cancelled) job) := by
  cases job with
  | direct capability params =>
    obtain ⟨-, -, rfl⟩ := h
    exact settled_nil settings payload heard
  | healing params session stage =>
    obtain ⟨hroute, rfl, log, hstands, hheard, rfl⟩ := h
    simp only [Job.next, Healing.receive_cancelled]
    exact Led.settled hp hroute ⟨log, hstands.refused, hheard, rfl⟩

theorem Job.next_cancelled (settings : Settings κ) (job : Job κ) :
    Job.next settings (.error .cancelled) job = .ended := by
  cases job with
  | direct => rfl
  | healing params session stage =>
    simp only [Job.next, Healing.receive_cancelled]
    rfl

namespace Phase.Accounts

variable {phase : Phase κ}

theorem mono (hsub : heard ⊆ heard')
    (h : Phase.Accounts settings payload heard asking calls phase) :
    Phase.Accounts settings payload heard' asking calls phase := by
  cases phase with
  | admitted => exact h
  | between params session =>
    obtain ⟨p, hp, hroute, hparams, hled⟩ := h
    exact ⟨p, hp, hroute, hparams, hled.mono hsub⟩
  | entering job =>
    obtain ⟨p, hp, hjob⟩ := h
    exact ⟨p, hp, hjob.mono hsub⟩
  | calling job call reached =>
    obtain ⟨p, before, hp, hjob, hcalls⟩ := h
    exact ⟨p, before, hp, hjob.mono hsub, hcalls⟩
  | ended =>
    have hsettled : Settled settings payload heard calls := h
    exact hsettled.mono hsub

/-- Whatever the phase, the calls are those that the payload can have led to. -/
theorem settled (h : Phase.Accounts settings payload heard asking calls phase) :
    Settled settings payload heard calls := by
  cases phase with
  | admitted =>
    obtain rfl : calls = [] := h
    exact settled_nil settings payload heard
  | between params session =>
    obtain ⟨p, hp, hroute, -, hled⟩ := h
    exact hled.settled hp hroute
  | entering job =>
    obtain ⟨p, hp, hjob⟩ := h
    have hended := hjob.refused hp asking
    rwa [Job.next_cancelled] at hended
  | calling job call reached =>
    obtain ⟨p, before, hp, hjob, hmade, hnot⟩ := h
    by_cases hcall : reached = true ∨ asking
    · rw [hmade hcall]
      have hended := hjob.cancelled hp asking
      rwa [Job.next_cancelled] at hended
    · rw [hnot hcall]
      have hended := hjob.refused hp asking
      rwa [Job.next_cancelled] at hended
  | ended => exact h

end Phase.Accounts

/-! ## Turns -/

variable {s s₁ t : System κ} {id j : TaskId} {n : Nat} {a : Admission} {w : Worker κ}

theorem lands_dispatch (h : Calm id s t) (settings : Settings κ) (n : Nat) (a : Admission)
    (payload : Json) (heard : List (Answer κ)) : ∃ phase,
      Lands id n phase False s (t.dispatch .silent settings n a payload) ∧
      Phase.Accounts settings payload heard False [] phase := by
  cases hp : plan payload settings.routes with
  | error e =>
    rw [dispatch_of_error hp]
    refine ⟨.ended, lands_leave (h.trans (.record' a.id _ t)) fun hcompleted => ?_,
      settled_nil settings payload heard⟩
    cases hcompleted
  | ok p =>
    rw [dispatch_of_ok hp]
    have hnoted : Calm id t (t.noteIntent a.id p.intent) := by
      rcases noteIntent_cases a.id p.intent t with he | ⟨tasks, hstore, he⟩
      · rw [he]
        exact .refl id t
      · rw [he]
        refine ⟨rfl, rfl, .of_update (s := t) hstore rfl fun task task' hok => ?_⟩
        obtain rfl := Except.ok.inj hok
        exact ⟨rfl, Or.inl rfl⟩
    refine ⟨firstPhase settings p,
      lands_setPhase ((h.trans hnoted).trans (.record' a.id _ _)) n _ False, ?_⟩
    unfold firstPhase
    split
    · rename_i capability hroute
      exact ⟨p, hp, hroute, rfl, rfl⟩
    · rename_i hroute
      exact ⟨p, hp, hroute, rfl, [], .start, fun _ hx => absurd hx List.not_mem_nil, rfl⟩

/-- The first turn of a worker reads the payload of its task. -/
theorem lands_begin (hpayload : ∀ task, s.tasks.get? id = some task → task.payload = payload)
    (settings : Settings κ) (n : Nat) (a : Admission) (heard : List (Answer κ)) : ∃ phase,
      Lands id n phase False s (s.begin .silent settings n a) ∧
      (a.id = id → Phase.Accounts settings payload heard False [] phase) := by
  cases hstore : s.tasks.transition a.id .processing s.now with
  | error refusal =>
    rw [begin_of_error hstore]
    exact ⟨.ended, lands_leave_none (.refl id s) n a False,
      fun _ => settled_nil settings payload heard⟩
  | ok tasks =>
    rw [begin_of_ok hstore]
    have hcalm : Calm id s (s.takeUp a.id tasks) := by
      refine ⟨rfl, rfl, .of_update (s := s) hstore rfl fun task task' hok => ?_⟩
      obtain ⟨hsame, hstate⟩ := Task.of_transition hok
      rw [hstate]
      exact ⟨hsame, Or.inr ⟨by decide, fun hdone => absurd hdone (by decide)⟩⟩
    split
    · refine ⟨.ended, lands_leave hcalm fun hcompleted => ?_,
        fun _ => settled_nil settings payload heard⟩
      cases hcompleted
    · obtain ⟨phase, hlands, haccounts⟩ := lands_dispatch hcalm settings n a
        (((tasks.get? a.id).map (·.payload)).getD .null) heard
      refine ⟨phase, hlands, fun hid => ?_⟩
      obtain ⟨task, task', ht, hok, rfl⟩ := TaskStore.update_cases hstore
      rw [Table.get?_set, Option.map_some, Option.getD_some, (Task.of_transition hok).1] at haccounts
      rwa [hpayload task (hid ▸ ht)] at haccounts

/-- A turn in which nobody is asked makes no call and completes no task. -/
theorem lands_turn (hw : s.workers[n]? = some w) (hc : s.consulted settings n = none)
    (hgone : w.phase.activity ≠ .gone)
    (hpayload : ∀ task, s.tasks.get? id = some task → task.payload = payload)
    (hphase : w.admission.id = id →
      Phase.Accounts settings payload heard False calls w.phase) (execute : Execute κ) :
    ∃ phase, Lands id n phase False s (s.turn .silent settings n execute) ∧
      (w.admission.id = id → Phase.Accounts settings payload heard False calls phase) := by
  obtain ⟨a, phase⟩ := w
  cases phase with
  | admitted =>
    rw [turn_of_due hw rfl]
    obtain ⟨phase, hlands, haccounts⟩ := lands_begin hpayload settings n a heard
    refine ⟨phase, hlands, fun hid => ?_⟩
    obtain rfl : calls = [] := hphase hid
    exact haccounts hid
  | between params session =>
    rw [turn_of_between hw]
    refine ⟨_, lands_proceed (.refl id s) params fun hp => ?_, fun hid => ?_⟩
    · rcases Healing.passHead_cases settings.healing (s.isCancelled a.token) session with
        ⟨-, he⟩ | ⟨-, -, he⟩ | ⟨-, -, he⟩
      · rw [he] at hp
        cases hp
      · rw [he] at hp
        cases hp
      · rw [he] at hp
        cases hp
    · obtain ⟨p, hp, hroute, rfl, log, hstands, hheard, hcalls⟩ := hphase hid
      exact Led.accounts hp hroute ⟨log, hstands.head _, hheard, hcalls⟩ False
  | entering job =>
    rw [turn_of_entering hw]
    unfold enter
    split
    · refine ⟨_, lands_receive (.refl id s) job fun hne => absurd rfl hne, fun hid => ?_⟩
      obtain ⟨p, hp, hjob⟩ := hphase hid
      exact hjob.refused hp False
    · refine ⟨_, lands_setPhase (.withQueue _ s) n _ False, fun hid => ?_⟩
      obtain ⟨p, hp, hjob⟩ := hphase hid
      exact ⟨p, calls, hp, hjob, fun hcall => absurd hcall (by simp), fun _ => rfl⟩
  | calling job call reached =>
    rw [turn_of_calling hw, await_of_isCancelled (isCancelled_of_consulted hw hc)]
    refine ⟨_, lands_receive (.withQueue _ s) job fun hne => absurd rfl hne, fun hid => ?_⟩
    obtain ⟨p, before, hp, hjob, hmade, hnot⟩ := hphase hid
    cases reached with
    | true =>
      rw [hmade (Or.inl rfl)]
      exact hjob.cancelled hp False
    | false =>
      rw [hnot (by simp)]
      exact hjob.refused hp False
  | ended => exact absurd rfl hgone

omit [Cost κ] in
/-- An output comes from the executor, not from the timer. -/
theorem mem_told_of_ending {call : Call} {now : Time} {poll : Poll κ} {output : Output κ}
    (h : call.ending? now poll = some (.answered (.ok output))) : .ok output ∈ poll.told := by
  cases poll with
  | ready answer =>
    obtain rfl := Ending.answered.inj (Option.some.inj h)
    exact List.mem_singleton_self _
  | panic => cases h
  | pending =>
    unfold Call.ending? at h
    dsimp only at h
    split at h
    · cases h
    · cases h

/-- A worker that has asked goes on. Only then can its task be completed. -/
theorem lands_answer (hw : s.workers[n]? = some w) (hc : s.consulted settings n = some s₁)
    (poll : Poll κ) (t : System κ)
    (hphase : w.admission.id = id → Phase.Accounts settings payload heard True calls w.phase)
    (asking : Prop) : ∃ phase,
      Lands id n phase (w.admission.id = id) t
        (s.turn .silent settings n fun _ => (poll, t)) ∧
      (w.admission.id = id →
        Phase.Accounts settings payload (heard ++ poll.told) asking calls phase) := by
  obtain ⟨job, call, reached, hcalling, hstands⟩ := calling_of_consulted hw hc
  obtain ⟨a, phase⟩ := w
  obtain rfl : phase = .calling job call reached := hcalling
  have hsub : heard ⊆ heard ++ poll.told := List.subset_append_left _ _
  have haccounts (hid : a.id = id) := hphase hid
  rw [turn_of_asked hw hstands]
  unfold heed
  cases hending : call.ending? s.clock.timer poll with
  | none =>
    refine ⟨_, lands_setPhase (.refl id t) n _ _, fun hid => ?_⟩
    obtain ⟨p, before, hp, hjob, hmade, -⟩ := haccounts hid
    exact ⟨p, before, hp, hjob.mono hsub, fun _ => hmade (Or.inr trivial),
      fun hnot => absurd (Or.inl rfl) hnot⟩
  | some ending =>
    cases ending with
    | panicked panic =>
      refine ⟨.ended, lands_leave ((Calm.withQueue _ t).trans (.record' a.id _ _))
        fun hcompleted => ?_, fun hid => ?_⟩
      · cases hcompleted
      · exact ((haccounts hid).mono hsub).settled
    | answered answer =>
      refine ⟨_, lands_receive (.withQueue _ t) job fun _ hid => hid, fun hid => ?_⟩
      obtain ⟨p, before, hp, hjob, hmade, -⟩ := haccounts hid
      rw [hmade (Or.inr trivial)]
      refine (hjob.mono hsub).answered hp answer (fun output ho => ?_) asking
      subst ho
      exact List.mem_append_right _ (mem_told_of_ending hending)

end System
end Overseer
