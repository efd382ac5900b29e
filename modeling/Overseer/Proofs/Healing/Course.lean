import Overseer.Healing.Run

/-! # The course of a healing session

What a session does is told by its calls, each with the session as it was before the call and with the way the
call ended: that is its `journal`. A `Course` is a session followed from some point to its end, with the calls
still to come. `follow` counts the points it may pass; a `Course` does not, and `course_run` says that the
count is never what ends a session.

Laws about sessions go from point to point: an `Invariant` that holds at the start of a course holds before each of
its calls (`course_calls`) and at its end (`course_end`).
-/

namespace Overseer.Healing

variable {κ σ : Type}

/-- A call that has been made. -/
structure Exchange (κ : Type) where
  session : Session κ
  stage : Stage κ
  ending : Ending κ

def Exchange.isFix (x : Exchange κ) : Bool :=
  match x.stage with
  | .fix .. => true
  | .verify | .diagnose .. => false

def Exchange.isVerify (x : Exchange κ) : Bool :=
  match x.stage with
  | .verify => true
  | .diagnose .. | .fix .. => false

def Exchange.isDiagnose (x : Exchange κ) : Bool :=
  match x.stage with
  | .diagnose .. => true
  | .verify | .fix .. => false

theorem isFix_of_isDiagnose {x : Exchange κ} (h : x.isDiagnose = true) : x.isFix = false := by
  unfold Exchange.isDiagnose at h
  unfold Exchange.isFix
  split at h
  · rename_i hstage
    rw [hstage]
  · cases h
  · cases h

/-! ## Answers and points -/

/-- What a verification comes to. -/
inductive Verdict
  | passed
  | cancelled
  | failed (failure : String)
  deriving Repr, DecidableEq

def verdict : Answer κ → Verdict
  | .ok output => if output.ok then .passed else .failed output.failureDetail
  | .error .cancelled => .cancelled
  | .error e => .failed e.message

/-- The session that has seen a failure. -/
def Session.blame (s : Session κ) (failure : String) : Session κ :=
  { s with
    lastFailure := some failure
    signatures := s.signatures ++ [failureSignature failure] }

/-- The session in its next iteration. -/
def Session.begun (s : Session κ) : Session κ :=
  { s with iteration := s.iteration + 1, verifications := s.verifications + 1 }

def iterationStep (cfg : Config κ) (s : Session κ) : Step :=
  .ok component "iteration"
    ("iteration " ++ toString (s.iteration + 1) ++ " of " ++ toString cfg.maxIterations ++ " on "
      ++ s.target)

/-- Before an iteration a session ends as it is, or begins the iteration with a verification. -/
theorem passHead_cases (cfg : Config κ) (cancelled : Bool) (s : Session κ) :
    (cfg.maxIterations ≤ s.iteration ∧
      passHead cfg cancelled s = ⟨s, .ended .iterationsExhausted, []⟩) ∨
    (s.iteration < cfg.maxIterations ∧ cancelled = true ∧
      passHead cfg cancelled s = s.stopCancelled) ∨
    (s.iteration < cfg.maxIterations ∧ cancelled = false ∧
      passHead cfg cancelled s = ⟨s.begun, .calling .verify, [iterationStep cfg s]⟩) := by
  unfold passHead
  by_cases hle : cfg.maxIterations ≤ s.iteration
  · exact Or.inl ⟨hle, if_pos hle⟩
  · rw [if_neg hle]
    cases cancelled with
    | true => exact Or.inr (Or.inl ⟨Nat.lt_of_not_le hle, rfl, rfl⟩)
    | false => exact Or.inr (Or.inr ⟨Nat.lt_of_not_le hle, rfl, rfl⟩)

theorem retarget?_ne {s : Session κ} {d : Diagnosis} {target : String} (h : s.retarget? d = some target) :
    target ≠ s.target := by
  unfold Session.retarget? at h
  obtain ⟨-, hne⟩ := Option.filter_eq_some_iff.mp h
  simpa using hne

/-- A diagnosis leads to a fix, and a new target forgets the signatures. -/
theorem diagnosed_cases (s : Session κ) (failure : String) (estimate : κ) (answer : Answer κ) :
    (s.diagnosed failure estimate answer).point = .ended .cancelled ∧
      (s.diagnosed failure estimate answer).session = s ∨
    ∃ d target signatures,
      (s.diagnosed failure estimate answer).session
        = { s with target := target, signatures := signatures, lastDiagnosis := some d.summary } ∧
      (s.diagnosed failure estimate answer).point = .calling (.fix failure estimate d) ∧
      (target = s.target ∧ signatures = s.signatures ∨ target ≠ s.target ∧ signatures = []) := by
  unfold Session.diagnosed
  split
  · exact Or.inl ⟨rfl, rfl⟩
  · right
    generalize readDiagnosis failure answer = read
    obtain ⟨d, trouble⟩ := read
    dsimp only
    cases h : s.retarget? d with
    | none => exact ⟨d, s.target, s.signatures, rfl, rfl, Or.inl ⟨rfl, rfl⟩⟩
    | some target => exact ⟨d, target, [], rfl, rfl, Or.inr ⟨retarget?_ne h, rfl⟩⟩

/-- How many points are still to come in the iteration `n`, at most. -/
def rank (cfg : Config κ) (n : Nat) : Point κ → Nat
  | .ended _ => 1
  | .head => 4 * (cfg.maxIterations - n) + 2
  | .calling (.fix ..) => 4 * (cfg.maxIterations - n) + 3
  | .calling (.diagnose ..) => 4 * (cfg.maxIterations - n) + 4
  | .calling .verify => 4 * (cfg.maxIterations - n) + 5

theorem rank_pos (cfg : Config κ) (n : Nat) (point : Point κ) : 0 < rank cfg n point := by
  unfold rank
  split <;> omega

theorem rank_passHead (cfg : Config κ) (cancelled : Bool) (s : Session κ) :
    rank cfg (passHead cfg cancelled s).session.iteration (passHead cfg cancelled s).point
      < rank cfg s.iteration .head := by
  rcases passHead_cases cfg cancelled s with ⟨-, hp⟩ | ⟨-, -, hp⟩ | ⟨hlt, -, hp⟩
  · simp [hp, rank]
  · simp [hp, rank, Session.stopCancelled]
  · simp only [hp, rank, Session.begun]
    omega

variable [Cost κ]

section Journal

variable (cfg : Config κ) (est : Estimator κ) (params : Json) (env : Surroundings κ σ)

/-- The calls that `follow` makes. -/
def journalFrom : Nat → Session κ → Point κ → σ → List (Exchange κ)
  | 0, _, _, _ => []
  | n + 1, s, point, w =>
      match point with
      | .ended _ => []
      | .head =>
          let p := passHead cfg (env.isCancelled w) s
          journalFrom n p.session p.point (env.recordAll p.steps w)
      | .calling stage =>
          if env.isCancelled w then
            let p := s.stopCancelled
            journalFrom n p.session p.point (env.recordAll p.steps w)
          else
            match env.call (stage.invocation cfg params s) w with
            | (.panicked panic, _) => [⟨s, stage, .panicked panic⟩]
            | (.answered answer, w) =>
                let p := receive cfg est stage s answer
                ⟨s, stage, .answered answer⟩
                  :: journalFrom n p.session p.point (env.recordAll p.steps w)

/-- The calls of a whole session, in the order in which they are made. -/
def journal (target : String) (w : σ) : List (Exchange κ) :=
  journalFrom cfg est params env (pointBound cfg) (.start cfg target) .head w

/-- From a point with a state of the surroundings to the end, by way of some calls. -/
inductive Course : Session κ → Point κ → σ → List (Exchange κ) →
    Except Panic (Report κ) × σ → Prop
  | ended (s : Session κ) (status : Status) (w : σ) :
      Course s (.ended status) w [] (.ok (s.report status), w)
  | head (s : Session κ) (w : σ) {log : List (Exchange κ)} {r : Except Panic (Report κ) × σ}
      (next : Course (passHead cfg (env.isCancelled w) s).session
        (passHead cfg (env.isCancelled w) s).point
        (env.recordAll (passHead cfg (env.isCancelled w) s).steps w) log r) :
      Course s .head w log r
  | refused (s : Session κ) (stage : Stage κ) (w : σ) (h : env.isCancelled w = true) :
      Course s (.calling stage) w []
        (.ok (s.report .cancelled), env.recordAll s.stopCancelled.steps w)
  | panicked (s : Session κ) (stage : Stage κ) {w w' : σ} {panic : Panic}
      (h : env.isCancelled w = false)
      (hcall : env.call (stage.invocation cfg params s) w = (.panicked panic, w')) :
      Course s (.calling stage) w [⟨s, stage, .panicked panic⟩] (.error panic, w')
  | answered (s : Session κ) (stage : Stage κ) {w w' : σ} {answer : Answer κ}
      {log : List (Exchange κ)} {r : Except Panic (Report κ) × σ}
      (h : env.isCancelled w = false)
      (hcall : env.call (stage.invocation cfg params s) w = (.answered answer, w'))
      (next : Course (receive cfg est stage s answer).session (receive cfg est stage s answer).point
        (env.recordAll (receive cfg est stage s answer).steps w') log r) :
      Course s (.calling stage) w (⟨s, stage, .answered answer⟩ :: log) r

end Journal

/-! ## Where an answer leads -/

/-- What is booked for a fix: nothing when there is no output. -/
def Session.pay (s : Session κ) (cfg : Config κ) (est : Estimator κ) : Answer κ → Budget κ
  | .ok output => s.budget.book (output.cost.getD (est.actual (fixUnit cfg s)))
  | .error _ => s.budget

variable {cfg : Config κ} {est : Estimator κ} {s : Session κ} {answer : Answer κ}

theorem verified_cases (s : Session κ) (cfg : Config κ) (est : Estimator κ) (answer : Answer κ) :
    (verdict answer = .passed ∧ (s.verified cfg est answer).session = s ∧
      (s.verified cfg est answer).point = .ended .success) ∨
    (verdict answer = .cancelled ∧ (s.verified cfg est answer).session = s ∧
      (s.verified cfg est answer).point = .ended .cancelled) ∨
    ∃ failure, verdict answer = .failed failure ∧
      s.verified cfg est answer = s.judge cfg est failure := by
  cases answer with
  | ok output =>
    cases hok : output.ok with
    | true => exact Or.inl (by simp [verdict, Session.verified, hok])
    | false =>
      exact Or.inr (Or.inr ⟨output.failureDetail, by simp [verdict, hok],
        by simp [Session.verified, hok]⟩)
  | error e =>
    cases e with
    | cancelled => exact Or.inr (Or.inl ⟨rfl, rfl, rfl⟩)
    | unavailable | timedOut | failed => exact Or.inr (Or.inr ⟨_, rfl, rfl⟩)

theorem judge_session (failure : String) :
    (s.judge cfg est failure).session = s.blame failure := by
  unfold Session.judge
  dsimp only
  split
  · rfl
  · split
    · rfl
    · split
      · rfl
      · rfl

/-- The repetition, the iterations and the estimate are tested in this order. -/
theorem judge_point (failure : String) :
    (s.judge cfg est failure).point
      = if isRepeating (s.blame failure).signatures cfg.maxRepeat then .ended .loopDetected
        else if cfg.maxIterations ≤ s.iteration then .ended .iterationsExhausted
        else if s.budget.admits (est.estimate (fixUnit cfg s)) then
          .calling (.diagnose failure (est.estimate (fixUnit cfg s)))
        else .ended .budgetExceeded := by
  unfold Session.judge Session.blame
  dsimp only
  split
  · rfl
  · split
    · rfl
    · have hunit : fixUnit cfg { s with
          lastFailure := some failure
          signatures := s.signatures ++ [failureSignature failure] } = fixUnit cfg s := rfl
      rw [hunit]
      cases s.budget.admits (est.estimate (fixUnit cfg s)) with
      | true => rfl
      | false => rfl

theorem afterFix_point (s : Session κ) (estimate : κ) (step : Step) :
    (s.afterFix estimate step).session = s ∧
      (s.afterFix estimate step).point
        = if s.budget.overspent then .ended .budgetExceeded else .head := by
  unfold Session.afterFix
  split
  · exact ⟨rfl, rfl⟩
  · exact ⟨rfl, rfl⟩

/-- A fix is paid for, and what has been spent is looked at again. -/
theorem fixed_cases (s : Session κ) (cfg : Config κ) (est : Estimator κ) (estimate : κ)
    (answer : Answer κ) :
    (s.fixed cfg est estimate answer).session = { s with budget := s.pay cfg est answer } ∧
    ((s.fixed cfg est estimate answer).point = .ended .cancelled ∧ answer = .error .cancelled ∨
      (s.fixed cfg est estimate answer).point
        = if (s.pay cfg est answer).overspent then .ended .budgetExceeded else .head) := by
  unfold Session.fixed
  split
  · rename_i output
    obtain ⟨hs, hp⟩ := afterFix_point
      { s with budget := s.budget.book (output.cost.getD (est.actual (fixUnit cfg s))) } estimate _
    exact ⟨hs, Or.inr hp⟩
  · exact ⟨rfl, Or.inl ⟨rfl, rfl⟩⟩
  · obtain ⟨hs, hp⟩ := afterFix_point s estimate _
    exact ⟨hs, Or.inr hp⟩

/-! ## The points of a session -/

/-- An answer leads on within its iteration, and to a later point of it. -/
theorem rank_receive (cfg : Config κ) (est : Estimator κ) (stage : Stage κ) (s : Session κ)
    (answer : Answer κ) :
    (receive cfg est stage s answer).session.iteration = s.iteration ∧
      rank cfg s.iteration (receive cfg est stage s answer).point
        < rank cfg s.iteration (.calling stage) := by
  cases stage with
  | verify =>
    rcases verified_cases s cfg est answer with ⟨-, hs, hp⟩ | ⟨-, hs, hp⟩ | ⟨failure, -, h⟩
    · simp [receive, hs, hp, rank]
    · simp [receive, hs, hp, rank]
    · simp only [receive, h, judge_session, judge_point]
      refine ⟨rfl, ?_⟩
      split
      · simp [rank]
      · split
        · simp [rank]
        · split
          · simp [rank]
          · simp [rank]
  | diagnose failure estimate =>
    rcases diagnosed_cases s failure estimate answer with ⟨hp, hs⟩ | ⟨d, _, _, hs, hp, -⟩
    · simp [receive, hs, hp, rank]
    · simp [receive, hs, hp, rank]
  | fix failure estimate d =>
    obtain ⟨hs, ⟨hp, -⟩ | hp⟩ := fixed_cases s cfg est estimate answer
    · simp [receive, hs, hp, rank]
    · simp only [receive, hs, hp]
      refine ⟨trivial, ?_⟩
      split
      · simp [rank]
      · simp [rank]

variable {params : Json} {σ : Type} {env : Surroundings κ σ}

/-- With a count that covers the points to come, what is followed is a course. -/
theorem course_of_rank_le (n : Nat) (s : Session κ) (point : Point κ) (w : σ)
    (h : rank cfg s.iteration point ≤ n) :
    Course cfg est params env s point w (journalFrom cfg est params env n s point w)
      (follow cfg est params env n s point w) := by
  induction n generalizing s point w with
  | zero => exact absurd h (Nat.not_le.mpr (rank_pos cfg s.iteration point))
  | succ n ih =>
    cases point with
    | ended status => exact .ended s status w
    | head =>
      have hrank := rank_passHead cfg (env.isCancelled w) s
      exact .head s w (ih _ _ _ (by omega))
    | calling stage =>
      cases hc : env.isCancelled w with
      | true =>
        have hpos : 0 < n := by
          have hrank : 1 < rank cfg s.iteration (.calling stage) := by
            cases stage <;> simp [rank]
          omega
        obtain ⟨m, rfl⟩ : ∃ m, n = m + 1 := ⟨n - 1, by omega⟩
        have hcourse : Course cfg est params env s (.calling stage) w [] _ :=
          .refused s stage w hc
        simpa [journalFrom, follow, hc, Session.stopCancelled] using hcourse
      | false =>
        cases hcall : env.call (stage.invocation cfg params s) w with
        | mk ending w' =>
          cases ending with
          | panicked panic =>
            have hcourse : Course cfg est params env s (.calling stage) w _ _ :=
              .panicked s stage hc hcall
            simpa [journalFrom, follow, hc, hcall] using hcourse
          | answered answer =>
            obtain ⟨hiteration, hrank⟩ := rank_receive cfg est stage s answer
            have hnext := ih (receive cfg est stage s answer).session
              (receive cfg est stage s answer).point
              (env.recordAll (receive cfg est stage s answer).steps w')
              (by rw [hiteration]; omega)
            have hcourse : Course cfg est params env s (.calling stage) w _ _ :=
              .answered s stage hc hcall hnext
            simpa [journalFrom, follow, hc, hcall] using hcourse

/-- A session is followed to its end. -/
theorem course_run (cfg : Config κ) (est : Estimator κ) (params : Json) (env : Surroundings κ σ)
    (target : String) (w : σ) :
    Course cfg est params env (.start cfg target) .head w (journal cfg est params env target w)
      (run cfg est params env target w) :=
  course_of_rank_le (pointBound cfg) (.start cfg target) .head w (Nat.le_refl _)

/-! ## Invariants -/

/-- What each point hands on to the next one, with the calls that have been made. -/
structure Invariant (cfg : Config κ) (est : Estimator κ)
    (I : List (Exchange κ) → Session κ → Point κ → Prop) : Prop where
  head : ∀ {past s}, I past s .head → ∀ cancelled,
    I past (passHead cfg cancelled s).session (passHead cfg cancelled s).point
  refused : ∀ {past s stage}, I past s (.calling stage) → I past s (.ended .cancelled)
  receive : ∀ {past s stage}, I past s (.calling stage) → ∀ answer,
    I (past ++ [⟨s, stage, .answered answer⟩]) (receive cfg est stage s answer).session
      (receive cfg est stage s answer).point

namespace Invariant

variable {I : List (Exchange κ) → Session κ → Point κ → Prop} (hI : Invariant cfg est I)
  {params : Json} {env : Surroundings κ σ} {log : List (Exchange κ)} {s : Session κ}
  {point : Point κ} {w : σ} {r : Except Panic (Report κ) × σ}
include hI

/-- It holds before each call. -/
theorem course_calls (h : Course cfg est params env s point w log r) (past : List (Exchange κ))
    (hi : I past s point) : ∀ before x after, log = before ++ x :: after →
      I (past ++ before) x.session (.calling x.stage) := by
  induction h generalizing past with
  | ended | refused =>
    intro before x after hlog
    simp at hlog
  | head s w next ih => exact ih past (hI.head hi _)
  | @panicked s stage w w' panic hc hcall =>
    intro before x after hlog
    obtain ⟨rfl, rfl, rfl⟩ : before = [] ∧ x = ⟨s, stage, .panicked panic⟩ ∧ after = [] := by
      cases before with
      | nil => simpa [eq_comm] using hlog
      | cons y before => simp at hlog
    rw [List.append_nil]
    exact hi
  | @answered s stage w w' answer log r hc hcall next ih =>
    intro before x after hlog
    cases before with
    | nil =>
      obtain ⟨rfl, -⟩ := List.cons.inj hlog
      rw [List.append_nil]
      exact hi
    | cons y before =>
      obtain ⟨rfl, htail⟩ := List.cons.inj hlog
      have hcalls := ih _ (hI.receive hi answer) before x after htail
      rwa [List.append_assoc, List.singleton_append] at hcalls

/-- It holds at the end of a course: when the session ends, or before the call that breaks down. -/
theorem course_end (h : Course cfg est params env s point w log r) (past : List (Exchange κ))
    (hi : I past s point) :
    (∃ s' status, r.1 = .ok (s'.report status) ∧ I (past ++ log) s' (.ended status)) ∨
    ∃ panic before s' stage, r.1 = .error panic ∧
      log = before ++ [⟨s', stage, .panicked panic⟩] ∧ I (past ++ before) s' (.calling stage) := by
  induction h generalizing past with
  | ended s status w =>
    left
    rw [List.append_nil]
    exact ⟨s, status, rfl, hi⟩
  | head s w next ih => exact ih past (hI.head hi _)
  | refused s stage w hc =>
    left
    rw [List.append_nil]
    exact ⟨s, .cancelled, rfl, hI.refused hi⟩
  | @panicked s stage w w' panic hc hcall =>
    right
    refine ⟨panic, [], s, stage, rfl, rfl, ?_⟩
    rw [List.append_nil]
    exact hi
  | @answered s stage w w' answer log r hc hcall next ih =>
    have hend := ih _ (hI.receive hi answer)
    simp only [List.append_assoc, List.singleton_append] at hend
    refine hend.imp_right ?_
    rintro ⟨panic, before, s', stage', hr, rfl, hlast⟩
    exact ⟨panic, _ :: before, s', stage', hr, rfl, hlast⟩

end Invariant

end Overseer.Healing
