import Overseer.Proofs.Cost.Exact
import Overseer.Proofs.Healing.Course
import Overseer.Proofs.Table
import Overseer.Script.Rehearsal

/-! # What the trace tells of a healing session

A session puts its steps on a trace while it goes on. The steps can be noted next to the surroundings without changing
what happens (`follow_noting`), so that the steps are all there whatever else becomes of the surroundings; where these
keep a trace, what has been noted is what has been written (`written_course`).

From point to point a session tells of its iterations and of its changes of target, and its last step tells how it
ended: that is `Telling`. An end says so where it comes about, except for the limit on iterations, which is also
looked at before an iteration. There it is never reached, since a session goes on only while iterations are left
(`HasNext`).
-/

namespace Overseer.Healing

variable {κ σ : Type}

/-! ## Noting the steps -/

/-- The same surroundings, with a list of the steps that they have been given. -/
def Surroundings.noting (env : Surroundings κ σ) : Surroundings κ (σ × List Step) where
  isCancelled w := env.isCancelled w.1
  record step w := (env.record step w.1, w.2 ++ [step])
  call invocation w := ((env.call invocation w.1).1, (env.call invocation w.1).2, w.2)

theorem recordAll_noting (env : Surroundings κ σ) (steps : List Step) (w : σ × List Step) :
    env.noting.recordAll steps w = (env.recordAll steps w.1, w.2 ++ steps) := by
  induction steps generalizing w with
  | nil => simp [Surroundings.recordAll]
  | cons step steps ih =>
    have hfirst : env.noting.recordAll (step :: steps) w
        = env.noting.recordAll steps (env.record step w.1, w.2 ++ [step]) := rfl
    rw [hfirst, ih]
    simp [Surroundings.recordAll]

/-! ## Writing the steps -/

/-- Surroundings with a trace, which is written by the session alone. -/
structure Surroundings.Traces (env : Surroundings κ σ) (trace : σ → Option Trace) : Prop where
  record : ∀ step w before, trace w = some before →
    ∃ now, trace (env.record step w) = some { before.push step now with lastActivity := now }
  call : ∀ invocation w, trace (env.call invocation w).2 = trace w

/-- The steps have been written at the end of a trace, and of the rest of it only the last activity is another. -/
def Written (before : Trace) (steps : List Step) (after : Option Trace) : Prop :=
  ∃ written last, written.map (·.step) = steps ∧
    after = some { before with steps := before.steps ++ written, lastActivity := last }

theorem Written.record {env : Surroundings κ σ} {trace : σ → Option Trace} (h : env.Traces trace) {before : Trace}
    {steps : List Step} {w : σ} (hw : Written before steps (trace w)) (step : Step) :
    Written before (steps ++ [step]) (trace (env.record step w)) := by
  obtain ⟨written, last, rfl, htrace⟩ := hw
  obtain ⟨now, hnow⟩ := h.record step w _ htrace
  refine ⟨written ++ [⟨step, now⟩], now, by simp, ?_⟩
  rw [hnow]
  simp [Trace.push]

theorem Written.recordAll {env : Surroundings κ σ} {trace : σ → Option Trace}
    (h : env.Traces trace) {before : Trace} {steps : List Step} {w : σ}
    (hw : Written before steps (trace w)) (more : List Step) :
    Written before (steps ++ more) (trace (env.recordAll more w)) := by
  induction more generalizing steps w with
  | nil => rwa [List.append_nil]
  | cons step more ih =>
    have hmore := ih (hw.record h step)
    rwa [List.append_assoc, List.singleton_append] at hmore

/-- A rehearsal keeps a trace of its work. -/
theorem traces_rehearsal (limit : Duration) :
    (Script.Session.surroundings limit : Surroundings κ (Script.Session κ)).Traces
      fun s => s.tracer.get? s.id where
  record step s before hbefore := by
    refine ⟨s.clock, ?_⟩
    show (s.tracer.record s.id step s.clock).1.get? s.id = _
    unfold Tracer.record
    rw [hbefore]
    exact Table.get?_set _ _ _
  call _ _ := rfl

/-! ## Whole sessions with what they note -/

variable [Cost κ] {cfg : Config κ} {est : Estimator κ} {params : Json} {env : Surroundings κ σ}

/-- Noting changes nothing. -/
theorem follow_noting (cfg : Config κ) (est : Estimator κ) (params : Json) (env : Surroundings κ σ)
    (n : Nat) (s : Session κ) (point : Point κ) (w : σ) (steps : List Step) :
    (follow cfg est params env.noting n s point (w, steps)).1
        = (follow cfg est params env n s point w).1 ∧
      (follow cfg est params env.noting n s point (w, steps)).2.1
        = (follow cfg est params env n s point w).2 ∧
      journalFrom cfg est params env.noting n s point (w, steps)
        = journalFrom cfg est params env n s point w := by
  induction n generalizing s point w steps with
  | zero => exact ⟨rfl, rfl, rfl⟩
  | succ n ih =>
    cases point with
    | ended status => exact ⟨rfl, rfl, rfl⟩
    | head =>
      simp only [follow, journalFrom, recordAll_noting]
      exact ih _ _ _ _
    | calling stage =>
      have hc : env.noting.isCancelled (w, steps) = env.isCancelled w := rfl
      have hcall : env.noting.call (stage.invocation cfg params s) (w, steps)
          = ((env.call (stage.invocation cfg params s) w).1,
              (env.call (stage.invocation cfg params s) w).2, steps) := rfl
      simp only [follow, journalFrom, hc, hcall]
      cases env.isCancelled w with
      | true =>
        simp only [if_true, recordAll_noting]
        exact ih _ _ _ _
      | false =>
        obtain ⟨ending, w'⟩ := env.call (stage.invocation cfg params s) w
        cases ending with
        | panicked panic => exact ⟨rfl, rfl, rfl⟩
        | answered answer =>
          simp only [Bool.false_eq_true, if_false, recordAll_noting]
          obtain ⟨hr, hw, hj⟩ := ih (receive cfg est stage s answer).session
            (receive cfg est stage s answer).point
            (env.recordAll (receive cfg est stage s answer).steps w')
            (steps ++ (receive cfg est stage s answer).steps)
          exact ⟨hr, hw, congrArg _ hj⟩

/-- All that is noted along a course is written. -/
theorem written_course {trace : σ → Option Trace} (h : env.Traces trace) {before : Trace}
    {s : Session κ} {point : Point κ} {w : σ × List Step} {log : List (Exchange κ)}
    {r : Except Panic (Report κ) × (σ × List Step)}
    (hcourse : Course cfg est params env.noting s point w log r)
    (hw : Written before w.2 (trace w.1)) : Written before r.2.2 (trace r.2.1) := by
  have hcall : ∀ (invocation : Invocation) (w : σ × List Step),
      Written before w.2 (trace w.1) →
      Written before (env.noting.call invocation w).2.2
        (trace (env.noting.call invocation w).2.1) := by
    intro invocation w hw
    show Written before w.2 (trace (env.call invocation w.1).2)
    rw [h.call]
    exact hw
  induction hcourse with
  | ended s status w => exact hw
  | head s w next ih =>
    refine ih ?_
    rw [recordAll_noting]
    exact hw.recordAll h _
  | refused s stage w hc =>
    rw [recordAll_noting]
    exact hw.recordAll h _
  | @panicked s stage w w' panic hc hending =>
    have hafter := hcall (stage.invocation cfg params s) w hw
    rw [hending] at hafter
    exact hafter
  | @answered s stage w w' answer log r hc hending next ih =>
    have hafter := hcall (stage.invocation cfg params s) w hw
    rw [hending] at hafter
    refine ih ?_
    rw [recordAll_noting]
    exact hafter.recordAll h _

/-! ## What a session tells -/

def isIterationStep (step : Step) : Bool := step.action == "iteration"

/-- From which target to which a session went that has been at these, one after the other. -/
def changes : List String → List (String × String)
  | a :: b :: rest => (if a = b then [] else [(a, b)]) ++ changes (b :: rest)
  | _ => []

def retargetGate (change : String × String) : Step :=
  .okGate component "retarget" ("retarget " ++ change.1 ++ " -> " ++ change.2)

/-- The step tells of the end of a session. -/
def Status.ClosedBy (step : Step) : Status → Prop
  | .success => step = .ok component "verify" "checks passed"
  | status => ∃ detail, step = .errorGate component status.name detail

/-- The last step tells of the end, and the gates before it tell of the changes of target. -/
def Closing (status : Status) (targets : List String) (steps : List Step) : Prop :=
  ∃ before last, steps = before ++ [last] ∧ status.ClosedBy last ∧
    before.filter (·.gate) = (changes targets).map retargetGate

/-- What has been told when a point is reached. -/
def Point.Recounts (targets : List String) (steps : List Step) : Point κ → Prop
  | .ended status => Closing status targets steps
  | .head | .calling _ => steps.filter (·.gate) = (changes targets).map retargetGate

/-- Iterations are left where the session is to go on to one. -/
def Point.HasNext (most n : Nat) : Point κ → Prop
  | .head | .calling (.diagnose ..) | .calling (.fix ..) => n < most
  | .calling .verify | .ended _ => True

theorem changes_concat (targets : List String) (a b : String) :
    changes (targets ++ [a, b]) = changes (targets ++ [a]) ++ changes [a, b] := by
  induction targets with
  | nil => simp [changes]
  | cons c targets ih =>
    cases targets with
    | nil => simp [changes]
    | cons d targets =>
      simp only [List.cons_append, changes] at ih ⊢
      rw [ih, List.append_assoc]

theorem changes_same (a : String) : changes [a, a] = [] := by
  simp [changes]

/-! ## Answers -/

omit [Cost κ] in
/-- More is told when the session goes on. -/
theorem Point.Recounts.append {targets : List String} {a b : String} {told more : List Step}
    {point : Point κ} (h : told.filter (·.gate) = (changes (targets ++ [a])).map retargetGate)
    (hmore : point.Recounts [a, b] more) : point.Recounts (targets ++ [a, b]) (told ++ more) := by
  cases point with
  | ended status =>
    obtain ⟨before, last, rfl, hlast, hbefore⟩ := hmore
    refine ⟨told ++ before, last, by simp, hlast, ?_⟩
    rw [List.filter_append, h, hbefore, changes_concat, List.map_append]
  | head | calling =>
    show List.filter _ _ = _
    rw [List.filter_append, h, changes_concat, List.map_append]
    exact congrArg _ hmore

omit [Cost κ] in
/-- A session that ends tells of no change of target. -/
theorem recounts_ended {status : Status} {last : Step} (target : String) (before : List Step)
    (hlast : status.ClosedBy last) (hbefore : before.filter (·.gate) = []) :
    (Point.ended status : Point κ).Recounts [target, target] (before ++ [last]) := by
  refine ⟨before, last, rfl, hlast, ?_⟩
  rw [hbefore, changes_same]
  rfl

/-- What is told on the way to a point: how far it tells, and that no iteration begins there. -/
structure Progress.Recounts (target : String) (p : Progress κ) : Prop where
  tells : p.point.Recounts [target, p.session.target] p.steps
  began : p.steps.countP isIterationStep = 0

omit [Cost κ] in
theorem recounts_stopCancelled (s : Session κ) : s.stopCancelled.Recounts s.target :=
  ⟨recounts_ended s.target [] ⟨_, rfl⟩ rfl, rfl⟩

theorem recounts_judge (s : Session κ) (failure : String) :
    (s.judge cfg est failure).Recounts s.target := by
  unfold Session.judge
  dsimp only
  split
  · exact ⟨recounts_ended s.target [.error component "verify" failure] ⟨_, rfl⟩ rfl, rfl⟩
  · split
    · exact ⟨recounts_ended s.target [.error component "verify" failure] ⟨_, rfl⟩ rfl, rfl⟩
    · split
      · exact ⟨recounts_ended s.target [.error component "verify" failure] ⟨_, rfl⟩ rfl, rfl⟩
      · refine ⟨?_, rfl⟩
        show _ = (changes [s.target, s.target]).map retargetGate
        rw [changes_same]
        rfl

theorem recounts_verified (s : Session κ) (answer : Answer κ) :
    (s.verified cfg est answer).Recounts s.target := by
  unfold Session.verified
  split
  · split
    · exact ⟨recounts_ended s.target [] rfl rfl, rfl⟩
    · exact recounts_judge s _
  · exact recounts_stopCancelled s
  · exact recounts_judge s _

omit [Cost κ] in
/-- Why a diagnosis cannot be used is told by a step that is no gate. -/
theorem readDiagnosis_steps (failure : String) (answer : Answer κ) :
    (readDiagnosis failure answer).2.filter (·.gate) = [] ∧
      (readDiagnosis failure answer).2.countP isIterationStep = 0 := by
  unfold readDiagnosis
  split
  · split
    · split
      · exact ⟨rfl, rfl⟩
      · exact ⟨rfl, rfl⟩
    · exact ⟨rfl, rfl⟩
  · exact ⟨rfl, rfl⟩

omit [Cost κ] in
theorem recounts_diagnosed (s : Session κ) (failure : String) (estimate : κ) (answer : Answer κ) :
    (s.diagnosed failure estimate answer).Recounts s.target := by
  unfold Session.diagnosed
  split
  · exact recounts_stopCancelled s
  · obtain ⟨hgates, hbegan⟩ := readDiagnosis_steps failure answer
    generalize readDiagnosis failure answer = read at hgates hbegan ⊢
    obtain ⟨d, trouble⟩ := read
    dsimp only at hgates hbegan ⊢
    cases h : s.retarget? d with
    | none =>
      constructor
      · show List.filter _ _ = (changes [s.target, s.target]).map retargetGate
        rw [changes_same, List.append_nil, List.filter_append, hgates]
        rfl
      · rw [List.append_nil, List.countP_append, hbegan]
        rfl
    | some target =>
      constructor
      · show List.filter _ _ = (changes [s.target, target]).map retargetGate
        rw [List.filter_append, List.filter_append, hgates]
        simp [changes, (retarget?_ne h).symm]
        rfl
      · rw [List.countP_append, List.countP_append, hbegan]
        rfl

theorem recounts_afterFix (s : Session κ) (estimate : κ) {step : Step} (hgate : step.gate = false)
    (hbegan : isIterationStep step = false) : (s.afterFix estimate step).Recounts s.target := by
  unfold Session.afterFix
  split
  · refine ⟨recounts_ended s.target [step] ⟨_, rfl⟩ (by simp [hgate]), ?_⟩
    simp [hbegan]
    rfl
  · constructor
    · show List.filter _ _ = (changes [s.target, s.target]).map retargetGate
      rw [changes_same]
      simp [hgate]
    · simp [hbegan]

theorem recounts_fixed (s : Session κ) (estimate : κ) (answer : Answer κ) :
    (s.fixed cfg est estimate answer).Recounts s.target := by
  unfold Session.fixed
  split
  · rename_i output
    refine recounts_afterFix
      { s with budget := s.budget.book (output.cost.getD (est.actual (fixUnit cfg s))) } estimate ?_ ?_
    · split
      · rfl
      · rfl
    · split
      · rfl
      · rfl
  · exact recounts_stopCancelled s
  · exact recounts_afterFix s estimate rfl rfl

theorem recounts_receive (stage : Stage κ) (s : Session κ) (answer : Answer κ) :
    (receive cfg est stage s answer).Recounts s.target := by
  cases stage with
  | verify => exact recounts_verified s answer
  | diagnose failure estimate => exact recounts_diagnosed s failure estimate answer
  | fix failure estimate d => exact recounts_fixed s estimate answer

/-- Only a verification that failed looks at the limit, and every other answer leaves it as it is. -/
theorem hasNext_receive {stage : Stage κ} {s : Session κ} (answer : Answer κ)
    (h : (Point.calling stage).HasNext cfg.maxIterations s.iteration) :
    (receive cfg est stage s answer).point.HasNext cfg.maxIterations
      (receive cfg est stage s answer).session.iteration := by
  rw [(rank_receive cfg est stage s answer).1]
  cases stage with
  | verify =>
    rcases verified_cases s cfg est answer with ⟨-, -, hp⟩ | ⟨-, -, hp⟩ | ⟨failure, -, hj⟩
    · rw [receive, hp]
      trivial
    · rw [receive, hp]
      trivial
    · rw [receive, hj, judge_point]
      split
      · trivial
      · split
        · trivial
        · rename_i hmore
          split
          · exact Nat.not_le.mp hmore
          · trivial
  | diagnose failure estimate =>
    rcases diagnosed_cases s failure estimate answer with ⟨hp, -⟩ | ⟨d, _, _, -, hp, -⟩
    · rw [receive, hp]
      trivial
    · rw [receive, hp]
      exact h
  | fix failure estimate d =>
    obtain ⟨-, ⟨hp, -⟩ | hp⟩ := fixed_cases s cfg est estimate answer
    · rw [receive, hp]
      trivial
    · rw [receive, hp]
      split
      · trivial
      · exact h

/-! ## Whole sessions -/

/-- What a session has told when it comes to a point, after the calls of `past`. -/
structure Telling (cfg : Config κ) (first : String) (past : List (Exchange κ)) (s : Session κ)
    (point : Point κ) (told : List Step) : Prop where
  next : point.HasNext cfg.maxIterations s.iteration
  began : told.countP isIterationStep = s.iteration
  tells : point.Recounts (first :: past.map (·.session.target) ++ [s.target]) told

namespace Telling

variable {first : String} {past : List (Exchange κ)} {s : Session κ} {told : List Step}

theorem start (target : String) (hmax : 1 ≤ cfg.maxIterations) :
    Telling cfg target [] (.start cfg target) .head [] := by
  refine ⟨hmax, rfl, ?_⟩
  show _ = (changes [target, target]).map retargetGate
  rw [changes_same]
  rfl

omit [Cost κ] in
/-- The limit is not what a session finds before an iteration. -/
theorem head (h : Telling cfg first past s .head told) (cancelled : Bool) :
    Telling cfg first past (passHead cfg cancelled s).session (passHead cfg cancelled s).point
      (told ++ (passHead cfg cancelled s).steps) := by
  have hgates : told.filter (·.gate) = (changes _).map retargetGate := h.tells
  rcases passHead_cases cfg cancelled s with ⟨hle, -⟩ | ⟨-, -, hp⟩ | ⟨-, -, hp⟩
  · exact absurd hle (Nat.not_le.mpr h.next)
  · rw [hp]
    refine ⟨trivial, ?_, told, cancelledGate, rfl, ⟨_, rfl⟩, hgates⟩
    rw [List.countP_append, h.began]
    rfl
  · rw [hp]
    refine ⟨trivial, ?_, ?_⟩
    · rw [List.countP_append, h.began]
      rfl
    · show List.filter _ _ = _
      rw [List.filter_append, hgates]
      exact List.append_nil _

omit [Cost κ] in
theorem refused {stage : Stage κ} (h : Telling cfg first past s (.calling stage) told) :
    Telling cfg first past s (.ended .cancelled) (told ++ s.stopCancelled.steps) := by
  refine ⟨trivial, ?_, told, cancelledGate, rfl, ⟨_, rfl⟩, h.tells⟩
  rw [List.countP_append, h.began]
  rfl

theorem receive {stage : Stage κ} (h : Telling cfg first past s (.calling stage) told)
    (est : Estimator κ) (answer : Answer κ) :
    Telling cfg first (past ++ [⟨s, stage, .answered answer⟩])
      (receive cfg est stage s answer).session (receive cfg est stage s answer).point
      (told ++ (receive cfg est stage s answer).steps) := by
  have htells : (Healing.receive cfg est stage s answer).Recounts s.target :=
    recounts_receive stage s answer
  refine ⟨hasNext_receive answer h.next, ?_, ?_⟩
  · rw [List.countP_append, h.began, htells.began, (rank_receive cfg est stage s answer).1]
    rfl
  · have hgates : told.filter (·.gate)
        = (changes (first :: past.map (·.session.target) ++ [s.target])).map retargetGate := h.tells
    have happend := Point.Recounts.append hgates htells.tells
    simpa using happend

/-- So it is along a course, to its end. -/
theorem course {point : Point κ} {w : σ × List Step} {log : List (Exchange κ)}
    {r : Except Panic (Report κ) × (σ × List Step)} {report : Report κ}
    (hcourse : Course cfg est params env.noting s point w log r)
    (h : Telling cfg first past s point w.2) (hr : r.1 = .ok report) :
    ∃ s' status, report = s'.report status ∧
      Telling cfg first (past ++ log) s' (.ended status) r.2.2 := by
  induction hcourse generalizing past with
  | ended s status w =>
    obtain rfl := Except.ok.inj hr
    exact ⟨s, status, rfl, by rwa [List.append_nil]⟩
  | head s w next ih =>
    refine ih ?_ hr
    rw [recordAll_noting]
    exact h.head _
  | refused s stage w hc =>
    obtain rfl := Except.ok.inj hr
    rw [recordAll_noting]
    exact ⟨s, .cancelled, rfl, by rw [List.append_nil]; exact h.refused⟩
  | panicked s stage hc hcall => cases hr
  | @answered s stage w w' answer log r hc hcall next ih =>
    have hnoted : w.2 = w'.2 := congrArg (·.2.2) hcall
    rw [hnoted] at h
    rw [← List.singleton_append, ← List.append_assoc]
    refine ih ?_ hr
    rw [recordAll_noting]
    exact h.receive est answer

end Telling

/-- What the steps of a session tell of its report. -/
structure Told (target : String) (log : List (Exchange κ)) (report : Report κ) (told : List Step) :
    Prop where
  iterations : told.countP isIterationStep = report.iterations
  closing : Closing report.status (target :: log.map (·.session.target) ++ [report.target]) told

/-- For any behaviour of what is called and any moment of a cancellation. The steps are those that a session gives to
its surroundings; where these keep a trace, and nobody else writes it, they are what is written there. -/
theorem session_told (cfg : Config κ) (est : Estimator κ) (params : Json) (env : Surroundings κ σ)
    (target : String) (w : σ) (hmax : 1 ≤ cfg.maxIterations) :
    let result := run cfg est params env target w
    let noted := run cfg est params env.noting target (w, [])
    -- To note the steps changes nothing.
    noted.1 = result.1 ∧ noted.2.1 = result.2 ∧
    (∀ report, result.1 = .ok report →
      Told target (journal cfg est params env target w) report noted.2.2) ∧
    ∀ trace, env.Traces trace → ∀ before, trace w = some before →
      Written before noted.2.2 (trace result.2) := by
  intro result noted
  obtain ⟨hresult, hw, hjournal⟩ : _ ∧ _ ∧ _ :=
    follow_noting cfg est params env (pointBound cfg) (.start cfg target) .head w []
  have hcourse := course_run cfg est params env.noting target (w, [])
  refine ⟨hresult, hw, fun report hr => ?_, fun trace htraces before hbefore => ?_⟩
  · obtain ⟨s, status, rfl, htelling⟩ :=
      (Telling.start target hmax).course hcourse (hresult.trans hr)
    have hlog : journal cfg est params env.noting target (w, [])
        = journal cfg est params env target w := hjournal
    rw [hlog] at htelling
    exact ⟨htelling.began, htelling.tells⟩
  · have hstart : Written before [] (trace w) := ⟨[], before.lastActivity, rfl, by simp [hbefore]⟩
    have hwritten := written_course htraces hcourse hstart
    have hafter : trace noted.2.1 = trace result.2 := congrArg trace hw
    rw [← hafter]
    exact hwritten

/-- The first verification fails, and the diagnosis moves the session to another file. -/
theorem session_told_of_retarget :
    let cfg : Config Exact := ⟨2, 5, .posInf, .ofSecs 300, "run_checks", "diagnose", "generate_fix"⟩
    let est : Estimator Exact := .fixed (.rat 0) none
    let diagnosis : Json := .object [("summary", .string "off by one"), ("target_file", .string "helper")]
    let w : Script.Session Exact := .new
      (.new (.new [("run_checks", [.answer (.ok (.failure "1 failed"))])]
        [("run_checks", .answer (.ok (.success .null))),
          ("diagnose", .answer (.ok (.success diagnosis))),
          ("generate_fix", .answer (.ok (.success .null)))] .shut) false) (.ofNat 7)
    let env : Surroundings Exact (Script.Session Exact) :=
      Script.Session.surroundings cfg.iterationTimeout
    let result := run cfg est .null env "lib" w
    ∃ report told before, result.1 = .ok report ∧ report.status = .success ∧
      told.map (·.action)
        = ["iteration", "verify", "retarget", "diagnose", "fix", "iteration", "verify"] ∧
      Told "lib" (journal cfg est .null env "lib" w) report told ∧
      w.tracer.get? w.id = some before ∧ before.state = .processing ∧
      Written before told (result.2.tracer.get? result.2.id) := by
  intro cfg est diagnosis w env result
  have hstatus : (run cfg est .null env.noting "lib" (w, [])).1.toOption.map (·.status)
      = some .success := by
    decide +kernel
  have hactions : (run cfg est .null env.noting "lib" (w, [])).2.2.map (·.action)
      = ["iteration", "verify", "retarget", "diagnose", "fix", "iteration", "verify"] := by
    decide +kernel
  have hbefore : w.tracer.get? w.id
      = some { Trace.new (.ofNat 7) 0 with state := .processing, lastActivity := 1 } := rfl
  have hsession := session_told cfg est .null env "lib" w (by decide)
  dsimp only at hsession
  -- The runs have been looked at; from here on they need not be opened.
  generalize run cfg est .null env.noting "lib" (w, []) = noted at hstatus hactions hsession
  have hresult : run cfg est .null env "lib" w = result := rfl
  rw [hresult] at hsession
  clear_value result
  obtain ⟨hsame, -, htold, hwritten⟩ := hsession
  rw [hsame] at hstatus
  cases hreport : result.1 with
  | error panic =>
    rw [hreport] at hstatus
    cases hstatus
  | ok report =>
    rw [hreport] at hstatus
    exact ⟨report, noted.2.2, _, rfl, Option.some.inj hstatus, hactions, htold report hreport,
      hbefore, rfl, hwritten _ (traces_rehearsal _) _ hbefore⟩

end Overseer.Healing
