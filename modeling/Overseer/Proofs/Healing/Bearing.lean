import Overseer.Proofs.Healing.Stand
import Overseer.Proofs.Keyed
import Overseer.Proofs.Text.Blank
import Mathlib.Data.List.Destutter

/-! # What the calls of a healing session carry

An observer who sees the calls of a session and how they end can tell what the next call has to carry: the target is
the last one that a diagnosis has named, the failure is that of the last verification, and a fix is given the last
diagnosis. `Exchange.Carries` says so of a call, by nothing but the calls before it.

The session keeps what the observer tells from the calls (`Bears`), from point to point.
-/

namespace Overseer.Healing

variable {κ σ : Type}

/-! ## What an observer tells from a call -/

/-- The text of a verification that failed. -/
def Exchange.failure? (x : Exchange κ) : Option String :=
  match x.stage, x.ending with
  | .verify, .answered answer =>
      match verdict answer with
      | .failed failure => some failure
      | .passed | .cancelled => none
  | _, _ => none

/-- The diagnosis that an answer holds, if it can be used. -/
def usable? : Answer κ → Option Diagnosis
  | .ok output => if output.ok then Diagnosis.ofOutput? output.output else none
  | .error _ => none

/-- The diagnosis that a call has led to. One that is of no use, or has failed, is the raw failure. -/
def Exchange.diagnosis? (x : Exchange κ) : Option Diagnosis :=
  match x.stage, x.ending with
  | .diagnose _ _, .answered (.error .cancelled) => none
  | .diagnose failure _, .answered answer => some ((usable? answer).getD (.ofText failure))
  | _, _ => none

/-- The target that a diagnosis names, trimmed, if it is not blank. -/
def Exchange.named? (x : Exchange κ) : Option String :=
  x.diagnosis?.bind fun d => d.target.bind Text.trimmed?

/-- The initial target, and each target that a diagnosis has named in place of the one before it. -/
def targets (target : String) (log : List (Exchange κ)) : List String :=
  (log.filterMap Exchange.named?).destutter' (· ≠ ·) target

/-- The target after some calls. -/
def heading (target : String) (log : List (Exchange κ)) : String :=
  (targets target log).getLast?.getD target

def failures (log : List (Exchange κ)) : List String := log.filterMap Exchange.failure?

def diagnoses (log : List (Exchange κ)) : List Diagnosis := log.filterMap Exchange.diagnosis?

def rounds (log : List (Exchange κ)) : Nat := log.countP Exchange.isVerify

/-- The value of a key in the params of a payload. Params that are no object are the value of a key of their own. -/
def supplied (params : Json) (key : String) : Option Json :=
  match params with
  | .obj fields => Keyed.lookup key fields
  | .null => none
  | other => if key = "params" then some other else none

/-- The params of a payload with some fields set. -/
theorem get?_withFields (params : Json) (fields : List (String × Json)) (key : String) :
    (withFields params fields).get? key
      = fields.foldl (fun found field => if key = field.1 then some field.2 else found)
          (supplied params key) := by
  cases params with
  | obj base => exact Keyed.lookup_foldl_insert key fields base
  | null => exact Keyed.lookup_foldl_insert key fields []
  | bool | number | string | array =>
    refine (Keyed.lookup_foldl_insert key fields _).trans ?_
    rw [Keyed.lookup_cons]
    simp only [supplied, eq_comm]
    rfl

/-! ## The law for a call -/

/-- What a call has to carry after the calls before it. -/
def Exchange.Carries (cfg : Config κ) (params : Json) (target : String)
    (before : List (Exchange κ)) (x : Exchange κ) : Prop :=
  let current := heading target before
  match x.stage with
  | .verify =>
      (x.invocation cfg params).name = cfg.verify ∧
      ∀ key, (x.invocation cfg params).params.get? key =
        if key = "iteration" then some (.nat (rounds before + 1))
        else if key = "target_file" then some (.string current)
        else supplied params key
  | .diagnose .. => ∃ earlier v failure, before = earlier ++ [v] ∧ v.failure? = some failure ∧
      x.invocation cfg params = ⟨cfg.diagnose, .object [
        ("prompt", .string (Prompt.diagnose ⟨current, rounds before, cfg.maxIterations, failure,
          (diagnoses before).getLast?.map (·.summary)⟩ Prompt.standardBudget)),
        ("target_file", .string current), ("failure", .string failure)]⟩
  | .fix .. => ∃ earlier v d failure diagnosis, before = earlier ++ [v, d] ∧
      v.failure? = some failure ∧ d.diagnosis? = some diagnosis ∧
      x.invocation cfg params = ⟨cfg.fix, .object [
        ("prompt", .string (Prompt.fix ⟨current, diagnosis.summary, diagnosis.suggestion, failure⟩
          Prompt.standardBudget)),
        ("target_file", .string current), ("diagnosis", .string diagnosis.summary)]⟩

/-! ## One more call -/

theorem getLast?_filterMap_concat {α β : Type} (f : α → Option β) (l : List α) (x : α) :
    ((l ++ [x]).filterMap f).getLast? = (f x).or (l.filterMap f).getLast? := by
  rw [List.filterMap_append, List.getLast?_append, List.filterMap_cons, List.filterMap_nil]
  cases f x with
  | none => rfl
  | some y => rfl

/-- Whatever came before, the last name is the one that counts. -/
theorem getLast?_destutter'_concat (target name : String) (names : List String) :
    ((names ++ [name]).destutter' (· ≠ ·) target).getLast? = some name := by
  induction names generalizing target with
  | nil =>
    rw [List.nil_append, List.destutter'_singleton]
    split
    · rfl
    · rename_i h
      rw [not_not.mp h]
      rfl
  | cons first names ih =>
    rw [List.cons_append, List.destutter'_cons]
    split
    · rw [List.getLast?_cons, ih]
      rfl
    · exact ih target

theorem heading_eq (target : String) (log : List (Exchange κ)) :
    heading target log = (log.filterMap Exchange.named?).getLast?.getD target := by
  unfold heading targets
  generalize log.filterMap Exchange.named? = names
  rcases List.eq_nil_or_concat names with rfl | ⟨earlier, name, rfl⟩
  · rfl
  · rw [List.concat_eq_append, getLast?_destutter'_concat, List.getLast?_concat]

theorem heading_concat (target : String) (log : List (Exchange κ)) (x : Exchange κ) :
    heading target (log ++ [x]) = x.named?.getD (heading target log) := by
  rw [heading_eq, heading_eq, getLast?_filterMap_concat]
  cases x.named? with
  | none => rfl
  | some name => rfl

theorem rounds_concat (log : List (Exchange κ)) (x : Exchange κ) :
    rounds (log ++ [x]) = rounds log + if x.isVerify then 1 else 0 := by
  rw [rounds, List.countP_append, List.countP_singleton]
  rfl

/-- The targets of a session are tidy when the first one is. -/
theorem tidy_heading {target : String} (h : Text.Tidy target) (log : List (Exchange κ)) :
    Text.Tidy (heading target log) := by
  rw [heading_eq]
  cases hlast : (log.filterMap Exchange.named?).getLast? with
  | none => exact h
  | some name =>
    obtain ⟨x, -, hname⟩ := List.mem_filterMap.mp (List.mem_of_getLast? hlast)
    obtain ⟨d, -, hnamed⟩ := Option.bind_eq_some_iff.mp hname
    obtain ⟨raw, -, htrimmed⟩ := Option.bind_eq_some_iff.mp hnamed
    exact Text.tidy_of_trimmed? htrimmed

/-! ## What the session keeps -/

/-- What a session remembers of its calls. -/
structure Bears (target : String) (past : List (Exchange κ)) (s : Session κ) : Prop where
  target : s.target = heading target past
  failure : s.lastFailure = (failures past).getLast?
  diagnosis : s.lastDiagnosis = (diagnoses past).getLast?.map (·.summary)

/-- What a point of a session has of the last calls. -/
def Point.Bears (past : List (Exchange κ)) (s : Session κ) : Point κ → Prop
  | .head => s.iteration = rounds past
  | .calling .verify => s.iteration = rounds past + 1
  | .calling (.diagnose failure _) => s.iteration = rounds past ∧
      ∃ earlier v, past = earlier ++ [v] ∧ v.failure? = some failure
  | .calling (.fix failure _ diagnosis) => s.iteration = rounds past ∧
      ∃ earlier v d, past = earlier ++ [v, d] ∧ v.failure? = some failure ∧
        d.diagnosis? = some diagnosis
  | .ended _ => True

variable {target : String} {past : List (Exchange κ)} {s t : Session κ} {x : Exchange κ}

/-- A call that tells of no diagnosis. -/
theorem Bears.concat (h : Bears target past s) (hx : x.diagnosis? = none)
    (htarget : t.target = s.target) (hdiagnosis : t.lastDiagnosis = s.lastDiagnosis)
    (hfailure : t.lastFailure = x.failure?.or s.lastFailure) : Bears target (past ++ [x]) t where
  target := by
    have hnamed : x.named? = none := by rw [Exchange.named?, hx, Option.bind_none]
    rw [heading_concat, hnamed, htarget, h.target, Option.getD_none]
  failure := by rw [failures, getLast?_filterMap_concat, hfailure, h.failure, failures]
  diagnosis := by
    rw [diagnoses, getLast?_filterMap_concat, hx, Option.none_or, hdiagnosis, h.diagnosis, diagnoses]

theorem bears_passHead {cfg : Config κ} (h : Bears target past s ∧ Point.Bears past s .head)
    (cancelled : Bool) :
    Bears target past (passHead cfg cancelled s).session ∧
      (passHead cfg cancelled s).point.Bears past (passHead cfg cancelled s).session := by
  obtain ⟨hs, hiteration⟩ := h
  rcases passHead_cases cfg cancelled s with ⟨-, hp⟩ | ⟨-, -, hp⟩ | ⟨-, -, hp⟩
  · rw [hp]
    exact ⟨hs, trivial⟩
  · rw [hp]
    exact ⟨hs, trivial⟩
  · rw [hp]
    exact ⟨⟨hs.target, hs.failure, hs.diagnosis⟩, congrArg (· + 1) hiteration⟩

theorem readDiagnosis_fst (failure : String) (answer : Answer κ) :
    (readDiagnosis failure answer).1 = (usable? answer).getD (.ofText failure) := by
  cases answer with
  | error e => rfl
  | ok output =>
    unfold readDiagnosis usable?
    dsimp only
    split
    · split
      · rename_i hd
        rw [hd, Option.getD_some]
      · rename_i hd
        rw [hd, Option.getD_none]
    · rfl

theorem retarget?_getD (s : Session κ) (d : Diagnosis) :
    (s.retarget? d).getD s.target = (d.target.bind Text.trimmed?).getD s.target := by
  unfold Session.retarget?
  cases d.target.bind Text.trimmed? with
  | none => rfl
  | some name =>
    by_cases h : name = s.target
    · simp [Option.filter, h]
    · simp [Option.filter, h]

/-- What a diagnosis does to the session, if it is not cancelled. -/
theorem diagnosed_session (s : Session κ) (failure : String) (estimate : κ) {answer : Answer κ}
    (h : answer ≠ .error .cancelled) :
    let d := (usable? answer).getD (.ofText failure)
    let p := s.diagnosed failure estimate answer
    p.point = .calling (.fix failure estimate d) ∧
      p.session.target = (d.target.bind Text.trimmed?).getD s.target ∧
      p.session.lastDiagnosis = some d.summary ∧ p.session.lastFailure = s.lastFailure ∧
      p.session.iteration = s.iteration := by
  intro d p
  have hd : (readDiagnosis failure answer).1 = d := readDiagnosis_fst failure answer
  have hp : p = s.diagnosed failure estimate answer := rfl
  clear_value d p
  subst hd hp
  rw [← retarget?_getD]
  unfold Session.diagnosed
  split
  · exact absurd rfl h
  · dsimp only
    cases s.retarget? (readDiagnosis failure answer).1 with
    | none => exact ⟨rfl, rfl, rfl, rfl, rfl⟩
    | some name => exact ⟨rfl, rfl, rfl, rfl, rfl⟩

variable [Cost κ] {cfg : Config κ} {est : Estimator κ} {stage : Stage κ}

theorem bears_judge (h : Bears target past s ∧ Point.Bears past s (.calling .verify))
    {failure : String} {answer : Answer κ} (hv : verdict answer = .failed failure) :
    Bears target (past ++ [⟨s, .verify, .answered answer⟩]) (s.judge cfg est failure).session ∧
      (s.judge cfg est failure).point.Bears (past ++ [⟨s, .verify, .answered answer⟩])
        (s.judge cfg est failure).session := by
  obtain ⟨hs, hiteration⟩ := h
  have hfailure : Exchange.failure? ⟨s, .verify, .answered answer⟩ = some failure := by
    simp [Exchange.failure?, hv]
  rw [judge_session, judge_point]
  refine ⟨hs.concat rfl rfl rfl ?_, ?_⟩
  · rw [hfailure]
    rfl
  · split
    · trivial
    · split
      · trivial
      · split
        · refine ⟨?_, past, _, rfl, hfailure⟩
          rw [rounds_concat]
          exact hiteration
        · trivial

theorem bears_receive (h : Bears target past s ∧ Point.Bears past s (.calling stage))
    (answer : Answer κ) :
    Bears target (past ++ [⟨s, stage, .answered answer⟩]) (receive cfg est stage s answer).session ∧
      (receive cfg est stage s answer).point.Bears (past ++ [⟨s, stage, .answered answer⟩])
        (receive cfg est stage s answer).session := by
  obtain ⟨hs, hpoint⟩ := h
  cases stage with
  | verify =>
    rcases verified_cases s cfg est answer with ⟨hv, ht, hp⟩ | ⟨hv, ht, hp⟩ | ⟨failure, hv, hj⟩
    · rw [receive, ht, hp]
      exact ⟨hs.concat rfl rfl rfl (by simp [Exchange.failure?, hv]), trivial⟩
    · rw [receive, ht, hp]
      exact ⟨hs.concat rfl rfl rfl (by simp [Exchange.failure?, hv]), trivial⟩
    · rw [receive, hj]
      exact bears_judge ⟨hs, hpoint⟩ hv
  | diagnose failure estimate =>
    obtain ⟨hiteration, earlier, v, hpast, hv⟩ := hpoint
    by_cases hc : answer = .error .cancelled
    · subst hc
      exact ⟨hs.concat rfl rfl rfl rfl, trivial⟩
    · have hd : Exchange.diagnosis? ⟨s, .diagnose failure estimate, .answered answer⟩
          = some ((usable? answer).getD (.ofText failure)) := by
        cases answer with
        | ok output => rfl
        | error e => cases e with
          | cancelled => exact absurd rfl hc
          | unavailable | timedOut | failed => rfl
      obtain ⟨hp, htarget, hdiagnosis, hfailure, hround⟩ := diagnosed_session s failure estimate hc
      rw [receive, hp]
      refine ⟨⟨?_, ?_, ?_⟩, ?_, earlier, v, _, ?_, hv, hd⟩
      · rw [htarget, heading_concat, Exchange.named?, hd, hs.target, Option.bind_some]
      · rw [hfailure, failures, getLast?_filterMap_concat, hs.failure]
        rfl
      · rw [hdiagnosis, diagnoses, getLast?_filterMap_concat, hd]
        rfl
      · rw [hround, rounds_concat]
        exact hiteration
      · rw [hpast, List.append_assoc]
        rfl
  | fix failure estimate d =>
    obtain ⟨ht, hp⟩ := fixed_cases s cfg est estimate answer
    rw [receive, ht]
    refine ⟨hs.concat rfl rfl rfl rfl, ?_⟩
    rcases hp with ⟨hp, -⟩ | hp
    · rw [hp]
      trivial
    · rw [hp]
      split
      · trivial
      · show s.iteration = _
        rw [rounds_concat]
        exact hpoint.1

theorem bears_invariant (cfg : Config κ) (est : Estimator κ) (target : String) :
    Invariant cfg est fun past s point => Bears target past s ∧ point.Bears past s where
  head h cancelled := bears_passHead h cancelled
  refused h := ⟨h.1, trivial⟩
  receive h answer := bears_receive h answer

theorem bears_start (cfg : Config κ) (target : String) :
    Bears target [] (.start cfg target) ∧ Point.Bears [] (Session.start cfg target) .head :=
  ⟨⟨rfl, rfl, rfl⟩, rfl⟩

/-! ## Whole sessions -/

omit [Cost κ] in
/-- What the session keeps is what its next call carries. -/
theorem Bears.carries (params : Json) (h : Bears target past x.session)
    (hp : Point.Bears past x.session (.calling x.stage)) : x.Carries cfg params target past := by
  obtain ⟨session, stage, ending⟩ := x
  cases stage with
  | verify =>
    refine ⟨rfl, fun key => ?_⟩
    refine (get?_withFields params _ key).trans ?_
    rw [List.foldl_cons, List.foldl_cons, List.foldl_nil, h.target,
      show session.iteration = rounds past + 1 from hp]
  | diagnose failure estimate =>
    obtain ⟨hiteration, earlier, v, hpast, hv⟩ := hp
    refine ⟨earlier, v, failure, hpast, hv, ?_⟩
    rw [← h.target, ← hiteration, ← h.diagnosis]
    rfl
  | fix failure estimate d =>
    obtain ⟨-, earlier, v, y, hpast, hv, hd⟩ := hp
    refine ⟨earlier, v, y, failure, d, hpast, hv, hd, ?_⟩
    rw [← h.target]
    rfl

variable {params : Json} {env : Surroundings κ σ} {w : σ}

theorem carries_of_journal (cfg : Config κ) (est : Estimator κ) (params : Json)
    (env : Surroundings κ σ) (target : String) (w : σ) {before after : List (Exchange κ)}
    (h : journal cfg est params env target w = before ++ x :: after) :
    x.Carries cfg params target before := by
  obtain ⟨hs, hp⟩ := (bears_invariant cfg est target).course_calls
    (course_run cfg est params env target w) [] (bears_start cfg target) before x after h
  exact hs.carries params hp

/-- What the report tells of the calls. -/
theorem report_of_journal (cfg : Config κ) (est : Estimator κ) (params : Json)
    (env : Surroundings κ σ) (target : String) (w : σ) {report : Report κ}
    (h : (run cfg est params env target w).1 = .ok report) :
    let log := journal cfg est params env target w
    report.target = heading target log ∧ report.lastFailure = (failures log).getLast? ∧
      report.lastDiagnosis = (diagnoses log).getLast?.map (·.summary) := by
  rcases (bears_invariant cfg est target).course_end (course_run cfg est params env target w) []
    (bears_start cfg target) with ⟨s, status, hr, hs, -⟩ | ⟨panic, -, -, -, hr, -⟩
  · obtain rfl := Except.ok.inj (hr.symm.trans h)
    exact ⟨hs.target, hs.failure, hs.diagnosis⟩
  · rw [hr] at h
    cases h

omit [Cost κ] in
/-- Every call carries the target there is. -/
theorem Exchange.Carries.target_file {before : List (Exchange κ)}
    (h : x.Carries cfg params target before) :
    (x.invocation cfg params).params.get? "target_file"
      = some (.string (heading target before)) := by
  unfold Exchange.Carries at h
  split at h
  · exact (h.2 "target_file").trans (by simp)
  · obtain ⟨-, -, failure, -, -, he⟩ := h
    rw [he]
    rfl
  · obtain ⟨-, -, -, failure, d, -, -, -, he⟩ := h
    rw [he]
    rfl

end Overseer.Healing
