import Overseer.Healing.Report
import Overseer.Healing.Diagnosis
import Overseer.Healing.Prompt
import Overseer.Capability.Basic
import Overseer.Cost.Budget
import Overseer.Cost.Estimator
import Overseer.Failure.Signature
import Overseer.Trace.Step

/-! # Healing sessions

An iteration verifies the target and, when that fails, asks for a diagnosis and for a fix. A session
stands at a point; `passHead` and `receive` take it to the next one, and `stopCancelled` ends it before a
call that a cancelled token forbids. Each tells the steps to be put on the trace before the token is
looked at again.
-/

namespace Overseer.Healing

def component : String := "healing"

structure Session (κ : Type) where
  iteration : Nat
  verifications : Nat
  budget : Budget κ
  /-- The signatures of the failures since the last change of target. -/
  signatures : List Signature
  target : String
  lastDiagnosis : Option String
  lastFailure : Option String
  deriving Repr

/-- The call that an iteration has come to, with what it needs of the calls before. -/
inductive Stage (κ : Type)
  | verify
  | diagnose (failure : String) (estimate : κ)
  | fix (failure : String) (estimate : κ) (diagnosis : Diagnosis)
  deriving Repr

inductive Point (κ : Type)
  /-- Before an iteration. -/
  | head
  /-- Before a call. -/
  | calling (stage : Stage κ)
  | ended (status : Status)
  deriving Repr

/-- A session, the point at which it stands and the steps it took on the way there. -/
structure Progress (κ : Type) where
  session : Session κ
  point : Point κ
  steps : List Step
  deriving Repr

variable {κ : Type} [Cost κ]

def Session.start (cfg : Config κ) (target : String) : Session κ :=
  ⟨0, 0, .new cfg.maxCost, [], target, none, none⟩

def Session.report (s : Session κ) (status : Status) : Report κ :=
  ⟨status, s.iteration, s.verifications, s.budget.spent, s.target, s.lastDiagnosis, s.lastFailure⟩

def cancelledGate : Step :=
  .errorGate component "cancelled" "cancellation requested; stopping"

def Session.stopCancelled (s : Session κ) : Progress κ := ⟨s, .ended .cancelled, [cancelledGate]⟩

/-- Before an iteration: the limit comes first, then the token. -/
def passHead (cfg : Config κ) (cancelled : Bool) (s : Session κ) : Progress κ :=
  if cfg.maxIterations ≤ s.iteration then ⟨s, .ended .iterationsExhausted, []⟩
  else if cancelled then s.stopCancelled
  else
    let n := s.iteration + 1
    let step := Step.ok component "iteration"
      ("iteration " ++ toString n ++ " of " ++ toString cfg.maxIterations ++ " on " ++ s.target)
    ⟨{ s with iteration := n, verifications := s.verifications + 1 }, .calling .verify, [step]⟩

/-- The params as an object with some fields set. Null counts as no params, and any other value that is
no object is kept under `params`. -/
def withFields (params : Json) (fields : List (String × Json)) : Json :=
  let base := match params with
    | .obj fields => fields
    | .null => []
    | other => [("params", other)]
  .obj (fields.foldl (fun acc (key, value) => Keyed.insert key value acc) base)

def diagnosePrompt (cfg : Config κ) (s : Session κ) (failure : String) : String :=
  Prompt.diagnose ⟨s.target, s.iteration, cfg.maxIterations, failure, s.lastDiagnosis⟩
    Prompt.standardBudget

def fixPrompt (s : Session κ) (failure : String) (d : Diagnosis) : String :=
  Prompt.fix ⟨s.target, d.summary, d.suggestion, failure⟩ Prompt.standardBudget

def Stage.invocation (cfg : Config κ) (params : Json) (s : Session κ) : Stage κ → Invocation
  | .verify =>
      ⟨cfg.verify, withFields params [("target_file", .string s.target),
        ("iteration", .nat s.iteration)]⟩
  | .diagnose failure _ =>
      ⟨cfg.diagnose, .object [("prompt", .string (diagnosePrompt cfg s failure)),
        ("target_file", .string s.target), ("failure", .string failure)]⟩
  | .fix failure _ d =>
      ⟨cfg.fix, .object [("prompt", .string (fixPrompt s failure d)),
        ("target_file", .string s.target), ("diagnosis", .string d.summary)]⟩

def fixUnit (cfg : Config κ) (s : Session κ) : WorkUnit :=
  ⟨cfg.fix, some s.target, some s.iteration⟩

def loopGate (cfg : Config κ) (repeats : Nat) : Step :=
  .errorGate component "loop_detected"
    ("same failure seen " ++ toString repeats ++ " times in a row (max_repeat "
      ++ toString cfg.maxRepeat ++ "); stopping")

def exhaustedGate (n : Nat) : Step :=
  .errorGate component "iterations_exhausted"
    ("verification still failing after " ++ toString n ++ " iterations")

def unaffordableGate (estimate : κ) (b : Budget κ) : Step :=
  .errorGate component "budget_exceeded"
    ("fix estimate " ++ Cost.text estimate ++ " would exceed budget (spent " ++ Cost.text b.spent
      ++ " of " ++ Cost.text b.ceiling ++ ")")

def overspentGate (estimate : κ) (b : Budget κ) : Step :=
  .errorGate component "budget_exceeded"
    ("fix cost more than its estimate " ++ Cost.text estimate ++ "; spent " ++ Cost.text b.spent
      ++ " of " ++ Cost.text b.ceiling)

/-- A verification failed: the repetition, the iterations and the budget are tested in this order. -/
def Session.judge (cfg : Config κ) (est : Estimator κ) (s : Session κ) (failure : String) :
    Progress κ :=
  let s := { s with
    lastFailure := some failure
    signatures := s.signatures ++ [failureSignature failure] }
  let failed := Step.error component "verify" failure
  let estimate := est.estimate (fixUnit cfg s)
  if isRepeating s.signatures cfg.maxRepeat then
    ⟨s, .ended .loopDetected, [failed, loopGate cfg (trailingRepeats s.signatures)]⟩
  else if cfg.maxIterations ≤ s.iteration then
    ⟨s, .ended .iterationsExhausted, [failed, exhaustedGate s.iteration]⟩
  else if !s.budget.admits estimate then
    ⟨s, .ended .budgetExceeded, [failed, unaffordableGate estimate s.budget]⟩
  else ⟨s, .calling (.diagnose failure estimate), [failed]⟩

def Session.verified (cfg : Config κ) (est : Estimator κ) (s : Session κ) :
    Answer κ → Progress κ
  | .ok output =>
      if output.ok then ⟨s, .ended .success, [.ok component "verify" "checks passed"]⟩
      else s.judge cfg est output.failureDetail
  | .error .cancelled => s.stopCancelled
  | .error e => s.judge cfg est e.message

/-- What a call for a diagnosis comes to, with the step that tells why the raw failure is used. -/
def readDiagnosis (failure : String) : Answer κ → Diagnosis × List Step
  | .ok output =>
      if output.ok then
        match Diagnosis.ofOutput? output.output with
        | some d => (d, [])
        | none =>
            (.ofText failure,
              [.error component "diagnose" "unusable diagnosis; using raw failure"])
      else
        (.ofText failure, [.error component "diagnose"
          ("diagnosis failed: " ++ output.failureDetail ++ "; using raw failure")])
  | .error e =>
      (.ofText failure, [.error component "diagnose"
        ("diagnosis failed: " ++ e.message ++ "; using raw failure")])

/-- The target that a diagnosis moves the session to, if it names another one. -/
def Session.retarget? (s : Session κ) (d : Diagnosis) : Option String :=
  (d.target.bind Text.trimmed?).filter (· != s.target)

def Session.diagnosed (s : Session κ) (failure : String) (estimate : κ) :
    Answer κ → Progress κ
  | .error .cancelled => s.stopCancelled
  | answer =>
      let (d, trouble) := readDiagnosis failure answer
      let (s, moved) := match s.retarget? d with
        | none => (s, [])
        | some target =>
            ({ s with target := target, signatures := [] },
              [Step.okGate component "retarget" ("retarget " ++ s.target ++ " -> " ++ target)])
      ⟨{ s with lastDiagnosis := some d.summary }, .calling (.fix failure estimate d),
        trouble ++ moved ++ [.ok component "diagnose" d.summary]⟩

/-- After a fix the budget is looked at again, for a fix can cost more than was estimated. -/
def Session.afterFix (s : Session κ) (estimate : κ) (step : Step) : Progress κ :=
  if s.budget.overspent then
    ⟨s, .ended .budgetExceeded, [step, overspentGate estimate s.budget]⟩
  else ⟨s, .head, [step]⟩

def Session.fixed (cfg : Config κ) (est : Estimator κ) (s : Session κ) (estimate : κ) :
    Answer κ → Progress κ
  | .ok output =>
      let cost := output.cost.getD (est.actual (fixUnit cfg s))
      let s := { s with budget := s.budget.book cost }
      let bill := "cost " ++ Cost.text cost ++ ", cumulative " ++ Cost.text s.budget.spent
      s.afterFix estimate <|
        if output.ok then .ok component "fix" ("fix applied to " ++ s.target ++ "; " ++ bill)
        else .error component "fix" ("fix failed: " ++ output.failureDetail ++ "; " ++ bill)
  | .error .cancelled => s.stopCancelled
  | .error e => s.afterFix estimate (.error component "fix" ("fix failed: " ++ e.message))

/-- The answer to the call under way. -/
def receive (cfg : Config κ) (est : Estimator κ) (stage : Stage κ) (s : Session κ)
    (answer : Answer κ) : Progress κ :=
  match stage with
  | .verify => s.verified cfg est answer
  | .diagnose failure estimate => s.diagnosed failure estimate answer
  | .fix _ estimate _ => s.fixed cfg est estimate answer

end Overseer.Healing
