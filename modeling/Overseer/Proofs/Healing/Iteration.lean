import Overseer.Proofs.Healing.Course

/-! # The iterations of a healing session

The calls of a session fall into iterations: a verification and, if the session goes on, a diagnosis and a fix.
`stopAt` says from the iterations alone, without the history that a session keeps, whether one of them stops the
session and why. `course_iteration` follows a session that is not cancelled through one iteration.
-/

namespace Overseer.Healing

variable {κ σ : Type}

/-- The calls of an iteration. A session that stops after the verification makes no others. -/
structure Iteration (κ : Type) where
  verify : Exchange κ
  repair : Option (Exchange κ × Exchange κ)
  verifies : verify.stage = .verify
  repairs : ∀ d f, repair = some (d, f) →
    (∃ failure estimate, d.stage = .diagnose failure estimate) ∧
      ∃ failure estimate diagnosis, f.stage = .fix failure estimate diagnosis

/-- The budget after a fix. -/
def Exchange.paid [Cost κ] (cfg : Config κ) (est : Estimator κ) (f : Exchange κ) : Budget κ :=
  match f.ending with
  | .answered answer => f.session.pay cfg est answer
  | .panicked _ => f.session.budget

namespace Iteration

def calls (it : Iteration κ) : List (Exchange κ) :=
  match it.repair with
  | none => [it.verify]
  | some (d, f) => [it.verify, d, f]

def failure? (it : Iteration κ) : Option String :=
  match it.verify.ending with
  | .panicked _ => none
  | .answered answer =>
      match verdict answer with
      | .failed failure => some failure
      | .passed | .cancelled => none

def passes (it : Iteration κ) : Prop :=
  ∃ answer, it.verify.ending = .answered answer ∧ verdict answer = .passed

def signature? (it : Iteration κ) : Option Signature := it.failure?.map failureSignature

/-- Between the diagnosis and the fix the target has changed. -/
def retargets (it : Iteration κ) : Bool :=
  match it.repair with
  | none => false
  | some (d, f) => f.session.target != d.session.target

/-- Of the iterations so far, the newest first, those after the last change of target. -/
def sinceRetarget (earlier : List (Iteration κ)) : List (Iteration κ) :=
  earlier.takeWhile fun e => !e.retargets

/-- How many failures in a row have been the same, up to this one. -/
def streak (it : Iteration κ) (earlier : List (Iteration κ)) : Nat :=
  1 + ((sinceRetarget earlier).takeWhile fun e => e.signature? == it.signature?).length

variable [Cost κ] (cfg : Config κ) (est : Estimator κ)

/-- The budget has room for the fix, as it is estimated after the verification. -/
def admitted (it : Iteration κ) : Bool :=
  it.verify.session.budget.admits (est.estimate (fixUnit cfg it.verify.session))

/-- After the fix more has been spent than the ceiling allows. -/
def overspent (it : Iteration κ) : Bool :=
  match it.repair with
  | none => false
  | some (_, f) => (f.paid cfg est).overspent

/-- The tests of a failing iteration, the `n`-th, before its fix, in their order. -/
def refusal? (it : Iteration κ) (streak n : Nat) : Option Status :=
  if cfg.maxRepeat < streak then some .loopDetected
  else if n = cfg.maxIterations then some .iterationsExhausted
  else if !it.admitted cfg est then some .budgetExceeded
  else none

/-- One more test comes after the fix. -/
def stop? (it : Iteration κ) (streak n : Nat) : Option Status :=
  match it.refusal? cfg est streak n with
  | some status => some status
  | none => if it.overspent cfg est then some .budgetExceeded else none

/-- Why a failing iteration stops the session, if it does. -/
def stopAt (it : Iteration κ) (earlier : List (Iteration κ)) : Option Status :=
  it.stop? cfg est (it.streak earlier) (earlier.length + 1)

/-- All these iterations, the newest first, failed and did not stop the session. -/
def WentOn : List (Iteration κ) → Prop
  | [] => True
  | it :: earlier =>
      it.verify.session.iteration = earlier.length + 1 ∧ it.failure?.isSome = true ∧
        it.repair.isSome = true ∧ it.stopAt cfg est earlier = none ∧ WentOn earlier

end Iteration

/-! ## Single calls -/

section Calls

variable [Cost κ] {cfg : Config κ} {est : Estimator κ} {params : Json} {env : Surroundings κ σ}
  {s : Session κ} {w : σ} {log : List (Exchange κ)} {r : Except Panic (Report κ) × σ}
  {report : Report κ}

theorem course_ended {status : Status} (h : Course cfg est params env s (.ended status) w log r)
    (hr : r.1 = .ok report) : log = [] ∧ report = s.report status := by
  cases h
  exact ⟨rfl, (Except.ok.inj hr).symm⟩

/-- A call of a session that comes to an end and is not cancelled is answered. -/
theorem course_calling {stage : Stage κ}
    (h : Course cfg est params env s (.calling stage) w log r) (hr : r.1 = .ok report)
    (hc : report.status ≠ .cancelled) :
    ∃ answer w' rest, log = ⟨s, stage, .answered answer⟩ :: rest ∧
      Course cfg est params env (receive cfg est stage s answer).session
        (receive cfg est stage s answer).point w' rest r := by
  cases h with
  | refused hcancelled =>
    obtain rfl := Except.ok.inj hr
    exact absurd rfl hc
  | panicked hstands hcall => cases hr
  | answered s stage hstands hcall next => exact ⟨_, _, _, rfl, next⟩

/-- A fix ends the session over its ceiling, or it leads to the next iteration. -/
theorem course_fix {failure : String} {estimate : κ} {diagnosis : Diagnosis}
    (h : Course cfg est params env s (.calling (.fix failure estimate diagnosis)) w log r)
    (hr : r.1 = .ok report) (hc : report.status ≠ .cancelled) :
    ∃ (f : Exchange κ) (rest : List (Exchange κ)), f.session = s ∧
      f.stage = .fix failure estimate diagnosis ∧ log = f :: rest ∧
      if (f.paid cfg est).overspent then rest = [] ∧ report = ({ s with
        budget := f.paid cfg est } : Session κ).report .budgetExceeded
      else ∃ w', Course cfg est params env { s with budget := f.paid cfg est } .head w' rest r := by
  obtain ⟨answer, w', rest, rfl, hnext⟩ := course_calling h hr hc
  refine ⟨⟨s, .fix failure estimate diagnosis, .answered answer⟩, rest, rfl, rfl, rfl, ?_⟩
  have hpay : Exchange.paid cfg est ⟨s, .fix failure estimate diagnosis, .answered answer⟩
      = s.pay cfg est answer := rfl
  rw [hpay]
  obtain ⟨hpaid, ⟨hend, -⟩ | hend⟩ := fixed_cases s cfg est estimate answer
  · rw [receive, hend] at hnext
    obtain ⟨-, rfl⟩ := course_ended hnext hr
    exact absurd rfl hc
  · rw [receive, hend, hpaid] at hnext
    by_cases hover : (s.pay cfg est answer).overspent = true
    · rw [if_pos hover] at hnext ⊢
      exact course_ended hnext hr
    · rw [if_neg hover] at hnext ⊢
      exact ⟨w', hnext⟩

/-- So does a diagnosis with the fix after it. -/
theorem course_repair {failure : String} {estimate : κ}
    (h : Course cfg est params env s (.calling (.diagnose failure estimate)) w log r)
    (hr : r.1 = .ok report) (hc : report.status ≠ .cancelled) :
    ∃ (d f : Exchange κ) (rest : List (Exchange κ)),
      d.session = s ∧ d.stage = .diagnose failure estimate ∧
      (∃ diagnosis, f.stage = .fix failure estimate diagnosis) ∧ log = d :: f :: rest ∧
      if (f.paid cfg est).overspent then
        rest = [] ∧ report.status = .budgetExceeded ∧ report.iterations = s.iteration ∧
          report.verifications = s.verifications
      else ∃ s' w', Course cfg est params env s' .head w' rest r ∧
        s'.iteration = s.iteration ∧ s'.verifications = s.verifications ∧
        s'.signatures = if f.session.target != s.target then [] else s.signatures := by
  obtain ⟨answer, w₁, rest, rfl, hnext⟩ := course_calling h hr hc
  rcases diagnosed_cases s failure estimate answer with
    ⟨hp, -⟩ | ⟨diagnosis, target, signatures, hs, hp, htarget⟩
  · rw [receive, hp] at hnext
    obtain ⟨-, rfl⟩ := course_ended hnext hr
    exact absurd rfl hc
  · rw [receive, hp, hs] at hnext
    obtain ⟨f, rest', hf, hstage, rfl, hafter⟩ := course_fix hnext hr hc
    refine ⟨⟨s, _, _⟩, f, rest', rfl, rfl, ⟨diagnosis, hstage⟩, rfl, ?_⟩
    by_cases hover : (f.paid cfg est).overspent = true
    · rw [if_pos hover] at hafter ⊢
      obtain ⟨rfl, rfl⟩ := hafter
      exact ⟨rfl, rfl, rfl, rfl⟩
    · rw [if_neg hover] at hafter ⊢
      obtain ⟨w', hcourse⟩ := hafter
      refine ⟨_, w', hcourse, rfl, rfl, ?_⟩
      rw [hf]
      rcases htarget with ⟨rfl, rfl⟩ | ⟨hne, rfl⟩
      · simp
      · simp [hne]

/-- How often a failure has come in a row, by the history of the session. -/
def Session.repeats (s : Session κ) (failure : String) : Nat :=
  trailingRepeats (s.signatures ++ [failureSignature failure])

theorem course_verify (h : Course cfg est params env s .head w log r) (hr : r.1 = .ok report)
    (hc : report.status ≠ .cancelled) (hlt : s.iteration < cfg.maxIterations) :
    ∃ answer w' rest, log = ⟨s.begun, .verify, .answered answer⟩ :: rest ∧
      Course cfg est params env (s.begun.verified cfg est answer).session
        (s.begun.verified cfg est answer).point w' rest r := by
  cases h with
  | head s w next =>
    rcases passHead_cases cfg (env.isCancelled w) s with ⟨hle, -⟩ | ⟨-, -, hp⟩ | ⟨-, -, hp⟩
    · exact absurd hle (Nat.not_le.mpr hlt)
    · rw [hp] at next
      obtain ⟨-, rfl⟩ := course_ended next hr
      exact absurd rfl hc
    · rw [hp] at next
      exact course_calling next hr hc

/-- The iteration with nothing but a verification. -/
def Iteration.alone (s : Session κ) (answer : Answer κ) : Iteration κ :=
  ⟨⟨s, .verify, .answered answer⟩, none, rfl, by simp⟩

/-- The iteration that goes on to a repair. -/
def Iteration.repaired (s : Session κ) (answer : Answer κ) (d f : Exchange κ)
    (hd : ∃ failure estimate, d.stage = .diagnose failure estimate)
    (hf : ∃ failure estimate diagnosis, f.stage = .fix failure estimate diagnosis) : Iteration κ where
  verify := ⟨s, .verify, .answered answer⟩
  repair := some (d, f)
  verifies := rfl
  repairs _ _ h := by
    obtain ⟨rfl, rfl⟩ := Prod.mk.inj (Option.some.inj h)
    exact ⟨hd, hf⟩

/-- The tests before a fix look at the verification alone. -/
theorem judge_point_begun (hlt : s.iteration < cfg.maxIterations) (failure : String)
    (answer : Answer κ) :
    (s.begun.judge cfg est failure).point
      = match (Iteration.alone s.begun answer).refusal? cfg est (s.repeats failure)
          (s.iteration + 1) with
        | some status => .ended status
        | none => .calling (.diagnose failure (est.estimate (fixUnit cfg s.begun))) := by
  have hrepeating : isRepeating (s.begun.blame failure).signatures cfg.maxRepeat
      = decide (cfg.maxRepeat < s.repeats failure) := rfl
  have hlast : cfg.maxIterations ≤ s.begun.iteration ↔ s.iteration + 1 = cfg.maxIterations := by
    show cfg.maxIterations ≤ s.iteration + 1 ↔ _
    omega
  rw [judge_point, hrepeating]
  simp only [hlast, decide_eq_true_eq, Iteration.refusal?, Iteration.admitted, Iteration.alone]
  by_cases hloop : cfg.maxRepeat < s.repeats failure
  · simp [hloop]
  · by_cases hend : s.iteration + 1 = cfg.maxIterations
    · simp [hloop, hend]
    · by_cases hadmits : s.begun.budget.admits (est.estimate (fixUnit cfg s.begun)) = true
      · simp [hloop, hend, hadmits]
      · simp [hloop, hend, hadmits]

/-- What an iteration in which the verification failed leads to. -/
def After (cfg : Config κ) (est : Estimator κ) (params : Json) (env : Surroundings κ σ)
    (s : Session κ) (report : Report κ) (r : Except Panic (Report κ) × σ) (it : Iteration κ)
    (failure : String) (rest : List (Exchange κ)) : Prop :=
  match it.stop? cfg est (s.repeats failure) (s.iteration + 1) with
  | some status => rest = [] ∧ report.status = status ∧
      report.iterations = s.iteration + 1 ∧ report.verifications = s.verifications + 1
  | none => ∃ s' w', Course cfg est params env s' .head w' rest r ∧
      s'.iteration = s.iteration + 1 ∧ s'.verifications = s.verifications + 1 ∧
      s'.signatures = if it.retargets then [] else s.signatures ++ [failureSignature failure]

/-- A verification that fails ends the session by the tests before a fix, or a repair comes after it. -/
theorem course_failed (answer : Answer κ) {failure : String}
    (h : Course cfg est params env (s.begun.blame failure) (s.begun.judge cfg est failure).point w
      log r)
    (hr : r.1 = .ok report) (hc : report.status ≠ .cancelled) (hlt : s.iteration < cfg.maxIterations) :
    ∃ (it : Iteration κ) (rest : List (Exchange κ)),
      it.verify = ⟨s.begun, .verify, .answered answer⟩ ∧ it.verify :: log = it.calls ++ rest ∧
      (it.repair.isSome = true ↔
        it.refusal? cfg est (s.repeats failure) (s.iteration + 1) = none) ∧
      After cfg est params env s report r it failure rest := by
  rw [judge_point_begun hlt failure answer] at h
  cases hrefusal : (Iteration.alone s.begun answer).refusal? cfg est (s.repeats failure)
      (s.iteration + 1) with
  | some status =>
    rw [hrefusal] at h
    obtain ⟨rfl, rfl⟩ := course_ended h hr
    refine ⟨.alone s.begun answer, [], rfl, rfl, ?_, ?_⟩
    · rw [hrefusal]
      simp [Iteration.alone]
    · rw [After, Iteration.stop?, hrefusal]
      exact ⟨rfl, rfl, rfl, rfl⟩
  | none =>
    rw [hrefusal] at h
    obtain ⟨d, f, rest, hd, hdstage, ⟨diagnosis, hfstage⟩, rfl, hafter⟩ := course_repair h hr hc
    let it : Iteration κ :=
      .repaired s.begun answer d f ⟨_, _, hdstage⟩ ⟨_, _, diagnosis, hfstage⟩
    have hit : it.refusal? cfg est (s.repeats failure) (s.iteration + 1) = none := hrefusal
    have hrepair : it.repair.isSome = true := rfl
    have hover : it.overspent cfg est = (f.paid cfg est).overspent := rfl
    have htarget : it.retargets = (f.session.target != d.session.target) := rfl
    refine ⟨it, rest, rfl, rfl, iff_of_true hrepair hit, ?_⟩
    rw [After, Iteration.stop?, hit, hover]
    cases hpaid : (f.paid cfg est).overspent with
    | true =>
      rw [hpaid] at hafter
      exact hafter
    | false =>
      rw [hpaid] at hafter
      obtain ⟨s', w', hcourse, hi, hv, hsig⟩ := hafter
      refine ⟨s', w', hcourse, hi, hv, ?_⟩
      rw [hsig, htarget, hd]
      rfl

/-- An iteration passes and ends the session, or it fails; then its tests say whether the session goes on. -/
theorem course_iteration (h : Course cfg est params env s .head w log r) (hr : r.1 = .ok report)
    (hc : report.status ≠ .cancelled) (hlt : s.iteration < cfg.maxIterations) :
    ∃ (it : Iteration κ) (rest : List (Exchange κ)), it.verify.session = s.begun ∧
      log = it.calls ++ rest ∧
      ((it.passes ∧ it.repair = none ∧ rest = [] ∧ report.status = .success ∧
          report.iterations = s.iteration + 1 ∧ report.verifications = s.verifications + 1) ∨
        ∃ failure, it.failure? = some failure ∧
          (it.repair.isSome = true ↔
            it.refusal? cfg est (s.repeats failure) (s.iteration + 1) = none) ∧
          After cfg est params env s report r it failure rest) := by
  obtain ⟨answer, w', rest, rfl, hnext⟩ := course_verify h hr hc hlt
  rcases verified_cases s.begun cfg est answer with
    ⟨hv, hs, hp⟩ | ⟨-, hs, hp⟩ | ⟨failure, hv, hj⟩
  · rw [hs, hp] at hnext
    obtain ⟨rfl, rfl⟩ := course_ended hnext hr
    exact ⟨.alone s.begun answer, [], rfl, rfl,
      Or.inl ⟨⟨answer, rfl, hv⟩, rfl, rfl, rfl, rfl, rfl⟩⟩
  · rw [hs, hp] at hnext
    obtain ⟨-, rfl⟩ := course_ended hnext hr
    exact absurd rfl hc
  · rw [hj, judge_session] at hnext
    obtain ⟨it, rest', hverify, hcalls, hrepair, hafter⟩ :=
      course_failed answer hnext hr hc hlt
    rw [hverify] at hcalls
    refine ⟨it, rest', by rw [hverify], hcalls, Or.inr ⟨failure, ?_, hrepair, hafter⟩⟩
    simp [Iteration.failure?, hverify, hv]

end Calls

end Overseer.Healing
