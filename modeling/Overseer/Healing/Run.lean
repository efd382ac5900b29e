import Overseer.Capability.Call
import Overseer.Healing.Session

/-! # Running a healing session

A session is run in surroundings: something that can say whether the work has been cancelled, that keeps
the steps of the trace and that answers calls. The number of points is bounded by four for each iteration
and two at the end.
-/

namespace Overseer.Healing

structure Surroundings (κ σ : Type) where
  isCancelled : σ → Bool
  record : Step → σ → σ
  /-- A bounded call, to its end. -/
  call : Invocation → σ → Ending κ × σ

variable {κ σ : Type}

def Surroundings.recordAll (env : Surroundings κ σ) (steps : List Step) (w : σ) : σ :=
  steps.foldl (fun w step => env.record step w) w

variable [Cost κ]

def follow (cfg : Config κ) (est : Estimator κ) (params : Json) (env : Surroundings κ σ) :
    Nat → Session κ → Point κ → σ → Except Panic (Report κ) × σ
  | 0, s, _, w => (.ok (s.report .iterationsExhausted), w)
  | n + 1, s, point, w =>
      match point with
      | .ended status => (.ok (s.report status), w)
      | .head =>
          let p := passHead cfg (env.isCancelled w) s
          follow cfg est params env n p.session p.point (env.recordAll p.steps w)
      | .calling stage =>
          if env.isCancelled w then
            let p := s.stopCancelled
            follow cfg est params env n p.session p.point (env.recordAll p.steps w)
          else
            match env.call (stage.invocation cfg params s) w with
            | (.panicked panic, w) => (.error panic, w)
            | (.answered answer, w) =>
                let p := receive cfg est stage s answer
                follow cfg est params env n p.session p.point (env.recordAll p.steps w)

def pointBound (cfg : Config κ) : Nat := 4 * cfg.maxIterations + 2

/-- A whole session on a target, with its report. -/
def run (cfg : Config κ) (est : Estimator κ) (params : Json) (env : Surroundings κ σ)
    (target : String) (w : σ) : Except Panic (Report κ) × σ :=
  follow cfg est params env (pointBound cfg) (.start cfg target) .head w

end Overseer.Healing
