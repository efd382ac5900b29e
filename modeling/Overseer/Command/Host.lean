import Overseer.Command.Child

/-! # Running a command on a host

A host starts programs. What a program does is settled by its words, its environment and all of its input.
-/

namespace Overseer.Command

structure CommandLine where
  /-- The program and its arguments. -/
  words : List String
  environment : List (String × String)
  directory : String
  deriving Repr, DecidableEq

inductive RunError
  /-- The program could not be started. -/
  | notStarted (cause : String)
  /-- The child stopped reading its input. -/
  | inputRefused
  /-- The run can never come to an end. -/
  | stuck
  deriving Repr, DecidableEq

def RunError.message : RunError → String
  | .notStarted cause => "spawn command: " ++ cause
  | .inputRefused => "write stdin: Broken pipe (os error 32)"
  | .stuck => "wait for command"

/-- Programs that can be started, or the reason why one cannot. -/
abbrev Host := CommandLine → Except String (List UInt8 → Child)

structure Limits where
  timeout : Duration
  /-- How many bytes of each stream are kept. -/
  output : Nat
  deriving Repr, DecidableEq

structure Ended where
  status : Status
  stop : Option Stop
  output : Capture
  errors : Capture
  deriving Repr, DecidableEq

def Run.ended? (r : Run) : Option Ended :=
  match r.stage, r.status with
  | .finished stop, some status => some ⟨status, stop, r.capturedOutput, r.capturedErrors⟩
  | _, _ => none

def ending (r : Run) : Except RunError Ended :=
  match r.stage, r.ended? with
  | .refused, _ => .error .inputRefused
  | _, some ended => .ok ended
  | _, none => .error .stuck

def Host.run (host : Host) (line : CommandLine) (input : Option (List UInt8)) (limits : Limits)
    (cancelled : Bool) : Except RunError Ended :=
  match host line with
  | .error cause => .error (.notStarted cause)
  | .ok program =>
      let bytes := input.getD []
      let child := program bytes
      let run := Run.start input limits.timeout limits.output cancelled
      ending (proceed (stepBound child run bytes.length) child run)

end Overseer.Command
