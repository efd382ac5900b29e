import Overseer.Cost.Estimator
import Overseer.Healing.Report
import Overseer.Text.Blank

/-! # Configuration

A configuration has seven sections, and every field of it has a default. `validate` names the first thing
that is wrong with one.
-/

namespace Overseer

structure QueueSection where
  concurrencyLimit : Nat
  /-- Unlimited when unset. -/
  maxPending : Option Nat
  deriving Repr, DecidableEq

structure ExecutorSection where
  timeoutSecs : Nat
  deriving Repr, DecidableEq

structure HealingSection where
  maxIterations : Nat
  maxRepeat : Nat
  maxCost : Float
  iterationTimeoutSecs : Nat
  verify : String
  diagnose : String
  fix : String
  deriving Repr, BEq

structure WatchdogSection where
  intervalSecs : Nat
  stallTimeoutSecs : Nat
  deriving Repr, DecidableEq

structure NotifierSection where
  buffer : Nat
  deriving Repr, DecidableEq

structure CommandsSection where
  workdir : String
  outputLimit : Nat
  /-- The words of the command behind each capability. -/
  capabilities : List (String × List String)
  deriving Repr, DecidableEq

structure Config where
  queue : QueueSection
  executor : ExecutorSection
  healing : HealingSection
  watchdog : WatchdogSection
  notifier : NotifierSection
  commands : CommandsSection
  cost : PriceList
  deriving Repr, BEq

def QueueSection.standard : QueueSection := ⟨4, none⟩

def ExecutorSection.standard : ExecutorSection := ⟨300⟩

def HealingSection.standard : HealingSection :=
  ⟨3, 2, 1, 300, "run_checks", "diagnose", "generate_fix"⟩

def WatchdogSection.standard : WatchdogSection := ⟨5, 600⟩

def NotifierSection.standard : NotifierSection := ⟨256⟩

def CommandsSection.standard : CommandsSection := ⟨".", 100000, [("run_checks", ["just", "ci"])]⟩

def Config.standard : Config :=
  ⟨.standard, .standard, .standard, .standard, .standard, .standard, .empty⟩

inductive ConfigError
  | notPositive (field : String)
  | noLimit
  | badCost
  | emptyName (field : String)
  | shortStall (stall longest : Nat)
  | emptyCommand (capability : String)
  deriving Repr, DecidableEq

def ConfigError.message : ConfigError → String
  | .notPositive field => field ++ " must be > 0"
  | .noLimit => "queue.max_pending must be > 0 when set"
  | .badCost => "healing.max_cost must be a non-negative number"
  | .emptyName field => field ++ " must be non-empty"
  | .shortStall stall longest =>
      "watchdog.stall_timeout_secs (" ++ toString stall
        ++ ") must exceed the longest capability timeout (" ++ toString longest ++ ")"
  | .emptyCommand capability =>
      "commands.capabilities." ++ capability ++ " must be a non-empty array"

namespace Config

def longestCall (c : Config) : Nat := max c.executor.timeoutSecs c.healing.iterationTimeoutSecs

def isCommand : List String → Bool
  | [] => false
  | program :: _ => !Text.allBlank program

/-- The conditions on a configuration, in the order in which they are tested. A call that keeps silent
until its deadline must not count as stalled. -/
def conditions (c : Config) : List (Bool × ConfigError) :=
  [(c.queue.concurrencyLimit != 0, .notPositive "queue.concurrency_limit"),
   (c.queue.maxPending != some 0, .noLimit),
   (c.executor.timeoutSecs != 0, .notPositive "executor.timeout_secs"),
   (c.healing.maxIterations != 0, .notPositive "healing.max_iterations"),
   (c.healing.maxRepeat != 0, .notPositive "healing.max_repeat"),
   (c.healing.maxCost.isFinite && !decide (c.healing.maxCost < 0), .badCost),
   (c.healing.iterationTimeoutSecs != 0, .notPositive "healing.iteration_timeout_secs"),
   (!Text.allBlank c.healing.verify, .emptyName "healing.verify_capability"),
   (!Text.allBlank c.healing.diagnose, .emptyName "healing.diagnose_capability"),
   (!Text.allBlank c.healing.fix, .emptyName "healing.fix_capability"),
   (c.watchdog.intervalSecs != 0, .notPositive "watchdog.interval_secs"),
   (decide (c.longestCall < c.watchdog.stallTimeoutSecs),
    .shortStall c.watchdog.stallTimeoutSecs c.longestCall),
   (c.notifier.buffer != 0, .notPositive "notifier.buffer"),
   (c.commands.outputLimit != 0, .notPositive "commands.output_limit_bytes")]
  ++ c.commands.capabilities.map fun (name, argv) => (isCommand argv, .emptyCommand name)

def firstError? (c : Config) : Option ConfigError :=
  (c.conditions.find? fun condition => !condition.1).map (·.2)

def validate (c : Config) : Except ConfigError Unit :=
  match c.firstError? with
  | some e => .error e
  | none => .ok ()

def executorTimeout (c : Config) : Duration := .ofSecs c.executor.timeoutSecs

def healingConfig (c : Config) : Healing.Config Float :=
  ⟨c.healing.maxIterations, c.healing.maxRepeat, c.healing.maxCost,
    .ofSecs c.healing.iterationTimeoutSecs, c.healing.verify, c.healing.diagnose, c.healing.fix⟩

def watchdogInterval (c : Config) : Duration := .ofSecs c.watchdog.intervalSecs

def stallTimeout (c : Config) : Duration := .ofSecs c.watchdog.stallTimeoutSecs

end Config

end Overseer
