import Overseer.Config.Basic
import Overseer.Document.Decode

/-! # Reading a configuration from a document -/

namespace Overseer

open Document

def QueueSection.decode? (d : Document) : Option QueueSection := do
  let r ← d.record? ["concurrency_limit", "max_pending"]
  let limit ← r.withDefault "concurrency_limit" QueueSection.standard.concurrencyLimit word64?
  let maxPending ← r.withDefault "max_pending" none (nullable? word64?)
  some ⟨limit, maxPending⟩

def ExecutorSection.decode? (d : Document) : Option ExecutorSection := do
  let r ← d.record? ["timeout_secs"]
  let timeout ← r.withDefault "timeout_secs" ExecutorSection.standard.timeoutSecs word64?
  some ⟨timeout⟩

def HealingSection.decode? (d : Document) : Option HealingSection := do
  let standard := HealingSection.standard
  let r ← d.record? ["max_iterations", "max_repeat", "max_cost", "iteration_timeout_secs",
    "verify_capability", "diagnose_capability", "fix_capability"]
  let maxIterations ← r.withDefault "max_iterations" standard.maxIterations word32?
  let maxRepeat ← r.withDefault "max_repeat" standard.maxRepeat word32?
  let maxCost ← r.withDefault "max_cost" standard.maxCost float?
  let timeout ← r.withDefault "iteration_timeout_secs" standard.iterationTimeoutSecs word64?
  let verify ← r.withDefault "verify_capability" standard.verify string?
  let diagnose ← r.withDefault "diagnose_capability" standard.diagnose string?
  let fix ← r.withDefault "fix_capability" standard.fix string?
  some ⟨maxIterations, maxRepeat, maxCost, timeout, verify, diagnose, fix⟩

def WatchdogSection.decode? (d : Document) : Option WatchdogSection := do
  let standard := WatchdogSection.standard
  let r ← d.record? ["interval_secs", "stall_timeout_secs"]
  let interval ← r.withDefault "interval_secs" standard.intervalSecs word64?
  let stall ← r.withDefault "stall_timeout_secs" standard.stallTimeoutSecs word64?
  some ⟨interval, stall⟩

def NotifierSection.decode? (d : Document) : Option NotifierSection := do
  let r ← d.record? ["buffer"]
  let buffer ← r.withDefault "buffer" NotifierSection.standard.buffer word64?
  some ⟨buffer⟩

def CommandsSection.decode? (d : Document) : Option CommandsSection := do
  let standard := CommandsSection.standard
  let r ← d.record? ["workdir", "output_limit_bytes", "capabilities"]
  let workdir ← r.withDefault "workdir" standard.workdir string?
  let limit ← r.withDefault "output_limit_bytes" standard.outputLimit word64?
  let capabilities ← r.withDefault "capabilities" standard.capabilities
    (dictionary? (list? string?))
  some ⟨workdir, limit, capabilities⟩

def Config.decode? (d : Document) : Option Config := do
  let r ← d.record? ["queue", "executor", "healing", "watchdog", "notifier", "commands", "cost"]
  let queue ← r.withDefault "queue" .standard QueueSection.decode?
  let executor ← r.withDefault "executor" .standard ExecutorSection.decode?
  let healing ← r.withDefault "healing" .standard HealingSection.decode?
  let watchdog ← r.withDefault "watchdog" .standard WatchdogSection.decode?
  let notifier ← r.withDefault "notifier" .standard NotifierSection.decode?
  let commands ← r.withDefault "commands" .standard CommandsSection.decode?
  let cost ← r.withDefault "cost" .empty PriceList.decode?
  some ⟨queue, executor, healing, watchdog, notifier, commands, cost⟩

end Overseer
