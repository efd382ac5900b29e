import Overseer.Config.Decode
import Overseer.Text.Utf8
import Overseer.Toml.Printer
import Overseer.Toml.Reader

/-! # Configuration files

What a file says has to be valid.
-/

namespace Overseer.Config

inductive LoadError
  | unreadable (cause : String)
  | malformed
  | invalid (cause : ConfigError)
  deriving Repr, DecidableEq

def strings (words : List String) : Document := .array false (words.map .string)

def nat (n : Nat) : Document := .number (.int n)

def float (x : Float) : Document := .number (.float x)

def sections (c : Config) : List Toml.Section :=
  [⟨["queue"], ("concurrency_limit", nat c.queue.concurrencyLimit)
      :: (c.queue.maxPending.toList.map fun n => ("max_pending", nat n))⟩,
   ⟨["executor"], [("timeout_secs", nat c.executor.timeoutSecs)]⟩,
   ⟨["healing"], [("max_iterations", nat c.healing.maxIterations),
      ("max_repeat", nat c.healing.maxRepeat), ("max_cost", float c.healing.maxCost),
      ("iteration_timeout_secs", nat c.healing.iterationTimeoutSecs),
      ("verify_capability", .string c.healing.verify),
      ("diagnose_capability", .string c.healing.diagnose),
      ("fix_capability", .string c.healing.fix)]⟩,
   ⟨["watchdog"], [("interval_secs", nat c.watchdog.intervalSecs),
      ("stall_timeout_secs", nat c.watchdog.stallTimeoutSecs)]⟩,
   ⟨["notifier"], [("buffer", nat c.notifier.buffer)]⟩,
   ⟨["commands"], [("workdir", .string c.commands.workdir),
      ("output_limit_bytes", nat c.commands.outputLimit)]⟩,
   ⟨["commands", "capabilities"],
      c.commands.capabilities.map fun (name, argv) => (name, strings argv)⟩,
   ⟨["cost"], [("default", float c.cost.default)]⟩,
   ⟨["cost", "per_capability"],
      c.cost.perCapability.map fun (name, price) => (name, float price)⟩]

def text (c : Config) : String := Toml.write c.sections

/-- What goes into a file. -/
def fileText (c : Config) : String := c.text ++ "\n"

def ofText? (text : String) : Option Config := (Toml.document? text).bind decode?

def ofFileText (text : String) : Except LoadError Config :=
  match ofText? text with
  | none => .error .malformed
  | some c =>
      match c.validate with
      | .error e => .error (.invalid e)
      | .ok () => .ok c

def decodeUtf8? (bytes : List UInt8) : Option String :=
  let text := Text.lossy bytes
  if Text.encode text = bytes then some (String.ofList text) else none

def ofBytes (bytes : List UInt8) : Except LoadError Config :=
  match decodeUtf8? bytes with
  | none => .error (.unreadable "stream did not contain valid UTF-8")
  | some text => ofFileText text

end Overseer.Config
