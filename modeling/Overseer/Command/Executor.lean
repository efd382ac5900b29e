import Overseer.Capability.Basic
import Overseer.Command.Host
import Overseer.Config.Basic
import Overseer.Keyed
import Overseer.Text.Cut

/-! # Commands as capabilities

Each capability is a command. Of the params of an invocation, the texts among `args` are appended to the
words, `stdin` or else `prompt` is the input, and `target_file` is put into the environment. The exit code
decides whether the work succeeded.
-/

namespace Overseer.Command

structure Executor where
  directory : String
  limits : Limits
  /-- The words behind each capability, by name. -/
  commands : List (String × List String)
  deriving Repr, DecidableEq

namespace Executor

def defaultTimeout : Duration := .ofSecs 1800

def targetVariable : String := "CONDUCTOR_TARGET_FILE"

def ofSection (s : CommandsSection) : Executor :=
  ⟨s.workdir, ⟨defaultTimeout, s.outputLimit⟩, s.capabilities⟩

def withTimeout (e : Executor) (timeout : Duration) : Executor :=
  { e with limits := { e.limits with timeout := timeout } }

def withCommand (e : Executor) (name : String) (words : List String) : Executor :=
  { e with commands := Keyed.insert name words e.commands }

def names (e : Executor) : List String := e.commands.map (·.1)

/-- A command without words is none. -/
def words? (e : Executor) (name : String) : Option (List String) :=
  (Keyed.lookup name e.commands).filter fun words => !words.isEmpty

def extraWords (params : Json) : List String :=
  (((params.get? "args").bind Json.asArray?).getD []).filterMap Json.asString?

def environment (params : Json) : List (String × String) :=
  (((params.get? "target_file").bind Json.asString?).toList).map fun target => (targetVariable, target)

def line (e : Executor) (words : List String) (params : Json) : CommandLine :=
  ⟨words ++ extraWords params, environment params, e.directory⟩

/-- A field `stdin` that is no text hides the prompt all the same. -/
def input (params : Json) : Option (List UInt8) :=
  (((params.get? "stdin").or (params.get? "prompt")).bind Json.asString?).map fun text =>
    Text.encode text.toList

/-- How many bytes of an output go into a failure, counted from its end. -/
def tailLimit : Nat := 4000

/-- The end of the errors, or of the output when there are no errors. -/
def failureText (status : Status) (output errors : String) : String :=
  let body := if Text.allBlank errors then output else errors
  let tail := String.ofList (Text.tailWithin tailLimit (Text.strip body.toList))
  match status with
  | .exited code => "exit code " ++ toString code ++ ": " ++ tail
  | .killed => "terminated by signal: " ++ tail

variable {κ : Type}

def result (ended : Ended) : Output κ :=
  let output := ended.output.text "stdout"
  let errors := ended.errors.text "stderr"
  let ok := ended.status == .exited 0
  ⟨ok,
   .object [("exit_code", .optional .nat ended.status.code?), ("stdout", .string output),
     ("stderr", .string errors)],
   if ok then none else some (failureText ended.status output errors), none⟩

def answer (e : Executor) : Except RunError Ended → Answer κ
  | .error err => .error (.failed err.message)
  | .ok ended =>
      match ended.stop with
      | some .cancelled => .error .cancelled
      | some .timedOut => .error (.timedOut e.limits.timeout)
      | none => .ok (result ended)

def invoke (e : Executor) (host : Host) (i : Invocation) (cancelled : Bool) : Answer κ :=
  match e.words? i.name with
  | none => .error (.unavailable i.name)
  | some words =>
      e.answer (host.run (e.line words i.params) (input i.params) e.limits cancelled)

end Executor

end Overseer.Command
