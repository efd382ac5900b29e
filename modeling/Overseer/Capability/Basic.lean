import Overseer.Document.Decode
import Overseer.Cost.Basic
import Overseer.Duration
import Overseer.Text.Blank
import Overseer.Json.Printer

/-! # Capabilities

A capability is called by name with params. A call that runs to its end gives an output, which can say
that the work failed; a call can also not come to an output at all.
-/

namespace Overseer

structure Invocation where
  name : String
  params : Json
  deriving Repr

def Invocation.toJson (i : Invocation) : Json :=
  .object [("name", .string i.name), ("params", i.params)]

def Invocation.decode? (d : Document) : Option Invocation := do
  let r ← d.record? ["name", "params"]
  let name ← r.required "name" Document.string?
  let params ← r.required "params" Document.toJson?
  some ⟨name, params⟩

/-- `ok = false` is a failure of the work, such as checks that did not pass. -/
structure Output (κ : Type) where
  ok : Bool
  output : Json
  error : Option String
  /-- What the work cost, when the capability knows it. -/
  cost : Option κ
  deriving Repr

namespace Output

variable {κ : Type}

def success (output : Json) : Output κ := ⟨true, output, none, none⟩

def failure (error : String) : Output κ := ⟨false, .null, some error, none⟩

/-- The best description of a failure at hand: the error unless it is blank, else the output. -/
def failureDetail (o : Output κ) : String :=
  match o.error.filter fun e => !Text.allBlank e with
  | some error => error
  | none =>
      match o.output with
      | .null => "capability reported failure without detail"
      | .string text => text
      | other => other.compact

def toJson [Cost κ] (o : Output κ) : Json :=
  .object ([("ok", .bool o.ok), ("output", o.output)] ++ Json.fieldWhen "error" .string o.error
    ++ Json.fieldWhen "cost" Cost.toJson o.cost)

def decode? (d : Document) : Option (Output Float) := do
  let r ← d.record? ["ok", "output", "error", "cost"]
  let ok ← r.required "ok" Document.bool?
  let output ← r.withDefault "output" .null Document.toJson?
  let error ← r.withDefault "error" none (Document.nullable? Document.string?)
  let cost ← r.withDefault "cost" none (Document.nullable? Document.float?)
  some ⟨ok, output, error, cost⟩

end Output

inductive CapabilityError
  | unavailable (name : String)
  | timedOut (limit : Duration)
  | cancelled
  | failed (cause : String)
  deriving Repr, DecidableEq

def CapabilityError.kind : CapabilityError → String
  | .unavailable _ => "unavailable"
  | .timedOut _ => "timed_out"
  | .cancelled => "cancelled"
  | .failed _ => "failed"

def CapabilityError.message : CapabilityError → String
  | .unavailable name => "capability '" ++ name ++ "' is not available"
  | .timedOut limit => "capability timed out after " ++ limit.text
  | .cancelled => "capability call cancelled"
  | .failed cause => "capability failed: " ++ cause

abbrev Answer (κ : Type) := Except CapabilityError (Output κ)

/-- What a call that breaks down leaves behind: a text, or something that is none. -/
inductive Panic
  | text (message : String)
  | other
  deriving Repr, DecidableEq

def Panic.message : Panic → String
  | .text message => message
  | .other => "worker panicked"

end Overseer
