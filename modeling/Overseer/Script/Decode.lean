import Overseer.Script.Executor

/-! # Reading scripts -/

namespace Overseer.Script

def field (o : Json) (key : String) : Option Json := (o.get? key).filter fun v => !v.isNull

def text (o : Json) (key : String) : Option String := (field o key).bind Json.asString?

def isSet (o : Json) (key : String) : Bool :=
  match o.get? key with
  | some (.bool b) => b
  | _ => false

def number (o : Json) (key : String) : Nat :=
  match field o key with
  | some (.number (.int n)) => n.toNat
  | _ => 0

variable {κ : Type}

/-- An output; `cost` reads a cost. -/
def output (cost : Json → Option κ) (o : Json) : Output κ :=
  ⟨isSet o "ok", (o.get? "output").getD .null, text o "error", (field o "cost").bind cost⟩

def error (kind : String) (o : Json) : CapabilityError :=
  let arg := (text o "arg").getD ""
  match kind with
  | "unavailable" => .unavailable arg
  | "timed_out" => .timedOut (.ofMicros (number o "us"))
  | "cancelled" => .cancelled
  | _ => .failed arg

/-- A reply that cancels nothing. -/
def plainReply (cost : Json → Option κ) (o : Json) : Reply κ :=
  if let some kind := text o "err" then .answer (.error (error kind o))
  else if isSet o "hang" then .hang
  else if let some gate := text o "gate" then .gated gate (output cost o)
  else if (field o "stuck_ms").isSome then .answer (.ok (.success .null))
  else if let some message := (text o "panic").or (text o "panic_str") then .panic (.text message)
  else if isSet o "panic_other" then .panic .other
  else .answer (.ok (output cost o))

/-- At most `depth` replies can be inside each other. -/
def reply (cost : Json → Option κ) : Nat → Json → Reply κ
  | 0, o => plainReply cost o
  | depth + 1, o =>
      match field o "cancel_then" with
      | some inner => .cancelThen (reply cost depth inner)
      | none => plainReply cost o

def deepest : Nat := 127

def replies (cost : Json → Option κ) (v : Json) : List (Reply κ) :=
  (v.asArray?.getD []).map (reply cost deepest)

def members (o : Json) (key : String) : List (String × Json) :=
  ((field o key).bind Json.asObject?).getD []

def executor (cost : Json → Option κ) (freshGate : Gate) (o : Json) : Executor κ :=
  .new ((members o "then").map fun (name, v) => (name, replies cost v))
    ((members o "always").map fun (name, v) => (name, reply cost deepest v)) freshGate

end Overseer.Script
