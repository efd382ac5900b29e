import Overseer.Http.Basic
import Overseer.Text.Hex
import Overseer.Text.Split
import Overseer.Text.Utf8

/-! # Endpoints

A path is matched segment by segment. One segment of some paths is a parameter, which is not empty and is
percent-decoded; the others are compared as they were sent. A path that is known under another method
only is told apart from one that is not known at all.
-/

namespace Overseer.Http

inductive Endpoint
  | health
  | submit
  | tasks
  | task (raw : String)
  | trace (raw : String)
  | abort (raw : String)
  | queueStatus
  | pause
  | resume
  | purge
  | emergencyStop
  | events
  deriving Repr, DecidableEq

inductive Method
  | get
  | post
  deriving Repr, DecidableEq

/-- The path without the query. -/
def pathOf (target : String) : List Char := target.toList.takeWhile (· != '?')

/-- The segments after the first slash. -/
def segments (target : String) : Option (List (List Char)) :=
  match pathOf target with
  | '/' :: rest => some (Text.splitOn '/' rest)
  | _ => none

def percentDecode : List Char → List UInt8
  | [] => []
  | '%' :: a :: b :: rest =>
      match Text.hexDigit? a, Text.hexDigit? b with
      | some high, some low => UInt8.ofNat (high * 16 + low) :: percentDecode rest
      | _, _ => Text.encode ['%'] ++ percentDecode (a :: b :: rest)
  | c :: rest => Text.encode [c] ++ percentDecode rest

/-- A parameter, which has to be text when it is decoded. -/
def parameter? (segment : List Char) : Option String :=
  let bytes := percentDecode segment
  let text := Text.lossy bytes
  if Text.encode text = bytes then some (String.ofList text) else none

inductive Matched
  | endpoint (endpoint : Endpoint)
  /-- The parameter of the path cannot be read. -/
  | badParameter
  deriving Repr, DecidableEq

def withParameter (segment : List Char) (f : String → Endpoint) : Matched :=
  match parameter? segment with
  | some raw => .endpoint (f raw)
  | none => .badParameter

/-- What is found at a path, by method. -/
def matches? (path : List (List Char)) : List (Method × Matched) :=
  match path.map String.ofList, path with
  | ["health"], _ => [(.get, .endpoint .health)]
  | ["tasks"], _ => [(.get, .endpoint .tasks), (.post, .endpoint .submit)]
  | ["tasks", _], [_, id] => if id.isEmpty then [] else [(.get, withParameter id .task)]
  | ["tasks", _, "trace"], [_, id, _] =>
      if id.isEmpty then [] else [(.get, withParameter id .trace)]
  | ["tasks", _, "abort"], [_, id, _] =>
      if id.isEmpty then [] else [(.post, withParameter id .abort)]
  | ["queue", "status"], _ => [(.get, .endpoint .queueStatus)]
  | ["queue", "pause"], _ => [(.post, .endpoint .pause)]
  | ["queue", "resume"], _ => [(.post, .endpoint .resume)]
  | ["queue", "purge"], _ => [(.post, .endpoint .purge)]
  | ["queue", "emergency-stop"], _ => [(.post, .endpoint .emergencyStop)]
  | ["events"], _ => [(.get, .endpoint .events)]
  | _, _ => []

/-- A request for the head alone goes where the request for the whole would go. -/
def method? : String → Option Method
  | "GET" | "HEAD" => some .get
  | "POST" => some .post
  | _ => none

inductive Routed
  | found (endpoint : Endpoint)
  | refused (status : Nat)
  deriving Repr, DecidableEq

def route (request : Request) : Routed :=
  match (segments request.target).map matches? with
  | none | some [] => .refused 404
  | some entries =>
      match entries.find? fun entry => some entry.1 == method? request.method with
      | none => .refused 405
      | some (_, .badParameter) => .refused 400
      | some (_, .endpoint endpoint) => .found endpoint

end Overseer.Http
