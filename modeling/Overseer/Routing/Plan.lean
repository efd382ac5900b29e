import Overseer.Routing.Intent

/-! # Routing a payload

A table sends each intent to one capability or to a healing session. A plan is what a payload comes to
under a table. Of a payload only `intent`, `params` and `target_file` are looked at.
-/

namespace Overseer

inductive Route
  /-- One call of a capability with the params of the payload. -/
  | direct (capability : String)
  /-- A healing session on the target of the payload. -/
  | healing
  deriving Repr, DecidableEq, Inhabited

def Route.describe : Route → String
  | .direct capability => "route to direct capability call: " ++ capability
  | .healing => "route to code-fix healing loop"

inductive RouteError
  | invalidPayload
  | missingIntent
  | unknownIntent (raw : String)
  | unrouted (intent : Intent)
  | missingTarget (intent : Intent)
  deriving Repr, DecidableEq

def RouteError.kind : RouteError → String
  | .invalidPayload => "invalid_payload"
  | .missingIntent => "missing_intent"
  | .unknownIntent _ => "unknown_intent"
  | .unrouted _ => "unrouted"
  | .missingTarget _ => "missing_target"

def RouteError.message : RouteError → String
  | .invalidPayload => "payload must be a JSON object"
  | .missingIntent => "payload is missing an `intent` field"
  | .unknownIntent raw => "unknown intent '" ++ raw ++ "'"
  | .unrouted intent => "no route registered for intent '" ++ intent.name ++ "'"
  | .missingTarget intent => "intent '" ++ intent.name ++ "' requires a `target_file`"

/-- The rows of a table, the one that counts for an intent first. -/
abbrev RoutingTable := List (Intent × Route)

namespace RoutingTable

/-- Of two rows for an intent the later one counts. -/
def ofRows (rows : List (Intent × Route)) : RoutingTable := rows.reverse

def standard : RoutingTable :=
  ofRows [(.generate, .direct "llm.generate"), (.git, .direct "git"), (.browse, .direct "browser"),
    (.fileEdit, .direct "file.edit"), (.codeFix, .healing)]

def route? (table : RoutingTable) (intent : Intent) : Option Route :=
  (table.find? fun row => row.1 == intent).map (·.2)

end RoutingTable

structure Plan where
  intent : Intent
  route : Route
  params : Json
  target : Option String
  deriving Repr

def resolveIntent (payload : Json) : Except RouteError Intent :=
  match payload with
  | .obj _ =>
      match (payload.get? "intent").bind Json.asString? with
      | none => .error .missingIntent
      | some raw =>
          match Intent.parse? raw with
          | none => .error (.unknownIntent raw)
          | some intent => .ok intent
  | _ => .error .invalidPayload

/-- The params to pass on: an empty object when there are none or null is given. -/
def payloadParams (payload : Json) : Json :=
  match payload.get? "params" with
  | none | some .null => .obj []
  | some params => params

def payloadTarget (payload : Json) : Option String :=
  ((payload.get? "target_file").bind Json.asString?).bind Text.trimmed?

def plan (payload : Json) (table : RoutingTable) : Except RouteError Plan :=
  match resolveIntent payload with
  | .error e => .error e
  | .ok intent =>
      match table.route? intent with
      | none => .error (.unrouted intent)
      | some route =>
          let target := payloadTarget payload
          if route = .healing ∧ target = none then .error (.missingTarget intent)
          else .ok ⟨intent, route, payloadParams payload, target⟩

end Overseer
