import Overseer.Json.Reader

/-! # The body of a submission

A submission is a JSON text with a field `payload`, or an array of the payload alone. It is read from
front to back and the first fault decides: a fault of the text makes it malformed, and a text that goes on
well but does not have this form is mistyped. What is not asked for is passed over.
-/

namespace Overseer.Http

inductive BodyError
  | malformed
  | mistyped
  deriving Repr, DecidableEq

def BodyError.status : BodyError → Nat
  | .malformed => 400
  | .mistyped => 422

namespace Submission

open Json (Token)

/-- A container more is around the payload. -/
def payloadRoom : Nat := Json.deepest - 1

/-- Nothing may follow. -/
def close (payload : Json) : List Token → Except BodyError Json
  | [] => .ok payload
  | _ => .error .malformed

def readValue (tokens : List Token) : Except BodyError (Json × List Token) :=
  match Json.next? payloadRoom tokens with
  | none => .error .malformed
  | some (d, rest) =>
      match d.toJson? with
      | none => .error .malformed
      | some value => .ok (value, rest)

/-- What is passed over may lie as deep as it likes. -/
def skipValue (tokens : List Token) : Except BodyError (List Token) :=
  match Json.next? tokens.length tokens with
  | none => .error .malformed
  | some (_, rest) => .ok rest

def finish (payload : Option Json) (rest : List Token) : Except BodyError Json :=
  match payload with
  | none => .error .mistyped
  | some value => close value rest

/-- The value of a field whose key has been read. -/
def readField (key : String) (payload : Option Json) (tokens : List Token) :
    Except BodyError (Option Json × List Token) :=
  if key = "payload" then
    if payload.isSome then .error .mistyped
    else match tokens with
      | .colon :: rest =>
          match readValue rest with
          | .error e => .error e
          | .ok (value, rest) => .ok (some value, rest)
      | _ => .error .malformed
  else match tokens with
    | .colon :: rest =>
        match skipValue rest with
        | .error e => .error e
        | .ok rest => .ok (payload, rest)
    | _ => .error .malformed

/-- The fields of an object, one at least. -/
def readFields : Nat → Option Json → List Token → Except BodyError Json
  | n + 1, payload, .string (some key) :: rest =>
      match readField key payload rest with
      | .error e => .error e
      | .ok (payload, .comma :: rest) => readFields n payload rest
      | .ok (payload, .closeObject :: rest) => finish payload rest
      | .ok _ => .error .malformed
  | _, _, _ => .error .malformed

def readTokens : List Token → Except BodyError Json
  | .openObject :: .closeObject :: rest => finish none rest
  | .openObject :: rest => readFields (rest.length + 1) none rest
  | .openArray :: .closeArray :: _ => .error .mistyped
  | .openArray :: rest =>
      match readValue rest with
      | .error e => .error e
      | .ok (value, .closeArray :: rest) => close value rest
      | .ok _ => .error .malformed
  | .null :: _ | .bool _ :: _ | .number (some _) :: _ | .string (some _) :: _ => .error .mistyped
  | _ => .error .malformed

def read (body : String) : Except BodyError Json := readTokens (Json.tokens body.toList)

end Submission

end Overseer.Http
