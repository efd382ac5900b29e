import Overseer.Json.Lexer
import Overseer.Document.Basic

/-! # Reading JSON tokens

The reader goes over the tokens once and keeps the containers that are open, the innermost first. A
container inside 127 others closes without a value. `next?` reads one value and leaves the tokens after
it; a text is one value and nothing else.
-/

namespace Overseer.Json

inductive Frame
  /-- The items read, the last one first. -/
  | array (items : List Document)
  /-- The members read, the last one first, and the key whose value is under way. -/
  | object (members : List (Option String × Document)) (key : Option String)
  deriving Repr

/-- What may come next. -/
inductive Expect
  | value
  | valueOrEnd
  | key
  | keyOrEnd
  | colon
  | commaOrEnd
  deriving Repr, DecidableEq

/-- `room` is how many containers may lie inside each other. -/
structure Reading where
  room : Nat
  frames : List Frame
  expect : Expect
  deriving Repr

def deepest : Nat := 127

/-- What one token makes of the open containers. -/
inductive Outcome
  | continue (frames : List Frame) (expect : Expect)
  | complete (value : Document)
  | refuse
  deriving Repr

/-- A value is complete: it ends the reading, or it goes into the innermost open container. -/
def place (value : Document) : List Frame → Outcome
  | [] => .complete value
  | .array items :: outer => .continue (.array (value :: items) :: outer) .commaOrEnd
  | .object members key :: outer =>
      .continue (.object ((key, value) :: members) none :: outer) .commaOrEnd

def closed (room : Nat) (frame : Frame) (outer : List Frame) : Document :=
  if room ≤ outer.length then .unreadable
  else match frame with
    | .array items => .array true items.reverse
    | .object members _ => .object members.reverse

def startValue (frames : List Frame) : Token → Outcome
  | .null => place .null frames
  | .bool b => place (.bool b) frames
  | .number (some n) => place (.number n) frames
  | .string (some s) => place (.string s) frames
  | .number none | .string none => place .unreadable frames
  | .openArray => .continue (.array [] :: frames) .valueOrEnd
  | .openObject => .continue (.object [] none :: frames) .keyOrEnd
  | _ => .refuse

def startKey (frames : List Frame) : Token → Outcome
  | .string key =>
      match frames with
      | .object members _ :: outer => .continue (.object members key :: outer) .colon
      | _ => .refuse
  | _ => .refuse

def Reading.next (r : Reading) (token : Token) : Outcome :=
  match r.expect with
  | .value => startValue r.frames token
  | .key => startKey r.frames token
  | .colon => if token = .colon then .continue r.frames .value else .refuse
  | .valueOrEnd =>
      match r.frames, token with
      | frame :: outer, .closeArray => place (closed r.room frame outer) outer
      | frames, token => startValue frames token
  | .keyOrEnd =>
      match r.frames, token with
      | frame :: outer, .closeObject => place (closed r.room frame outer) outer
      | frames, token => startKey frames token
  | .commaOrEnd =>
      match r.frames, token with
      | .array items :: outer, .closeArray => place (closed r.room (.array items) outer) outer
      | .array items :: outer, .comma => .continue (.array items :: outer) .value
      | .object members key :: outer, .closeObject =>
          place (closed r.room (.object members key) outer) outer
      | .object members key :: outer, .comma => .continue (.object members key :: outer) .key
      | _, _ => .refuse

def Reading.run (r : Reading) : List Token → Option (Document × List Token)
  | [] => none
  | token :: rest =>
      match r.next token with
      | .continue frames expect => Reading.run ⟨r.room, frames, expect⟩ rest
      | .complete value => some (value, rest)
      | .refuse => none

/-- The first value of the tokens and what follows it. -/
def next? (room : Nat) (tokens : List Token) : Option (Document × List Token) :=
  Reading.run ⟨room, [], .value⟩ tokens

def document? (text : String) : Option Document :=
  match next? deepest (tokens text.toList) with
  | some (value, []) => some value
  | _ => none

def parse? (text : String) : Option Json := (document? text).bind Document.toJson?

end Overseer.Json
