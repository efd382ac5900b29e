import Overseer.Json.Basic

/-! # Documents as they are read

A document keeps what a text says before a type is asked of it: the members of an object in their
order and with repeated keys, and a value that can be passed over but not read. Every format is first
read into a document, and every record is decoded from one.
-/

namespace Overseer

inductive Document
  | null
  | bool (value : Bool)
  | number (value : Number)
  | string (value : String)
  /-- `exact` asks that a reader takes every item. -/
  | array (exact : Bool) (items : List Document)
  /-- A key that cannot be read is none. -/
  | object (members : List (Option String × Document))
  | unreadable
  deriving Repr, Inhabited

namespace Document

mutual

def ofJson : Json → Document
  | .null => .null
  | .bool b => .bool b
  | .number n => .number n
  | .string s => .string s
  | .array items => .array true (ofItems items)
  | .obj fields => .object (ofFields fields)

def ofItems : List Json → List Document
  | [] => []
  | item :: rest => ofJson item :: ofItems rest

def ofFields : List (String × Json) → List (Option String × Document)
  | [] => []
  | (key, value) :: rest => (some key, ofJson value) :: ofFields rest

end

mutual

/-- The value of a document, if all of it can be read. Of repeated keys the last one counts. -/
def toJson? : Document → Option Json
  | .null => some .null
  | .bool b => some (.bool b)
  | .number n => some (.number n)
  | .string s => some (.string s)
  | .array _ items => (itemsToJson? items).map .array
  | .object members => (membersToJson? members).map Json.object
  | .unreadable => none

def itemsToJson? : List Document → Option (List Json)
  | [] => some []
  | item :: rest =>
      match toJson? item, itemsToJson? rest with
      | some v, some vs => some (v :: vs)
      | _, _ => none

def membersToJson? : List (Option String × Document) → Option (List (String × Json))
  | [] => some []
  | (key, value) :: rest =>
      match key, toJson? value, membersToJson? rest with
      | some k, some v, some vs => some ((k, v) :: vs)
      | _, _, _ => none

end

end Document

end Overseer
