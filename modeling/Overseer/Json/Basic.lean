import Overseer.Keyed

/-! # JSON values

A number is an integer or a double. The fields of an object are kept in the order of their keys, each
key once; `Json.object` builds such an object from any list of fields.
-/

namespace Overseer

inductive Number
  | int (value : Int)
  | float (value : Float)
  deriving Repr, DecidableEq, Inhabited

inductive Json
  | null
  | bool (value : Bool)
  | number (value : Number)
  | string (value : String)
  | array (items : List Json)
  | obj (fields : List (String × Json))
  deriving Repr, BEq, Inhabited

namespace Json

def int (n : Int) : Json := .number (.int n)

def nat (n : Nat) : Json := .number (.int n)

/-- A double that is not finite has no JSON number and becomes null. -/
def float (x : Float) : Json := if x.isFinite then .number (.float x) else .null

def object (fields : List (String × Json)) : Json := .obj (Keyed.ofList fields)

def strings (items : List String) : Json := .array (items.map .string)

def optional {α : Type} (f : α → Json) : Option α → Json
  | none => .null
  | some x => f x

/-- A field that is left out when it has no value. -/
def fieldWhen {α : Type} (key : String) (f : α → Json) : Option α → List (String × Json)
  | none => []
  | some x => [(key, f x)]

/-- The value of a key; anything but an object has none. -/
def get? (key : String) : Json → Option Json
  | .obj fields => Keyed.lookup key fields
  | _ => none

def asString? : Json → Option String
  | .string s => some s
  | _ => none

def asArray? : Json → Option (List Json)
  | .array items => some items
  | _ => none

def asObject? : Json → Option (List (String × Json))
  | .obj fields => some fields
  | _ => none

def isNull : Json → Bool
  | .null => true
  | _ => false

end Json

end Overseer
