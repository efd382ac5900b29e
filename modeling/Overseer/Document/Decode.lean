import Overseer.Document.Basic

/-! # Decoding records

A record is an object with the declared fields, other members being passed over, or an array of the
fields in their order. A declared field given twice is an error. A field with a default may be missing
in both forms; an optional field may be null, and may be missing in the first form only.
-/

namespace Overseer.Document

structure Record where
  positional : Bool
  fields : List (String × Document)

def valuesOf (name : String) (members : List (Option String × Document)) : List Document :=
  (members.filter fun m => m.1 == some name).map (·.2)

def record? (names : List String) : Document → Option Record
  | .object members =>
      if members.all (fun m => m.1.isSome)
          && names.all (fun name => decide ((valuesOf name members).length ≤ 1)) then
        some ⟨false, names.filterMap fun name =>
          (valuesOf name members).head?.map fun value => (name, value)⟩
      else none
  | .array exact items =>
      if exact && decide (names.length < items.length) then none
      else some ⟨true, names.zip items⟩
  | _ => none

variable {α : Type}

def Record.get? (r : Record) (name : String) : Option Document := Keyed.lookup name r.fields

def Record.required (r : Record) (name : String) (read : Document → Option α) : Option α :=
  (r.get? name).bind read

def Record.withDefault (r : Record) (name : String) (default : α) (read : Document → Option α) :
    Option α :=
  match r.get? name with
  | none => some default
  | some value => read value

/-- Null stands for no value. -/
def nullable? (read : Document → Option α) : Document → Option (Option α)
  | .null => some none
  | value => (read value).map some

def Record.optional (r : Record) (name : String) (read : Document → Option α) :
    Option (Option α) :=
  match r.get? name with
  | none => if r.positional then none else some none
  | some value => nullable? read value

def bool? : Document → Option Bool
  | .bool b => some b
  | _ => none

def string? : Document → Option String
  | .string s => some s
  | _ => none

def natUpTo? (greatest : Nat) : Document → Option Nat
  | .number (.int n) => if 0 ≤ n ∧ n ≤ greatest then some n.toNat else none
  | _ => none

def word32? : Document → Option Nat := natUpTo? (Nat.pow 2 32 - 1)

def word64? : Document → Option Nat := natUpTo? (Nat.pow 2 64 - 1)

def floatOfInt (n : Int) : Float :=
  let x := Float.ofScientific n.natAbs false 0
  if n < 0 then -x else x

/-- An integer of 64 bits, signed or not, stands for the nearest double. -/
def float? : Document → Option Float
  | .number (.float x) => some x
  | .number (.int n) =>
      if -(Nat.pow 2 63 : Int) ≤ n ∧ n < (Nat.pow 2 64 : Int) then some (floatOfInt n) else none
  | _ => none

def list? (read : Document → Option α) : Document → Option (List α)
  | .array _ items => items.mapM read
  | _ => none

def member? (read : Document → Option α) (member : Option String × Document) :
    Option (String × α) :=
  match member.1, read member.2 with
  | some key, some value => some (key, value)
  | _, _ => none

/-- A table from names to values, of which the last one given for a name counts. -/
def dictionary? (read : Document → Option α) : Document → Option (List (String × α))
  | .object members => (members.mapM (member? read)).map Keyed.ofList
  | _ => none

/-- The name of a variant that carries nothing: a string, or an object of that one key and null. -/
def variant? : Document → Option String
  | .string s => some s
  | .object [(some name, .null)] => some name
  | _ => none

end Overseer.Document
