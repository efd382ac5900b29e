import Overseer.Document.Basic

/-! # Tables under construction

A table comes about in one of three ways: by a header of its own, as a table that a longer header or path
passes through, or by a dotted key. What is written in one way cannot be reopened in another: a header
opens a table that was only passed through, and a dotted key goes on with tables that dotted keys have
made. Values and finished inline tables are closed.
-/

namespace Overseer.Toml

inductive Origin
  | header
  | passed
  | dotted
  deriving Repr, DecidableEq

inductive Node
  | value (value : Document)
  | table (origin : Origin) (members : List (String × Node))
  /-- An array of tables, the last one first. -/
  | tables (items : List (List (String × Node)))
  deriving Repr, Inhabited

abbrev Members := List (String × Node)

def find (key : String) (members : Members) : Option Node :=
  (members.find? fun entry => entry.1 == key).map (·.2)

def replace (key : String) (node : Node) (members : Members) : Members :=
  members.map fun entry => if entry.1 = key then (key, node) else entry

/-- Adds a value under a key that may be dotted. -/
def define (value : Document) : List String → Members → Option Members
  | [], _ => none
  | [key], members =>
      match find key members with
      | none => some (members ++ [(key, .value value)])
      | some _ => none
  | key :: path, members =>
      match find key members with
      | none =>
          (define value path []).map fun sub => members ++ [(key, .table .dotted sub)]
      | some (.table origin sub) =>
          if origin = .header ∨ (path.length = 1 ∧ origin ≠ .dotted) then none
          else (define value path sub).map fun sub => replace key (.table origin sub) members
      | some (.tables (last :: others)) =>
          if path.length = 1 then none
          else (define value path last).map fun last =>
            replace key (.tables (last :: others)) members
      | some _ => none

/-- Opens something at a path; what the path passes through is made where it is missing. -/
def openAt (here : String → Members → Option Members) : List String → Members → Option Members
  | [], _ => none
  | [key], members => here key members
  | key :: path, members =>
      match find key members with
      | none => (openAt here path []).map fun sub => members ++ [(key, .table .passed sub)]
      | some (.table origin sub) =>
          (openAt here path sub).map fun sub => replace key (.table origin sub) members
      | some (.tables (last :: others)) =>
          (openAt here path last).map fun last =>
            replace key (.tables (last :: others)) members
      | some _ => none

def openTable (key : String) (members : Members) : Option Members :=
  match find key members with
  | none => some (members ++ [(key, .table .header [])])
  | some (.table .passed sub) => some (replace key (.table .header sub) members)
  | some _ => none

def openItem (key : String) (members : Members) : Option Members :=
  match find key members with
  | none => some (members ++ [(key, .tables [[]])])
  | some (.tables items) => some (replace key (.tables ([] :: items)) members)
  | some _ => none

/-- Changes the table at a path. -/
def within (change : Members → Option Members) : List String → Members → Option Members
  | [], members => change members
  | key :: path, members =>
      match find key members with
      | some (.table origin sub) =>
          (within change path sub).map fun sub => replace key (.table origin sub) members
      | some (.tables (last :: others)) =>
          (within change path last).map fun last =>
            replace key (.tables (last :: others)) members
      | _ => none

mutual

def Node.document : Node → Document
  | .value value => value
  | .table _ members => .object (memberDocuments members)
  | .tables items => .array false (itemDocuments items).reverse

def memberDocuments : List (String × Node) → List (Option String × Document)
  | [] => []
  | (key, node) :: rest => (some key, node.document) :: memberDocuments rest

def itemDocuments : List (List (String × Node)) → List Document
  | [] => []
  | members :: rest => .object (memberDocuments members) :: itemDocuments rest

end

end Overseer.Toml
