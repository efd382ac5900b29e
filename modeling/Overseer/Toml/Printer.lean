import Overseer.Decimal.Layout
import Overseer.Document.Basic
import Overseer.Toml.Quoted

/-! # Writing TOML

A file is a list of tables, each with a header and a line for each entry, and with an empty line between
two tables. An array of more than one item has a line for each. A float is always positional.
-/

namespace Overseer.Toml

structure Section where
  path : List String
  entries : List (String × Document)
  deriving Repr

def floatLayout : Decimal.Layout := ⟨none, "nan", "inf"⟩

def writeNumber : Number → List Char
  | .int n => (toString n).toList
  | .float x => floatLayout.write x

/-- A value that is no array. -/
def writeScalar : Document → List Char
  | .string s => writeText s.toList
  | .number n => writeNumber n
  | .bool b => (if b then "true" else "false").toList
  | _ => []

def writeItem (item : Document) : List Char := "    ".toList ++ writeScalar item ++ [',', '\n']

def writeValue : Document → List Char
  | .array _ [] => ['[', ']']
  | .array _ [item] => '[' :: writeScalar item ++ [']']
  | .array _ items => '[' :: '\n' :: items.flatMap writeItem ++ [']']
  | value => writeScalar value

def writeEntry (entry : String × Document) : List Char :=
  writeKey entry.1.toList ++ " = ".toList ++ writeValue entry.2 ++ ['\n']

def writePath (path : List String) : List Char :=
  ['.'].intercalate (path.map fun key => writeKey key.toList)

def Section.chars (t : Section) : List Char :=
  '[' :: writePath t.path ++ [']', '\n'] ++ t.entries.flatMap writeEntry

def write (sections : List Section) : String :=
  String.ofList (['\n'].intercalate (sections.map Section.chars))

end Overseer.Toml
