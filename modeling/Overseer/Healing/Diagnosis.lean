import Overseer.Json.Reader
import Overseer.Text.Blank
import Overseer.Document.Decode

/-! # Diagnoses

A diagnosis can come as an object, as a string with the JSON text of one, or as plain text, which is
then the summary. One with a blank summary is none.
-/

namespace Overseer

structure Diagnosis where
  summary : String
  suggestion : Option String
  /-- A different file in which the defect should be fixed. -/
  target : Option String
  deriving Repr, DecidableEq

namespace Diagnosis

def ofText (summary : String) : Diagnosis := ⟨summary, none, none⟩

def decode? (d : Document) : Option Diagnosis := do
  let r ← d.record? ["summary", "suggestion", "target_file"]
  let summary ← r.required "summary" Document.string?
  let suggestion ← r.withDefault "suggestion" none (Document.nullable? Document.string?)
  let target ← r.withDefault "target_file" none (Document.nullable? Document.string?)
  some ⟨summary, suggestion, target⟩

def ofJsonText? (text : String) : Option Diagnosis := (Json.document? text).bind decode?

def read? : Json → Option Diagnosis
  | .obj fields => decode? (.ofJson (.obj fields))
  | .string text => some ((ofJsonText? text).getD (ofText (Text.trim text)))
  | _ => none

def ofOutput? (output : Json) : Option Diagnosis :=
  (read? output).filter fun d => !Text.allBlank d.summary

def toJson (d : Diagnosis) : Json :=
  .object [("summary", .string d.summary), ("suggestion", .optional .string d.suggestion),
    ("target_file", .optional .string d.target)]

end Diagnosis

end Overseer
