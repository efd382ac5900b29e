import Overseer.Text.Blank
import Overseer.Text.Cut
import Overseer.Text.Word

/-! # Prompts

A prompt is written from a template whose sections are marked by comments. Inserted text is not escaped,
and a marker inside it counts. A prompt over its budget of bytes loses the droppable sections in a fixed
order, and then the end of the last section.
-/

namespace Overseer.Prompt

structure Section where
  key : List Char
  required : Bool
  content : List Char
  deriving Repr, DecidableEq

/-- A character of the text, or a marker. -/
inductive Item
  | char (c : Char)
  | marker (key : List Char) (required : Bool)
  deriving Repr, DecidableEq

/-- What follows a text at the start. -/
def after? : List Char → List Char → Option (List Char)
  | [], s => some s
  | c :: text, d :: s => if c = d then after? text s else none
  | _ :: _, [] => none

def markerKind? (s : List Char) : Option (Bool × List Char) :=
  match after? "required".toList s with
  | some rest => some (true, rest)
  | none => (after? "droppable".toList s).map fun rest => (false, rest)

structure Marker where
  key : List Char
  required : Bool
  rest : List Char

/-- A marker at the start: a comment with `section:`, a word, white space and the kind. -/
def marker? (s : List Char) : Option Marker := do
  let s ← after? "<!--".toList s
  let s ← after? "section:".toList (Text.stripStart s)
  let key := s.takeWhile Text.isWord
  let s := s.dropWhile Text.isWord
  if key.isEmpty || !(s.head?.any Text.isBlank) then none
  else
    let (required, s) ← markerKind? (Text.stripStart s)
    let s ← after? "-->".toList (Text.stripStart s)
    some ⟨key, required, s⟩

/-- `skip` characters belong to a marker that has been taken already. -/
def itemsFrom : Nat → List Char → List Item
  | _, [] => []
  | skip + 1, _ :: rest => itemsFrom skip rest
  | 0, c :: rest =>
      match marker? (c :: rest) with
      | some m => .marker m.key m.required :: itemsFrom (rest.length - m.rest.length) rest
      | none => .char c :: itemsFrom 0 rest

def items (s : List Char) : List Item := itemsFrom 0 s

/-- The text up to the next marker. -/
def leadingText : List Item → List Char
  | .char c :: rest => c :: leadingText rest
  | _ => []

/-- The text before the first marker belongs to no section. -/
def allSections : List Item → List Section
  | [] => []
  | .char _ :: rest => allSections rest
  | .marker key required :: rest =>
      ⟨key, required, Text.strip (leadingText rest)⟩ :: allSections rest

/-- An empty section is kept only when it is required. -/
def sections (s : List Char) : List Section :=
  (allSections (items s)).filter fun sec => sec.required || !sec.content.isEmpty

def size (secs : List Section) : Nat := secs.foldr (fun sec n => Text.byteLength sec.content + n) 0

/-- The keys of the sections that may go, in the order in which they do. -/
def dropOrder : List (List Char) := ["history".toList, "failure".toList]

def dropFirst (key : List Char) : List Section → List Section
  | [] => []
  | sec :: rest => if sec.key = key ∧ !sec.required then rest else sec :: dropFirst key rest

def shed (budget : Nat) (secs : List Section) : List Section :=
  dropOrder.foldl (fun secs key => if size secs ≤ budget then secs else dropFirst key secs) secs

def truncationMark : List Char := "\n[truncated]".toList

def abridgeLast (budget : Nat) (secs : List Section) : List Section :=
  match secs.getLast? with
  | none => secs
  | some last =>
      let others := secs.dropLast
      let content := Text.abridge truncationMark (budget - size others) last.content
      others ++ [{ last with content := content }]

def fitSections (budget : Nat) (secs : List Section) : List Section :=
  let secs := shed budget secs
  if budget < size secs then abridgeLast budget secs else secs

def joinSections (secs : List Section) : List Char :=
  ['\n', '\n'].intercalate (secs.map (·.content))

def fit (budget : Nat) (s : List Char) : List Char := joinSections (fitSections budget (sections s))

def standardBudget : Nat := 32000

structure DiagnoseInputs where
  target : String
  iteration : Nat
  maxIterations : Nat
  failure : String
  previous : Option String

structure FixInputs where
  target : String
  summary : String
  suggestion : Option String
  failure : String

def diagnoseContract : String :=
  "<!-- section:contract required -->\n"
  ++ "You are diagnosing a failed verification run. Do not edit any files.\n"
  ++ "Reply with a single JSON object:\n"
  ++ "`\x7b\"summary\": \"...\", \"suggestion\": \"...\", \"target_file\": \"path/to/file\"\x7d`.\n"
  ++ "Set `target_file` only when the defect lives in a different file than the current target."
  ++ "\n\n"

def diagnoseTemplate (i : DiagnoseInputs) : String :=
  diagnoseContract
  ++ "<!-- section:target required -->\n## Target\n- File: " ++ i.target
  ++ "\n- Iteration: " ++ toString i.iteration ++ " of " ++ toString i.maxIterations
  ++ "\n\n<!-- section:failure required -->\n## Verification failure\n```\n" ++ Text.trim i.failure
  ++ "\n```\n"
  ++ match i.previous.bind Text.trimmed? with
    | none => ""
    | some previous =>
        "\n<!-- section:history droppable -->\n## Previous diagnosis\n" ++ previous ++ "\n"

def fixTemplate (i : FixInputs) : String :=
  "<!-- section:contract required -->\nApply the smallest change to `" ++ i.target
  ++ "` that makes verification pass.\n"
  ++ "Do not touch unrelated files. Do not weaken or delete checks.\n\n"
  ++ "<!-- section:diagnosis required -->\n## Diagnosis\n" ++ Text.trim i.summary ++ "\n"
  ++ (match i.suggestion.bind Text.trimmed? with
    | none => ""
    | some suggestion => "\nSuggested fix: " ++ suggestion ++ "\n")
  ++ "\n<!-- section:failure droppable -->\n## Verification failure\n```\n" ++ Text.trim i.failure
  ++ "\n```"

def diagnose (i : DiagnoseInputs) (budget : Nat) : String :=
  String.ofList (fit budget (diagnoseTemplate i).toList)

def fix (i : FixInputs) (budget : Nat) : String :=
  String.ofList (fit budget (fixTemplate i).toList)

end Overseer.Prompt
