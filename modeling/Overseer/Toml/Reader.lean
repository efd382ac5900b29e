import Overseer.Toml.Quoted
import Overseer.Toml.Scalar
import Overseer.Toml.Tree

/-! # Reading TOML

A text is read line by line into statements, and the statements are then carried out on a tree of tables.
Arrays and inline tables may go over several lines and may end with a comma.
-/

namespace Overseer.Toml

def skipComment : List Char → List Char
  | '#' :: rest => rest.dropWhile isPlain
  | s => s

/-- What follows the end of a line. -/
def endLine? (s : List Char) : Option (List Char) :=
  match skipComment (skipSpace s) with
  | [] => some []
  | s => newline? s

/-- White space, newlines and comments. -/
def skipTrivia : Bool → List Char → List Char
  | _, [] => []
  | inComment, c :: rest =>
      if c = '\n' then skipTrivia false rest
      else if c = '\r' ∧ rest.head? = some '\n' then skipTrivia false rest
      else if inComment then if isPlain c then skipTrivia true rest else c :: rest
      else if isSpace c then skipTrivia false rest
      else if c = '#' then skipTrivia true rest
      else c :: rest

def readSimpleKey? (s : List Char) : Parsed String :=
  match s.takeWhile isBareKey with
  | [] => (readLine? s).map fun (text, rest) => (String.ofList text, rest)
  | bare => some (String.ofList bare, s.drop bare.length)

/-- A key, or several with dots between them. -/
def readPath : Nat → List Char → Parsed (List String)
  | 0, _ => none
  | n + 1, s =>
      match readSimpleKey? (skipSpace s) with
      | none => none
      | some (key, s) =>
          match skipSpace s with
          | '.' :: s => (readPath n s).map fun (path, s) => (key :: path, s)
          | s => some ([key], s)

def readPath? (s : List Char) : Parsed (List String) := readPath (s.length + 1) s

def isWordChar (c : Char) : Bool :=
  c.isAlphanum || c == '_' || c == '+' || c == '-' || c == '.' || c == ':'

/-- A bare word; a date may be followed by a space and a time. -/
def readWord (s : List Char) : List Char × List Char :=
  let word := s.takeWhile isWordChar
  match s.drop word.length with
  | ' ' :: c :: rest =>
      if date? word == some [] && Text.isAsciiDigit c then
        let time := (c :: rest).takeWhile isWordChar
        (word ++ ' ' :: time, (c :: rest).drop time.length)
      else (word, ' ' :: c :: rest)
  | rest => (word, rest)

def readScalar? (s : List Char) : Parsed Document :=
  let (word, rest) := readWord s
  (scalar? word).map fun value => (value, rest)

/-- What a list of parts comes to next: another part, or its end. -/
def nextPart? (close : Char) (s : List Char) : Option (Bool × List Char) :=
  match skipTrivia false s with
  | c :: rest =>
      if c = close then some (true, rest)
      else if c = ',' then
        match skipTrivia false rest with
        | d :: after => if d = close then some (true, after) else some (false, d :: after)
        | [] => none
      else none
  | [] => none

mutual

def readValue : Nat → List Char → Parsed Document
  | 0, _ => none
  | n + 1, s =>
      match s with
      | '[' :: s =>
          match skipTrivia false s with
          | ']' :: s => some (.array false [], s)
          | s => (readItems n s).map fun (items, s) => (.array false items, s)
      | '\x7b' :: s =>
          match skipTrivia false s with
          | '\x7d' :: s => some (.object [], s)
          | s =>
              (readEntries n [] s).map fun (members, s) => (.object (memberDocuments members), s)
      | c :: rest =>
          if c = '"' ∨ c = '\x27' then
            (readQuoted? (c :: rest)).map fun (text, s) => (.string (String.ofList text), s)
          else readScalar? (c :: rest)
      | [] => none

/-- The items of an array; at least one is left. -/
def readItems : Nat → List Char → Parsed (List Document)
  | 0, _ => none
  | n + 1, s =>
      match readValue n s with
      | none => none
      | some (item, s) =>
          match nextPart? ']' s with
          | none => none
          | some (true, s) => some ([item], s)
          | some (false, s) => (readItems n s).map fun (items, s) => (item :: items, s)

/-- The entries of an inline table; at least one is left. -/
def readEntries : Nat → Members → List Char → Parsed Members
  | 0, _, _ => none
  | n + 1, members, s =>
      match readPath? s with
      | none => none
      | some (path, '=' :: s) =>
          match readValue n (skipSpace s) with
          | none => none
          | some (value, s) =>
              match define value path members, nextPart? '\x7d' s with
              | some members, some (true, s) => some (members, s)
              | some members, some (false, s) => readEntries n members s
              | _, _ => none
      | some _ => none

end

inductive Statement
  | table (path : List String)
  | item (path : List String)
  | entry (path : List String) (value : Document)
  deriving Repr

def readHeader? (s : List Char) : Parsed Statement :=
  match s with
  | '[' :: s =>
      match readPath? s with
      | some (path, ']' :: ']' :: s) => some (.item path, s)
      | _ => none
  | s =>
      match readPath? s with
      | some (path, ']' :: s) => some (.table path, s)
      | _ => none

def readEntry? (s : List Char) : Parsed Statement :=
  match readPath? s with
  | some (path, '=' :: s) =>
      (readValue (2 * s.length + 2) (skipSpace s)).map fun (value, s) => (.entry path value, s)
  | _ => none

def readStatement? (s : List Char) : Parsed Statement :=
  match s with
  | '[' :: s => readHeader? s
  | s => readEntry? s

/-- The statements of a text; a line need not have one. -/
def readStatements : Nat → List Char → Option (List Statement)
  | 0, _ => none
  | n + 1, s =>
      match skipSpace s with
      | [] => some []
      | s =>
          match endLine? s with
          | some s => readStatements n s
          | none =>
              match readStatement? s with
              | none => none
              | some (statement, s) =>
                  match endLine? s with
                  | none => none
                  | some s => (readStatements n s).map (statement :: ·)

structure Building where
  root : Members
  /-- The table that entries go to. -/
  current : List String

def Building.add (b : Building) : Statement → Option Building
  | .table path => (openAt openTable path b.root).map fun root => ⟨root, path⟩
  | .item path => (openAt openItem path b.root).map fun root => ⟨root, path⟩
  | .entry path value =>
      (within (define value path) b.current b.root).map fun root => { b with root := root }

def build? (statements : List Statement) : Option Document :=
  (statements.foldlM Building.add ⟨[], []⟩).map fun b => .object (memberDocuments b.root)

def byteOrderMark : Char := '\ufeff'

def document? (text : String) : Option Document :=
  let s := match text.toList with
    | c :: rest => if c = byteOrderMark then rest else c :: rest
    | [] => []
  (readStatements (s.length + 1) s).bind build?

end Overseer.Toml
