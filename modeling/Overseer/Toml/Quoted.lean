import Overseer.Text.Hex

/-! # Quoted text

A text is quoted in one of four forms: basic or literal, on one line or on several. A basic text has
escapes and a literal one has none. A text on several lines may begin with a newline, which does not
count.

`readQuoted?` reads any form. `writeText` chooses the plainest form that holds a text as it is, and one
with escapes when there is none.
-/

namespace Overseer.Toml

/-- A value that has been read, and what follows it. -/
abbrev Parsed (α : Type) := Option (α × List Char)

def isSpace (c : Char) : Bool := c == ' ' || c == '\t'

def skipSpace (s : List Char) : List Char := s.dropWhile isSpace

/-- A tab, or any character that is no control character. -/
def isPlain (c : Char) : Bool := c == '\t' || (32 ≤ c.toNat && c.toNat != 127)

/-- What follows a newline, with or without a carriage return before it. -/
def newline? : List Char → Option (List Char)
  | '\n' :: rest => some rest
  | '\r' :: '\n' :: rest => some rest
  | _ => none

def dropNewline (s : List Char) : List Char := (newline? s).getD s

/-- White space and newlines. -/
def skipLines : List Char → List Char
  | [] => []
  | c :: rest =>
      if isSpace c || c == '\n' || (c == '\r' && rest.head? == some '\n') then skipLines rest
      else c :: rest

/-- A character given by its code point in so many hexadecimal digits. -/
def codePoint? (width : Nat) (s : List Char) : Parsed Char :=
  let digits := s.take width
  if digits.length = width then
    match Text.hexValue? digits with
    | some n => if n.isValidChar then some (Char.ofNat n, s.drop width) else none
    | none => none
  else none

/-- The character that an escape stands for; the backslash has been read. -/
def escape? : List Char → Parsed Char
  | 'b' :: s => some ('\x08', s)
  | 't' :: s => some ('\t', s)
  | 'n' :: s => some ('\n', s)
  | 'f' :: s => some ('\x0c', s)
  | 'r' :: s => some ('\r', s)
  | 'e' :: s => some ('\x1b', s)
  | '"' :: s => some ('"', s)
  | '\\' :: s => some ('\\', s)
  | 'x' :: s => codePoint? 2 s
  | 'u' :: s => codePoint? 4 s
  | 'U' :: s => codePoint? 8 s
  | _ => none

/-- A backslash at the end of a line takes away the newline and all blanks after it. -/
def continuation? (s : List Char) : Option (List Char) := (newline? (skipSpace s)).map skipLines

def prepend (c : Char) (p : Parsed (List Char)) : Parsed (List Char) :=
  p.map fun (text, rest) => (c :: text, rest)

/-- The rest of a basic text on one line. -/
def basicText : Nat → List Char → Parsed (List Char)
  | 0, _ | _, [] => none
  | n + 1, c :: s =>
      if c = '"' then some ([], s)
      else if c = '\\' then (escape? s).bind fun (c, s) => prepend c (basicText n s)
      else if isPlain c then prepend c (basicText n s)
      else none

def literalText : List Char → Parsed (List Char)
  | [] => none
  | c :: s =>
      if c = '\x27' then some ([], s)
      else if isPlain c then prepend c (literalText s)
      else none

/-- The end of a text on several lines: three quotes, and up to two more that belong to the text. -/
def closing? (quote : Char) (s : List Char) : Parsed (List Char) :=
  let quotes := (s.takeWhile (· == quote)).length
  if 3 ≤ quotes then
    some (List.replicate (min quotes 5 - 3) quote, s.drop (min quotes 5))
  else none

/-- The rest of a basic text on several lines. -/
def basicBlock : Nat → List Char → Parsed (List Char)
  | 0, _ | _, [] => none
  | n + 1, c :: s =>
      match closing? '"' (c :: s) with
      | some closed => some closed
      | none =>
          if c = '\\' then
            match continuation? s with
            | some s => basicBlock n s
            | none => (escape? s).bind fun (c, s) => prepend c (basicBlock n s)
          else if isPlain c || c == '\n' || (c == '\r' && s.head? == some '\n') then
            prepend c (basicBlock n s)
          else none

/-- The rest of a literal text on several lines. -/
def literalBlock : Nat → List Char → Parsed (List Char)
  | 0, _ | _, [] => none
  | n + 1, c :: s =>
      match closing? '\x27' (c :: s) with
      | some closed => some closed
      | none =>
          if isPlain c || c == '\n' || (c == '\r' && s.head? == some '\n') then
            prepend c (literalBlock n s)
          else none

/-- A text on one line. -/
def readLine? : List Char → Parsed (List Char)
  | '"' :: s => basicText (s.length + 1) s
  | '\x27' :: s => literalText s
  | _ => none

def readQuoted? (s : List Char) : Parsed (List Char) :=
  match s with
  | '"' :: '"' :: '"' :: s => basicBlock (s.length + 1) (dropNewline s)
  | '\x27' :: '\x27' :: '\x27' :: s => literalBlock (s.length + 1) (dropNewline s)
  | s => readLine? s

/-- The longest run of a character. -/
def longestRun (c : Char) (s : List Char) : Nat :=
  (s.foldl (fun (run, longest) d =>
    let run := if d = c then run + 1 else 0
    (run, max longest run)) (0, 0)).2

/-- A control character other than tab and newline, which only an escape can stand for. -/
def needsEscape (c : Char) : Bool := c != '\n' && !isPlain c

def upperHex (n : Nat) : List Char := (Text.hexDigits 4 n).map Char.toUpper

/-- A character in a basic text; a newline and a quote are written as they are when `bare` says so. -/
def escapeChar (bare : Bool) (c : Char) : List Char :=
  if bare then [c]
  else if c = '\x08' then ['\\', 'b']
  else if c = '\t' then ['\\', 't']
  else if c = '\n' then ['\\', 'n']
  else if c = '\x0c' then ['\\', 'f']
  else if c = '\r' then ['\\', 'r']
  else if c = '"' then ['\\', '"']
  else if c = '\\' then ['\\', '\\']
  else if needsEscape c then '\\' :: 'u' :: upperHex c.toNat
  else [c]

def escapeLine (s : List Char) : List Char := s.flatMap (escapeChar false)

/-- On several lines every third quote in a row is escaped. -/
def escapeBlock : Nat → List Char → List Char
  | _, [] => []
  | quotes, c :: rest =>
      if c = '"' then
        if quotes < 2 then '"' :: escapeBlock (quotes + 1) rest
        else '\\' :: '"' :: escapeBlock 0 rest
      else escapeChar (c == '\n') c ++ escapeBlock 0 rest

def triple (quote : Char) : List Char := List.replicate 3 quote

/-- Several lines start on a line of their own. -/
def inBlock (quote : Char) (text : List Char) (written : List Char) : List Char :=
  triple quote ++ (if text.contains '\n' then ['\n'] else []) ++ written ++ triple quote

def writeBasic (s : List Char) : List Char := '"' :: escapeLine s ++ ['"']

def writeLiteral (s : List Char) : List Char := '\x27' :: s ++ ['\x27']

def writeText (s : List Char) : List Char :=
  let coded := s.any needsEscape
  let backslash := s.contains '\\'
  let lines := s.contains '\n'
  if !coded && !backslash && !s.contains '"' && !lines then writeBasic s
  else if !coded && !s.contains '\x27' && !lines then writeLiteral s
  else if !coded && !backslash && longestRun '"' s ≤ 2 then inBlock '"' s (escapeBlock 0 s)
  else if !coded && longestRun '\x27' s ≤ 2 then inBlock '\x27' s s
  else if lines then inBlock '"' s (escapeBlock 0 s)
  else writeBasic s

def isBareKey (c : Char) : Bool := c.isAlphanum || c == '_' || c == '-'

/-- A key is written bare when it can be; it never takes several lines. -/
def writeKey (s : List Char) : List Char :=
  let coded := s.any needsEscape || s.contains '\n'
  if !s.isEmpty && s.all isBareKey then s
  else if !coded && !s.contains '\\' && !s.contains '"' then writeBasic s
  else if !coded && !s.contains '\x27' then writeLiteral s
  else writeBasic s

end Overseer.Toml
