import Overseer.Host.Shell.Node
import Overseer.Text.Digit

/-! # Reading shell scripts

A script is first cut into tokens. The words that open and close a compound command are told by their
place, so quoting them takes their meaning away.

The shell is a part of the stand-in host on which runs are made, and no part of the program that is modelled
(`Host.Programs`).
-/

namespace Overseer.Host.Shell

inductive Token
  | word (word : Word)
  | operator (text : String)
  /-- The sign of a redirect, with the number of its stream. -/
  | redirect (stream : Nat) (sign : String)
  deriving Repr

def isNameChar (c : Char) : Bool := c.isAlphanum || c == '_'

/-- The name after a dollar sign: a run of letters, or one character. -/
def variableName (s : List Char) : Option (String × List Char) :=
  match s with
  | [] => none
  | c :: rest =>
      if c.isAlpha || c == '_' then
        let name := s.takeWhile isNameChar
        some (String.ofList name, s.drop name.length)
      else if c.isDigit || ['@', '*', '#', '?', '$', '!'].contains c then some (c.toString, rest)
      else none

/-- Text up to two closing brackets that belong to none inside. -/
def untilDoubleBracket : Nat → List Char → Option (List Char × List Char)
  | 0, ')' :: ')' :: rest => some ([], rest)
  | n, '(' :: rest => (untilDoubleBracket (n + 1) rest).map fun (s, r) => ('(' :: s, r)
  | n, ')' :: rest => (untilDoubleBracket (n - 1) rest).map fun (s, r) => (')' :: s, r)
  | n, c :: rest => (untilDoubleBracket n rest).map fun (s, r) => (c :: s, r)
  | _, [] => none

/-- Text up to the bracket that closes it; `quote` is the quotation mark that is open. -/
def untilBracket : Option Char → Nat → List Char → Option (List Char × List Char)
  | _, _, [] => none
  | some quote, n, c :: rest =>
      (untilBracket (if c = quote then none else some quote) n rest).map fun (s, r) => (c :: s, r)
  | none, 0, ')' :: rest => some ([], rest)
  | none, n, c :: rest =>
      let quote := if c = '"' ∨ c = '\x27' then some c else none
      let depth := if c = '(' then n + 1 else if c = ')' then n - 1 else n
      (untilBracket quote depth rest).map fun (s, r) => (c :: s, r)

/-- Text up to the next backtick; a backslash takes away the meaning of the few marks that have one. -/
def untilTick : List Char → Option (List Char × List Char)
  | [] => none
  | '\x60' :: rest => some ([], rest)
  | '\\' :: c :: rest =>
      (untilTick rest).map fun (s, r) =>
        (if ['$', '\\', '\x60'].contains c then (c :: s, r) else ('\\' :: c :: s, r))
  | c :: rest => (untilTick rest).map fun (s, r) => (c :: s, r)

def addChar (quoted : Bool) (c : Char) : Word → Word
  | .text q chars :: rest => if q == quoted then .text q (c :: chars) :: rest
      else .text quoted [c] :: .text q chars :: rest
  | word => .text quoted [c] :: word

/-- Where the reader of a word is. -/
inductive Place
  | bare
  | quoted
  /-- Behind a variable in braces, in quotes or not. -/
  | braced (inQuotes : Bool)
  deriving Repr, DecidableEq

def Place.isQuoted : Place → Bool
  | .bare => false
  | .quoted => true
  | .braced inQuotes => inQuotes

def endsWord (c : Char) : Bool := [' ', '\t', '\n', ';', '&', '|', '<', '>', '(', ')'].contains c

/-- What the next characters of a word are. -/
inductive Turn
  | stop (rest : List Char)
  | add (f : Word → Word) (rest : List Char)
  /-- A word of its own, and how it is put in front of what follows. -/
  | enter (place : Place) (f : Word → Word → Word) (rest : List Char)
  | fail

def isArguments : Piece → Bool
  | .variable quoted name _ _ => quoted && name == "@"
  | _ => false

/-- What stands in quotes is a word even when it is empty, unless it is made of the arguments. -/
def addQuoted (inside w : Word) : Word :=
  if inside.any isArguments then inside ++ w else .text true [] :: inside ++ w

def braces (quoted : Bool) (s : List Char) : Turn :=
  let entered (name : String) (orEmpty : Bool) (rest : List Char) : Turn :=
    .enter (.braced quoted) (fun inside w => .variable quoted name orEmpty (some inside) :: w) rest
  match variableName s with
  | some (name, '}' :: rest) => .add (.variable quoted name false none :: ·) rest
  | some (name, ':' :: '-' :: rest) => entered name true rest
  | some (name, '-' :: rest) => entered name false rest
  | _ => .fail

def dollar (quoted : Bool) (s : List Char) : Turn :=
  match s with
  | '(' :: '(' :: rest =>
      match untilDoubleBracket 0 rest with
      | some (expression, rest) => .add (.sum quoted expression :: ·) rest
      | none => .fail
  | '(' :: rest =>
      match untilBracket none 0 rest with
      | some (script, rest) => .add (.output quoted script :: ·) rest
      | none => .fail
  | '{' :: rest => braces quoted rest
  | s =>
      match variableName s with
      | some (name, rest) => .add (.variable quoted name false none :: ·) rest
      | none => .add (addChar quoted '$') s

def backslash (place : Place) (s : List Char) : Turn :=
  match s with
  | [] => .add (addChar place.isQuoted '\\') []
  | '\n' :: rest => .add id rest
  | c :: rest =>
      if place = .quoted ∧ !(['$', '"', '\\', '\x60'].contains c) then
        .add (addChar true '\\' ∘ addChar true c) rest
      else .add (.text true [c] :: ·) rest

def turn (place : Place) (s : List Char) : Turn :=
  match s with
  | [] => if place = .bare then .stop [] else .fail
  | c :: rest =>
      if place = .bare ∧ endsWord c then .stop s
      else match c with
        | '\\' => backslash place rest
        | '$' => dollar place.isQuoted rest
        | '\x60' =>
            match untilTick rest with
            | some (script, rest) => .add (.output place.isQuoted script :: ·) rest
            | none => .fail
        | '"' =>
            if place = .quoted then .stop rest
            else .enter .quoted addQuoted rest
        | '}' => if place = .bare ∨ place = .quoted then .add (addChar place.isQuoted c) rest else .stop rest
        | '\x27' =>
            if place = .quoted then .add (addChar true c) rest
            else
              let inside := rest.takeWhile (· != '\x27')
              match rest.drop inside.length with
              | _ :: rest => .add (.text true inside :: ·) rest
              | [] => .fail
        | _ => .add (addChar place.isQuoted c) rest

/-- The pieces of a word from a place on, and what follows them. -/
def pieces : Nat → Place → List Char → Option (Word × List Char)
  | 0, _, _ => none
  | n + 1, place, s =>
      match turn place s with
      | .fail => none
      | .stop rest => some ([], rest)
      | .add f rest => (pieces n place rest).map fun (w, rest) => (f w, rest)
      | .enter inner f rest =>
          match pieces n inner rest with
          | none => none
          | some (inside, rest) => (pieces n place rest).map fun (w, rest) => (f inside w, rest)

def readWord (s : List Char) : Option (Word × List Char) := pieces (2 * s.length + 2) .bare s

/-- A redirect; `number` is the stream that is named in front of it. -/
def redirect? (number : Option Nat) (s : List Char) : Option (Token × List Char) :=
  match s with
  | '>' :: '>' :: rest => some (.redirect (number.getD 1) ">>", rest)
  | '>' :: '&' :: rest => some (.redirect (number.getD 1) ">&", rest)
  | '>' :: '|' :: rest | '>' :: rest => some (.redirect (number.getD 1) ">", rest)
  | '<' :: rest => some (.redirect (number.getD 0) "<", rest)
  | _ => none

def operator? (s : List Char) : Option (Token × List Char) :=
  match s with
  | '&' :: '&' :: rest => some (.operator "&&", rest)
  | '|' :: '|' :: rest => some (.operator "||", rest)
  | '|' :: rest => some (.operator "|", rest)
  | ';' :: rest | '\n' :: rest => some (.operator ";", rest)
  | '(' :: rest => some (.operator "(", rest)
  | ')' :: rest => some (.operator ")", rest)
  | _ => none

/-- A redirect with a digit in front of it, or without one. -/
def anyRedirect? (s : List Char) : Option (Token × List Char) :=
  match s with
  | d :: sign :: rest =>
      if d.isDigit then redirect? (some (Text.digitValue d)) (sign :: rest) else redirect? none s
  | _ => redirect? none s

def tokens : Nat → List Char → Option (List Token)
  | _, [] => some []
  | 0, _ => none
  | n + 1, ' ' :: rest | n + 1, '\t' :: rest => tokens n rest
  | n + 1, '#' :: rest => tokens n (rest.dropWhile (· != '\n'))
  | n + 1, s =>
      match (anyRedirect? s).or (operator? s) with
      | some (token, rest) => (tokens n rest).map (token :: ·)
      | none =>
          match readWord s with
          | none => none
          | some (word, rest) =>
              if rest.length < s.length then (tokens n rest).map (.word word :: ·) else none

/-- The text of a word that has no meaning but its letters. -/
def plain? : Word → Option String
  | [.text false chars] => some (String.ofList chars)
  | _ => none

def keyword? : List Token → Option String
  | .word w :: _ => plain? w
  | _ => none

/-- The words that end a list of commands. -/
def closers : List String := ["do", "done", "then", "elif", "else", "fi", "\x7d"]

def isListEnd (ts : List Token) : Bool :=
  match ts with
  | [] | .operator ")" :: _ => true
  | _ => (keyword? ts).any closers.contains

def skipBreaks : List Token → List Token
  | .operator ";" :: rest => skipBreaks rest
  | ts => ts

/-- Takes a word that has to be there. -/
def expect (word : String) (ts : List Token) : Option (List Token) :=
  if keyword? ts == some word then some ts.tail else none

def readRedirect (stream : Nat) (sign : String) (name : Word) : Option Redirect :=
  match sign, (plain? name).map String.toList with
  | ">&", some [c] => if c.isDigit then some (.output stream (.stream (Text.digitValue c))) else none
  | ">&", _ => none
  | "<", _ => some (.input name)
  | sign, _ => some (.output stream (.file name (sign == ">>")))

def readRedirects : List Token → List Redirect × List Token
  | .redirect stream sign :: .word name :: rest =>
      match readRedirect stream sign name with
      | some r => let (more, rest) := readRedirects rest; (r :: more, rest)
      | none => ([], .redirect stream sign :: .word name :: rest)
  | ts => ([], ts)

/-- The words and redirects of a simple command. -/
def readSimple : List Token → List Word × List Redirect × List Token
  | .redirect stream sign :: .word name :: rest =>
      match readRedirect stream sign name with
      | some r => let (words, redirects, rest) := readSimple rest; (words, r :: redirects, rest)
      | none => ([], [], .redirect stream sign :: .word name :: rest)
  | .word w :: rest => let (words, redirects, rest) := readSimple rest; (w :: words, redirects, rest)
  | ts => ([], [], ts)

def readWords : List Token → List Word × List Token
  | .word w :: rest => let (words, rest) := readWords rest; (w :: words, rest)
  | ts => ([], ts)

def close (node : Node) (ts : List Token) : Node × List Token :=
  match readRedirects ts with
  | ([], rest) => (node, rest)
  | (redirects, rest) => (.redirected node redirects, rest)

mutual

/-- Commands up to a closing word. -/
def readList : Nat → List Token → Option (Node × List Token)
  | 0, _ => none
  | n + 1, ts =>
      let ts := skipBreaks ts
      if isListEnd ts then some (.nothing, ts)
      else do
        let (first, ts) ← readChain n ts
        match ts with
        | .operator ";" :: rest =>
            let (second, ts) ← readList n rest
            some (.sequence first second, ts)
        | ts => if isListEnd ts then some (first, ts) else none

/-- Commands with `&&` and `||` between them, from left to right. -/
def readChain : Nat → List Token → Option (Node × List Token)
  | 0, _ => none
  | n + 1, ts => do
      let (first, ts) ← readPipe n ts
      chainFrom n first ts

def chainFrom : Nat → Node → List Token → Option (Node × List Token)
  | 0, _, _ => none
  | n + 1, first, .operator "&&" :: rest => do
      let (second, ts) ← readPipe n (skipBreaks rest)
      chainFrom n (.both first second) ts
  | n + 1, first, .operator "||" :: rest => do
      let (second, ts) ← readPipe n (skipBreaks rest)
      chainFrom n (.either first second) ts
  | _, first, ts => some (first, ts)

def readPipe : Nat → List Token → Option (Node × List Token)
  | 0, _ => none
  | n + 1, ts =>
      if keyword? ts == some "!" then do
        let (body, ts) ← readPipe n ts.tail
        some (.negated body, ts)
      else do
        let (first, ts) ← readCommand n ts
        match ts with
        | .operator "|" :: rest =>
            let (second, ts) ← readPipe n (skipBreaks rest)
            some (.pipe first second, ts)
        | ts => some (first, ts)

def readCommand : Nat → List Token → Option (Node × List Token)
  | 0, _ => none
  | n + 1, ts =>
      match ts with
      | .operator "(" :: rest => do
          let (body, ts) ← readList n rest
          match ts with
          | .operator ")" :: rest => some (close (.subshell body) rest)
          | _ => none
      | .operator _ :: _ => none
      | ts =>
          match keyword? ts with
          | some "while" => readLoop n true ts.tail
          | some "until" => readLoop n false ts.tail
          | some "if" => do
              let (node, ts) ← readChoice n ts.tail
              some (close node ts)
          | some "for" => readEach n ts.tail
          | some "\x7b" => do
              let (body, ts) ← readList n ts.tail
              let ts ← expect "\x7d" ts
              some (close body ts)
          | _ =>
              match readSimple ts with
              | ([], [], _) => none
              | (words, redirects, ts) => some (.simple words redirects, ts)

def readLoop : Nat → Bool → List Token → Option (Node × List Token)
  | 0, _, _ => none
  | n + 1, wanted, ts => do
      let (condition, ts) ← readList n ts
      let ts ← expect "do" ts
      let (body, ts) ← readList n ts
      let ts ← expect "done" ts
      some (close (.loop wanted 0 condition body) ts)

/-- A choice without its first word. -/
def readChoice : Nat → List Token → Option (Node × List Token)
  | 0, _ => none
  | n + 1, ts => do
      let (condition, ts) ← readList n ts
      let ts ← expect "then" ts
      let (yes, ts) ← readList n ts
      match keyword? ts with
      | some "fi" => some (.choice condition yes .nothing, ts.tail)
      | some "elif" =>
          let (no, ts) ← readChoice n ts.tail
          some (.choice condition yes no, ts)
      | some "else" =>
          let (no, ts) ← readList n ts.tail
          let ts ← expect "fi" ts
          some (.choice condition yes no, ts)
      | _ => none

def readEach : Nat → List Token → Option (Node × List Token)
  | 0, _ => none
  | n + 1, ts => do
      let name ← keyword? ts
      let ts ← expect "in" ts.tail
      let (words, ts) := readWords ts
      let ts ← expect "do" (skipBreaks ts)
      let (body, ts) ← readList n ts
      let ts ← expect "done" ts
      some (close (.each name words body) ts)

end

/-- The whole of a script. -/
def read? (text : String) : Option Node := do
  let ts ← tokens (text.length + 1) text.toList
  let (node, rest) ← readList (8 * ts.length + 8) ts
  if rest.isEmpty then some node else none

end Overseer.Host.Shell
