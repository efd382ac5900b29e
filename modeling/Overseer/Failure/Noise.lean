import Overseer.Text.Blank
import Overseer.Text.Digit
import Overseer.Text.Word

/-! # Run-specific noise in failure texts

Five kinds of text change between runs that fail in the same way: timestamps, addresses, durations, long
numbers and the layout of white space. Each kind is a pattern; its matches are replaced from left to
right, the first kind in the whole text before the second. Digits, white space and words are those of
all scripts, except inside an address.
-/

namespace Overseer.Noise

/-- What follows a match at the start of the text. -/
abbrev Matcher := List Char → Option (List Char)

def one (p : Char → Bool) : Matcher
  | c :: rest => if p c then some rest else none
  | [] => none

def char (c : Char) : Matcher := one (· == c)

def times (p : Char → Bool) : Nat → Matcher
  | 0, s => some s
  | n + 1, s => (one p s).bind (times p n)

/-- As many as there are, `least` or more. -/
def run (p : Char → Bool) (least : Nat) : Matcher := fun s =>
  (times p least s).map (List.dropWhile p)

def optional (m : Matcher) (s : List Char) : List Char := (m s).getD s

def digit (c : Char) : Bool := Text.isDecimal c

def fraction : Matcher := fun s => (char '.' s).bind (run digit 1)

/-- `Z`, or a sign and hours and minutes with or without a colon between them. -/
def zone : Matcher := fun s =>
  match s with
  | 'Z' :: rest => some rest
  | _ => do
      let s ← one (fun c => c == '+' || c == '-') s
      let s ← times digit 2 s
      times digit 2 (optional (char ':') s)

def timestamp : Matcher := fun s => do
  let s ← times digit 4 s
  let s ← char '-' s
  let s ← times digit 2 s
  let s ← char '-' s
  let s ← times digit 2 s
  let s ← one (fun c => c == 'T' || c == ' ') s
  let s ← times digit 2 s
  let s ← char ':' s
  let s ← times digit 2 s
  let s ← char ':' s
  let s ← times digit 2 s
  some (optional zone (optional fraction s))

def address : Matcher := fun s => do
  let s ← char '0' s
  let s ← char 'x' s
  run Text.isHexDigit 1 s

/-- Milliseconds, microseconds with either letter, nanoseconds and seconds. -/
def timeUnit : Matcher
  | 'm' :: 's' :: rest => some rest
  | 'u' :: 's' :: rest => some rest
  | 'µ' :: 's' :: rest => some rest
  | 'n' :: 's' :: rest => some rest
  | 's' :: rest => some rest
  | _ => none

/-- A number and a unit, at most one white space character between them, and no word character next to
either. -/
def duration (before : Option Char) : Matcher := fun s =>
  if Text.isBoundary before s.head? then do
    let s ← run digit 1 s
    let s ← timeUnit (optional (one Text.isBlank) (optional fraction s))
    if Text.isBoundary (some 's') s.head? then some s else none
  else none

def longNumber : Matcher := run digit 5

def blanks : Matcher := run Text.isBlank 1

/-- A kind of noise: its pattern, given the character before, and what stands for it. -/
structure Kind where
  pattern : Option Char → Matcher
  token : List Char

def kinds : List Kind :=
  [⟨fun _ => timestamp, "<timestamp>".toList⟩, ⟨fun _ => address, "<addr>".toList⟩,
   ⟨duration, "<duration>".toList⟩, ⟨fun _ => longNumber, "<n>".toList⟩, ⟨fun _ => blanks, [' ']⟩]

/-- `skip` characters belong to a match that has been replaced already. -/
def Kind.replaceFrom (k : Kind) : Option Char → Nat → List Char → List Char
  | _, _, [] => []
  | _, skip + 1, c :: rest => k.replaceFrom (some c) skip rest
  | before, 0, c :: rest =>
      match k.pattern before (c :: rest) with
      | some after => k.token ++ k.replaceFrom (some c) (rest.length - after.length) rest
      | none => c :: k.replaceFrom (some c) 0 rest

def Kind.replace (k : Kind) (s : List Char) : List Char := k.replaceFrom none 0 s

def normalizeChars (s : List Char) : List Char :=
  Text.strip (kinds.foldl (fun s k => k.replace s) s)

def normalize (s : String) : String := String.ofList (normalizeChars s.toList)

end Overseer.Noise
