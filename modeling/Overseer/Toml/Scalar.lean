import Overseer.Decimal.Nearest
import Overseer.Document.Basic
import Overseer.Text.Digit

/-! # Bare values

A value without quotes or brackets is one word: a truth value, an integer in one of four bases, a float,
or a date with or without a time. An underscore may stand between two digits. An integer has to fit into
128 bits and a float into a double.
-/

namespace Overseer.Toml

/-- The digits of a run in which underscores stand between digits only. -/
def digitRun? (isDigit : Char → Bool) : Bool → List Char → Option (List Char)
  | afterDigit, [] => if afterDigit then some [] else none
  | afterDigit, c :: rest =>
      if c = '_' then if afterDigit then digitRun? isDigit false rest else none
      else if isDigit c then (digitRun? isDigit true rest).map (c :: ·)
      else none

def isBaseDigit (base : Nat) (c : Char) : Bool :=
  match Text.hexDigit? c with
  | some n => decide (n < base)
  | none => false

def baseValue (base : Nat) (digits : List Char) : Nat :=
  digits.foldl (fun n c => n * base + (Text.hexDigit? c).getD 0) 0

def splitSign : List Char → Bool × List Char
  | '-' :: rest => (true, rest)
  | '+' :: rest => (false, rest)
  | s => (false, s)

/-- Decimal digits without a zero in front of others. -/
def wholeDigits? (s : List Char) : Option (List Char) :=
  match digitRun? Text.isAsciiDigit false s with
  | some ('0' :: _ :: _) => none
  | digits => digits

def natural? (base : Nat) (s : List Char) : Option Nat :=
  (digitRun? (isBaseDigit base) false s).map (baseValue base)

def decimalInteger? (s : List Char) : Option Int :=
  let (negative, s) := splitSign s
  (wholeDigits? s).map fun digits =>
    let n : Int := Text.decimalValue digits
    if negative then -n else n

def integer? : List Char → Option Int
  | '0' :: 'x' :: digits => (natural? 16 digits).map Int.ofNat
  | '0' :: 'o' :: digits => (natural? 8 digits).map Int.ofNat
  | '0' :: 'b' :: digits => (natural? 2 digits).map Int.ofNat
  | s => decimalInteger? s

def fitsInteger (n : Int) : Bool := decide (-(Nat.pow 2 127 : Int) ≤ n) && decide (n < (Nat.pow 2 128 : Int))

/-- A text cut at the first character of a kind; no second part when there is none. -/
def cutAt (stop : Char → Bool) (s : List Char) : List Char × Option (List Char) :=
  match s.dropWhile fun c => !stop c with
  | [] => (s, none)
  | _ :: rest => (s.takeWhile fun c => !stop c, some rest)

def exponent? (s : List Char) : Option Int :=
  let (negative, s) := splitSign s
  (digitRun? Text.isAsciiDigit false s).map fun digits =>
    let n : Int := Text.decimalValue digits
    if negative then -n else n

def optionalPart? {α : Type} (read : List Char → Option α) (absent : α) :
    Option (List Char) → Option α
  | none => some absent
  | some s => read s

/-- A float has a fraction, an exponent or both. -/
def decimalFloat? (s : List Char) : Option Float := do
  let (negative, s) := splitSign s
  let (mantissa, scale) := cutAt (fun c => c = 'e' ∨ c = 'E') s
  let (whole, fraction) := cutAt (· = '.') mantissa
  if scale.isNone && fraction.isNone then none
  else
    let whole ← wholeDigits? whole
    let fraction ← optionalPart? (digitRun? Text.isAsciiDigit false) [] fraction
    let exponent ← optionalPart? exponent? 0 scale
    let x := Decimal.nearest (Text.decimalValue (whole ++ fraction)) (exponent - fraction.length)
    if x.isInf then none else some (if negative then -x else x)

def specialFloat? (s : List Char) : Option Float :=
  let (negative, s) := splitSign s
  if s = ['i', 'n', 'f'] then
    some (if negative then -(1.0 / 0.0) else 1.0 / 0.0)
  else if s = ['n', 'a', 'n'] then some (0.0 / 0.0)
  else none

/-- Exactly so many ASCII digits in front, with their value. -/
def takeNumber? (count : Nat) (s : List Char) : Option (Nat × List Char) :=
  let digits := s.take count
  if digits.length = count ∧ digits.all Text.isAsciiDigit then
    some (Text.decimalValue digits, s.drop count)
  else none

def takeChar? (c : Char) : List Char → Option (List Char)
  | [] => none
  | d :: rest => if c = d then some rest else none

def isLeapYear (year : Nat) : Bool :=
  year % 4 == 0 && (year % 100 != 0 || year % 400 == 0)

def daysIn (year month : Nat) : Nat :=
  if month = 2 then if isLeapYear year then 29 else 28
  else if [4, 6, 9, 11].contains month then 30
  else 31

/-- What follows a date at the start. -/
def date? (s : List Char) : Option (List Char) := do
  let (year, s) ← takeNumber? 4 s
  let s ← takeChar? '-' s
  let (month, s) ← takeNumber? 2 s
  let s ← takeChar? '-' s
  let (day, s) ← takeNumber? 2 s
  if 1 ≤ month ∧ month ≤ 12 ∧ 1 ≤ day ∧ day ≤ daysIn year month then some s else none

def seconds? : List Char → Option (List Char)
  | ':' :: s => do
      let (second, s) ← takeNumber? 2 s
      if 60 < second then none
      else match s with
        | '.' :: s =>
            if s.head?.any Text.isAsciiDigit then some (s.dropWhile Text.isAsciiDigit) else none
        | s => some s
  | s => some s

/-- What follows a time at the start. The seconds may be left out. -/
def time? (s : List Char) : Option (List Char) := do
  let (hour, s) ← takeNumber? 2 s
  let s ← takeChar? ':' s
  let (minute, s) ← takeNumber? 2 s
  if hour ≤ 23 ∧ minute ≤ 59 then seconds? s else none

/-- Whether a text is an offset from universal time, or empty. -/
def isOffset : List Char → Bool
  | [] | ['Z'] | ['z'] => true
  | sign :: s =>
      if sign = '+' ∨ sign = '-' then
        match takeNumber? 2 s with
        | some (hour, ':' :: s) =>
            match takeNumber? 2 s with
            | some (minute, []) => decide (hour ≤ 23 ∧ minute ≤ 59)
            | _ => false
        | _ => false
      else false

def isDateTime (s : List Char) : Bool :=
  match date? s with
  | some [] => true
  | some (c :: rest) =>
      if c = 'T' ∨ c = 't' ∨ c = ' ' then (time? rest).any isOffset else false
  | none => time? s == some []

/-- A date is handed on as a record of one reserved field. -/
def dateDocument (s : List Char) : Document :=
  .object [(some "$datetime", .string (String.ofList s))]

def scalar? (s : List Char) : Option Document :=
  if s = ['t', 'r', 'u', 'e'] then some (.bool true)
  else if s = ['f', 'a', 'l', 's', 'e'] then some (.bool false)
  else match integer? s with
    | some n => if fitsInteger n then some (.number (.int n)) else none
    | none =>
        match (decimalFloat? s).or (specialFloat? s) with
        | some x => some (.number (.float x))
        | none => if isDateTime s then some (dateDocument s) else none

end Overseer.Toml
