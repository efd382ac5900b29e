import Overseer.Text.Digit
import Overseer.Text.Utf8

/-! # Formatted output

A format is text with escapes and directives. It is used again as long as arguments are left over; a
missing argument is empty, or zero.

Part of the stand-in host on which runs are made, and no part of the program that is modelled (`Host.Programs`).
-/

namespace Overseer.Host.Format

def octalDigit? (c : Char) : Option Nat :=
  if '0' ≤ c ∧ c ≤ '7' then some (c.toNat - '0'.toNat) else none

/-- The value of at most `most` octal digits, and what follows them. -/
def octal : Nat → Nat → List Char → Nat × List Char
  | most + 1, value, c :: rest =>
      match octalDigit? c with
      | some digit => octal most (value * 8 + digit) rest
      | none => (value, c :: rest)
  | _, value, s => (value, s)

def simpleEscapes : List (Char × Nat) :=
  [('a', 7), ('b', 8), ('f', 12), ('n', 10), ('r', 13), ('t', 9), ('v', 11), ('\\', 92)]

/-- The bytes of an escape whose backslash has been read, and what follows it. -/
def escape (s : List Char) : List UInt8 × List Char :=
  match s with
  | [] => ([92], [])
  | c :: rest =>
      match simpleEscapes.lookup c with
      | some value => ([UInt8.ofNat value], rest)
      | none =>
          if (octalDigit? c).isSome then
            let (value, rest) := octal 3 0 s
            ([UInt8.ofNat value], rest)
          else ([92], s)

/-- An argument in which escapes count. An octal value may have a zero in front of its three digits, and
the escape `c` ends all output. -/
def expand : Nat → List Char → List UInt8 × Bool
  | _, [] => ([], false)
  | 0, _ => ([], false)
  | _, '\\' :: 'c' :: _ => ([], true)
  | n + 1, '\\' :: s =>
      let (bytes, rest) := match s with
        | '0' :: digits => let (value, rest) := octal 3 0 digits; ([UInt8.ofNat value], rest)
        | _ => escape s
      let (more, ended) := expand n rest
      (bytes ++ more, ended)
  | n + 1, c :: rest =>
      let (more, ended) := expand n rest
      (Text.encode [c] ++ more, ended)

def expanded (text : String) : List UInt8 × Bool := expand text.length text.toList

structure Directive where
  flags : List Char
  width : Nat
  precision : Option Nat
  letter : Char
  deriving Repr, DecidableEq

def isFlag (c : Char) : Bool := ['-', '+', ' ', '0', '#'].contains c

def directive? (s : List Char) : Option (Directive × List Char) :=
  let flags := s.takeWhile isFlag
  let s := s.drop flags.length
  let width := s.takeWhile Text.isAsciiDigit
  let s := s.drop width.length
  let (precision, s) := match s with
    | '.' :: rest =>
        let digits := rest.takeWhile Text.isAsciiDigit
        (some (Text.decimalValue digits), rest.drop digits.length)
    | _ => (none, s)
  match s with
  | letter :: rest => some (⟨flags, Text.decimalValue width, precision, letter⟩, rest)
  | [] => none

def pad (d : Directive) (bytes : List UInt8) : List UInt8 :=
  let blanks := List.replicate (d.width - bytes.length) 32
  if d.flags.contains '-' then bytes ++ blanks else blanks ++ bytes

def readNumber (text : String) : Int :=
  match text.toList with
  | '-' :: rest => - Int.ofNat (Text.decimalValue (rest.takeWhile Text.isAsciiDigit))
  | '+' :: rest => Int.ofNat (Text.decimalValue (rest.takeWhile Text.isAsciiDigit))
  | '0' :: 'x' :: rest =>
      Int.ofNat (rest.foldl (fun n c => n * 16 + (Text.hexDigit? c).getD 0) 0)
  | s => Int.ofNat (Text.decimalValue (s.takeWhile Text.isAsciiDigit))

def digitsIn (base : Nat) (upper : Bool) (n : Nat) : List Char :=
  let digits := Nat.toDigits base n
  if upper then digits.map Char.toUpper else digits

/-- Zeros go between the sign and the digits. -/
def number (d : Directive) (negative : Bool) (digits : List Char) : List UInt8 :=
  let sign := if negative then ['-'] else if d.flags.contains '+' then ['+']
    else if d.flags.contains ' ' then [' '] else []
  let least := match d.precision with
    | some n => n
    | none =>
        if d.flags.contains '0' && !d.flags.contains '-' then d.width - sign.length else 0
  pad d (Text.encode (sign ++ List.replicate (least - digits.length) '0' ++ digits))

/-- What a directive makes of an argument, and whether it ends all output. -/
def apply (d : Directive) (arg : String) : List UInt8 × Bool :=
  let n := readNumber arg
  let digits (base : Nat) (upper : Bool) := number d (decide (n < 0)) (digitsIn base upper n.natAbs)
  let cut (bytes : List UInt8) := match d.precision with
    | some most => bytes.take most
    | none => bytes
  match d.letter with
  | 's' => (pad d (cut (Text.encode arg.toList)), false)
  | 'b' => let (bytes, ended) := expanded arg; (pad d (cut bytes), ended)
  | 'c' => (pad d ((Text.encode arg.toList).take 1), false)
  | 'd' | 'i' | 'u' => (digits 10 false, false)
  | 'o' => (digits 8 false, false)
  | 'x' => (digits 16 false, false)
  | 'X' => (digits 16 true, false)
  | _ => ([], true)

/-- One pass through a format: the bytes, the arguments left over, and whether all output has ended. -/
def pass : Nat → List Char → List String → List UInt8 × List String × Bool
  | _, [], args => ([], args, false)
  | 0, _, args => ([], args, true)
  | n + 1, '\\' :: s, args =>
      let (bytes, rest) := escape s
      let (more, left) := pass n rest args
      (bytes ++ more, left)
  | n + 1, '%' :: '%' :: rest, args =>
      let (more, left) := pass n rest args
      (37 :: more, left)
  | n + 1, '%' :: s, args =>
      match directive? s with
      | none => ([37], args, true)
      | some (d, rest) =>
          let (bytes, ended) := apply d (args.headD "")
          if ended then (bytes, [], true)
          else
            let (more, left) := pass n rest args.tail
            (bytes ++ more, left)
  | n + 1, c :: rest, args =>
      let (more, left) := pass n rest args
      (Text.encode [c] ++ more, left)

/-- Passes until no argument is left; one that takes none is the last. -/
def passes : Nat → List Char → List String → List UInt8
  | 0, _, _ => []
  | n + 1, format, args =>
      let (bytes, left, ended) := pass format.length format args
      if ended || left.isEmpty || left.length == args.length then bytes
      else bytes ++ passes n format left

def write (format : String) (args : List String) : List UInt8 :=
  passes (args.length + 1) format.toList args

end Overseer.Host.Format
