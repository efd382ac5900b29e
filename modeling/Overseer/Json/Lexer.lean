import Overseer.Json.Basic
import Overseer.Decimal.Scaled
import Overseer.Text.Digit

/-! # JSON tokens

The text is read one character at a time by a machine that holds the token under way. A number past the
largest double and a string with a surrogate that stands alone are tokens, so that they can be passed
over, but have no value. After the first error nothing more is read.
-/

namespace Overseer.Json

inductive Token
  | openObject
  | closeObject
  | openArray
  | closeArray
  | comma
  | colon
  | null
  | bool (value : Bool)
  | number (value : Option Number)
  | string (value : Option String)
  | invalid
  deriving Repr, DecidableEq

/-- How far a number has been read. -/
inductive NumberStage
  | sign
  | zero
  | integer
  | point
  | fraction
  | exponent
  | exponentSign
  | exponentDigits
  deriving Repr, DecidableEq

structure NumberState where
  stage : NumberStage
  negative : Bool
  scaled : Decimal.Scaled
  exponentNegative : Bool
  exponent : Nat
  deriving Repr, DecidableEq

/-- How far an escape in a string has been read. -/
inductive Escape
  | none
  | backslash
  | hex (read value : Nat)
  deriving Repr, DecidableEq

structure StringState where
  /-- The characters read, the last one first. -/
  text : List Char
  readable : Bool
  /-- A first half of a pair whose second half is still to come. -/
  high : Option Nat
  escape : Escape
  deriving Repr, DecidableEq

inductive Lexing
  | ready
  | word (missing : List Char) (token : Token)
  | number (state : NumberState)
  | string (state : StringState)
  | failed
  deriving Repr, DecidableEq

def isSpace (c : Char) : Bool := c == ' ' || c == '\n' || c == '\r' || c == '\t'

def Scaled.wholeNumber (s : Decimal.Scaled) (negative : Bool) : Option Number :=
  if s.full then (s.read negative).map .float
  else if !negative then some (.int s.significand)
  else if s.significand = 0 || decide (Nat.pow 2 63 < s.significand) then (s.read true).map .float
  else some (.int (-s.significand))

def NumberState.value (n : NumberState) : Option Number :=
  match n.stage with
  | .zero | .integer => Scaled.wholeNumber n.scaled n.negative
  | _ =>
      let shift : Int := if n.exponentNegative then -n.exponent else n.exponent
      let scaled := { n.scaled with exponent := n.scaled.exponent + shift }
      (scaled.read n.negative).map .float

/-- Whether the number may end here. -/
def NumberState.complete (n : NumberState) : Bool :=
  match n.stage with
  | .zero | .integer | .fraction | .exponentDigits => true
  | _ => false

/-- The number with one more character, if it can have it. -/
def NumberState.next (n : NumberState) (c : Char) : Option NumberState :=
  let digit := Text.digitValue c
  let isExponent := c == 'e' || c == 'E'
  match n.stage with
  | .sign =>
      if c = '0' then some { n with stage := .zero }
      else if c.isDigit then some { n with stage := .integer, scaled := n.scaled.integerDigit digit }
      else none
  | .zero =>
      if c = '.' then some { n with stage := .point, scaled := n.scaled.point }
      else if isExponent then some { n with stage := .exponent }
      else none
  | .integer =>
      if c.isDigit then some { n with scaled := n.scaled.integerDigit digit }
      else if c = '.' then some { n with stage := .point, scaled := n.scaled.point }
      else if isExponent then some { n with stage := .exponent }
      else none
  | .point =>
      if c.isDigit then some { n with stage := .fraction, scaled := n.scaled.fractionDigit digit }
      else none
  | .fraction =>
      if c.isDigit then some { n with scaled := n.scaled.fractionDigit digit }
      else if isExponent then some { n with stage := .exponent }
      else none
  | .exponent =>
      if c = '+' then some { n with stage := .exponentSign }
      else if c = '-' then some { n with stage := .exponentSign, exponentNegative := true }
      else if c.isDigit then some { n with stage := .exponentDigits, exponent := digit }
      else none
  | .exponentSign =>
      if c.isDigit then some { n with stage := .exponentDigits, exponent := digit } else none
  | .exponentDigits =>
      if c.isDigit then some { n with exponent := n.exponent * 10 + digit } else none

def isHighSurrogate (n : Nat) : Bool := decide (0xd800 ≤ n) && decide (n < 0xdc00)

def isLowSurrogate (n : Nat) : Bool := decide (0xdc00 ≤ n) && decide (n < 0xe000)

/-- A pair of surrogates that was begun and not completed leaves the string without a value. -/
def StringState.closePair (s : StringState) : StringState :=
  match s.high with
  | none => s
  | some _ => { s with readable := false, high := none }

def StringState.push (s : StringState) (c : Char) : StringState :=
  let s := s.closePair
  { s with text := c :: s.text, escape := .none }

def StringState.pushUnit (s : StringState) (n : Nat) : StringState :=
  match s.high with
  | some high =>
      if isLowSurrogate n then
        let c := Char.ofNat (0x10000 + (high - 0xd800) * 0x400 + (n - 0xdc00))
        { s with text := c :: s.text, high := none, escape := .none }
      else { s with readable := false, high := none, escape := .none }
  | none =>
      if isHighSurrogate n then { s with high := some n, escape := .none }
      else if isLowSurrogate n then { s with readable := false, escape := .none }
      else { s with text := Char.ofNat n :: s.text, escape := .none }

def escapedChar? (c : Char) : Option Char :=
  if c = '"' ∨ c = '\\' ∨ c = '/' then some c
  else if c = 'b' then some '\x08'
  else if c = 'f' then some '\x0c'
  else if c = 'n' then some '\n'
  else if c = 'r' then some '\r'
  else if c = 't' then some '\t'
  else none

def StringState.token (s : StringState) : Token :=
  let s := s.closePair
  .string (if s.readable then some (String.ofList s.text.reverse) else none)

def StringState.next (s : StringState) (c : Char) : List Token × Lexing :=
  match s.escape with
  | .none =>
      if c = '"' then ([s.token], .ready)
      else if c = '\\' then ([], .string { s with escape := .backslash })
      else if c.toNat < 0x20 then ([.invalid], .failed)
      else ([], .string (s.push c))
  | .backslash =>
      if c = 'u' then ([], .string { s with escape := .hex 0 0 })
      else match escapedChar? c with
        | some e => ([], .string (s.push e))
        | none => ([.invalid], .failed)
  | .hex read value =>
      match Text.hexDigit? c with
      | none => ([.invalid], .failed)
      | some d =>
          if read = 3 then ([], .string (s.pushUnit (value * 16 + d)))
          else ([], .string { s with escape := .hex (read + 1) (value * 16 + d) })

def startNumber (stage : NumberStage) (negative : Bool) (digit : Option Nat) : Lexing :=
  let scaled := match digit with
    | none => .zero
    | some d => Decimal.Scaled.zero.integerDigit d
  .number ⟨stage, negative, scaled, false, 0⟩

/-- A character between tokens. -/
def begin (c : Char) : List Token × Lexing :=
  if isSpace c then ([], .ready)
  else if c = '\x7b' then ([.openObject], .ready)
  else if c = '\x7d' then ([.closeObject], .ready)
  else if c = '[' then ([.openArray], .ready)
  else if c = ']' then ([.closeArray], .ready)
  else if c = ',' then ([.comma], .ready)
  else if c = ':' then ([.colon], .ready)
  else if c = '"' then ([], .string ⟨[], true, none, .none⟩)
  else if c = '-' then ([], startNumber .sign true none)
  else if c = '0' then ([], startNumber .zero false none)
  else if c.isDigit then ([], startNumber .integer false (some (Text.digitValue c)))
  else if c = 'n' then ([], .word ['u', 'l', 'l'] .null)
  else if c = 't' then ([], .word ['r', 'u', 'e'] (.bool true))
  else if c = 'f' then ([], .word ['a', 'l', 's', 'e'] (.bool false))
  else ([.invalid], .failed)

def nextChar (state : Lexing) (c : Char) : List Token × Lexing :=
  match state with
  | .ready => begin c
  | .failed => ([], .failed)
  | .word [] _ => ([.invalid], .failed)
  | .word [d] token => if c = d then ([token], .ready) else ([.invalid], .failed)
  | .word (d :: missing) token => if c = d then ([], .word missing token) else ([.invalid], .failed)
  | .string s => s.next c
  | .number n =>
      match n.next c with
      | some m => ([], .number m)
      | none =>
          if n.stage = .zero ∧ c.isDigit then ([.invalid], .failed)
          else if n.complete then
            let (tokens, after) := begin c
            (.number n.value :: tokens, after)
          else ([.invalid], .failed)

def endOfText : Lexing → List Token
  | .ready | .failed => []
  | .word _ _ | .string _ => [.invalid]
  | .number n => if n.complete then [.number n.value] else [.invalid]

def tokensFrom : Lexing → List Char → List Token
  | state, [] => endOfText state
  | state, c :: rest =>
      let (tokens, after) := nextChar state c
      tokens ++ tokensFrom after rest

def tokens (text : List Char) : List Token := tokensFrom .ready text

end Overseer.Json
