import Overseer.Text.Digit

/-! # Arithmetic in scripts

Sums of products of atoms, on integers. Division goes towards zero.

The shell is a part of the stand-in host on which runs are made, and no part of the program that is modelled
(`Host.Programs`).
-/

namespace Overseer.Host.Shell

/-- Joins two operands; dividing by zero has no value. -/
def combine (operator : Char) (a b : Int) : Option Int :=
  match operator with
  | '+' => some (a + b)
  | '-' => some (a - b)
  | '*' => some (a * b)
  | '/' => if b = 0 then none else some (a.tdiv b)
  | '%' => if b = 0 then none else some (a.tmod b)
  | _ => none

variable (value : String → Int)

mutual

def atom : Nat → List Char → Option (Int × List Char)
  | n + 1, '(' :: rest =>
      match sum n rest with
      | some (x, ')' :: rest) => some (x, rest)
      | _ => none
  | n + 1, '-' :: rest => (atom n rest).map fun (x, rest) => (-x, rest)
  | _, s =>
      let name := s.takeWhile fun c => c.isAlphanum || c == '_'
      let rest := s.drop name.length
      if name.isEmpty then none
      else if name.all Text.isAsciiDigit then some (Int.ofNat (Text.decimalValue name), rest)
      else some (value (String.ofList name), rest)

def product : Nat → List Char → Option (Int × List Char)
  | 0, _ => none
  | n + 1, s => do
      let (x, rest) ← atom n s
      from? n ['*', '/', '%'] x rest

def sum : Nat → List Char → Option (Int × List Char)
  | 0, _ => none
  | n + 1, s => do
      let (x, rest) ← product n s
      from? n ['+', '-'] x rest

/-- Goes on after a first operand while one of the operators follows. -/
def from? : Nat → List Char → Int → List Char → Option (Int × List Char)
  | n + 1, operators, x, c :: rest =>
      if operators.contains c then do
        let (y, rest) ← if operators.contains '+' then product n rest else atom n rest
        let z ← combine c x y
        from? n operators z rest
      else some (x, c :: rest)
  | _, _, x, rest => some (x, rest)

end

/-- The value of an expression, in which blanks, dollar signs and braces do not count. -/
def evaluate? (expression : List Char) : Option Int :=
  let s := expression.filter fun c => !c.isWhitespace && !(['$', '{', '}'].contains c)
  match sum value (4 * s.length + 4) s with
  | some (x, []) => some x
  | _ => none

end Overseer.Host.Shell
