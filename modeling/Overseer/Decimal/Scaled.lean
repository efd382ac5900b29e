/-! # Reading a double from scaled digits

The leading digits of a number, as many as fit into 64 bits, are rounded to a double and then
multiplied or divided by one power of ten. Both steps round, so the result can be a neighbour of the
nearest double. A number past the largest double is none.
-/

namespace Overseer.Decimal

def largestWord : Nat := Nat.pow 2 64 - 1

def powerOfTen (n : Nat) : Float := Float.ofScientific 1 false n

/-- A number as it is taken in digit by digit: the digits kept, the power of ten they are worth, and
whether a digit has been left out. -/
structure Scaled where
  significand : Nat
  exponent : Int
  full : Bool
  deriving Repr, DecidableEq

def Scaled.zero : Scaled := ⟨0, 0, false⟩

def Scaled.fits (s : Scaled) (digit : Nat) : Bool :=
  decide (s.significand * 10 + digit ≤ largestWord)

/-- A digit before the point. Once one is left out, all later ones only raise the exponent. -/
def Scaled.integerDigit (s : Scaled) (digit : Nat) : Scaled :=
  if !s.full && s.fits digit then { s with significand := s.significand * 10 + digit }
  else { s with exponent := s.exponent + 1, full := true }

/-- At the point digits are taken in again, if they still fit. -/
def Scaled.point (s : Scaled) : Scaled := { s with full := false }

/-- A digit after the point. Once one is left out, all later ones are. -/
def Scaled.fractionDigit (s : Scaled) (digit : Nat) : Scaled :=
  if !s.full && s.fits digit then
    { s with significand := s.significand * 10 + digit, exponent := s.exponent - 1 }
  else { s with full := true }

/-- Divides by the largest power of ten at hand until the rest of the exponent is within reach. -/
def shrink : Nat → Float → Int → Float
  | 0, x, _ => x
  | fuel + 1, x, exponent =>
      if exponent.natAbs ≤ 308 then x / powerOfTen exponent.natAbs
      else if x == 0 then x
      else shrink fuel (x / powerOfTen 308) (exponent + 308)

def Scaled.magnitude (s : Scaled) : Option Float :=
  let x := Float.ofScientific s.significand false 0
  if 0 ≤ s.exponent then
    if s.exponent ≤ 308 then
      let y := x * powerOfTen s.exponent.toNat
      if y.isInf then none else some y
    else if x == 0 then some x
    else none
  else some (shrink 4 x s.exponent)

def Scaled.read (s : Scaled) (negative : Bool) : Option Float :=
  s.magnitude.map fun x => if negative then -x else x

end Overseer.Decimal
