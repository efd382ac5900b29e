import Overseer.Decimal.Binary

/-! # The nearest double

A decimal is an integer and the power of ten it is worth. It is read as the nearest double, a half as the
even one. A decimal whose first digit stands too far out is infinite or zero without a computation.
-/

namespace Overseer.Decimal

/-- The most places that a finite double has before its point. -/
def mostPlaces : Int := 310

/-- The most zeros that follow the point of a double other than zero. -/
def mostZeros : Int := 345

def nearest (digits : Nat) (exponent : Int) : Float :=
  let places := ((toString digits).length : Int) + exponent
  if digits = 0 then 0
  else if mostPlaces < places then Float.ofScientific 1 false 400
  else if places < -mostZeros then 0
  else if 0 ≤ exponent then Float.ofScientific digits false exponent.toNat
  else Float.ofScientific digits true exponent.natAbs

end Overseer.Decimal
