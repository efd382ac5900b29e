import Overseer.Decimal.Binary

/-! # A fixed number of places

The exact value of a double is rounded to the nearest multiple of the last place, a half to the even
neighbour. The sign of a negative number stays, also when only zeros are left of it.
-/

namespace Overseer.Decimal

def roundHalfEven (num den : Nat) : Nat :=
  let q := num / den
  let r := num % den
  if 2 * r < den then q
  else if den < 2 * r then q + 1
  else if q % 2 = 0 then q else q + 1

def padLeft (width : Nat) (digits : List Char) : List Char :=
  List.replicate (width - digits.length) '0' ++ digits

def fixedDigits (places : Nat) (units : Nat) : List Char :=
  let digits := padLeft (places + 1) (toString units).toList
  digits.take (digits.length - places) ++ '.' :: digits.drop (digits.length - places)

def fixed (places : Nat) (x : Float) : String :=
  match parts x with
  | .nan => "NaN"
  | .infinite negative => if negative then "-inf" else "inf"
  | .finite value =>
      let (num, den) := asFraction value.mantissa value.exponent
      let text := fixedDigits places (roundHalfEven (num * Nat.pow 10 places) den)
      String.ofList ((if value.negative then ['-'] else []) ++ text)

end Overseer.Decimal
