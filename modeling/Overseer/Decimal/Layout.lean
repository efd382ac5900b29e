import Overseer.Decimal.Shortest

/-! # Writing a double

A layout says between which exponents of the leading digit a number is written positionally, and how
the numbers that are not finite are spelt. Outside that range the exponent is written with its sign.
A positional number always has a decimal point.
-/

namespace Overseer.Decimal

structure Layout where
  /-- The exponents of the leading digit that are written positionally; no bound means all. -/
  positional : Option (Int × Int)
  nan : String
  infinity : String
  deriving Repr

def zeros (n : Nat) : List Char := List.replicate n '0'

def positionalText (digits : List Char) (exponent : Int) : List Char :=
  let lead := (digits.length : Int) + exponent
  if 0 ≤ exponent then digits ++ zeros exponent.toNat ++ ['.', '0']
  else if 0 < lead then digits.take lead.toNat ++ '.' :: digits.drop lead.toNat
  else '0' :: '.' :: zeros (-lead).toNat ++ digits

def exponentText (digits : List Char) (exponent : Int) : List Char :=
  let lead := (digits.length : Int) + exponent - 1
  let point := if digits.length ≤ 1 then digits else digits.take 1 ++ '.' :: digits.drop 1
  let sign := if 0 ≤ lead then '+' else '-'
  point ++ 'e' :: sign :: (toString lead.natAbs).toList

def Layout.write (layout : Layout) (x : Float) : List Char :=
  match parts x with
  | .nan => layout.nan.toList
  | .infinite negative => (if negative then ['-'] else []) ++ layout.infinity.toList
  | .finite value =>
      let d := value.shortest
      let digits := (toString d.digits).toList
      let lead := (digits.length : Int) + d.exponent - 1
      let plain := value.mantissa == 0 || match layout.positional with
        | none => true
        | some (low, high) => decide (low ≤ lead) && decide (lead < high)
      (if value.negative then ['-'] else []) ++
        if plain then positionalText digits d.exponent else exponentText digits d.exponent

end Overseer.Decimal
