import Overseer.Json.Basic
import Overseer.Decimal.Fixed

/-! # Costs

What the budget needs of a kind of number: a zero, addition, comparison, and the two questions whether
a cost is a number at all and whether it is finite. `floor` is the larger of a cost and zero; of no
number it is zero. Doubles are one instance.
-/

namespace Overseer

class Cost (κ : Type) where
  zero : κ
  add : κ → κ → κ
  floor : κ → κ
  le : κ → κ → Bool
  lt : κ → κ → Bool
  isNaN : κ → Bool
  isFinite : κ → Bool
  text : κ → String
  toJson : κ → Json

instance : Cost Float where
  zero := 0
  add x y := x + y
  floor x := if (0 : Float) < x then x else 0
  le x y := x ≤ y
  lt x y := x < y
  isNaN x := x.isNaN
  isFinite x := x.isFinite
  text x := Decimal.fixed 4 x
  toJson x := Json.float x

end Overseer
