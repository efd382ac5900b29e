/-! # The parts of a double

A finite double is `± mantissa · 2 ^ exponent`. Its neighbours lie two units of a quarter of the last
place away, except below a power of two, where the lower one is half as far.
-/

namespace Overseer.Decimal

structure Binary where
  negative : Bool
  mantissa : Nat
  exponent : Int
  deriving Repr, DecidableEq

inductive Parts
  | finite (value : Binary)
  | infinite (negative : Bool)
  | nan
  deriving Repr, DecidableEq

def fractionBits : Nat := 52

def leastExponent : Int := -1074

def parts (x : Float) : Parts :=
  let bits : Nat := x.toBits.toNat
  let negative := decide (bits / Nat.pow 2 63 % 2 = 1)
  let biased : Nat := bits / Nat.pow 2 fractionBits % 2048
  let fraction : Nat := bits % Nat.pow 2 fractionBits
  if biased = 2047 then
    if fraction = 0 then .infinite negative else .nan
  else if biased = 0 then .finite ⟨negative, fraction, leastExponent⟩
  else .finite ⟨negative, Nat.pow 2 fractionBits + fraction, (biased : Int) - 1075⟩

/-- The distance to the lower neighbour is halved. -/
def Binary.narrowBelow (x : Binary) : Bool :=
  x.mantissa == Nat.pow 2 fractionBits && decide (leastExponent < x.exponent)

/-- A nonnegative integer times a power of two, as a fraction of naturals. -/
def asFraction (n : Nat) (exponent : Int) : Nat × Nat :=
  if 0 ≤ exponent then (n * Nat.pow 2 exponent.toNat, 1) else (n, Nat.pow 2 (-exponent).toNat)

end Overseer.Decimal
