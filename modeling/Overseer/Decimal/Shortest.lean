import Overseer.Decimal.Binary

/-! # The shortest decimal that reads back

For a positive double the decimals that round to it form an interval, closed when the mantissa is
even. `shortest` tries 1, 2, … 17 digits: on each decimal grid only the two neighbours of the value can
be the nearest point, and the first grid with one of them in the interval gives the answer. Of two the
nearer is taken, and of two equally near the even one.
-/

namespace Overseer.Decimal

/-- `digits · 10 ^ exponent`. -/
structure Digits where
  digits : Nat
  exponent : Int
  deriving Repr, DecidableEq

def digitCount (n : Nat) : Nat := (Nat.toDigits 10 n).length

/-- The exponent of the leading decimal digit of a positive fraction. -/
def leadingExponent (num den : Nat) : Int :=
  if den ≤ num then (digitCount (num / den) : Int) - 1
  else
    let n := digitCount (den / num)
    if den ≤ num * Nat.pow 10 (n - 1) then -((n : Int) - 1) else -(n : Int)

/-- A positive value with the ends of its interval, over one denominator. -/
structure Interval where
  low : Nat
  value : Nat
  high : Nat
  den : Nat
  closed : Bool
  deriving Repr, DecidableEq

def Binary.interval (x : Binary) : Interval :=
  let e := x.exponent - 2
  let low := 4 * x.mantissa - (if x.narrowBelow then 1 else 2)
  ⟨(asFraction low e).1, (asFraction (4 * x.mantissa) e).1, (asFraction (4 * x.mantissa + 2) e).1,
    (asFraction 1 e).2, x.mantissa % 2 == 0⟩

/-- The nearest point of the grid of step `10 ^ step` that lies in the interval. -/
def Interval.onGrid (i : Interval) (step : Int) : Option Nat :=
  let up := Nat.pow 10 (-step).toNat
  let unit := i.den * Nat.pow 10 step.toNat
  let below := i.value * up / unit
  let belowIn :=
    if i.closed then decide (i.low * up ≤ below * unit) else decide (i.low * up < below * unit)
  let aboveIn :=
    if i.closed then decide ((below + 1) * unit ≤ i.high * up)
    else decide ((below + 1) * unit < i.high * up)
  let toBelow := i.value * up - below * unit
  let toAbove := (below + 1) * unit - i.value * up
  match belowIn && decide (0 < below), aboveIn with
  | true, true =>
      if toBelow < toAbove ∨ (toBelow = toAbove ∧ below % 2 = 0) then some below
      else some (below + 1)
  | true, false => some below
  | false, true => some (below + 1)
  | false, false => none

def firstGrid (i : Interval) (lead : Int) : Nat → Nat → Digits
  | _, 0 => ⟨i.value / i.den, 0⟩
  | count, tries + 1 =>
      let step := lead - (count : Int) + 1
      match i.onGrid step with
      | some n => ⟨n, step⟩
      | none => firstGrid i lead (count + 1) tries

/-- Removes the zeros at the end of the digits. -/
def Digits.normalize (d : Digits) : Nat → Digits
  | 0 => d
  | fuel + 1 =>
      if d.digits ≠ 0 ∧ d.digits % 10 = 0 then
        Digits.normalize ⟨d.digits / 10, d.exponent + 1⟩ fuel
      else d

def Binary.shortest (x : Binary) : Digits :=
  if x.mantissa = 0 then ⟨0, 0⟩
  else
    let i := x.interval
    (firstGrid i (leadingExponent i.value i.den) 1 17).normalize 18

end Overseer.Decimal
