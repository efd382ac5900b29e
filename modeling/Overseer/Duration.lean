/-! # Spans of time

A span is counted in nanoseconds. Its text is in the largest of the units s, ms, µs and ns that it holds
at least once, with as many decimals as it needs.
-/

namespace Overseer

structure Duration where
  nanos : Nat
  deriving Repr, DecidableEq, Inhabited

namespace Duration

def ofMicros (n : Nat) : Duration := ⟨n * 1000⟩

def ofSecs (n : Nat) : Duration := ⟨n * 1000000000⟩

def secs (d : Duration) : Nat := d.nanos / 1000000000

def zero : Duration := ⟨0⟩

/-- The decimals of `part` in units of ten to the minus `places`, without zeros at the end. -/
def decimals (places part : Nat) : List Char :=
  let digits := (toString part).toList
  let padded := List.replicate (places - digits.length) '0' ++ digits
  (padded.reverse.dropWhile (· == '0')).reverse

def inUnit (d : Duration) (places : Nat) (unit : String) : String :=
  let whole := toString (d.nanos / Nat.pow 10 places)
  match decimals places (d.nanos % Nat.pow 10 places) with
  | [] => whole ++ unit
  | digits => whole ++ "." ++ String.ofList digits ++ unit

def text (d : Duration) : String :=
  if 1000000000 ≤ d.nanos then d.inUnit 9 "s"
  else if 1000000 ≤ d.nanos then d.inUnit 6 "ms"
  else if 1000 ≤ d.nanos then d.inUnit 3 "µs"
  else d.inUnit 0 "ns"

end Duration

end Overseer
