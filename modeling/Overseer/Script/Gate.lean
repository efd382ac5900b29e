import Overseer.Capability.Call

/-! # Gates

A gate lets one caller pass for each permit, in the order in which they came. A permit can be granted to a
caller before the caller looks again; when such a caller leaves, the permit goes back. A closed gate
refuses everyone.
-/

namespace Overseer.Script

/-- Callers are told apart by their tickets. -/
structure Gate where
  permits : Nat
  closed : Bool
  waiting : List Nat
  granted : List Nat
  deriving Repr, DecidableEq

inductive Passage
  | passed
  | refused
  | waits
  deriving Repr, DecidableEq

namespace Gate

def new (permits : Nat) : Gate := ⟨permits, false, [], []⟩

def shut : Gate := ⟨0, true, [], []⟩

def arrive (g : Gate) (ticket : Nat) : Passage × Gate :=
  if g.closed then (.refused, g)
  else if 0 < g.permits then (.passed, { g with permits := g.permits - 1 })
  else (.waits, { g with waiting := g.waiting ++ [ticket] })

def look (g : Gate) (ticket : Nat) : Passage × Gate :=
  if g.closed then (.refused, g)
  else if g.granted.contains ticket then (.passed, { g with granted := g.granted.erase ticket })
  else (.waits, g)

/-- Who waits is served first. -/
def addPermits (g : Gate) (n : Nat) : Gate :=
  { g with
    granted := g.granted ++ g.waiting.take n
    waiting := g.waiting.drop n
    permits := g.permits + (n - g.waiting.length) }

def leave (g : Gate) (ticket : Nat) : Gate :=
  if g.granted.contains ticket then
    { g with granted := g.granted.erase ticket }.addPermits 1
  else { g with waiting := g.waiting.erase ticket }

def close (g : Gate) : Gate := { g with closed := true }

end Gate

end Overseer.Script
