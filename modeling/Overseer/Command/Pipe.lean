/-! # Pipes

A pipe holds bytes up to its capacity. A writer waits while it is full, unless nobody is left to read; a
reader waits while it is empty, unless nobody is left to write.
-/

namespace Overseer.Command

structure Pipe where
  capacity : Nat
  held : List UInt8
  hasWriter : Bool
  hasReader : Bool
  deriving Repr, DecidableEq

namespace Pipe

def new (capacity : Nat) : Pipe := ⟨capacity, [], true, true⟩

def room (p : Pipe) : Nat := p.capacity - p.held.length

def isFull (p : Pipe) : Bool := p.room == 0

/-- Nothing is there and nothing will come. -/
def isAtEnd (p : Pipe) : Bool := p.held.isEmpty && !p.hasWriter

/-- Takes in as much as there is room for, and gives back the rest. -/
def write (p : Pipe) (bytes : List UInt8) : List UInt8 × Pipe :=
  (bytes.drop p.room, { p with held := p.held ++ bytes.take p.room })

/-- Gives out at most `most` bytes. -/
def read (p : Pipe) (most : Nat) : List UInt8 × Pipe :=
  (p.held.take most, { p with held := p.held.drop most })

def dropWriter (p : Pipe) : Pipe := { p with hasWriter := false }

def dropReader (p : Pipe) : Pipe := { p with hasReader := false }

end Pipe

end Overseer.Command
