import Overseer.Table

/-! # Broadcasting to slow subscribers

A channel keeps the newest messages in a ring, and each subscriber has a position in the sequence of all
messages. Sending never waits. A subscriber whose next message has left the ring is told once how many it
missed and goes on at the oldest one kept. Without a subscriber a message is not kept at all.
-/

namespace Overseer

structure Channel (α : Type) where
  /-- How many messages the ring holds. -/
  size : Nat
  /-- The messages kept, the oldest first. -/
  ring : List α
  /-- How many messages have been sent. -/
  sent : Nat
  /-- The subscribers, each with the number of the message it gets next. -/
  subscribers : Table String Nat
  deriving Repr

inductive Receipt (α : Type)
  | message (value : α)
  | lagged (missed : Nat)
  | empty
  | noSubscriber
  deriving Repr

namespace Channel

variable {α : Type}

/-- The capacity, at least one, is rounded up to a power of two. -/
def new (capacity : Nat) : Channel α := ⟨(max capacity 1).nextPowerOfTwo, [], 0, []⟩

def subscribe (c : Channel α) (name : String) : Channel α :=
  { c with subscribers := c.subscribers.set name c.sent }

def unsubscribe (c : Channel α) (name : String) : Bool × Channel α :=
  (c.subscribers.contains name, { c with subscribers := c.subscribers.remove name })

def count (c : Channel α) : Nat := c.subscribers.length

def keepNewest (size : Nat) (ring : List α) : List α := ring.drop (ring.length - size)

def send (c : Channel α) (value : α) : Channel α :=
  if c.subscribers.isEmpty then c
  else { c with ring := keepNewest c.size (c.ring ++ [value]), sent := c.sent + 1 }

/-- The number of the oldest message kept. -/
def oldest (c : Channel α) : Nat := c.sent - c.ring.length

/-- What a subscriber at `next` gets, and its new position. -/
def take (c : Channel α) (next : Nat) : Receipt α × Nat :=
  if c.sent ≤ next then (.empty, next)
  else if next < c.sent - c.size then (.lagged (c.sent - c.size - next), c.sent - c.size)
  else match c.ring[next - c.oldest]? with
    | some value => (.message value, next + 1)
    | none => (.empty, next)

def receive (c : Channel α) (name : String) : Receipt α × Channel α :=
  match c.subscribers.get? name with
  | none => (.noSubscriber, c)
  | some next =>
      let (receipt, next) := c.take next
      (receipt, { c with subscribers := c.subscribers.set name next })

end Channel

end Overseer
