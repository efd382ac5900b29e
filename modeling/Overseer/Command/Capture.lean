import Overseer.Text.Utf8

/-! # Bounded capture

Of a stream of output the front is kept, as much of it as the limit allows, and the rest is counted. The
stream comes in chunks of any size.
-/

namespace Overseer.Command

structure Capture where
  /-- How many bytes are kept at most. -/
  limit : Nat
  kept : List UInt8
  dropped : Nat
  deriving Repr, DecidableEq

namespace Capture

def new (limit : Nat) : Capture := ⟨limit, [], 0⟩

def room (c : Capture) : Nat := c.limit - c.kept.length

def add (c : Capture) (chunk : List UInt8) : Capture :=
  { c with
    kept := c.kept ++ chunk.take c.room
    dropped := c.dropped + (chunk.length - c.room) }

def ofChunks (limit : Nat) (chunks : List (List UInt8)) : Capture := chunks.foldl add (new limit)

/-- What stands for the bytes that were dropped. -/
def note (c : Capture) (stream : String) : String :=
  if c.dropped = 0 then ""
  else "\n[" ++ stream ++ " truncated " ++ toString c.dropped ++ " bytes]\n"

def text (c : Capture) (stream : String) : String :=
  String.ofList (Text.lossy c.kept) ++ c.note stream

end Capture

end Overseer.Command
