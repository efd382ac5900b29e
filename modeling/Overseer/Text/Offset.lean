import Overseer.Text.Cut

/-! # Cuts at byte offsets

A text is cut at an offset into its bytes. Inside a character and outside the text there is no cut. An offset that may be
inside a character is moved by one byte at a time until it is between two characters: back when the start of the text is
kept, forward when its end is.
-/

namespace Overseer.Text

/-- The bytes that go on with a character are from `0x80` to `0xbf`. -/
def startsCharacter (b : UInt8) : Bool := decide (b.toNat < 0x80) || decide (0xc0 ≤ b.toNat)

/-- The offset is in the text, or at its end, and no character goes on across it. -/
def betweenCharacters (bytes : List UInt8) (offset : Nat) : Bool :=
  offset == 0 ||
    match bytes[offset]? with
    | some b => startsCharacter b
    | none => offset == bytes.length

/-- The two sides of an offset. -/
def splitAt? (bytes : List UInt8) (offset : Nat) : Option (List UInt8 × List UInt8) :=
  if betweenCharacters bytes offset then some (bytes.take offset, bytes.drop offset) else none

/-- The first place for a cut on the way back. -/
def cutBefore? (bytes : List UInt8) : Nat → Option Nat
  | 0 => if betweenCharacters bytes 0 then some 0 else none
  | offset + 1 =>
      if betweenCharacters bytes (offset + 1) then some (offset + 1) else cutBefore? bytes offset

/-- The first place for a cut on the way forward. Past the end of the text there is none. -/
def cutAfter? (bytes : List UInt8) (offset : Nat) : Option Nat :=
  if betweenCharacters bytes offset then some offset
  else if offset < bytes.length then cutAfter? bytes (offset + 1)
  else none
  termination_by bytes.length - offset

/-- The end of a text that is too long begins where at most `limit` bytes are left. -/
def tailBytes? (limit : Nat) (bytes : List UInt8) : Option (List UInt8) :=
  if bytes.length ≤ limit then some bytes
  else do
    let start ← cutAfter? bytes (bytes.length - limit)
    let (_, tail) ← splitAt? bytes start
    some tail

/-- A text that is too long is cut where there is room for the mark, which is left out when there is
room for nothing else. -/
def abridgeBytes? (mark : List UInt8) (limit : Nat) (bytes : List UInt8) : Option (List UInt8) :=
  if bytes.length ≤ limit then some bytes
  else do
    let stop ← cutBefore? bytes (limit - mark.length)
    let (head, _) ← splitAt? bytes stop
    some (if mark.length < limit then head ++ mark else head)

end Overseer.Text
