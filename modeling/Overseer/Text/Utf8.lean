/-! # Text as UTF-8 bytes

Sizes are counted in bytes. `lossy` reads any byte sequence: a well-formed sequence of bytes is its
character, and each maximal ill-formed part is one U+FFFD.
-/

namespace Overseer.Text

def byteLength (s : List Char) : Nat := s.foldr (fun c n => c.utf8Size + n) 0

def encode (s : List Char) : List UInt8 := s.flatMap String.utf8EncodeChar

/-- A character of which some bytes are read: the value so far, how many bytes are missing, and the
range in which the next one has to lie. -/
structure Partial where
  value : Nat
  missing : Nat
  low : Nat
  high : Nat
  deriving Repr, DecidableEq

def replacement : Char := '\ufffd'

/-- The first byte of a character, or a byte that cannot be one. -/
def firstByte (b : UInt8) : List Char × Option Partial :=
  let n := b.toNat
  if n < 0x80 then ([Char.ofNat n], none)
  else if n < 0xc2 then ([replacement], none)
  else if n < 0xe0 then ([], some ⟨n - 0xc0, 1, 0x80, 0xbf⟩)
  else if n < 0xf0 then
    let low := if n = 0xe0 then 0xa0 else 0x80
    let high := if n = 0xed then 0x9f else 0xbf
    ([], some ⟨n - 0xe0, 2, low, high⟩)
  else if n < 0xf5 then
    let low := if n = 0xf0 then 0x90 else 0x80
    let high := if n = 0xf4 then 0x8f else 0xbf
    ([], some ⟨n - 0xf0, 3, low, high⟩)
  else ([replacement], none)

def nextByte (p : Partial) (b : UInt8) : List Char × Option Partial :=
  let n := b.toNat
  if p.low ≤ n ∧ n ≤ p.high then
    let value := p.value * 64 + (n - 0x80)
    if p.missing ≤ 1 then ([Char.ofNat value], none)
    else ([], some ⟨value, p.missing - 1, 0x80, 0xbf⟩)
  else
    let (out, state) := firstByte b
    (replacement :: out, state)

def lossyFrom : Option Partial → List UInt8 → List Char
  | none, [] => []
  | some _, [] => [replacement]
  | none, b :: rest =>
      let (out, state) := firstByte b
      out ++ lossyFrom state rest
  | some p, b :: rest =>
      let (out, state) := nextByte p b
      out ++ lossyFrom state rest

def lossy (bytes : List UInt8) : List Char := lossyFrom none bytes

end Overseer.Text
