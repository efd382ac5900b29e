import Overseer.Text.Digit

/-! # Bytes and numbers as hexadecimal digits -/

namespace Overseer.Text

def hexByte (b : UInt8) : List Char := [hexChar (b.toNat / 16), hexChar (b.toNat % 16)]

def hexText (bytes : List UInt8) : String := String.ofList (bytes.flatMap hexByte)

/-- The `width` lowest hexadecimal digits of a number. -/
def hexDigits (width n : Nat) : List Char :=
  (List.range width).reverse.map fun i => hexChar (n / Nat.pow 16 i % 16)

def hexValue? (digits : List Char) : Option Nat :=
  digits.foldlM (fun n c => (hexDigit? c).map (n * 16 + ·)) 0

def readBytes? : List Char → Option (List UInt8)
  | [] => some []
  | a :: b :: rest => do
      let high ← hexDigit? a
      let low ← hexDigit? b
      let bytes ← readBytes? rest
      some (UInt8.ofNat (high * 16 + low) :: bytes)
  | [_] => none

end Overseer.Text
