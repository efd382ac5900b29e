import Overseer.Text.Hex

/-! # Task ids

An id is 128 bits. Its text is 32 lower-case hexadecimal digits in five groups. A fresh id is made of
122 random bits; the other six say so, by the version digit 4 and the variant bits 10.
-/

namespace Overseer

structure TaskId where
  bits : BitVec 128
  deriving Repr, DecidableEq, Inhabited

namespace TaskId

def ofNat (n : Nat) : TaskId := ⟨BitVec.ofNat 128 n⟩

def ofRandom (r : Nat) : TaskId :=
  let high := r / Nat.pow 2 74 % Nat.pow 2 48
  let middle := r / Nat.pow 2 62 % Nat.pow 2 12
  let low := r % Nat.pow 2 62
  ofNat (high * Nat.pow 2 80 + 4 * Nat.pow 2 76 + middle * Nat.pow 2 64 + 2 * Nat.pow 2 62 + low)

def groups : List Nat := [8, 4, 4, 4, 12]

def digits (id : TaskId) : List Char := Text.hexDigits 32 id.bits.toNat

def hyphenate : List Nat → List Char → List Char
  | [], _ => []
  | [n], s => s.take n
  | n :: rest, s => s.take n ++ '-' :: hyphenate rest (s.drop n)

def text (id : TaskId) : String := String.ofList (hyphenate groups id.digits)

/-- The digits of a text in groups with a hyphen between each two. -/
def ungroup? : List Nat → List Char → Option (List Char)
  | [], s => if s.isEmpty then some [] else none
  | [n], s => if s.length = n then some s else none
  | n :: rest, s =>
      match s.drop n with
      | '-' :: after => (ungroup? rest after).map (s.take n ++ ·)
      | _ => none

def ofDigits? (s : List Char) : Option TaskId :=
  if s.length = 32 then (Text.hexValue? s).map ofNat else none

def ofHyphenated? (s : List Char) : Option TaskId := (ungroup? groups s).bind ofDigits?

def urn : List Char := "urn:uuid:".toList

/-- Four forms are read: the digits alone, in groups, in groups inside braces, and in groups after the
name space of such ids, whose letters may have either case. -/
def ofList? (s : List Char) : Option TaskId :=
  if s.length = 32 then ofDigits? s
  else if s.length = 36 then ofHyphenated? s
  else if s.length = 38 then
    if s.head? = some '\x7b' ∧ s.getLast? = some '\x7d' then
      ofHyphenated? ((s.drop 1).take 36)
    else none
  else if (s.take urn.length).map Char.toLower = urn then ofHyphenated? (s.drop urn.length)
  else none

def parse? (s : String) : Option TaskId := ofList? s.toList

end TaskId

end Overseer
