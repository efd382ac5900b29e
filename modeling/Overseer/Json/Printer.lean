import Overseer.Json.Basic
import Overseer.Decimal.Layout
import Overseer.Text.Hex

/-! # JSON text

The compact form: no space between tokens. Of a string only the quote, the backslash and the control
characters are escaped. A double has the fewest digits that read back.
-/

namespace Overseer.Json

/-- Doubles from `1e-5` up to `1e16` are written positionally. -/
def floatLayout : Decimal.Layout := ⟨some (-5, 16), "null", "null"⟩

def escapeChar (c : Char) : List Char :=
  if c = '"' then ['\\', '"']
  else if c = '\\' then ['\\', '\\']
  else if c = '\x08' then ['\\', 'b']
  else if c = '\x0c' then ['\\', 'f']
  else if c = '\n' then ['\\', 'n']
  else if c = '\r' then ['\\', 'r']
  else if c = '\t' then ['\\', 't']
  else if c.toNat < 0x20 then ['\\', 'u'] ++ Text.hexDigits 4 c.toNat
  else [c]

def quote (s : String) : List Char := '"' :: s.toList.flatMap escapeChar ++ ['"']

def numberText : Number → List Char
  | .int n => (toString n).toList
  | .float x => floatLayout.write x

def joined (parts : List (List Char)) : List Char := [','].intercalate parts

mutual

def chars : Json → List Char
  | .null => "null".toList
  | .bool true => "true".toList
  | .bool false => "false".toList
  | .number n => numberText n
  | .string s => quote s
  | .array items => '[' :: joined (charsOfItems items) ++ [']']
  | .obj fields => '\x7b' :: joined (charsOfFields fields) ++ ['\x7d']

def charsOfItems : List Json → List (List Char)
  | [] => []
  | item :: rest => chars item :: charsOfItems rest

def charsOfFields : List (String × Json) → List (List Char)
  | [] => []
  | (key, value) :: rest => (quote key ++ ':' :: chars value) :: charsOfFields rest

end

def compact (v : Json) : String := String.ofList v.chars

end Overseer.Json
