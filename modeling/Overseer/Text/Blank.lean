/-! # White space and trimming

`isBlank` is the property White_Space. Trimming removes it at both ends and keeps it inside.
-/

namespace Overseer.Text

def isBlank (c : Char) : Bool :=
  let n := c.toNat
  (9 ≤ n && n ≤ 13) || n == 32 || n == 133 || n == 160 || n == 5760 || (8192 ≤ n && n ≤ 8202)
    || n == 8232 || n == 8233 || n == 8239 || n == 8287 || n == 12288

def stripStart (s : List Char) : List Char := s.dropWhile isBlank

def stripEnd (s : List Char) : List Char := (s.reverse.dropWhile isBlank).reverse

def strip (s : List Char) : List Char := stripEnd (stripStart s)

def trim (s : String) : String := String.ofList (strip s.toList)

/-- Whether a text has nothing but white space, the empty text included. -/
def allBlank (s : String) : Bool := s.toList.all isBlank

/-- The trimmed text, unless nothing is left of it. -/
def trimmed? (s : String) : Option String :=
  if allBlank s then none else some (trim s)

end Overseer.Text
