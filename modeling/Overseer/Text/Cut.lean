import Overseer.Text.Utf8

/-! # Cutting text to a number of bytes

A cut never splits a character: what would reach past the limit is left out whole.
-/

namespace Overseer.Text

/-- The longest prefix of at most `limit` bytes. -/
def headWithin : Nat → List Char → List Char
  | _, [] => []
  | limit, c :: rest =>
      if c.utf8Size ≤ limit then c :: headWithin (limit - c.utf8Size) rest else []

/-- What is left after the shortest prefix of at least `count` bytes. -/
def dropAtLeast : Nat → List Char → List Char
  | _, [] => []
  | count, c :: rest =>
      if count = 0 then c :: rest else dropAtLeast (count - c.utf8Size) rest

/-- The longest suffix of at most `limit` bytes. -/
def tailWithin (limit : Nat) (s : List Char) : List Char :=
  dropAtLeast (byteLength s - limit) s

/-- A text that is too long loses its end; a mark stands for it when there is room for more than
the mark. -/
def abridge (mark : List Char) (limit : Nat) (s : List Char) : List Char :=
  if byteLength s ≤ limit then s
  else
    headWithin (limit - byteLength mark) s ++ if byteLength mark < limit then mark else []

end Overseer.Text
