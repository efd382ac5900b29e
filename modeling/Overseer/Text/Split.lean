/-! # Splitting text -/

namespace Overseer.Text

/-- The parts between the occurrences of a character; there is always one more part than occurrences. -/
def splitOn (c : Char) : List Char → List (List Char)
  | [] => [[]]
  | d :: rest =>
      match splitOn c rest with
      | [] => [[d]]
      | part :: parts => if d = c then [] :: part :: parts else (d :: part) :: parts

end Overseer.Text
