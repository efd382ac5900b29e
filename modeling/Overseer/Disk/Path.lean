import Overseer.Text.Split

/-! # Paths

A path is text with slashes. Slashes at the end, and single dots after a slash, do not count.
-/

namespace Overseer.Path

/-- The path read backwards, without what does not count at its end. -/
def trimmedBack : List Char → List Char
  | '/' :: [] => ['/']
  | '/' :: rest => trimmedBack rest
  | '.' :: '/' :: [] => ['/']
  | '.' :: '/' :: rest => trimmedBack ('/' :: rest)
  | s => s

/-- What is in front of the last part and the last part itself, which is read backwards. -/
def cutBack (path : String) : List Char × List Char :=
  let s := trimmedBack path.toList.reverse
  let name := s.takeWhile (· != '/')
  (name, s.drop name.length)

/-- The directory that a path lies in. -/
def parent (path : String) : String :=
  match (trimmedBack (cutBack path).2).reverse with
  | [] => "."
  | s => String.ofList s

/-- Whether the last part can be the name of a file. -/
def isName : List Char → Bool
  | [] | ['.'] | ['.', '.'] => false
  | _ => true

/-- A name without its extension, both read backwards. A dot in front of a name begins no extension. -/
def stemBack (name : List Char) : List Char :=
  match name.dropWhile (· != '.') with
  | _ :: c :: rest => c :: rest
  | _ => name

/-- The path with another extension; a path that names no file stays as it is. -/
def withExtension (path extension : String) : String :=
  let (name, front) := cutBack path
  if isName name then
    String.ofList ((stemBack name ++ front).reverse ++ '.' :: extension.toList)
  else path

end Overseer.Path
