/-! # Media types

A media type is two tokens with a slash between them, and parameters after semicolons. JSON is the type
`application/json`, in any case of letters, and every type of that group with the suffix `json`.
-/

namespace Overseer.Http.MediaType

def isTokenChar (c : Char) : Bool :=
  c.isAlphanum || "!#$%&*+-.^_|~".toList.contains c || c == '\x27' || c == '\x60'

def isQuotedChar (c : Char) : Bool := c == '\t' || (32 ≤ c.toNat && c.toNat != 127)

/-- Whether a text is a list of parameters; `fuel` bounds the number of characters. -/
def areParameters : Nat → List Char → Bool
  | _, [] => true
  | 0, _ => false
  | n + 1, ' ' :: rest => areParameters n rest
  | n + 1, s =>
      let name := s.takeWhile isTokenChar
      match s.drop name.length with
      | '=' :: '"' :: rest =>
          match (rest.dropWhile fun c => c != '"' && isQuotedChar c) with
          | '"' :: after =>
              match after.dropWhile (· == ' ') with
              | [] => !name.isEmpty
              | ';' :: more => !name.isEmpty && areParameters n more
              | _ => false
          | _ => false
      | '=' :: rest =>
          let value := rest.takeWhile isTokenChar
          match rest.drop value.length with
          | [] => !name.isEmpty
          | ';' :: more => !name.isEmpty && !value.isEmpty && areParameters n more
          | _ => false
      | _ => false

/-- The part of a subtype before its last plus sign, and the suffix after it. A plus sign in front does
not count. -/
def splitSuffix (subtype : List Char) : List Char × Option (List Char) :=
  let suffix := (subtype.reverse.takeWhile (· != '+')).reverse
  let stem := subtype.take (subtype.length - suffix.length - 1)
  if suffix.length < subtype.length ∧ stem ≠ [] then (stem, some suffix) else (subtype, none)

def lower (s : List Char) : List Char := s.map Char.toLower

def isJson (text : String) : Bool :=
  let s := text.toList
  let group := s.takeWhile isTokenChar
  match s.drop group.length with
  | '/' :: rest =>
      let subtype := rest.takeWhile isTokenChar
      let parameters := match rest.drop subtype.length with
        | [] => true
        | ';' :: more => areParameters more.length more
        | _ => false
      let (stem, suffix) := splitSuffix subtype
      lower group == "application".toList && !subtype.isEmpty && parameters
        && (lower stem == "json".toList || suffix.map lower == some "json".toList)
  | _ => false

end Overseer.Http.MediaType
