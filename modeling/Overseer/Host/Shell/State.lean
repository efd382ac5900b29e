import Overseer.Host.Shell.Arithmetic
import Overseer.Host.Shell.Node
import Overseer.Host.Tool

/-! # The state of a shell

A shell that runs a script holds variables, its arguments and what is left of its input, and it has done
something. Words are expanded in it: what a variable gives outside quotes is cut at blanks.

The shell is a part of the stand-in host on which runs are made, and no part of the program that is modelled
(`Host.Programs`).
-/

namespace Overseer.Host.Shell

open Command (Action Status Stream)

structure State where
  bindings : Table String String
  name : String
  args : List String
  files : Files
  input : List UInt8
  /-- What has been done, the latest first. -/
  done : List Action
  /-- The code of the last command. -/
  last : Nat
  /-- The code of the last script that was run for what it prints. -/
  captured : Nat
  /-- How the shell has ended, once it has. -/
  ended : Option Status

namespace State

def start (name : String) (args : List String) (bindings : Table String String) (files : Files)
    (input : List UInt8) : State := ⟨bindings, name, args, files, input, [], 0, 0, none⟩

/-- The number by which a script can name its own shell. -/
def ownNumber : String := "4242"

def value? (sh : State) (name : String) : Option String :=
  match name with
  | "@" | "*" => some (" ".intercalate sh.args)
  | "#" => some (toString sh.args.length)
  | "?" => some (toString sh.last)
  | "$" => some ownNumber
  | "0" => some sh.name
  | _ =>
      if name.all Char.isDigit then sh.args[Text.decimalValue name.toList - 1]?
      else sh.bindings.get? name

/-- Whether something stands for a variable, so that its fallback is not needed. -/
def has (sh : State) (name : String) (orEmpty : Bool) : Bool :=
  (sh.value? name).any fun v => !(orEmpty && v.isEmpty)

def number (sh : State) (name : String) : Int := Format.readNumber ((sh.value? name).getD "0")

def set (sh : State) (name value : String) : State :=
  { sh with bindings := sh.bindings.set name value }

def act (sh : State) (actions : List Action) : State := { sh with done := actions.reverse ++ sh.done }

/-- Takes over what a program did. -/
def take (sh : State) (e : Effect) : State :=
  { sh.act e.actions with input := e.rest, last := e.status.code?.getD 137 }

end State

/-- A part of an expanded word: letters, or a place where it is cut. -/
inductive Chunk
  | glue (chars : List Char)
  | cut

/-- Letters that are cut at blanks. -/
def cutAtBlanks (s : List Char) : List Chunk :=
  (s.splitBy fun a b => !a.isWhitespace && !b.isWhitespace).map fun part =>
    if part.all Char.isWhitespace then .cut else .glue part

def plainChunks (quoted : Bool) (s : List Char) : List Chunk :=
  if quoted then [.glue s] else cutAtBlanks s

/-- The arguments in quotes stay apart. -/
def argumentChunks (args : List String) : List Chunk :=
  (args.map fun arg => [Chunk.glue arg.toList]).intersperse [.cut] |>.flatten

mutual

def chunks (sh : State) : Piece → List Chunk
  | .text _ chars => [.glue chars]
  | .sum _ expression =>
      [.glue (toString ((evaluate? sh.number expression).getD 0)).toList]
  | .output _ _ => []
  | .printed quoted chars => plainChunks quoted chars
  | .variable quoted name orEmpty fallback =>
      if quoted && name == "@" then argumentChunks sh.args
      else match (sh.value? name).filter fun v => !(orEmpty && v.isEmpty) with
        | some v => plainChunks quoted v.toList
        | none => fallbackChunks sh quoted fallback

def wordChunks (sh : State) : Word → List Chunk
  | [] => []
  | piece :: rest => chunks sh piece ++ wordChunks sh rest

def fallbackChunks (sh : State) (quoted : Bool) : Option Word → List Chunk
  | none => if quoted then [.glue []] else []
  | some word => looseChunks sh word

/-- A word behind a variable is cut at the blanks that are not in quotes. -/
def looseChunks (sh : State) : Word → List Chunk
  | [] => []
  | .text false chars :: rest => cutAtBlanks chars ++ looseChunks sh rest
  | piece :: rest => chunks sh piece ++ looseChunks sh rest

end

def assemble : Option (List Char) → List Chunk → List String
  | current, [] => (current.map String.ofList).toList
  | current, .cut :: rest => (current.map String.ofList).toList ++ assemble none rest
  | current, .glue s :: rest => assemble (some (current.getD [] ++ s)) rest

/-- The fields that a word comes to. -/
def fields (sh : State) (word : Word) : List String := assemble none (wordChunks sh word)

def Piece.inQuotes : Piece → Piece
  | .text _ chars => .text true chars
  | .variable _ name orEmpty fallback => .variable true name orEmpty fallback
  | .sum _ expression => .sum true expression
  | .output _ script => .output true script
  | .printed _ chars => .printed true chars

/-- A word that is not cut. -/
def single (sh : State) (word : Word) : String :=
  String.ofList <| (wordChunks sh (word.map Piece.inQuotes)).flatMap fun
    | .glue s => s
    | .cut => [' ']

/-- The name and the value of an assignment. -/
def assignment? : Word → Option (String × Word)
  | .text false chars :: rest =>
      let name := chars.takeWhile fun c => c.isAlphanum || c == '_'
      match name, chars.drop name.length with
      | c :: _, '=' :: value =>
          if c.isDigit then none else some (String.ofList name, .text false value :: rest)
      | _, _ => none
  | _ => none

end Overseer.Host.Shell
