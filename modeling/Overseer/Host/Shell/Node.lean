/-! # Shell scripts

A word is made of pieces, some of them to be filled in. A script is a tree of commands; a simple command
has words and redirects.

The shell is a part of the stand-in host on which runs are made, and no part of the program that is modelled
(`Host.Programs`).
-/

namespace Overseer.Host.Shell

inductive Piece
  | text (quoted : Bool) (chars : List Char)
  /-- A variable, with what stands for it when it is unset, or unset or empty when `orEmpty` holds. -/
  | variable (quoted : Bool) (name : String) (orEmpty : Bool) (fallback : Option (List Piece))
  /-- An arithmetic expression. -/
  | sum (quoted : Bool) (expression : List Char)
  /-- What a script prints. -/
  | output (quoted : Bool) (script : List Char)
  /-- What a script has printed. -/
  | printed (quoted : Bool) (chars : List Char)
  deriving Repr

abbrev Word := List Piece

inductive Target
  /-- The stream with this number. -/
  | stream (number : Nat)
  | file (name : Word) (append : Bool)
  deriving Repr

inductive Redirect
  | output (stream : Nat) (target : Target)
  | input (name : Word)
  deriving Repr

inductive Node
  | nothing
  | simple (words : List Word) (redirects : List Redirect)
  | sequence (first second : Node)
  /-- The second runs only after a success. -/
  | both (first second : Node)
  /-- The second runs only after a failure. -/
  | either (first second : Node)
  | pipe (first second : Node)
  | negated (body : Node)
  /-- Repeats the body while the condition gives `wanted`; `code` is that of the body that ran last. -/
  | loop (wanted : Bool) (code : Nat) (condition body : Node)
  | choice (condition yes no : Node)
  | each (name : String) (words : List Word) (body : Node)
  | subshell (body : Node)
  | redirected (body : Node) (redirects : List Redirect)
  deriving Repr

end Overseer.Host.Shell
