import Overseer.Host.Shell.Redirects

/-! # Scripts inside words

A script in a word is run when the word is expanded, and what it prints stands in its place, without the
line breaks at its end. The words that are expanded here hold no such script any more.

The shell is a part of the stand-in host on which runs are made, and no part of the program that is modelled
(`Host.Programs`).
-/

namespace Overseer.Host.Shell

variable (script : String → State → State)

/-- Runs a script for what it prints. -/
def State.capture (text : List Char) (sh : State) : List Char × State :=
  let inner := script (String.ofList text) { sh with done := [] }
  let actions := inner.done.reverse
  let bytes := (written actions).filter (· != 0)
  let outer := sh.act (actions.filter (!isOutput ·))
  let outer := afterChild { outer with input := inner.input, files := inner.files } inner
  (Text.lossy (bytes.reverse.dropWhile (· == 10)).reverse,
    { outer with last := sh.last, captured := outer.last })

mutual

def resolvePiece : Piece → State → Piece × State
  | .output quoted text, sh =>
      let (chars, sh) := sh.capture script text
      (.printed quoted chars, sh)
  | .variable quoted name orEmpty fallback, sh =>
      if sh.has name orEmpty then (.variable quoted name orEmpty fallback, sh)
      else
        let (fallback, sh) := resolveFallback fallback sh
        (.variable quoted name orEmpty fallback, sh)
  | piece, sh => (piece, sh)

def resolve : Word → State → Word × State
  | [], sh => ([], sh)
  | piece :: rest, sh =>
      let (piece, sh) := resolvePiece piece sh
      let (rest, sh) := resolve rest sh
      (piece :: rest, sh)

def resolveFallback : Option Word → State → Option Word × State
  | none, sh => (none, sh)
  | some word, sh =>
      let (word, sh) := resolve word sh
      (some word, sh)

end

def resolveAll : List Word → State → List Word × State
  | [], sh => ([], sh)
  | word :: rest, sh =>
      let (word, sh) := resolve script word sh
      let (rest, sh) := resolveAll rest sh
      (word :: rest, sh)

/-- The fields of all words, one word after the other. -/
def fieldsOfAll (words : List Word) (sh : State) : List String × State :=
  let (words, sh) := resolveAll script words sh
  (words.flatMap (fields sh), sh)

/-- Gives variables their values, the first one first. -/
def assignAll (assignments : List (String × Word)) (sh : State) : State :=
  assignments.foldl (fun sh (name, value) =>
    let (value, sh) := resolve script value sh
    sh.set name (single sh value)) sh

end Overseer.Host.Shell
