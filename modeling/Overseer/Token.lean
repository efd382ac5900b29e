/-! # Cancellation tokens

A token has a number of its own and those of the tokens it descends from. It is cancelled when it or one
of its ancestors has been, so what is derived from a cancelled token is cancelled from the start.
-/

namespace Overseer

structure Token where
  /-- The number of the token, then those of its ancestors. -/
  lineage : List Nat
  deriving Repr, DecidableEq, Inhabited

structure Tokens where
  issued : Nat
  cancelled : List Nat
  deriving Repr, DecidableEq, Inhabited

namespace Tokens

def empty : Tokens := ⟨0, []⟩

def issue (t : Tokens) (ancestors : List Nat) : Tokens × Token :=
  ({ t with issued := t.issued + 1 }, ⟨t.issued :: ancestors⟩)

def root (t : Tokens) : Tokens × Token := t.issue []

def child (t : Tokens) (parent : Token) : Tokens × Token := t.issue parent.lineage

def cancel (t : Tokens) (token : Token) : Tokens :=
  match token.lineage with
  | [] => t
  | number :: _ =>
      if t.cancelled.contains number then t
      else { t with cancelled := number :: t.cancelled }

def isCancelled (t : Tokens) (token : Token) : Bool :=
  token.lineage.any t.cancelled.contains

end Tokens

end Overseer
