import Overseer.Capability.Basic
import Overseer.Time
import Overseer.Token

/-! # Bounded calls

A call is bounded by a deadline and by the token of the work it belongs to. It hands the executor a token
of its own, which descends from that token and is cancelled when the call is over, however it ends. At
each look at a call the token of the work comes first, then what the executor says, then the deadline.
-/

namespace Overseer

structure Call where
  /-- The token handed to the executor. -/
  token : Token
  limit : Duration
  expires : Time
  deriving Repr, DecidableEq

/-- What an executor says when it is asked. -/
inductive Poll (κ : Type)
  | ready (answer : Answer κ)
  | panic (panic : Panic)
  | pending
  deriving Repr

inductive Ending (κ : Type)
  | answered (answer : Answer κ)
  | panicked (panic : Panic)
  deriving Repr

namespace Call

variable {κ σ : Type}

def begin (tokens : Tokens) (parent : Token) (limit : Duration) (now : Time) : Call × Tokens :=
  let (tokens, token) := tokens.child parent
  (⟨token, limit, deadline now limit⟩, tokens)

def cancelled : Ending κ := .answered (.error .cancelled)

/-- An answer that is there wins over a deadline that has passed. -/
def ending? (call : Call) (now : Time) : Poll κ → Option (Ending κ)
  | .ready answer => some (.answered answer)
  | .panic panic => some (.panicked panic)
  | .pending =>
      if call.expires ≤ now then some (.answered (.error (.timedOut call.limit))) else none

/-- One look at a call, in surroundings where `isCancelled` reads the token of the work, `execute` asks
the executor and `stop` cancels the token of the call. -/
def look (isCancelled : σ → Bool) (execute : σ → Poll κ × σ) (stop : σ → σ) (now : Time)
    (call : Call) (s : σ) : Option (Ending κ) × σ :=
  if isCancelled s then (some cancelled, stop s)
  else
    let (poll, s) := execute s
    match call.ending? now poll with
    | some ending => (some ending, stop s)
    | none => (none, s)

end Call

end Overseer
