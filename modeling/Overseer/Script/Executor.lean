import Overseer.Script.Gate
import Overseer.Table

/-! # Scripted capabilities

A script says how each capability answers: first the replies queued for it, one for each call, and then
its standing reply. A capability with neither is unavailable.
-/

namespace Overseer.Script

inductive Reply (κ : Type)
  | answer (answer : Answer κ)
  /-- Never answers. -/
  | hang
  /-- Waits for a permit of a gate and then answers. -/
  | gated (gate : String) (output : Output κ)
  | panic (panic : Panic)
  /-- Cancels the token of the work and then replies. -/
  | cancelThen (reply : Reply κ)
  deriving Repr

structure Executor (κ : Type) where
  queued : Table String (List (Reply κ))
  standing : Table String (Reply κ)
  gates : Table String Gate
  /-- What a gate is like before anything is done to it. -/
  freshGate : Gate
  tickets : Nat
  deriving Repr

/-- A call that has been taken and not yet answered. -/
inductive Taken (κ : Type)
  | hanging
  | atGate (gate : String) (ticket : Nat) (output : Output κ)
  deriving Repr

/-- What asking the executor brings about. -/
structure Reaction (κ : Type) where
  cancels : Bool
  poll : Poll κ
  taken : Option (Taken κ)
  deriving Repr

namespace Executor

variable {κ : Type}

def new (queued : Table String (List (Reply κ))) (standing : Table String (Reply κ))
    (freshGate : Gate) : Executor κ :=
  ⟨queued, standing, [], freshGate, 0⟩

def gate (e : Executor κ) (name : String) : Gate := (e.gates.get? name).getD e.freshGate

def setGate (e : Executor κ) (name : String) (gate : Gate) : Executor κ :=
  { e with gates := e.gates.set name gate }

def addPermits (e : Executor κ) (name : String) (n : Nat) : Executor κ :=
  e.setGate name ((e.gate name).addPermits n)

def closeGate (e : Executor κ) (name : String) : Executor κ :=
  e.setGate name (e.gate name).close

def nextReply (e : Executor κ) (capability : String) : Option (Reply κ) × Executor κ :=
  match e.queued.get? capability with
  | some (reply :: rest) => (some reply, { e with queued := e.queued.set capability rest })
  | _ => (e.standing.get? capability, e)

def passage (gate : String) (ticket : Nat) (output : Output κ) : Passage → Reaction κ
  | .passed => ⟨false, .ready (.ok output), none⟩
  | .refused => ⟨false, .ready (.error (.failed "gate closed")), none⟩
  | .waits => ⟨false, .pending, some (.atGate gate ticket output)⟩

def react (e : Executor κ) : Reply κ → Reaction κ × Executor κ
  | .answer answer => (⟨false, .ready answer, none⟩, e)
  | .hang => (⟨false, .pending, some .hanging⟩, e)
  | .panic panic => (⟨false, .panic panic, none⟩, e)
  | .gated name output =>
      let ticket := e.tickets
      let (result, gate) := (e.gate name).arrive ticket
      (passage name ticket output result, { e with tickets := ticket + 1 }.setGate name gate)
  | .cancelThen reply =>
      let (reaction, e) := e.react reply
      ({ reaction with cancels := true }, e)

/-- The first time that the executor is asked about a call. -/
def take (e : Executor κ) (capability : String) : Reaction κ × Executor κ :=
  match e.nextReply capability with
  | (none, e) => (⟨false, .ready (.error (.unavailable capability)), none⟩, e)
  | (some reply, e) => e.react reply

def lookAgain (e : Executor κ) : Taken κ → Reaction κ × Executor κ
  | .hanging => (⟨false, .pending, some .hanging⟩, e)
  | .atGate name ticket output =>
      let (result, gate) := (e.gate name).look ticket
      (passage name ticket output result, e.setGate name gate)

def ask (e : Executor κ) (capability : String) : Option (Taken κ) → Reaction κ × Executor κ
  | none => e.take capability
  | some taken => e.lookAgain taken

/-- The caller gives up. -/
def leave (e : Executor κ) : Option (Taken κ) → Executor κ
  | some (.atGate name ticket _) => e.setGate name ((e.gate name).leave ticket)
  | _ => e

end Executor

end Overseer.Script
