import Overseer.Command.Run

/-! # Children that follow a plan

A child takes one action after the other and then ends. Reading waits for input and writing for room.
-/

namespace Overseer.Command

inductive Action
  /-- Reads bytes until there have been so many, or the input is at its end. -/
  | read (count : Nat)
  /-- Waits for the end of the input. -/
  | awaitEnd
  | write (stream : Stream) (bytes : List UInt8)
  | pause (duration : Duration)
  deriving Repr, DecidableEq

/-- How much an action can ask for. -/
def Action.size : Action → Nat
  | .read count => count
  | .write _ bytes => bytes.length
  | _ => 0

structure Child where
  actions : List Action
  status : Status
  /-- When the pause at hand is over. -/
  wakes : Option Time
  deriving Repr, DecidableEq

namespace Child

def new (actions : List Action) (status : Status) : Child := ⟨actions, status, none⟩

def goOn (c : Child) (actions : List Action) : Child := ⟨actions, c.status, none⟩

def read (count : Nat) (rest : List Action) (c : Child) (r : Run) : Option (Child × Run) :=
  if count = 0 || r.input.isAtEnd then some (c.goOn rest, r)
  else if r.input.held.isEmpty then none
  else
    let (bytes, input) := r.input.read count
    some (c.goOn (.read (count - bytes.length) :: rest), { r with input := input })

/-- Puts bytes into one of the streams; nothing when there is no room. -/
def put (stream : Stream) (bytes : List UInt8) (r : Run) : Option (List UInt8 × Run) :=
  match stream with
  | .output =>
      if r.output.isFull then none
      else
        let (rest, pipe) := r.output.write bytes
        some (rest, { r with output := pipe })
  | .errors =>
      if r.errors.isFull then none
      else
        let (rest, pipe) := r.errors.write bytes
        some (rest, { r with errors := pipe })

def pause (duration : Duration) (rest : List Action) (c : Child) (r : Run) : Option (Child × Run) :=
  match c.wakes with
  | none => some ({ c with wakes := some (deadline r.now duration) }, r)
  | some time => if time ≤ r.now then some (c.goOn rest, r) else none

/-- The next step of a child that has not ended; none while it waits. -/
def step? (c : Child) (r : Run) : Option (Child × Run) :=
  if r.status.isSome then none
  else match c.actions with
    | [] => some (c, r.leave c.status)
    | .read count :: rest => c.read count rest r
    | .awaitEnd :: rest => if r.input.isAtEnd then some (c.goOn rest, r) else none
    | .write _ [] :: rest => some (c.goOn rest, r)
    | .write stream bytes :: rest =>
        (put stream bytes r).map fun (left, r) => (c.goOn (.write stream left :: rest), r)
    | .pause duration :: rest => c.pause duration rest r

end Child

/-- When something happens that both a run and its child wait for. -/
def nextMoment (c : Child) (r : Run) : Option Time :=
  let slices := match r.stage with
    | .waiting _ sliceEnd => [sliceEnd]
    | _ => []
  let pauses := if r.status.isSome then [] else c.wakes.toList
  (slices ++ pauses).min?

/-- A run and its child go on, the run first, until neither can. -/
def proceed : Nat → Child → Run → Run
  | 0, _, r => r
  | n + 1, c, r =>
      match r.step?, c.step? r with
      | some r, _ => proceed n c r
      | none, some (c, r) => proceed n c r
      | none, none =>
          match nextMoment c r with
          | some time => if r.now < time then proceed n c { r with now := time } else r
          | none => r

/-- Enough steps for a run with this child. -/
def stepBound (c : Child) (r : Run) (inputSize : Nat) : Nat :=
  let asked := c.actions.foldr (fun action n => 3 * action.size + 4 + n) 0
  2 * inputSize + 2 * asked + 4 * (r.timeout.nanos / Run.slice.nanos) + 20

end Overseer.Command
