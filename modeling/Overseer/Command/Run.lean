import Overseer.Command.Capture
import Overseer.Command.Pipe
import Overseer.Time

/-! # Runs of a command

A run joins a child to three pipes. First all of the input is written; only then are the two readers of
the output started and the child is waited for, in slices of time. At the end of a slice a cancelled run
and one that is past its deadline are stopped by killing the child. A run is over when the child is and
both readers have come to an end.
-/

namespace Overseer.Command

/-- How a child ended. -/
inductive Status
  | exited (code : Nat)
  /-- By a signal. -/
  | killed
  deriving Repr, DecidableEq

def Status.code? : Status → Option Nat
  | .exited code => some code
  | .killed => none

inductive Stream
  | output
  | errors
  deriving Repr, DecidableEq

/-- Why a child was killed by its run. -/
inductive Stop
  | timedOut
  | cancelled
  deriving Repr, DecidableEq

inductive Stage
  /-- The input is being written. -/
  | feeding (rest : List UInt8)
  /-- The child is waited for since `started`; the slice at hand ends at `sliceEnd`. -/
  | waiting (started sliceEnd : Time)
  /-- The child is over. -/
  | finished (stop : Option Stop)
  /-- The child stopped reading before all of its input was written. -/
  | refused
  deriving Repr, DecidableEq

structure Run where
  timeout : Duration
  cancelled : Bool
  stage : Stage
  input : Pipe
  output : Pipe
  errors : Pipe
  capturedOutput : Capture
  capturedErrors : Capture
  /-- How the child ended, once it has. -/
  status : Option Status
  now : Time
  deriving Repr, DecidableEq

namespace Run

def pipeCapacity : Nat := 65536

/-- How much a reader takes at once. -/
def chunkSize : Nat := 8192

def slice : Duration := .ofMicros 50000

/-- A run without input has nobody who could write it. -/
def start (input : Option (List UInt8)) (timeout : Duration) (limit : Nat) (cancelled : Bool) : Run :=
  let pipe := Pipe.new pipeCapacity
  ⟨timeout, cancelled, .feeding (input.getD []), if input.isSome then pipe else pipe.dropWriter,
    pipe, pipe, .new limit, .new limit, none, 0⟩

/-- What becomes of the pipes when the child ends. -/
def leave (r : Run) (status : Status) : Run :=
  { r with
    status := some status
    input := r.input.dropReader
    output := r.output.dropWriter
    errors := r.errors.dropWriter }

def kill (r : Run) (stop : Stop) : Run := { r.leave .killed with stage := .finished (some stop) }

/-- Writes input as far as the pipe takes it. -/
def feed (r : Run) : Option Run :=
  match r.stage with
  | .feeding [] =>
      some { r with
        input := r.input.dropWriter
        stage := .waiting r.now (deadline r.now slice) }
  | .feeding (byte :: rest) =>
      if !r.input.hasReader then some { r with stage := .refused }
      else if r.input.isFull then none
      else
        let (rest, input) := r.input.write (byte :: rest)
        some { r with input := input, stage := .feeding rest }
  | _ => none

def isReading (r : Run) : Bool :=
  match r.stage with
  | .waiting _ _ | .finished _ => true
  | _ => false

/-- Reads a chunk of one of the streams. -/
def drain (stream : Stream) (r : Run) : Option Run :=
  match r.isReading, stream with
  | false, _ => none
  | true, .output =>
      if r.output.held.isEmpty then none
      else
        let (chunk, pipe) := r.output.read chunkSize
        some { r with output := pipe, capturedOutput := r.capturedOutput.add chunk }
  | true, .errors =>
      if r.errors.held.isEmpty then none
      else
        let (chunk, pipe) := r.errors.read chunkSize
        some { r with errors := pipe, capturedErrors := r.capturedErrors.add chunk }

/-- Looks after the child. A child that has ended is noticed at once, all else at the end of a slice. -/
def check (r : Run) : Option Run :=
  match r.stage with
  | .waiting started sliceEnd =>
      if r.status.isSome then some { r with stage := .finished none }
      else if r.now < sliceEnd then none
      else if r.cancelled then some (r.kill .cancelled)
      else if deadline started r.timeout ≤ r.now then some (r.kill .timedOut)
      else some { r with stage := .waiting started (deadline r.now slice) }
  | _ => none

/-- A step that the run can take without the child. -/
def step? (r : Run) : Option Run :=
  r.feed <|> r.drain .output <|> r.drain .errors <|> r.check

end Run

end Overseer.Command
