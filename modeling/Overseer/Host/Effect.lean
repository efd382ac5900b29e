import Overseer.Command.Child

/-! # What programs do

A program takes some of its input, acts and ends. These are the programs of a stand-in host, on which runs are
made (`Host.Programs`), not parts of the program that is modelled.
-/

namespace Overseer.Host

open Command (Action Status Stream)

structure Effect where
  actions : List Action
  /-- The input that is left over. -/
  rest : List UInt8
  status : Status
  deriving Repr, DecidableEq

namespace Effect

/-- Ends with a code and leaves the input alone. -/
def exit (code : Nat) (input : List UInt8) : Effect := ⟨[], input, .exited code⟩

def print (bytes : List UInt8) (input : List UInt8) : Effect :=
  ⟨[.write .output bytes], input, .exited 0⟩

/-- A message to the errors, with a code. -/
def fail (message : String) (code : Nat) (input : List UInt8) : Effect :=
  ⟨[.write .errors (Text.encode (message ++ "\n").toList)], input, .exited code⟩

/-- How much is read at once from a pipe. -/
def blockSize : Nat := 65536

/-- Reads in blocks and passes each on; `fuel` bounds the number of blocks. -/
def copyBlocks : Nat → List UInt8 → List Action
  | 0, _ => []
  | n + 1, bytes =>
      if bytes.isEmpty then []
      else
        let block := bytes.take blockSize
        .read block.length :: .write .output block :: copyBlocks n (bytes.drop blockSize)

/-- All of the input goes to the output. -/
def copy (input : List UInt8) : Effect :=
  ⟨copyBlocks (input.length / blockSize + 1) input ++ [.awaitEnd], [], .exited 0⟩

/-- All of the input is read and then something is printed. -/
def digest (f : List UInt8 → List UInt8) (input : List UInt8) : Effect :=
  ⟨[.read input.length, .awaitEnd, .write .output (f input)], [], .exited 0⟩

end Effect

end Overseer.Host
