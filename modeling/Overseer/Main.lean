import Overseer.Cli.Execute

/-! # The program

The disk is that of the machine.
-/

namespace Overseer.Cli

/-- An action whose failure is kept as text. -/
def attempt {α : Type} (action : IO α) : IO (Except FileError α) := do
  match ← action.toBaseIO with
  | .ok result => return .ok result
  | .error e => return .error (.other (toString e))

/-- A path is there if it can be opened. -/
def isThere (path : String) : IO Bool := do
  match ← (IO.FS.Handle.mk path .read).toBaseIO with
  | .ok _ => return true
  | .error _ => return false

def machine : Disk IO where
  isThere := isThere
  read path := attempt do return (← IO.FS.readBinFile path).toList
  makeDirectories path := attempt (IO.FS.createDirAll path)
  write path bytes := attempt (IO.FS.writeBinFile path (ByteArray.mk bytes.toArray))
  rename source target := attempt (IO.FS.rename source target)

end Overseer.Cli

open Overseer.Cli in
def main (args : List String) : IO UInt32 := do
  let result ← execute machine (Request.ofArguments args)
  IO.print result.output
  IO.eprint result.errors
  return UInt32.ofNat result.code
