import Overseer.Cli.Arguments
import Overseer.Config.Storage

/-! # Executing commands

The exit code is 0 after a success, 2 when a file that is there was not overwritten or the command line
was not understood, and 1 after any other failure.
-/

namespace Overseer.Cli

structure Result where
  code : Nat
  output : String
  errors : String
  deriving Repr, DecidableEq

namespace Result

def success (output : String) : Result := ⟨0, output, ""⟩

def failure (message : String) : Result := ⟨1, "", message ++ "\n"⟩

def refused (message : String) : Result := ⟨2, "", message⟩

end Result

def version : String := "conductor 0.1.0\n"

def usage : String := "<usage>"

def loadMessage (path : String) : Config.LoadError → String
  | .unreadable cause => "read " ++ path ++ ": " ++ cause
  | .malformed => "parse " ++ path ++ ": not a configuration"
  | .invalid cause => "validate " ++ path ++ ": " ++ cause.message

variable {m : Type → Type} [Monad m]

def init (disk : Disk m) (force : Bool) (path : String) : m Result := do
  if (← disk.isThere path) && !force then
    return .refused (path ++ " already exists; pass --force to overwrite\n")
  match ← Config.store disk path .standard with
  | .ok () => return .success ("wrote " ++ path ++ "\n")
  | .error e => return .failure ("write " ++ path ++ ": " ++ e.message)

def validate (disk : Disk m) (path : String) : m Result := do
  if !(← disk.isThere path) then
    return .failure (path ++ " not found; run \x60conductor init\x60")
  match ← Config.load disk path with
  | .ok _ => return .success (path ++ " is valid\n")
  | .error e => return .failure (loadMessage path e)

/-- Prints what is in effect: the file over the defaults. -/
def display (disk : Disk m) (path : String) : m Result := do
  match ← Config.load disk path with
  | .ok c => return .success c.text
  | .error e => return .failure (loadMessage path e)

def execute (disk : Disk m) : Request → m Result
  | .run (.init force) path => init disk force path
  | .run .validate path => validate disk path
  | .run .display path => display disk path
  | .help => return .success usage
  | .version => return .success version
  | .misuse => return .refused usage

end Overseer.Cli
