/-! # Disks

A disk is given by what can be done with files and directories by their paths.
-/

namespace Overseer

inductive FileError
  | notFound
  | alreadyThere
  | notDirectory
  | isDirectory
  | other (cause : String)
  deriving Repr, DecidableEq

def FileError.message : FileError → String
  | .notFound => "No such file or directory (os error 2)"
  | .alreadyThere => "File exists (os error 17)"
  | .notDirectory => "Not a directory (os error 20)"
  | .isDirectory => "Is a directory (os error 21)"
  | .other cause => cause

structure Disk (m : Type → Type) where
  /-- Whether something is found under a path. -/
  isThere : String → m Bool
  read : String → m (Except FileError (List UInt8))
  /-- Makes a directory and those that it lies in, as far as they are missing. -/
  makeDirectories : String → m (Except FileError Unit)
  write : String → List UInt8 → m (Except FileError Unit)
  /-- Puts a file under another path, over a file that is there. -/
  rename : String → String → m (Except FileError Unit)

end Overseer
