import Overseer.Config.File
import Overseer.Disk.Basic
import Overseer.Disk.Path

/-! # Configurations on a disk

A file that is not there stands for the defaults. A configuration is written to a temporary file first,
which then takes the place of the old one, so that nobody finds half of it.
-/

namespace Overseer.Config

variable {m : Type → Type} [Monad m]

def load (disk : Disk m) (path : String) : m (Except LoadError Config) := do
  if !(← disk.isThere path) then return .ok .standard
  match ← disk.read path with
  | .error e => return .error (.unreadable e.message)
  | .ok bytes => return ofBytes bytes

inductive StoreError
  | invalid (cause : ConfigError)
  | directory (path : String) (cause : FileError)
  | temporary (path : String) (cause : FileError)
  | replacing (path : String) (cause : FileError)
  deriving Repr, DecidableEq

def StoreError.message : StoreError → String
  | .invalid cause => cause.message
  | .directory path cause => "create directory " ++ path ++ ": " ++ cause.message
  | .temporary path cause => "write temp config " ++ path ++ ": " ++ cause.message
  | .replacing path cause => "replace config " ++ path ++ ": " ++ cause.message

def temporaryPath (path : String) : String := Path.withExtension path "toml.tmp"

def replaceFile (disk : Disk m) (path : String) (bytes : List UInt8) : m (Except StoreError Unit) := do
  let directory := Path.parent path
  let temporary := temporaryPath path
  match ← disk.makeDirectories directory with
  | .error e => return .error (.directory directory e)
  | .ok () => match ← disk.write temporary bytes with
    | .error e => return .error (.temporary temporary e)
    | .ok () => match ← disk.rename temporary path with
      | .error e => return .error (.replacing path e)
      | .ok () => return .ok ()

def store (disk : Disk m) (path : String) (c : Config) : m (Except StoreError Unit) :=
  match c.validate with
  | .error e => return .error (.invalid e)
  | .ok () => replaceFile disk path (Text.encode c.fileText.toList)

end Overseer.Config
