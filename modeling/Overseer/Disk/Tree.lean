import Overseer.Disk.Basic
import Overseer.Disk.Path
import Overseer.Table
import Overseer.Text.Utf8

/-! # Disks in memory

A tree has the files and directories below one directory, each under the list of its names from there.
-/

namespace Overseer

inductive Entry
  | file (bytes : List UInt8)
  | directory
  deriving Repr, DecidableEq

abbrev Tree := Table (List String) Entry

namespace Tree

def empty : Tree := []

def entry (t : Tree) (place : List String) : Option Entry :=
  if place.isEmpty then some .directory else t.get? place

def isDirectory (t : Tree) (place : List String) : Bool := t.entry place == some .directory

/-- The place that names lead to from another place. Only the last of them may be missing. -/
def follow (t : Tree) : List String → List String → Except FileError (List String)
  | place, [] => .ok place
  | place, name :: rest =>
      if !t.isDirectory place then
        .error (if (t.entry place).isSome then .notDirectory else .notFound)
      else if name == "" || name == "." then follow t place rest
      else if name == ".." then follow t place.dropLast rest
      else follow t (place ++ [name]) rest

def names (path : String) : List String := (Text.splitOn '/' path.toList).map String.ofList

def place (t : Tree) (path : String) : Except FileError (List String) := t.follow [] (names path)

def find (t : Tree) (path : String) : Except FileError Entry :=
  match t.place path with
  | .error e => .error e
  | .ok place =>
      match t.entry place with
      | some found => .ok found
      | none => .error .notFound

def isThere (t : Tree) (path : String) : Bool := (t.find path).isOk

def read (t : Tree) (path : String) : Except FileError (List UInt8) :=
  match t.find path with
  | .error e => .error e
  | .ok .directory => .error .isDirectory
  | .ok (.file bytes) => .ok bytes

def write (t : Tree) (path : String) (bytes : List UInt8) : Except FileError Tree :=
  match t.place path with
  | .error e => .error e
  | .ok place =>
      if t.isDirectory place then .error .isDirectory
      else .ok (t.set place (.file bytes))

def makeDirectory (t : Tree) (path : String) : Except FileError Tree :=
  match t.place path with
  | .error e => .error e
  | .ok place =>
      if (t.entry place).isSome then .error .alreadyThere else .ok (t.set place .directory)

/-- Makes a directory unless it is there. -/
def ensureDirectory (t : Tree) (path : String) : Except FileError Tree :=
  match t.makeDirectory path with
  | .ok t => .ok t
  | .error e => if (t.find path).toOption == some .directory then .ok t else .error e

/-- Makes a directory after those that it lies in; `depth` bounds how many are missing. -/
def makeDirectories : Nat → String → Tree → Except FileError Tree
  | 0, _, _ => .error .notFound
  | depth + 1, path, t =>
      match t.ensureDirectory path with
      | .error .notFound =>
          match makeDirectories depth (Path.parent path) t with
          | .ok t => t.ensureDirectory path
          | .error e => .error e
      | outcome => outcome

def endsInSlash (path : String) : Bool := path.toList.getLast? == some '/'

/-- Only a directory can be put under a path that ends in a slash. -/
def rename (t : Tree) (source target : String) : Except FileError Tree :=
  match t.place source, t.read source with
  | .error e, _ | _, .error e => .error e
  | .ok old, .ok bytes =>
      if endsInSlash target then .error .notDirectory
      else match t.place target with
        | .error e => .error e
        | .ok new =>
            if t.isDirectory new then .error .isDirectory
            else .ok ((t.remove old).set new (.file bytes))

/-- An operation that leaves the tree as it was when it fails. -/
def change (f : Tree → Except FileError Tree) : StateM Tree (Except FileError Unit) := fun t =>
  match f t with
  | .ok t => (.ok (), t)
  | .error e => (.error e, t)

def disk : Disk (StateM Tree) where
  isThere path := fun t => (t.isThere path, t)
  read path := fun t => (t.read path, t)
  makeDirectories path := change (makeDirectories ((names path).length + 1) path)
  write path bytes := change (·.write path bytes)
  rename source target := change (·.rename source target)

/-- A file with the directories that it lies in. -/
def add (t : Tree) (path : String) (bytes : List UInt8) : Tree :=
  let t := (makeDirectories ((names path).length + 1) (Path.parent path) t).toOption.getD t
  (t.write path bytes).toOption.getD t

def ofFiles (files : List (String × String)) : Tree :=
  files.foldl (fun t (path, text) => t.add path (Text.encode text.toList)) empty

/-- The size of each file, by its path. -/
def sizes (t : Tree) : List (String × Nat) :=
  t.filterMap fun
    | (place, .file bytes) => some ("/".intercalate place, bytes.length)
    | (_, .directory) => none

end Tree

end Overseer
