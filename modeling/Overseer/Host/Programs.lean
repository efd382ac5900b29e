import Overseer.Command.Host
import Overseer.Host.Shell.Run
import Overseer.Text.Split

/-! # A host of small programs

What a command does depends on the machine on which it runs. A machine is no part of the program, which knows it
as a `Command.Host` and its commands as a `Command.Child` each, and what is proved of commands is proved of any
child. The modules of this directory are a stand-in for a machine, so that runs can be made of commands. They are
no part of what is modelled, and no theorem is about them.

On this host there are a shell and the usual small programs, and the directory at hand is empty.
-/

namespace Overseer.Host

open Command (Child CommandLine)

def noSuchFile : String := "No such file or directory (os error 2)"

def noPermission : String := "Permission denied (os error 13)"

/-- A path that leads nowhere but to the directory at hand, or up from it. -/
def isDirectory (path : String) : Bool :=
  (Text.splitOn '/' path.toList).all fun part => part == [] || part == ['.'] || part == ['.', '.']

def shells : List String := ["sh", "dash", "bash"]

def shellEffect (line : CommandLine) (args : List String) (input : List UInt8) : Effect :=
  let start (name : String) (args : List String) (input : List UInt8) :=
    Shell.State.start name args line.environment [] input
  match Shell.commandText? args, args with
  | some (text, name, rest), _ => Shell.run text (start name rest input)
  | none, [] => Shell.run (String.ofList (Text.lossy input)) (start "sh" [] [])
  | none, file :: _ => .fail ("sh: 0: cannot open " ++ file ++ ": No such file") 2 input

def program? (line : CommandLine) (word : String) (args : List String) :
    Option (List UInt8 → Effect) :=
  if shells.contains (programName word) then some (shellEffect line args)
  else if programName word == "printenv" then
    some fun input =>
      match args.filterMap (Table.get? line.environment) with
      | [] => .exit 1 input
      | values => .print (Text.encode ("\n".intercalate values ++ "\n").toList) input
  else (tool? word).map fun tool => tool args []

def Effect.child (e : Effect) : Child := .new e.actions e.status

/-- A text that holds the character that ends texts in memory cannot be handed to a program. -/
def isCutShort (line : CommandLine) : Bool :=
  (line.words ++ line.environment.map (·.2)).any fun text => text.contains '\x00'

def host : Command.Host := fun line =>
  if isCutShort line then .error "nul byte found in provided data"
  else match line.words with
    | [] => .error noSuchFile
    | word :: args =>
        if !isDirectory line.directory then .error noSuchFile
        else if word.contains '/' && isDirectory word then .error noPermission
        else match program? line word args with
          | some effect => .ok fun input => (effect input).child
          | none => .error noSuchFile

end Overseer.Host
