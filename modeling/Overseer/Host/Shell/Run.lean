import Overseer.Host.Shell.Capture
import Overseer.Host.Shell.Reader
import Overseer.Text.Split

/-! # Running shell scripts

`fuel` bounds how many commands are run one inside or after the other.

The shell is a part of the stand-in host on which runs are made, and no part of the program that is modelled
(`Host.Programs`).
-/

namespace Overseer.Host.Shell

open Command (Action Status)

/-- Words printed with blanks between them; escapes count. -/
def sayWords (args : List String) (input : List UInt8) : Effect :=
  let quiet := args.head? == some "-n"
  let (bytes, ended) := Format.expanded (" ".intercalate (if quiet then args.tail else args))
  .print (bytes ++ if ended || quiet then [] else [10]) input

/-- A signal to the shell itself ends it. -/
def kill (args : List String) (sh : State) : State :=
  if args.getLast? == some State.ownNumber && args.head? != some "-0" then
    { sh with ended := some .killed }
  else sh.take (.fail (sh.name ++ ": 1: kill: No such process") 1 sh.input)

/-- One line of the input, into a variable. -/
def readLine (args : List String) (sh : State) : State :=
  let line := sh.input.takeWhile (· != 10)
  let rest := sh.input.drop line.length
  let found := !rest.isEmpty
  let text := String.ofList (Text.lossy line)
  let name := ((args.filter (· != "-r")).head?).getD "REPLY"
  let sh := (sh.act [.read (line.length + 1)]).set name text
  { sh with input := rest.drop 1, last := if found then 0 else 1 }

def exit (args : List String) (sh : State) : State :=
  let code := match args with
    | arg :: _ => (Format.readNumber arg).toNat % 256
    | [] => sh.last
  { sh with ended := some (.exited code) }

/-- Drops the first arguments; a shell that has too few is at its end. -/
def shift (args : List String) (sh : State) : State :=
  let count := (args.head?.elim 1 Format.readNumber).toNat
  if count ≤ sh.args.length then { sh with args := sh.args.drop count, last := 0 }
  else
    let sh := sh.take (.fail (sh.name ++ ": 1: shift: can\x27t shift that many") 2 sh.input)
    { sh with ended := some (.exited 2) }

/-- Arguments such as `name=value` give variables their values. -/
def exportAll (args : List String) (sh : State) : State :=
  let assign (sh : State) (arg : String) : State :=
    match Text.splitOn '=' arg.toList with
    | name :: value :: more => sh.set (String.ofList name) (String.ofList (['='].intercalate (value :: more)))
    | _ => sh
  { args.foldl assign sh with last := 0 }

/-- The directories that there are on every host. -/
def knownDirectories : List String := ["/", ".", "..", "/tmp", "/bin", "/usr", "/etc", "/dev", "/var"]

/-- There are no directories in the directory at hand. -/
def changeDirectory (args : List String) (sh : State) : State :=
  match args with
  | [] => { sh with last := 0 }
  | name :: _ =>
      if knownDirectories.contains name then { sh with last := 0 }
      else sh.take (.fail (sh.name ++ ": 1: cd: can\x27t cd to " ++ name) 2 sh.input)

def printVariable (args : List String) (sh : State) : State :=
  match args.filterMap sh.bindings.get? with
  | [] => { sh with last := 1 }
  | values => sh.take (.print (Text.encode ("\n".intercalate values ++ "\n").toList) sh.input)

/-- The script, the name and the arguments of a shell that is started by its words. -/
def commandText? (args : List String) : Option (String × String × List String) :=
  match args with
  | "-c" :: script :: name :: rest => some (script, name, rest)
  | ["-c", script] => some (script, "sh", [])
  | _ => none

/-- Runs a command by its fields; `script` runs a script in a shell. -/
def runFields (script : String → State → State) (program : String) (args : List String) (sh : State) :
    State :=
  match program with
  | ":" | "wait" | "trap" | "set" => { sh with last := 0 }
  | "export" => exportAll args sh
  | "unset" => { sh with bindings := args.foldl Table.remove sh.bindings, last := 0 }
  | "cd" => changeDirectory args sh
  | "printenv" => printVariable args sh
  | "touch" =>
      { sh with
        files := args.foldl (fun files name => files.set name ((files.get? name).getD [])) sh.files
        last := 0 }
  | "exit" => exit args sh
  | "kill" => kill args sh
  | "read" => readLine args sh
  | "shift" => shift args sh
  | "echo" => sh.take (sayWords args sh.input)
  | "sh" | "bash" | "dash" =>
      match commandText? args with
      | some (text, name, rest) =>
          inSubshell (fun sh => script text { sh with name := name, args := rest }) sh
      | none => sh.take (.fail "sh: 0: cannot open script" 2 sh.input)
  | _ =>
      match tool? program with
      | some tool => sh.take (tool args sh.files sh.input)
      | none => sh.take (.fail (sh.name ++ ": 1: " ++ program ++ ": not found") 127 sh.input)

/-- After `exec` the shell is gone. -/
def runCommand (script : String → State → State) (words : List String) (sh : State) : State :=
  match words with
  | [] => { sh with last := 0 }
  | "exec" :: program :: args =>
      let sh := runFields script program args sh
      { sh with ended := sh.ended.or (some (.exited sh.last)) }
  | program :: args => runFields script program args sh

/-- Assignments in front of a command hold for that command only. -/
def runSimple (script : String → State → State) (words : List Word) (sh : State) : State :=
  let leading := words.takeWhile fun w => (assignment? w).isSome
  let (command, sh) := fieldsOfAll script (words.drop leading.length) { sh with captured := 0 }
  let assigned := assignAll script (leading.filterMap assignment?) sh
  match command with
  | [] => { assigned with last := assigned.captured }
  | command =>
      if leading.isEmpty then runCommand script command sh
      else { runCommand script command assigned with bindings := sh.bindings }

def badScript (sh : State) : State :=
  let sh := sh.take (.fail (sh.name ++ ": 1: Syntax error") 2 sh.input)
  { sh with ended := some (.exited 2) }

def eval : Nat → Node → State → State
  | 0, _, sh => sh
  | fuel + 1, node, sh =>
      let script (text : String) (sh : State) := match read? text with
        | some node => eval fuel node sh
        | none => badScript sh
      if sh.ended.isSome then sh
      else match node with
        | .nothing => sh
        | .simple words redirects => redirected redirects (runSimple script words) sh
        | .sequence first second => eval fuel second (eval fuel first sh)
        | .both first second =>
            let sh := eval fuel first sh
            if sh.last = 0 then eval fuel second sh else sh
        | .either first second =>
            let sh := eval fuel first sh
            if sh.last = 0 then sh else eval fuel second sh
        | .pipe first second => piped (eval fuel first) (eval fuel second) sh
        | .negated body =>
            let sh := eval fuel body sh
            { sh with last := if sh.last = 0 then 1 else 0 }
        | .loop wanted code condition body =>
            let sh := eval fuel condition sh
            if sh.ended.isSome then sh
            else if (sh.last == 0) == wanted then
              let sh := eval fuel body sh
              eval fuel (.loop wanted sh.last condition body) sh
            else { sh with last := code }
        | .choice condition yes no =>
            let sh := eval fuel condition sh
            if sh.ended.isSome then sh
            else if sh.last = 0 then eval fuel yes sh
            else eval fuel no { sh with last := 0 }
        | .each name words body =>
            let (values, sh) := fieldsOfAll script words sh
            if values.isEmpty then { sh with last := 0 }
            else values.foldl (fun sh value => eval fuel body (sh.set name value)) sh
        | .subshell body => inSubshell (eval fuel body) sh
        | .redirected body redirects => redirected redirects (eval fuel body) sh

def fuel : Nat := 1000000

/-- What a whole script does. -/
def run (text : String) (sh : State) : Effect :=
  let sh := match read? text with
    | some node => eval fuel node sh
    | none => badScript sh
  ⟨sh.done.reverse, sh.input, sh.ended.getD (.exited sh.last)⟩

end Overseer.Host.Shell
