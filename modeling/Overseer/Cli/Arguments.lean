/-! # Command lines

A command line names one command. The option for the configuration file is allowed in front of the command
and after it, once in each place, and the one after it counts. Arguments are read from left to right, and
asking for help or for the version ends the reading.
-/

namespace Overseer.Cli

inductive Command
  /-- Writes a configuration file with the defaults. -/
  | init (force : Bool)
  | validate
  | display
  deriving Repr, DecidableEq

inductive Request
  | run (command : Command) (config : String)
  | help
  | version
  /-- The command line cannot be understood. -/
  | misuse
  deriving Repr, DecidableEq

def defaultConfig : String := "conductor.toml"

/-- An argument by its form. -/
inductive Form
  /-- Two dashes, which end the options. -/
  | stop
  | long (name : List Char) (value : Option (List Char))
  | short (letters : List Char)
  | plain (text : String)
  deriving Repr, DecidableEq

def form (arg : String) : Form :=
  match arg.toList with
  | ['-', '-'] => .stop
  | '-' :: '-' :: rest =>
      let name := rest.takeWhile (· != '=')
      .long name ((rest.drop name.length).head?.map fun _ => rest.drop (name.length + 1))
  | '-' :: c :: rest => .short (c :: rest)
  | _ => .plain arg

/-- The value of the option for the configuration file, and the arguments after it. -/
def configValue? (value : Option (List Char)) (rest : List String) : Option (String × List String) :=
  match value, rest with
  | some v, _ => if v.isEmpty then none else some (String.ofList v, rest)
  | none, arg :: rest =>
      match form arg with
      | .plain text => if text.isEmpty then none else some (text, rest)
      | _ => none
  | none, [] => none

def isConfig (name : List Char) : Bool := name == "config".toList

/-- The short options of a command: those that are set, or a request that ends the reading. -/
def shortFlags : List Char → Command → Except Request Command
  | [], command => .ok command
  | 'f' :: rest, .init false => shortFlags rest (.init true)
  | 'h' :: _, _ => .error .help
  | _, _ => .error .misuse

def longFlag (name : List Char) (value : Option (List Char)) (command : Command) :
    Except Request Command :=
  match String.ofList name, value, command with
  | "force", none, .init false => .ok (.init true)
  | "help", none, _ => .error .help
  | _, _, _ => .error .misuse

/-- The arguments after a command. `own` is the configuration file that is named among them. -/
def readCommand : Nat → Command → (outer own : Option String) → List String → Request
  | _, command, outer, own, [] => .run command ((own.or outer).getD defaultConfig)
  | 0, _, _, _, _ => .misuse
  | n + 1, command, outer, own, arg :: rest =>
      match form arg with
      | .stop => if rest.isEmpty then readCommand n command outer own [] else .misuse
      | .plain _ => .misuse
      | .short letters =>
          match shortFlags letters command with
          | .ok command => readCommand n command outer own rest
          | .error request => request
      | .long name value =>
          if isConfig name then
            match own, configValue? value rest with
            | none, some (path, rest) => readCommand n command outer (some path) rest
            | _, _ => .misuse
          else match longFlag name value command with
            | .ok command => readCommand n command outer own rest
            | .error request => request

def command? : String → Option Command
  | "init" => some (.init false)
  | "validate" => some .validate
  | "show" => some .display
  | _ => none

/-- Help can be asked for on one command. -/
def readHelp : List String → Request
  | [] => .help
  | [name] => if (command? name).isSome || name == "help" then .help else .misuse
  | _ => .misuse

/-- The arguments in front of the command and from there on. -/
def readFrom : Nat → Option String → List String → Request
  | 0, _, _ => .misuse
  | _, _, [] => .misuse
  | n + 1, config, arg :: rest =>
      match form arg with
      | .stop => .misuse
      | .plain "help" => readHelp rest
      | .plain name =>
          match command? name with
          | some command => readCommand (rest.length + 1) command config none rest
          | none => .misuse
      | .short ('h' :: _) => .help
      | .short ('V' :: _) => .version
      | .short _ => .misuse
      | .long name value =>
          if isConfig name then
            match config, configValue? value rest with
            | none, some (path, rest) => readFrom n (some path) rest
            | _, _ => .misuse
          else match String.ofList name, value with
            | "help", none => .help
            | "version", none => .version
            | _, _ => .misuse

def Request.ofArguments (args : List String) : Request := readFrom (args.length + 1) none args

end Overseer.Cli
