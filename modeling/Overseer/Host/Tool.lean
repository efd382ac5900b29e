import Overseer.Host.Effect
import Overseer.Host.Format
import Overseer.Table

/-! # Small programs

What the usual programs of a command line do with their arguments, the files at hand and their input.

Part of the stand-in host on which runs are made, and no part of the program that is modelled (`Host.Programs`).
-/

namespace Overseer.Host

open Command (Action)

/-- The files that have been written, by name. -/
abbrev Files := Table String (List UInt8)

/-- A program, from its arguments, the files and its input. -/
abbrev Tool := List String → Files → List UInt8 → Effect

namespace Tool

/-- What is read under a name; `-` is the input itself. -/
def source? (files : Files) (input : List UInt8) (name : String) : Option (List UInt8) :=
  if name == "-" || name == "/dev/stdin" then some input
  else if name == "/dev/null" then some []
  else files.get? name

def missing (tool name : String) : String := tool ++ ": " ++ name ++ ": No such file or directory"

def toText (bytes : List UInt8) : List Char := Text.lossy bytes

def echo : Tool := fun args _ input =>
  let isOption (arg : String) := match arg.toList with
    | '-' :: c :: rest => (c :: rest).all fun c => c == 'n' || c == 'e' || c == 'E'
    | _ => false
  let options := (args.takeWhile isOption).flatMap String.toList
  let body := " ".intercalate (args.dropWhile isOption)
  let (bytes, ended) :=
    if options.contains 'e' then Format.expanded body else (Text.encode body.toList, false)
  .print (bytes ++ if ended || options.contains 'n' then [] else [10]) input

/-- Files one after the other; those that are missing are named. -/
def concatenate : List String → Files → List UInt8 → List Action × Bool
  | [], _, _ => ([], true)
  | name :: rest, files, input =>
      let isInput := name == "-" || name == "/dev/stdin"
      let left := if isInput then [] else input
      let (more, fine) := concatenate rest files left
      match source? files input name with
      | some bytes =>
          let actions :=
            if isInput then (Effect.copy input).actions else [.write .output bytes]
          (actions ++ more, fine)
      | none => ((Effect.fail (missing "cat" name) 1 []).actions ++ more, false)

def cat : Tool := fun args files input =>
  if args.isEmpty then .copy input
  else
    let (actions, fine) := concatenate args files input
    ⟨actions, if args.contains "-" then [] else input, .exited (if fine then 0 else 1)⟩

/-- Longer than anybody waits. -/
def endless : Duration := .ofSecs 1000000000

/-- A number of seconds with decimals, and a unit. -/
def duration? (text : String) : Option Duration :=
  if text == "infinity" || text == "inf" then some endless else
  let s := text.toList
  let whole := s.takeWhile Text.isAsciiDigit
  let (decimals, unit) := match s.drop whole.length with
    | '.' :: rest => (rest.takeWhile Text.isAsciiDigit, rest.dropWhile Text.isAsciiDigit)
    | rest => ([], rest)
  let factor := match unit with
    | [] | ['s'] => some 1
    | ['m'] => some 60
    | ['h'] => some 3600
    | ['d'] => some 86400
    | _ => none
  if whole.isEmpty && decimals.isEmpty then none
  else factor.map fun n =>
    let scaled := Text.decimalValue (whole ++ decimals) * 1000000000 / Nat.pow 10 decimals.length
    ⟨n * scaled⟩

def sleep : Tool := fun args _ input =>
  match args.mapM duration? with
  | some (d :: more) => ⟨(d :: more).map .pause, input, .exited 0⟩
  | _ => .fail "sleep: invalid time interval" 1 input

/-- The number of an option such as `-c 5` or `-c5`, and the other arguments. -/
def numberOption (letter : Char) : List String → Option (String × List String)
  | [] => none
  | arg :: rest =>
      match arg.toList, rest with
      | ['-', c], value :: after => if c = letter then some (value, after) else none
      | '-' :: c :: value, _ => if c = letter then some (String.ofList value, rest) else none
      | _, _ => none

/-- What a program that reads one file or its input makes of it. -/
def filter (tool : String) (args : List String) (files : Files) (input : List UInt8)
    (f : List UInt8 → List UInt8) : Effect :=
  match args with
  | [] => .digest f input
  | name :: _ =>
      match source? files input name with
      | some bytes => .print (f bytes) input
      | none =>
          .fail (tool ++ ": cannot open \x27" ++ name ++ "\x27 for reading: No such file or directory")
            1 input

def takeLines : Nat → List UInt8 → List UInt8
  | _, [] => []
  | 0, _ => []
  | n + 1, b :: rest => b :: takeLines (if b = 10 then n else n + 1) rest

def countLines (bytes : List UInt8) : Nat := bytes.count 10

/-- An endless file gives as many bytes as are asked for. -/
def headBytes (count : Nat) (args : List String) (files : Files) (input : List UInt8) : Effect :=
  if args == ["/dev/zero"] then .print (List.replicate count 0) input
  else filter "head" args files input (·.take count)

def head : Tool := fun args files input =>
  match numberOption 'c' args, numberOption 'n' args with
  | some (value, rest), _ => headBytes (Format.readNumber value).toNat rest files input
  | none, some (value, rest) =>
      filter "head" rest files input (takeLines (Format.readNumber value).toNat)
  | none, none =>
      match args with
      | arg :: rest =>
          if arg.startsWith "-" && arg.length > 1 then
            filter "head" rest files input (takeLines (Format.readNumber arg).natAbs)
          else filter "head" args files input (takeLines 10)
      | [] => filter "head" [] files input (takeLines 10)

def lastLines (count : Nat) (bytes : List UInt8) : List UInt8 :=
  let whole := countLines bytes + if bytes.getLast? == some 10 || bytes.isEmpty then 0 else 1
  bytes.drop (takeLines (whole - count) bytes).length

def tail : Tool := fun args files input =>
  match numberOption 'c' args, numberOption 'n' args with
  | some (value, rest), _ =>
      let count := (Format.readNumber value).natAbs
      filter "tail" rest files input fun bytes =>
        if value.startsWith "+" then bytes.drop (count - 1) else bytes.drop (bytes.length - count)
  | none, some (value, rest) =>
      filter "tail" rest files input (lastLines (Format.readNumber value).natAbs)
  | none, none => filter "tail" args files input (lastLines 10)

/-- The bytes of a set, in which ranges and escapes count; `fuel` bounds its length. -/
def bytesOfSet : Nat → List Char → List UInt8
  | _, [] => []
  | 0, _ => []
  | n + 1, '\\' :: s => let (bytes, rest) := Format.escape s; bytes ++ bytesOfSet n rest
  | n + 1, a :: '-' :: b :: rest =>
      if a ≤ b then
        (List.range (b.toNat - a.toNat + 1)).map (fun i => UInt8.ofNat (a.toNat + i)) ++ bytesOfSet n rest
      else bytesOfSet n rest
  | n + 1, c :: rest => Text.encode [c] ++ bytesOfSet n rest

def setOf (text : String) : List UInt8 := bytesOfSet text.length text.toList

/-- The last byte of a set stands for all that are missing. -/
def replaceByte (old new : List UInt8) (b : UInt8) : UInt8 :=
  if old.contains b then (new[old.idxOf b]?).getD (new.getLastD b) else b

def tr : Tool := fun args _ input =>
  match args with
  | ["-d", set] => .digest (·.filter fun b => !(setOf set).contains b) input
  | [old, new] => .digest (·.map (replaceByte (setOf old) (setOf new))) input
  | _ => .fail "tr: missing operand" 1 input

def countWords (bytes : List UInt8) : Nat :=
  let count (state : Bool × Nat) (c : Char) : Bool × Nat :=
    (c.isWhitespace, if state.1 && !c.isWhitespace then state.2 + 1 else state.2)
  ((toText bytes).foldl count (true, 0)).2

/-- A count, with the name of the file if there is one. -/
def countLine (args : List String) (n : Nat) : List UInt8 :=
  Text.encode (" ".intercalate (toString n :: args) ++ "\n").toList

def wc : Tool := fun args files input =>
  let counted (rest : List String) (f : List UInt8 → Nat) :=
    filter "wc" rest files input fun bytes => countLine rest (f bytes)
  match args with
  | "-c" :: rest => counted rest List.length
  | "-l" :: rest => counted rest countLines
  | "-m" :: rest => counted rest fun bytes => (toText bytes).length
  | "-w" :: rest => counted rest countWords
  | _ => .fail "wc: invalid option" 1 input

def seq : Tool := fun args _ input =>
  let count (first last : Int) :=
    (List.range (last - first + 1).toNat).flatMap fun i =>
      Text.encode (toString (first + Int.ofNat i) ++ "\n").toList
  match args.map Format.readNumber with
  | [last] => .print (count 1 last) input
  | [first, last] => .print (count first last) input
  | _ => .fail "seq: missing operand" 1 input

/-- Says a word over and over, for as long as anybody could listen. -/
def yes : Tool := fun args _ input =>
  let line := Text.encode ((if args.isEmpty then "y" else " ".intercalate args) ++ "\n").toList
  .print ((List.range (262144 / line.length + 1)).flatMap fun _ => line) input

/-- The files by name, one a line. -/
def ls : Tool := fun args files input =>
  let named := args.filter fun arg => !arg.startsWith "-" && arg != "."
  let lines (names : List String) := Text.encode (names.flatMap fun name => (name ++ "\n").toList)
  if named.isEmpty then .print (lines (files.keys.mergeSort fun a b => decide (a ≤ b))) input
  else
    let absent := named.filter (!files.contains ·)
    let complaints := absent.map fun name =>
      Action.write .errors (lines ["ls: cannot access \x27" ++ name ++ "\x27: No such file or directory"])
    let shown := Action.write .output (lines (named.filter files.contains))
    ⟨complaints ++ [shown], input, .exited (if absent.isEmpty then 0 else 2)⟩

def compare? (operator : String) (a b : String) : Option Bool :=
  let m := Format.readNumber a
  let n := Format.readNumber b
  match operator with
  | "=" => some (a == b)
  | "!=" => some (a != b)
  | "-eq" => some (m == n)
  | "-ne" => some (m != n)
  | "-lt" => some (decide (m < n))
  | "-le" => some (decide (m ≤ n))
  | "-gt" => some (decide (n < m))
  | "-ge" => some (decide (n ≤ m))
  | _ => none

def holds (files : Files) : List String → Option Bool
  | [] => some false
  | [a] => some (a != "")
  | "!" :: rest => (holds files rest).map (!·)
  | ["-n", a] => some (a != "")
  | ["-z", a] => some (a == "")
  | ["-f", a] | ["-e", a] => some (files.contains a)
  | ["-d", a] => some (a == "." || a == "/")
  | [a, operator, b] => compare? operator a b
  | _ => none

def test : Tool := fun args files input =>
  match holds files args with
  | some true => .exit 0 input
  | some false => .exit 1 input
  | none => .exit 2 input

def bracket : Tool := fun args files input =>
  if args.getLast? == some "]" then test args.dropLast files input
  else .fail "[: missing ]" 2 input

def printf : Tool := fun args _ input =>
  match args with
  | format :: rest => .print (Format.write format rest) input
  | [] => .fail "printf: missing operand" 1 input

def named : Table String Tool :=
  [("echo", echo), ("cat", cat), ("sleep", sleep), ("head", head), ("tail", tail), ("tr", tr),
   ("wc", wc), ("seq", seq), ("yes", yes), ("ls", ls), ("test", test), ("[", bracket), ("printf", printf),
   ("true", fun _ _ input => .exit 0 input), ("false", fun _ _ input => .exit 1 input),
   ("touch", fun _ _ input => .exit 0 input)]

end Tool

/-- The name of a program, without the directory it may be given with. -/
def programName (word : String) : String :=
  (["/bin/", "/usr/bin/"].find? fun directory => word.startsWith directory).elim word
    fun directory => (word.drop directory.length).toString

def tool? (word : String) : Option Tool := Tool.named.get? (programName word)

end Overseer.Host
