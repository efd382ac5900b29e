import Overseer.Host.Shell.State

/-! # Redirects and pipes in scripts

What a part of a script writes is led to where its redirects say, after it has run.

The shell is a part of the stand-in host on which runs are made, and no part of the program that is modelled
(`Host.Programs`).
-/

namespace Overseer.Host.Shell

open Command (Action Status Stream)

inductive Sink
  | stream (stream : Stream)
  | file (name : String)

/-- Where the two streams go. -/
structure Sinks where
  output : Sink
  errors : Sink

def Sinks.straight : Sinks := ⟨.stream .output, .stream .errors⟩

def Sinks.get (s : Sinks) (number : Nat) : Sink := if number = 2 then s.errors else s.output

def Sinks.set (s : Sinks) (number : Nat) (sink : Sink) : Sinks :=
  match number with
  | 1 => { s with output := sink }
  | 2 => { s with errors := sink }
  | _ => s

def sinkOf : Sinks → Stream → Sink
  | s, .output => s.output
  | s, .errors => s.errors

/-- A part of a script in which writing has to be led elsewhere. -/
structure Leads where
  sinks : Sinks
  input : Option (List UInt8)
  files : Files

def leadsOf (sh : State) : Leads → List Redirect → Except String Leads
  | l, [] => .ok l
  | l, .output stream (.stream number) :: rest =>
      leadsOf sh { l with sinks := l.sinks.set stream (l.sinks.get number) } rest
  | l, .output stream (.file name append) :: rest =>
      let name := single sh name
      let files := if append && l.files.contains name then l.files else l.files.set name []
      leadsOf sh { l with sinks := l.sinks.set stream (.file name), files := files } rest
  | l, .input name :: rest =>
      let name := single sh name
      match Tool.source? l.files sh.input name with
      | some bytes => leadsOf sh { l with input := some bytes } rest
      | none => .error name

/-- Leads what was done, the earliest first, to the sinks. -/
def lead (sinks : Sinks) (inputIsOwn : Bool) : List Action → State → State
  | [], sh => sh
  | .write stream bytes :: rest, sh =>
      lead sinks inputIsOwn rest <| match sinkOf sinks stream with
        | .stream target => sh.act [.write target bytes]
        | .file name =>
            if name == "/dev/null" then sh
            else { sh with files := sh.files.set name ((sh.files.get? name).getD [] ++ bytes) }
  | .pause d :: rest, sh => lead sinks inputIsOwn rest (sh.act [.pause d])
  | action :: rest, sh =>
      lead sinks inputIsOwn rest (if inputIsOwn then sh.act [action] else sh)

/-- Runs a part of a script with redirects. -/
def redirected (redirects : List Redirect) (body : State → State) (sh : State) : State :=
  if redirects.isEmpty then body sh
  else match leadsOf sh ⟨.straight, none, sh.files⟩ redirects with
    | .error name =>
        { sh.take (.fail (sh.name ++ ": 1: cannot open " ++ name ++ ": No such file") 2 sh.input)
          with last := 2 }
    | .ok l =>
        let inner := body { sh with done := [], input := l.input.getD sh.input, files := l.files }
        let outer :=
          { inner with done := sh.done, input := if l.input.isSome then sh.input else inner.input }
        lead l.sinks l.input.isNone inner.done.reverse outer

/-- Everything that was written to the output. -/
def written (actions : List Action) : List UInt8 :=
  actions.flatMap fun
    | .write .output bytes => bytes
    | _ => []

def isOutput : Action → Bool
  | .write .output _ => true
  | _ => false

def isReading : Action → Bool
  | .read _ | .awaitEnd => true
  | _ => false

/-- What goes on outside after a part that had a shell of its own. Only a signal ends both. -/
def afterChild (sh inner : State) : State :=
  match inner.ended with
  | some .killed => { sh with ended := some .killed }
  | some (.exited code) => { sh with last := code }
  | none => { sh with last := inner.last }

/-- Runs a first part whose output is the input of a second. -/
def piped (first second : State → State) (sh : State) : State :=
  let a := first { sh with done := [] }
  let actions := a.done.reverse
  let b := second { sh with done := [], input := written actions, files := a.files }
  let sh := (sh.act (actions.filter (!isOutput ·))).act (b.done.reverse.filter (!isReading ·))
  let sh := { sh with input := a.input, files := b.files }
  if a.ended = some .killed then { sh with ended := some .killed } else afterChild sh b

def inSubshell (body : State → State) (sh : State) : State :=
  let inner := body sh
  afterChild { inner with bindings := sh.bindings, args := sh.args, ended := none } inner

end Overseer.Host.Shell
