import Overseer.Healing.Run
import Overseer.Script.Executor
import Overseer.Trace.Tracer

/-! # Rehearsing one piece of work

Calls are made one after the other against a script, all under one token. Nothing else runs beside
them, so a call that nobody will ever answer reaches its deadline at once.
-/

namespace Overseer.Script

structure Rehearsal (κ : Type) where
  executor : Executor κ
  tokens : Tokens
  /-- The token of the work. -/
  work : Token
  /-- The calls that reached the executor, each with the token it got. -/
  reached : List (Invocation × Token)

/-- A rehearsal in the middle of a call. -/
structure Rehearsal.Calling (κ : Type) where
  rehearsal : Rehearsal κ
  taken : Option (Taken κ)

namespace Rehearsal

variable {κ : Type}

def new (executor : Executor κ) (cancelled : Bool) : Rehearsal κ :=
  let (tokens, work) := Tokens.empty.root
  ⟨executor, if cancelled then tokens.cancel work else tokens, work, []⟩

def isCancelled (r : Rehearsal κ) : Bool := r.tokens.isCancelled r.work

def Calling.execute (invocation : Invocation) (c : Calling κ) : Poll κ × Calling κ :=
  let r := c.rehearsal
  let (reaction, executor) := r.executor.ask invocation.name c.taken
  let tokens := if reaction.cancels then r.tokens.cancel r.work else r.tokens
  (reaction.poll, ⟨{ r with executor := executor, tokens := tokens }, reaction.taken⟩)

def Calling.stop (call : Call) (c : Calling κ) : Calling κ :=
  let r := c.rehearsal
  ⟨{ r with tokens := r.tokens.cancel call.token, executor := r.executor.leave c.taken }, none⟩

def look (invocation : Invocation) (call : Call) (now : Time) (c : Calling κ) :
    Option (Ending κ) × Calling κ :=
  call.look (fun c => c.rehearsal.isCancelled) (Calling.execute invocation) (Calling.stop call) now c

/-- A bounded call to its end: it is looked at once, and again at its deadline. -/
def call (limit : Duration) (invocation : Invocation) (r : Rehearsal κ) : Ending κ × Rehearsal κ :=
  if r.isCancelled then (Call.cancelled, r)
  else
    let (call, tokens) := Call.begin r.tokens r.work limit 0
    let r := { r with tokens := tokens, reached := r.reached ++ [(invocation, call.token)] }
    match look invocation call 0 ⟨r, none⟩ with
    | (some ending, c) => (ending, c.rehearsal)
    | (none, c) =>
        let (ending, c) := look invocation call call.expires c
        (ending.getD Call.cancelled, c.rehearsal)

def callTimes (limit : Duration) (invocation : Invocation) :
    Nat → Rehearsal κ → List (Ending κ) × Rehearsal κ
  | 0, r => ([], r)
  | n + 1, r =>
      let (ending, r) := r.call limit invocation
      let (endings, r) := callTimes limit invocation n r
      (ending :: endings, r)

end Rehearsal

/-- A rehearsal with a trace of the work. -/
structure Session (κ : Type) where
  rehearsal : Rehearsal κ
  id : TaskId
  tracer : Tracer
  clock : Time

namespace Session

variable {κ : Type}

/-- The task is under way. -/
def new (rehearsal : Rehearsal κ) (id : TaskId) : Session κ :=
  ⟨rehearsal, id, ((Tracer.empty.create id 0).markProcessing id 1).2, 2⟩

def record (step : Step) (s : Session κ) : Session κ :=
  { s with tracer := (s.tracer.record s.id step s.clock).1, clock := s.clock + 1 }

def surroundings (limit : Duration) : Healing.Surroundings κ (Session κ) where
  isCancelled s := s.rehearsal.isCancelled
  record := record
  call invocation s :=
    let (ending, rehearsal) := s.rehearsal.call limit invocation
    (ending, { s with rehearsal := rehearsal })

/-- A healing session from its start to its report. -/
def heal [Cost κ] (cfg : Healing.Config κ) (est : Estimator κ) (params : Json) (target : String)
    (s : Session κ) : Except Panic (Healing.Report κ) × Session κ :=
  Healing.run cfg est params (surroundings cfg.iterationTimeout) target s

end Session

end Overseer.Script
