import Overseer.Queue.Waiter
import Overseer.Script.Executor
import Overseer.System.Worker

/-! # Running the system against a script

Everything runs in turns: the dispatchers hand out what they can, the watchdogs sweep when it is time, and
each worker goes on until it waits. The system is settled when a round moves nothing. Deadlines go by a
timer that stands still unless it is advanced.
-/

namespace Overseer.Script

inductive Dispatcher
  | running (waiter : Waiter)
  | finished
  deriving Repr, DecidableEq

structure Watchdog where
  interval : Duration
  stallTimeout : Duration
  /-- When it sweeps next; nothing before it has run. -/
  next : Option Time
  deriving Repr, DecidableEq

structure Simulation (κ : Type) where
  settings : Settings κ
  system : System κ
  executor : Executor κ
  /-- The calls that the executor has taken, by the number of the worker. -/
  taken : Table Nat (Taken κ)
  dispatchers : List Dispatcher
  watchdogs : List Watchdog

namespace Simulation

variable {κ : Type}

def new (settings : Settings κ) (system : System κ) (executor : Executor κ) : Simulation κ :=
  ⟨settings, system, executor, [], [], []⟩

/-- An operation from outside; it happens later than everything before. -/
def act {α : Type} (sim : Simulation κ) (operation : Observer κ → System κ → α × System κ) :
    α × Simulation κ :=
  let (result, system) := operation sim.system.observer sim.system.tick
  (result, { sim with system := system })

def start (sim : Simulation κ) : Simulation κ :=
  { sim with dispatchers := sim.dispatchers ++ [.running .fresh] }

/-- A watchdog that would sweep without end never runs. -/
def guard (sim : Simulation κ) (interval stallTimeout : Duration) : Simulation κ :=
  if interval.nanos = 0 then sim
  else { sim with watchdogs := sim.watchdogs ++ [⟨interval, stallTimeout, none⟩] }

def unguard (sim : Simulation κ) : Simulation κ := { sim with watchdogs := [] }

/-- A dispatcher admits until it has to wait. -/
def admitAll : Nat → Waiter → System κ → Dispatcher × System κ
  | 0, waiter, s => (.running waiter, s)
  | n + 1, waiter, s =>
      match waiter.poll s.queue with
      | .closed => (.finished, s)
      | .waiting waiter => (.running waiter, s)
      | .admitted admission queue => admitAll n .fresh (s.tick.employ admission queue)

def runDispatcher (d : Dispatcher) (s : System κ) : Dispatcher × System κ :=
  match d with
  | .finished => (.finished, s)
  | .running waiter => admitAll (s.queue.pending.length + 1) waiter s

def runDispatchers : List Dispatcher → System κ → List Dispatcher × System κ
  | [], s => ([], s)
  | d :: rest, s =>
      let (d, s) := runDispatcher d s
      let (rest, s) := runDispatchers rest s
      (d :: rest, s)

/-- The first tick after `now`; ticks that have been missed are left out. -/
def tickAfter (w : Watchdog) (due now : Time) : Time :=
  now + w.interval.nanos - (now - due) % w.interval.nanos

def runWatchdog (w : Watchdog) (s : System κ) : Bool × Watchdog × System κ :=
  let now := s.clock.timer
  let due := w.next.getD now
  if due ≤ now then
    (true, { w with next := some (tickAfter w due now) },
      (s.tick.sweep s.observer w.stallTimeout).2)
  else (false, { w with next := some due }, s)

def runWatchdogs : List Watchdog → System κ → Bool × List Watchdog × System κ
  | [], s => (false, [], s)
  | w :: rest, s =>
      let (swept, w, s) := runWatchdog w s
      let (others, rest, s) := runWatchdogs rest s
      (swept || others, w :: rest, s)

/-- Whether a worker has a call under way that the executor has taken. -/
def isWaiting (sim : Simulation κ) (n : Nat) : Bool :=
  match sim.system.workers[n]? with
  | some ⟨_, .calling _ _ true⟩ => true
  | _ => false

def isOver (sim : Simulation κ) (n : Nat) : Bool :=
  match sim.system.workers[n]? with
  | some ⟨_, .ended⟩ | none => true
  | _ => false

def keepTaken (sim : Simulation κ) (n : Nat) (taken : Option (Taken κ)) : Simulation κ :=
  match taken, sim.isWaiting n with
  | some call, true => { sim with taken := sim.taken.set n call }
  | taken, _ => { sim with taken := sim.taken.remove n, executor := sim.executor.leave taken }

variable [Cost κ]

/-- What the executor brings about when a worker is about to look at its call. -/
def reaction (sim : Simulation κ) (n : Nat) : Reaction κ × Executor κ :=
  let taken := sim.taken.get? n
  match sim.system.workers[n]? with
  | some ⟨admission, .calling job _ _⟩ =>
      if sim.system.isCancelled admission.token then (⟨false, .pending, taken⟩, sim.executor)
      else sim.executor.ask (System.Job.invocation sim.settings job).name taken
  | _ => (⟨false, .pending, taken⟩, sim.executor)

def execute (sim : Simulation κ) (n : Nat) (reaction : Reaction κ) : System.Execute κ := fun s =>
  match sim.system.workers[n]?, reaction.cancels with
  | some worker, true =>
      (reaction.poll, s.withQueue (s.queue.cancelToken worker.admission.token))
  | _, _ => (reaction.poll, s)

def turn (sim : Simulation κ) (n : Nat) : Simulation κ :=
  let (reaction, executor) := sim.reaction n
  let system := sim.system.tick.turn sim.system.observer sim.settings n (sim.execute n reaction)
  { sim with system := system, executor := executor }.keepTaken n reaction.taken

/-- Turns of one worker until it waits or is over. The answer says whether it moved. -/
def runWorker (sim : Simulation κ) (n : Nat) : Nat → Bool → Bool × Simulation κ
  | 0, moved => (moved, sim)
  | fuel + 1, moved =>
      if sim.isOver n then (moved, sim)
      else
        let waited := sim.isWaiting n
        let sim := sim.turn n
        if sim.isWaiting n then (moved || !waited, sim) else sim.runWorker n fuel true

/-- Enough turns for any worker. -/
def turnBound (sim : Simulation κ) : Nat := 12 * sim.settings.healing.maxIterations + 12

def runWorkers (sim : Simulation κ) : List Nat → Bool × Simulation κ
  | [] => (false, sim)
  | n :: rest =>
      let (moved, sim) := sim.runWorker n sim.turnBound false
      let (others, sim) := sim.runWorkers rest
      (moved || others, sim)

def round (sim : Simulation κ) : Bool × Simulation κ :=
  let (dispatchers, system) := runDispatchers sim.dispatchers sim.system
  let admitted := decide (sim.system.workers.length < system.workers.length)
  let (swept, watchdogs, system) := runWatchdogs sim.watchdogs system
  let sim :=
    { sim with system := system, dispatchers := dispatchers, watchdogs := watchdogs }
  let (moved, sim) := sim.runWorkers (List.range sim.system.workers.length)
  (admitted || swept || moved, sim)

def rounds : Nat → Simulation κ → Simulation κ
  | 0, sim => sim
  | n + 1, sim =>
      match sim.round with
      | (true, sim) => rounds n sim
      | (false, sim) => sim

/-- Enough rounds for everything that is there. -/
def roundBound (sim : Simulation κ) : Nat :=
  (sim.system.queue.pending.length + sim.system.workers.length + 2) * (sim.turnBound + 2)

def settle (sim : Simulation κ) : Simulation κ := rounds sim.roundBound sim

def advance (sim : Simulation κ) (d : Duration) : Simulation κ :=
  let clock := sim.system.clock
  let system := { sim.system with clock := { clock with timer := clock.timer + d.nanos } }
  { sim with system := system }.settle

end Simulation

end Overseer.Script
