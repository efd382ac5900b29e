import Overseer.Queue.Basic

/-! # Waiting for an admission

A waiter registers for wake-ups and looks at the queue; when it finds nothing it sleeps until it has been
woken since, or the queue has shut down. Polling it takes it as far as it goes without sleeping.
-/

namespace Overseer

inductive Waiter
  | fresh
  /-- Asleep since the queue had been woken this often. -/
  | asleep (since : Nat)
  deriving Repr, DecidableEq

inductive Waited
  | closed
  | admitted (admission : Admission) (queue : Queue)
  | waiting (waiter : Waiter)
  deriving Repr

namespace Waiter

def isWoken (q : Queue) : Waiter → Bool
  | .fresh => true
  | .asleep since => since != q.wakeups || q.isCancelled q.shutdown

def look (q : Queue) : Waited :=
  match q.inspect with
  | .closed => .closed
  | .admitted admission q => .admitted admission q
  | .nothing => .waiting (.asleep q.wakeups)

def poll (w : Waiter) (q : Queue) : Waited := if w.isWoken q then look q else .waiting w

end Waiter

end Overseer
