/-! # Finite maps in the order of insertion

A key occurs at most once in a table that is built by these functions. Setting a key that is there keeps
its place; `move` puts it last.
-/

namespace Overseer

abbrev Table (α β : Type) := List (α × β)

namespace Table

variable {α β : Type} [DecidableEq α]

def get? (t : Table α β) (k : α) : Option β := (t.find? fun entry => entry.1 == k).map (·.2)

def contains (t : Table α β) (k : α) : Bool := t.any fun entry => entry.1 == k

def keys (t : Table α β) : List α := t.map (·.1)

def values (t : Table α β) : List β := t.map (·.2)

def modify (t : Table α β) (k : α) (f : β → β) : Table α β :=
  t.map fun entry => if entry.1 = k then (entry.1, f entry.2) else entry

def set (t : Table α β) (k : α) (v : β) : Table α β :=
  if t.contains k then t.modify k (fun _ => v) else t ++ [(k, v)]

def remove (t : Table α β) (k : α) : Table α β := t.filter fun entry => entry.1 != k

def move (t : Table α β) (k : α) (v : β) : Table α β := t.remove k ++ [(k, v)]

end Table

end Overseer
