import Overseer.Duration

/-! # Readings of a clock -/

namespace Overseer

/-- Nanoseconds since the start of the clock. -/
abbrev Time := Nat

/-- How long ago `earlier` was at `now`; nothing when it lies ahead. -/
def elapsed (earlier now : Time) : Duration := ⟨now - earlier⟩

def Duration.exceeds (d limit : Duration) : Bool := decide (limit.nanos < d.nanos)

/-- How a reading of the clock is shown. -/
abbrev Stamp := Time → String

def deadline (now : Time) (limit : Duration) : Time := now + limit.nanos

end Overseer
