import Overseer.Cost.Basic

/-! # Budgets

What has been spent, under a ceiling. A negative cost counts as nothing, a cost that is no number is
never admitted, and one that is not finite is never booked.
-/

namespace Overseer

structure Budget (κ : Type) where
  ceiling : κ
  spent : κ
  deriving Repr

namespace Budget

variable {κ : Type} [Cost κ]

def new (ceiling : κ) : Budget κ := ⟨Cost.floor ceiling, Cost.zero⟩

/-- Whether spending `estimate` more stays within the ceiling. -/
def admits (b : Budget κ) (estimate : κ) : Bool :=
  if Cost.isNaN estimate then false else Cost.le (Cost.add b.spent (Cost.floor estimate)) b.ceiling

def overspent (b : Budget κ) : Bool := Cost.lt b.ceiling b.spent

def book (b : Budget κ) (cost : κ) : Budget κ :=
  if Cost.isFinite cost then { b with spent := Cost.add b.spent (Cost.floor cost) } else b

end Budget

end Overseer
