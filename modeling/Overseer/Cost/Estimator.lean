import Overseer.Cost.Basic
import Overseer.Document.Decode

/-! # Estimating costs

An estimator prices a unit of work before it is done and, when the work does not say what it cost, says
what to book for it. A price list has one price for each capability and one for all others.
-/

namespace Overseer

structure WorkUnit where
  capability : String
  target : Option String
  /-- The iteration of a healing session, counted from 1. -/
  iteration : Option Nat
  deriving Repr, DecidableEq

def WorkUnit.toJson (u : WorkUnit) : Json :=
  .object [("capability", .string u.capability), ("target_file", .optional .string u.target),
    ("iteration", .optional .nat u.iteration)]

def WorkUnit.decode? (d : Document) : Option WorkUnit := do
  let r ← d.record? ["capability", "target_file", "iteration"]
  let capability ← r.required "capability" Document.string?
  let target ← r.optional "target_file" Document.string?
  let iteration ← r.optional "iteration" Document.word32?
  some ⟨capability, target, iteration⟩

structure Estimator (κ : Type) where
  estimate : WorkUnit → κ
  actual : WorkUnit → κ

namespace Estimator

/-- What is booked is what was estimated. -/
def ofEstimate {κ : Type} (estimate : WorkUnit → κ) : Estimator κ := ⟨estimate, estimate⟩

/-- One price for everything, with another one to book. -/
def fixed {κ : Type} (price : κ) (booked : Option κ) : Estimator κ :=
  ⟨fun _ => price, fun _ => booked.getD price⟩

end Estimator

structure PriceList where
  default : Float
  perCapability : List (String × Float)
  deriving Repr, BEq

namespace PriceList

def empty : PriceList := ⟨0, []⟩

def price (p : PriceList) (capability : String) : Float :=
  (Keyed.lookup capability p.perCapability).getD p.default

def estimator (p : PriceList) : Estimator Float := .ofEstimate fun unit => p.price unit.capability

def toJson (p : PriceList) : Json :=
  .object [("default", .float p.default),
    ("per_capability", .obj (p.perCapability.map fun (name, price) => (name, Json.float price)))]

def decode? (d : Document) : Option PriceList := do
  let r ← d.record? ["default", "per_capability"]
  let default ← r.withDefault "default" 0 Document.float?
  let perCapability ← r.withDefault "per_capability" [] (Document.dictionary? Document.float?)
  some ⟨default, perCapability⟩

end PriceList

end Overseer
