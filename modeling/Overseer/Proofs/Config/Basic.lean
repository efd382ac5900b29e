import Mathlib
import Overseer.Config.Basic
import Overseer.Proofs.Keyed

/-! # Configurations that can be and that are valid

Of a configuration that `validate` accepts each of the conditions holds. That its numbers fit into their fields and
its tables are in the order of their keys is not among them: the fields can hold nothing else.
-/

namespace Overseer

namespace Config

variable {config : Config}

theorem holds_of_validate (h : config.validate = .ok ()) {condition : Bool × ConfigError}
    (hmem : condition ∈ config.conditions) : condition.1 = true := by
  have hnone : config.firstError? = none := by
    unfold validate at h
    split at h
    · cases h
    · assumption
  simp only [firstError?, Option.map_eq_none_iff, List.find?_eq_none] at hnone
  simpa using hnone condition hmem

theorem isNaN_maxCost (h : config.validate = .ok ()) : config.healing.maxCost.isNaN = false := by
  have hmem : (config.healing.maxCost.isFinite && !decide (config.healing.maxCost < 0), ConfigError.badCost) ∈
      config.conditions := by
    simp [conditions]
  have hfinite : config.healing.maxCost.toModel.unpack.isFinite = true :=
    (Bool.and_eq_true_iff.mp (holds_of_validate h hmem)).1
  change config.healing.maxCost.toModel.unpack.isNaN = false
  cases hunpack : config.healing.maxCost.toModel.unpack with
  | notANumber =>
    rw [hunpack] at hfinite
    cases hfinite
  | infinity sign => rfl
  | zero sign => rfl
  | finite sign mantissa exponent hpos => rfl

/-- The numbers are words of 32 and 64 bits, and the tables are in the order of their keys. -/
structure Fits (config : Config) : Prop where
  concurrencyLimit : config.queue.concurrencyLimit < 2 ^ 64
  maxPending : ∀ limit ∈ config.queue.maxPending, limit < 2 ^ 64
  timeoutSecs : config.executor.timeoutSecs < 2 ^ 64
  maxIterations : config.healing.maxIterations < 2 ^ 32
  maxRepeat : config.healing.maxRepeat < 2 ^ 32
  iterationTimeoutSecs : config.healing.iterationTimeoutSecs < 2 ^ 64
  intervalSecs : config.watchdog.intervalSecs < 2 ^ 64
  stallTimeoutSecs : config.watchdog.stallTimeoutSecs < 2 ^ 64
  buffer : config.notifier.buffer < 2 ^ 64
  outputLimit : config.commands.outputLimit < 2 ^ 64
  capabilities : Keyed.Sorted config.commands.capabilities
  perCapability : Keyed.Sorted config.cost.perCapability

end Config

/-- No price is a NaN. -/
structure PriceList.Numeric (p : PriceList) : Prop where
  default : p.default.isNaN = false
  perCapability : ∀ entry ∈ p.perCapability, entry.2.isNaN = false

end Overseer
