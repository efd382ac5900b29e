import Mathlib
import Overseer.Decimal.Shortest
import Overseer.Proofs.Decimal.Rounding

/-! # The shortest digits are taken

A grid that has a point in the interval of a double has one beside its value. The grid of 17 digits has one, as its step
is less than the interval is wide, so the search ends with digits that the double takes.
-/

namespace Overseer.Decimal

/-! ## Intervals as fractions -/

theorem asFraction_den_pos (e : Int) : 0 < (asFraction 1 e).2 := by
  unfold asFraction
  split
  · exact Nat.one_pos
  · exact Nat.two_pow_pos _

theorem asFraction_div (n : Nat) (e : Int) : ((asFraction n e).1 / (asFraction 1 e).2 : ℚ) = n * 2 ^ e := by
  have hpow : ∀ k, Nat.pow 2 k = 2 ^ k := fun _ => rfl
  unfold asFraction
  obtain ⟨k, rfl | rfl⟩ := e.eq_nat_or_neg
  · rw [if_pos (by omega), if_pos (by omega), hpow, Int.toNat_natCast, zpow_natCast]
    push_cast
    exact div_one _
  · by_cases hzero : k = 0
    · subst hzero
      rw [if_pos (by decide), if_pos (by decide)]
      change ((n * 1 : Nat) / ((1 : Nat) : ℚ)) = n * 1
      rw [Nat.mul_one, Nat.cast_one, div_one, mul_one]
    · rw [if_neg (by omega), if_neg (by omega), hpow, neg_neg, Int.toNat_natCast, zpow_neg, zpow_natCast]
      push_cast
      exact div_eq_mul_inv _ _

namespace Interval

/-- Whether a number lies in an interval. -/
structure Holds (i : Interval) (q : ℚ) : Prop where
  low_le : (i.low / i.den : ℚ) ≤ q
  le_high : q ≤ i.high / i.den
  inside : i.closed = false → (i.low / i.den : ℚ) < q ∧ q < i.high / i.den

end Interval

namespace Binary

variable (x : Binary)

theorem interval_value : (x.interval.value / x.interval.den : ℚ) = x.mantissa * 2 ^ x.exponent := by
  refine (asFraction_div _ _).trans ?_
  rw [zpow_sub₀ (by norm_num)]
  push_cast
  ring

theorem interval_high : (x.interval.high / x.interval.den : ℚ) = x.upper := by
  refine (asFraction_div _ _).trans ?_
  unfold upper
  rw [zpow_sub₀ (by norm_num)]
  push_cast
  ring

theorem interval_low (hpos : 0 < x.mantissa) : (x.interval.low / x.interval.den : ℚ) = x.lower := by
  refine (asFraction_div _ _).trans ?_
  unfold lower
  rw [zpow_sub₀ (by norm_num), Nat.cast_sub (by split <;> omega)]
  split
  · push_cast
    ring
  · push_cast
    ring

theorem interval_den_pos : 0 < x.interval.den := asFraction_den_pos _

theorem takes_of_holds (hpos : 0 < x.mantissa) {q : ℚ} (h : x.interval.Holds q) : x.Takes q := by
  obtain ⟨hlow, hhigh, hinside⟩ := h
  rw [x.interval_low hpos] at hlow hinside
  rw [x.interval_high] at hhigh hinside
  refine ⟨hlow, hhigh, fun hodd => hinside ?_⟩
  change (x.mantissa % 2 == 0) = false
  rw [hodd]
  rfl

end Binary

/-! ## Grids -/

theorem ten_zpow (step : Int) : (10 : ℚ) ^ step = 10 ^ step.toNat / 10 ^ (-step).toNat := by
  obtain ⟨k, rfl | rfl⟩ := step.eq_nat_or_neg
  · rw [Int.toNat_natCast, Int.toNat_of_nonpos (by omega), zpow_natCast, pow_zero, div_one]
  · rw [neg_neg, Int.toNat_natCast, Int.toNat_of_nonpos (by omega), zpow_neg, zpow_natCast, pow_zero, one_div]

namespace Interval

variable {i : Interval}

/-! The ends of an interval against a number of steps, in whole numbers. -/

theorem le_steps_iff (hden : 0 < i.den) (a n : Nat) (step : Int) :
    a * Nat.pow 10 (-step).toNat ≤ n * (i.den * Nat.pow 10 step.toNat) ↔ (a / i.den : ℚ) ≤ n * 10 ^ step := by
  have hden : (0 : ℚ) < i.den := by exact_mod_cast hden
  have hup : (0 : ℚ) < 10 ^ (-step).toNat := by positivity
  change a * 10 ^ (-step).toNat ≤ n * (i.den * 10 ^ step.toNat) ↔ _
  rw [ten_zpow, mul_div_assoc', div_le_div_iff₀ hden hup, mul_assoc (n : ℚ), mul_comm (10 ^ step.toNat : ℚ)]
  exact_mod_cast Iff.rfl

theorem steps_le_iff (hden : 0 < i.den) (a n : Nat) (step : Int) :
    n * (i.den * Nat.pow 10 step.toNat) ≤ a * Nat.pow 10 (-step).toNat ↔ (n * 10 ^ step : ℚ) ≤ a / i.den := by
  have hden : (0 : ℚ) < i.den := by exact_mod_cast hden
  have hup : (0 : ℚ) < 10 ^ (-step).toNat := by positivity
  change n * (i.den * 10 ^ step.toNat) ≤ a * 10 ^ (-step).toNat ↔ _
  rw [ten_zpow, mul_div_assoc', div_le_div_iff₀ hup hden, mul_assoc (n : ℚ), mul_comm (10 ^ step.toNat : ℚ)]
  exact_mod_cast Iff.rfl

theorem lt_steps_iff (hden : 0 < i.den) (a n : Nat) (step : Int) :
    a * Nat.pow 10 (-step).toNat < n * (i.den * Nat.pow 10 step.toNat) ↔ (a / i.den : ℚ) < n * 10 ^ step := by
  rw [← not_le, steps_le_iff hden, not_le]

theorem steps_lt_iff (hden : 0 < i.den) (a n : Nat) (step : Int) :
    n * (i.den * Nat.pow 10 step.toNat) < a * Nat.pow 10 (-step).toNat ↔ (n * 10 ^ step : ℚ) < a / i.den := by
  rw [← not_le, le_steps_iff hden, not_le]

/-- The number of whole steps in the value. -/
def below (i : Interval) (step : Int) : Nat :=
  i.value * Nat.pow 10 (-step).toNat / (i.den * Nat.pow 10 step.toNat)

theorem below_le (hden : 0 < i.den) (step : Int) : (i.below step * 10 ^ step : ℚ) ≤ i.value / i.den :=
  (steps_le_iff hden _ _ _).mp (Nat.div_mul_le_self _ _)

theorem lt_below_succ (hden : 0 < i.den) (step : Int) :
    (i.value / i.den : ℚ) < (i.below step + 1 : Nat) * 10 ^ step := by
  refine (lt_steps_iff hden _ _ _).mp ?_
  rw [Nat.mul_comm _ (i.den * _)]
  exact Nat.lt_mul_div_succ _ (Nat.mul_pos hden (Nat.pow_pos (by decide)))

/-- Whether the last point before the value lies in the interval. -/
def belowIn (i : Interval) (step : Int) : Bool :=
  if i.closed then
    decide (i.low * Nat.pow 10 (-step).toNat ≤ i.below step * (i.den * Nat.pow 10 step.toNat))
  else decide (i.low * Nat.pow 10 (-step).toNat < i.below step * (i.den * Nat.pow 10 step.toNat))

/-- Whether the first point after the value lies in the interval. -/
def aboveIn (i : Interval) (step : Int) : Bool :=
  if i.closed then
    decide ((i.below step + 1) * (i.den * Nat.pow 10 step.toNat) ≤ i.high * Nat.pow 10 (-step).toNat)
  else decide ((i.below step + 1) * (i.den * Nat.pow 10 step.toNat) < i.high * Nat.pow 10 (-step).toNat)

theorem onGrid_cases (i : Interval) (step : Int) :
    (i.onGrid step = some (i.below step) ∧ i.belowIn step = true ∧ 0 < i.below step) ∨
      (i.onGrid step = some (i.below step + 1) ∧ i.aboveIn step = true) ∨
      (i.onGrid step = none ∧ (i.belowIn step = false ∨ i.below step = 0) ∧ i.aboveIn step = false) := by
  obtain ⟨found, hfound⟩ : ∃ found, i.onGrid step = found := ⟨_, rfl⟩
  rw [hfound]
  unfold Interval.onGrid at hfound
  dsimp only at hfound
  split at hfound
  · rename_i hbelow habove
    change (i.belowIn step && decide (0 < i.below step)) = true at hbelow
    rw [Bool.and_eq_true, decide_eq_true_iff] at hbelow
    split at hfound
    · exact .inl ⟨hfound.symm, hbelow⟩
    · exact .inr (.inl ⟨hfound.symm, habove⟩)
  · rename_i hbelow _
    change (i.belowIn step && decide (0 < i.below step)) = true at hbelow
    rw [Bool.and_eq_true, decide_eq_true_iff] at hbelow
    exact .inl ⟨hfound.symm, hbelow⟩
  · rename_i _ habove
    exact .inr (.inl ⟨hfound.symm, habove⟩)
  · rename_i hbelow habove
    change (i.belowIn step && decide (0 < i.below step)) = false at hbelow
    rw [Bool.and_eq_false_iff, decide_eq_false_iff_not, Nat.pos_iff_ne_zero, not_not] at hbelow
    exact .inr (.inr ⟨hfound.symm, hbelow, habove⟩)

section Ends

variable (hden : 0 < i.den) {step : Int}

include hden

theorem belowIn_holds (hhigh : (i.value / i.den : ℚ) < i.high / i.den) (h : i.belowIn step = true) :
    i.Holds (i.below step * 10 ^ step) := by
  have hlt := (i.below_le hden step).trans_lt hhigh
  unfold belowIn at h
  cases hclosed : i.closed with
  | true =>
    rw [if_pos hclosed, decide_eq_true_iff, le_steps_iff hden] at h
    exact ⟨h, hlt.le, fun hopen => absurd (hclosed.symm.trans hopen) (by decide)⟩
  | false =>
    rw [if_neg (by rw [hclosed]; decide), decide_eq_true_iff, lt_steps_iff hden] at h
    exact ⟨h.le, hlt.le, fun _ => ⟨h, hlt⟩⟩

theorem aboveIn_holds (hlow : (i.low / i.den : ℚ) < i.value / i.den) (h : i.aboveIn step = true) :
    i.Holds ((i.below step + 1 : Nat) * 10 ^ step) := by
  have hlt := hlow.trans (i.lt_below_succ hden step)
  unfold aboveIn at h
  cases hclosed : i.closed with
  | true =>
    rw [if_pos hclosed, decide_eq_true_iff, steps_le_iff hden] at h
    exact ⟨hlt.le, h, fun hopen => absurd (hclosed.symm.trans hopen) (by decide)⟩
  | false =>
    rw [if_neg (by rw [hclosed]; decide), decide_eq_true_iff, steps_lt_iff hden] at h
    exact ⟨hlt.le, h.le, fun _ => ⟨hlt, h⟩⟩

theorem le_low_of_belowIn (h : i.belowIn step = false) : (i.below step * 10 ^ step : ℚ) ≤ i.low / i.den := by
  unfold belowIn at h
  split at h
  · rw [decide_eq_false_iff_not, le_steps_iff hden, not_le] at h
    exact h.le
  · rw [decide_eq_false_iff_not, lt_steps_iff hden, not_lt] at h
    exact h

theorem high_le_of_aboveIn (h : i.aboveIn step = false) :
    (i.high / i.den : ℚ) ≤ (i.below step + 1 : Nat) * 10 ^ step := by
  unfold aboveIn at h
  split at h
  · rw [decide_eq_false_iff_not, steps_le_iff hden, not_le] at h
    exact h.le
  · rw [decide_eq_false_iff_not, steps_lt_iff hden, not_lt] at h
    exact h

/-- What is found on a grid lies in the interval. -/
theorem holds_of_onGrid (hlow : (i.low / i.den : ℚ) < i.value / i.den) (hhigh : (i.value / i.den : ℚ) < i.high / i.den)
    {n : Nat} (h : i.onGrid step = some n) : 0 < n ∧ i.Holds (n * 10 ^ step) := by
  obtain ⟨heq, hin, hpos⟩ | ⟨heq, hin⟩ | ⟨heq, _⟩ := i.onGrid_cases step
  · obtain rfl := Option.some_inj.mp (heq.symm.trans h)
    exact ⟨hpos, belowIn_holds hden hhigh hin⟩
  · obtain rfl := Option.some_inj.mp (heq.symm.trans h)
    exact ⟨Nat.succ_pos _, aboveIn_holds hden hlow hin⟩
  · cases heq.symm.trans h

/-- A grid without a point in the interval is as coarse as the interval is wide, or starts beyond the value. -/
theorem coarse_of_onGrid (h : i.onGrid step = none) :
    (i.high / i.den - i.low / i.den : ℚ) ≤ 10 ^ step ∨ (i.value / i.den : ℚ) < 10 ^ step := by
  obtain ⟨heq, _⟩ | ⟨heq, _⟩ | ⟨_, hbelow, habove⟩ := i.onGrid_cases step
  · cases heq.symm.trans h
  · cases heq.symm.trans h
  · have hhigh := high_le_of_aboveIn hden habove
    obtain hout | hzero := hbelow
    · left
      have hlow := le_low_of_belowIn hden hout
      push_cast at hhigh
      linarith
    · right
      have hlt := i.lt_below_succ hden step
      rw [hzero, Nat.zero_add, Nat.cast_one, one_mul] at hlt
      exact hlt

end Ends

end Interval

/-! ## The leading digit -/

theorem lt_pow_digitCount (n : Nat) : n < 10 ^ digitCount n :=
  (Nat.length_toDigits_le_iff (by decide) Nat.length_toDigits_pos).mp le_rfl

theorem pow_digitCount_le {n : Nat} (h : 0 < n) : 10 ^ (digitCount n - 1) ≤ n := by
  by_contra hlt
  by_cases hone : digitCount n = 1
  · rw [hone] at hlt
    omega
  · have hpos : 0 < digitCount n := Nat.length_toDigits_pos
    have hle := (Nat.length_toDigits_le_iff (by decide) (by omega)).mpr (not_le.mp hlt)
    change digitCount n ≤ digitCount n - 1 at hle
    omega

theorem pow_leadingExponent_le {num den : Nat} (hnum : 0 < num) (hden : 0 < den) :
    (10 : ℚ) ^ leadingExponent num den ≤ num / den := by
  have hnum' : (0 : ℚ) < num := by exact_mod_cast hnum
  have hden' : (0 : ℚ) < den := by exact_mod_cast hden
  unfold leadingExponent
  split
  · rename_i hle
    have hpos : 0 < num / den := Nat.div_pos hle hden
    have hcount : 0 < digitCount (num / den) := Nat.length_toDigits_pos
    have hpow : ((digitCount (num / den) : Int) - 1) = (digitCount (num / den) - 1 : Nat) := by omega
    rw [hpow, zpow_natCast, le_div_iff₀ hden']
    have hle : 10 ^ (digitCount (num / den) - 1) * den ≤ num :=
      (Nat.mul_le_mul_right den (pow_digitCount_le hpos)).trans (Nat.div_mul_le_self num den)
    exact_mod_cast hle
  · rename_i hlt
    dsimp only
    have hcount : 0 < digitCount (den / num) := Nat.length_toDigits_pos
    split
    · rename_i hle
      have hpow : -((digitCount (den / num) : Int) - 1) = -((digitCount (den / num) - 1 : Nat) : Int) := by omega
      rw [hpow, zpow_neg, zpow_natCast, inv_le_comm₀ (by positivity) (by positivity), inv_div, div_le_iff₀ hnum',
        mul_comm]
      exact_mod_cast hle
    · rw [zpow_neg, zpow_natCast, inv_le_comm₀ (by positivity) (by positivity), inv_div, div_le_iff₀ hnum']
      have hlt : den < 10 ^ digitCount (den / num) * num := by
        rw [← Nat.div_lt_iff_lt_mul hnum]
        exact lt_pow_digitCount _
      exact_mod_cast hlt.le

/-! ## The search -/

/-- The search ends at a grid that has a point in the interval, as that of 17 digits has one. -/
theorem exists_firstGrid {i : Interval} {lead : Int} (hfine : i.onGrid (lead - 16) ≠ none) {count tries : Nat}
    (hsum : count + tries = 18) (hpos : 0 < tries) :
    ∃ n step, firstGrid i lead count tries = ⟨n, step⟩ ∧ i.onGrid step = some n := by
  induction tries generalizing count with
  | zero => omega
  | succ tries ih =>
    unfold firstGrid
    dsimp only
    cases hgrid : i.onGrid (lead - (count : Int) + 1) with
    | some n => exact ⟨n, _, rfl, hgrid⟩
    | none =>
      have hne : count ≠ 17 := by
        rintro rfl
        exact hfine (by rw [← hgrid]; congr 1; omega)
      exact ih (by omega) (by omega)

namespace Digits

theorem normalize_spec (d : Digits) (fuel : Nat) (hpos : 0 < d.digits) :
    0 < (d.normalize fuel).digits ∧
      ((d.normalize fuel).digits * 10 ^ (d.normalize fuel).exponent : ℚ) = d.digits * 10 ^ d.exponent := by
  induction fuel generalizing d with
  | zero => exact ⟨hpos, rfl⟩
  | succ fuel ih =>
    unfold Digits.normalize
    split
    · rename_i hzero
      have hten : d.digits = 10 * (d.digits / 10) := by omega
      obtain ⟨hdigits, hvalue⟩ := ih ⟨d.digits / 10, d.exponent + 1⟩ (by dsimp only; omega)
      refine ⟨hdigits, hvalue.trans ?_⟩
      dsimp only
      rw [zpow_add_one₀ (by norm_num)]
      have hcast : (d.digits : ℚ) = 10 * (d.digits / 10 : Nat) := by exact_mod_cast hten
      rw [hcast]
      ring
    · exact ⟨hpos, rfl⟩

end Digits

namespace Binary

variable {x : Binary}

/-- The interval is wider than the value in units of the seventeenth digit. -/
theorem value_lt_width (hx : x.Canonical) : (x.mantissa * 2 ^ x.exponent : ℚ) < (x.upper - x.lower) * 10 ^ 16 := by
  have htwo : (0 : ℚ) < 2 ^ x.exponent := zpow_pos (by norm_num) _
  have hlt : (x.mantissa : ℚ) < 2 ^ 53 := by exact_mod_cast hx.lt
  unfold upper lower
  rw [← sub_mul, mul_right_comm]
  refine mul_lt_mul_of_pos_right ?_ htwo
  split
  · rename_i hnarrow
    rw [(x.narrowBelow_iff.mp hnarrow).1]
    norm_num
  · linarith

/-- The digits that are printed for a double other than zero are taken by it. -/
theorem shortest_spec (hx : x.Canonical) (hpos : 0 < x.mantissa) :
    0 < x.shortest.digits ∧ x.Takes (x.shortest.digits * 10 ^ x.shortest.exponent) := by
  have hden := x.interval_den_pos
  have hlow : (x.interval.low / x.interval.den : ℚ) < x.interval.value / x.interval.den := by
    rw [x.interval_low hpos, x.interval_value]
    exact x.lower_lt_value
  have hhigh : (x.interval.value / x.interval.den : ℚ) < x.interval.high / x.interval.den := by
    rw [x.interval_high, x.interval_value]
    exact x.value_lt_upper
  have hvalue : 0 < x.interval.value := by
    have hlt : (0 : ℚ) < x.interval.value / x.interval.den := by
      rw [x.interval_value]
      exact mul_pos (by exact_mod_cast hpos) (zpow_pos (by norm_num) _)
    by_contra hzero
    rw [Nat.eq_zero_of_not_pos hzero, Nat.cast_zero, zero_div] at hlt
    exact lt_irrefl _ hlt
  have hlead := pow_leadingExponent_le hvalue hden
  have hfine : x.interval.onGrid (leadingExponent x.interval.value x.interval.den - 16) ≠ none := by
    intro hnone
    have hstep : (10 : ℚ) ^ (leadingExponent x.interval.value x.interval.den - 16) * 10 ^ 16 ≤
        x.interval.value / x.interval.den := by
      rw [zpow_sub₀ (by norm_num), zpow_ofNat, div_mul_cancel₀ _ (by norm_num)]
      exact hlead
    have hpow : (0 : ℚ) < 10 ^ (leadingExponent x.interval.value x.interval.den - 16) := zpow_pos (by norm_num) _
    obtain hcoarse | hbeyond := Interval.coarse_of_onGrid hden hnone
    · rw [x.interval_high, x.interval_low hpos] at hcoarse
      rw [x.interval_value] at hstep
      linarith [value_lt_width hx]
    · linarith
  have hsum : 1 + 17 = 18 := rfl
  obtain ⟨n, step, hfirst, hgrid⟩ := exists_firstGrid hfine hsum (by decide)
  obtain ⟨hn, hholds⟩ := Interval.holds_of_onGrid hden hlow hhigh hgrid
  obtain ⟨hdigits, hsame⟩ := Digits.normalize_spec ⟨n, step⟩ 18 hn
  unfold shortest
  rw [if_neg hpos.ne']
  dsimp only
  rw [hfirst]
  exact ⟨hdigits, hsame ▸ x.takes_of_holds hpos hholds⟩

end Binary

end Overseer.Decimal
