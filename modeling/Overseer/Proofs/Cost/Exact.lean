import Overseer.Cost.Budget
import Mathlib.Algebra.Order.Ring.Rat
import Mathlib.Tactic.Linarith

/-! # Costs that are added up exactly

Rational numbers with two infinities and something that is no number. Of doubles they have everything but the
rounding. In these costs a budget that starts with nothing spent is a sum (`book_rat`), and an estimate that is
admitted leaves what has been spent under the ceiling (`admits_iff`).
-/

namespace Overseer

inductive Exact
  | nan
  | negInf
  | rat (q : ℚ)
  | posInf
  deriving DecidableEq

namespace Exact

def add : Exact → Exact → Exact
  | nan, _ | _, nan | posInf, negInf | negInf, posInf => nan
  | posInf, _ | _, posInf => posInf
  | negInf, _ | _, negInf => negInf
  | rat x, rat y => rat (x + y)

/-- The larger of a cost and zero; of no number it is zero. -/
def floor : Exact → Exact
  | nan | negInf => rat 0
  | rat q => rat (max q 0)
  | posInf => posInf

/-- What is no number compares with nothing. -/
def le : Exact → Exact → Bool
  | nan, _ | _, nan => false
  | negInf, _ | _, posInf => true
  | rat x, rat y => decide (x ≤ y)
  | posInf, _ | _, negInf => false

def lt (x y : Exact) : Bool := x.le y && !y.le x

def text : Exact → String
  | nan => "NaN"
  | negInf => "-inf"
  | rat q =>
      let digits := Decimal.fixedDigits 4 (Decimal.roundHalfEven (q.num.natAbs * 10000) q.den)
      String.ofList ((if q < 0 then ['-'] else []) ++ digits)
  | posInf => "inf"

def toJson : Exact → Json
  | rat q => Json.float (Float.ofInt q.num / Float.ofNat q.den)
  | nan | negInf | posInf => .null

end Exact

instance : Cost Exact where
  zero := .rat 0
  add := Exact.add
  floor := Exact.floor
  le := Exact.le
  lt := Exact.lt
  isNaN x := x == .nan
  isFinite
    | .rat _ => true
    | .nan | .negInf | .posInf => false
  text := Exact.text
  toJson := Exact.toJson

namespace Exact

instance : LE Exact := ⟨fun x y => x.le y = true⟩

instance : LT Exact := ⟨fun x y => x.lt y = true⟩

instance : Add Exact := ⟨Exact.add⟩

/-- What a cost adds to what has been spent. -/
def credit : Exact → ℚ
  | rat q => max q 0
  | nan | negInf | posInf => 0

variable {c : Exact} {t u : ℚ}

theorem credit_nonneg (c : Exact) : 0 ≤ c.credit := by
  cases c with
  | rat q => exact le_max_right q 0
  | nan | negInf | posInf => exact le_refl 0

theorem rat_le_rat : rat t ≤ rat u ↔ t ≤ u := by
  show (decide (t ≤ u)) = true ↔ t ≤ u
  exact decide_eq_true_iff

/-- A ceiling is a number that is not negative, or there is none. -/
theorem floor_cases (c : Exact) : c.floor = posInf ∨ ∃ q, 0 ≤ q ∧ c.floor = rat q := by
  cases c with
  | nan => exact Or.inr ⟨0, le_refl 0, rfl⟩
  | negInf => exact Or.inr ⟨0, le_refl 0, rfl⟩
  | rat q => exact Or.inr ⟨max q 0, le_max_right q 0, rfl⟩
  | posInf => exact Or.inl rfl

theorem not_lt_floor_iff : ¬ c.floor < rat t ↔ rat t ≤ c.floor := by
  rcases floor_cases c with h | ⟨q, -, h⟩
  · rw [h]
    exact ⟨fun _ => rfl, fun _ hlt => by cases hlt⟩
  · rw [h, rat_le_rat]
    show ¬ ((decide (q ≤ t) && !decide (t ≤ q)) = true) ↔ t ≤ q
    simp only [Bool.and_eq_true, decide_eq_true_eq, Bool.not_eq_true', decide_eq_false_iff_not,
      not_and, not_not]
    exact ⟨fun h => (le_total q t).elim h id, fun h _ => h⟩

/-- Under a ceiling there is room for zero. -/
theorem zero_le_floor (c : Exact) : rat 0 ≤ c.floor := by
  rcases floor_cases c with h | ⟨q, hq, h⟩
  · rw [h]
    rfl
  · rw [h, rat_le_rat]
    exact hq

/-- What stays under a ceiling with something more stays under it without. -/
theorem le_floor_of_add_le {e : Exact} (h : rat t + e.floor ≤ c.floor) : rat t ≤ c.floor := by
  rcases floor_cases c with hc | ⟨q, -, hc⟩
  · rw [hc]
    rfl
  · rw [hc] at h ⊢
    rcases floor_cases e with he | ⟨p, hp, he⟩
    · rw [he] at h
      cases h
    · rw [he] at h
      have hsum : t + p ≤ q := rat_le_rat.mp h
      rw [rat_le_rat]
      linarith

theorem le_floor_add (h : rat t ≤ c.floor) (u : ℚ) : rat (t + u) ≤ c.floor + rat u := by
  rcases floor_cases c with hc | ⟨q, -, hc⟩
  · rw [hc]
    rfl
  · rw [hc] at h ⊢
    have hle : t ≤ q := rat_le_rat.mp h
    exact rat_le_rat.mpr (by linarith)

end Exact

/-! ## Budgets in exact costs -/

namespace Budget

variable {ceiling : Exact} {t : ℚ}

theorem admits_iff (e : Exact) :
    (⟨ceiling, .rat t⟩ : Budget Exact).admits e = true ↔
      e ≠ .nan ∧ Exact.rat t + e.floor ≤ ceiling := by
  show (if (e == Exact.nan) = true then false
    else ((Exact.rat t).add e.floor).le ceiling) = true ↔ _
  by_cases h : e = .nan
  · simp [h]
  · simp only [beq_iff_eq, h, if_false, ne_eq, not_false_eq_true, true_and]
    exact Iff.rfl

theorem book_rat (cost : Exact) :
    (⟨ceiling, .rat t⟩ : Budget Exact).book cost = ⟨ceiling, .rat (t + cost.credit)⟩ := by
  cases cost with
  | rat q => rfl
  | nan | negInf | posInf =>
    show (⟨ceiling, .rat t⟩ : Budget Exact) = ⟨ceiling, .rat (t + 0)⟩
    rw [add_zero]

theorem overspent_iff :
    (⟨ceiling, .rat t⟩ : Budget Exact).overspent = true ↔ ceiling < .rat t := Iff.rfl

end Budget

end Overseer
