import Mathlib
import Overseer.Proofs.Cost.Exact

/-! # Costs that can be compared

What it takes to say of a session that it stays within its budget: a ceiling is not negative, of two amounts one is at
most the other, and amounts add up to an amount, where an amount is a cost that is at least zero. Nothing is asked of a
sum but that; so it may be rounded, and doubles are an instance. Of doubles it has to be shown that a sum of amounts is
neither negative nor no number, which is read off the parts of which a double consists.
-/

namespace Overseer

class OrderedCost (κ : Type) [Cost κ] : Prop where
  zero_le_zero : Cost.le (Cost.zero : κ) Cost.zero = true
  zero_le_floor (c : κ) : Cost.le Cost.zero (Cost.floor c) = true
  not_lt_of_le {x y : κ} (h : Cost.le x y = true) : Cost.lt y x = false
  le_of_not_lt {x y : κ} (hx : Cost.le Cost.zero x = true) (hy : Cost.le Cost.zero y = true)
    (h : Cost.lt y x = false) : Cost.le x y = true
  zero_le_add {x y : κ} (hx : Cost.le Cost.zero x = true) (hy : Cost.le Cost.zero y = true) :
    Cost.le Cost.zero (Cost.add x y) = true

instance : OrderedCost Exact where
  zero_le_zero := rfl
  zero_le_floor := Exact.zero_le_floor
  not_lt_of_le {x y} h := by
    show (y.le x && !x.le y) = false
    have h : x.le y = true := h
    rw [h]
    exact Bool.and_false _
  le_of_not_lt {x y} hx hy h := by
    have h : (y.le x && !x.le y) = false := h
    cases x with
    | nan | negInf => cases hx
    | posInf =>
      cases y with
      | nan | negInf => cases hy
      | rat q => cases h
      | posInf => rfl
    | rat p =>
      cases y with
      | nan | negInf => cases hy
      | posInf => rfl
      | rat q =>
        show decide (p ≤ q) = true
        rw [decide_eq_true_iff]
        by_contra hlt
        simp [Exact.le, hlt, le_of_not_ge hlt] at h
  zero_le_add {x y} hx hy := by
    cases x with
    | nan | negInf => cases hx
    | posInf =>
      cases y with
      | nan | negInf => cases hy
      | rat | posInf => rfl
    | rat p =>
      cases y with
      | nan | negInf => cases hy
      | posInf => rfl
      | rat q =>
        have hp : 0 ≤ p := Exact.rat_le_rat.mp hx
        have hq : 0 ≤ q := Exact.rat_le_rat.mp hy
        exact Exact.rat_le_rat.mpr (add_nonneg hp hq)

/-! ## Doubles -/

namespace Double

open Float.Model Float.Model.UnpackedFloat

/-- The parts of a double that is at least zero: either zero, or a positive sign and a number or infinity. -/
def IsAmount : UnpackedFloat → Prop
  | .zero _ | .finite .positive .. | .infinity .positive => True
  | .notANumber | .finite .negative .. | .infinity .negative => False

theorem le_iff (x y : Float) : x ≤ y ↔ x.toModel.unpack.le y.toModel.unpack = true := by
  show decide (x.toModel ≤ y.toModel) = true ↔ _
  rw [decide_eq_true_iff]
  exact Iff.rfl

theorem lt_iff (x y : Float) : x < y ↔ x.toModel.unpack.lt y.toModel.unpack = true := by
  show decide (x.toModel < y.toModel) = true ↔ _
  rw [decide_eq_true_iff]
  exact Iff.rfl

theorem zero_le_iff (x : Float) : 0 ≤ x ↔ IsAmount x.toModel.unpack := by
  have hzero : (0 : Float).toModel.unpack = .zero .positive := rfl
  rw [le_iff, hzero]
  cases x.toModel.unpack with
  | notANumber => exact iff_of_false Bool.false_ne_true not_false
  | zero => exact iff_of_true rfl trivial
  | infinity sign | finite sign =>
    cases sign with
    | negative => exact iff_of_false Bool.false_ne_true not_false
    | positive => exact iff_of_true rfl trivial

/-! Comparisons -/

theorem compare_finite_swap (e e' : Int) (m m' : Nat) :
    (compare e' e).then (compare m' m) = ((compare e e').then (compare m m')).swap := by
  rw [Ordering.swap_then, ← Std.OrientedOrd.eq_swap, ← Std.OrientedOrd.eq_swap]

theorem compare_swap (x y : UnpackedFloat) : y.compare x = (x.compare y).map Ordering.swap := by
  cases x with
  | notANumber => cases y <;> rfl
  | zero sign =>
    cases y with
    | notANumber | zero => rfl
    | infinity sign' | finite sign' => cases sign' <;> rfl
  | infinity sign =>
    cases y with
    | notANumber => rfl
    | infinity sign' => cases sign <;> cases sign' <;> rfl
    | zero | finite => cases sign <;> rfl
  | finite sign m e =>
    cases y with
    | notANumber => rfl
    | zero => cases sign <;> rfl
    | infinity sign' => cases sign' <;> rfl
    | finite sign' m' e' =>
      cases sign with
      | negative =>
        cases sign' with
        | negative => exact congrArg (fun order => some order.swap) (compare_finite_swap e e' m m')
        | positive => rfl
      | positive =>
        cases sign' with
        | negative => rfl
        | positive => exact congrArg some (compare_finite_swap e e' m m')

theorem lt_eq_false_of_le {x y : UnpackedFloat} (h : x.le y = true) : y.lt x = false := by
  unfold UnpackedFloat.le at h
  unfold UnpackedFloat.lt
  rw [compare_swap x y]
  cases hc : x.compare y with
  | none => rfl
  | some order =>
    rw [hc] at h
    cases order with
    | lt | eq => rfl
    | gt => cases h

/-- Amounts can be compared. -/
theorem isSome_compare {x y : UnpackedFloat} (hx : IsAmount x) (hy : IsAmount y) :
    (x.compare y).isSome = true := by
  cases x with
  | notANumber => cases hx
  | zero =>
    cases y with
    | notANumber => cases hy
    | zero => rfl
    | infinity sign | finite sign => cases sign <;> rfl
  | infinity sign =>
    cases y with
    | notANumber => cases hy
    | zero | infinity | finite => cases sign <;> rfl
  | finite sign =>
    cases y with
    | notANumber => cases hy
    | zero => cases sign <;> rfl
    | infinity sign' => cases sign' <;> rfl
    | finite sign' => cases sign <;> cases sign' <;> rfl

theorem le_of_lt_eq_false {x y : UnpackedFloat} (hx : IsAmount x) (hy : IsAmount y)
    (h : y.lt x = false) : x.le y = true := by
  obtain ⟨order, hc⟩ := Option.isSome_iff_exists.mp (isSome_compare hx hy)
  unfold UnpackedFloat.lt at h
  unfold UnpackedFloat.le
  rw [compare_swap x y, hc] at h
  rw [hc]
  cases order with
  | lt | eq => rfl
  | gt => cases h

/-! Sums -/

theorem isAmount_round (spec : Format) (m : Nat) (e : Int) : IsAmount (UnpackedFloat.round spec .positive m e) := by
  unfold UnpackedFloat.round roundWithAccuracy
  dsimp only
  split
  · trivial
  · trivial

theorem isAmount_add (spec : Format) {x y : UnpackedFloat} (hx : IsAmount x) (hy : IsAmount y) :
    IsAmount (UnpackedFloat.add spec x y) := by
  cases x with
  | notANumber => cases hx
  | zero sign =>
    cases y with
    | notANumber => cases hy
    | zero sign' => cases sign <;> cases sign' <;> trivial
    | infinity | finite => exact hy
  | infinity sign =>
    cases sign with
    | negative => cases hx
    | positive =>
      cases y with
      | notANumber => cases hy
      | zero | finite => trivial
      | infinity sign' =>
        cases sign' with
        | negative => cases hy
        | positive => trivial
  | finite sign m e hm =>
    cases sign with
    | negative => cases hx
    | positive =>
      cases y with
      | notANumber => cases hy
      | zero => trivial
      | infinity => exact hy
      | finite sign' m' e' hm' =>
        cases sign' with
        | negative => cases hy
        | positive =>
          have hfirst : 0 < m <<< (e - min e e').toNat := by
            rw [Nat.shiftLeft_eq]
            exact Nat.mul_pos hm (Nat.two_pow_pos _)
          have hpos : (0 : Int) < ((m <<< (e - min e e').toNat : Nat) : Int)
              + ((m' <<< (e' - min e e').toNat : Nat) : Int) :=
            Int.add_pos_of_pos_of_nonneg (Int.natCast_pos.mpr hfirst) (Int.natCast_nonneg _)
          show IsAmount (UnpackedFloat.normalize spec
            (((m <<< (e - min e e').toNat : Nat) : Int) + ((m' <<< (e' - min e e').toNat : Nat) : Int))
            (min e e') .positive)
          unfold UnpackedFloat.normalize
          rw [Int.compare_eq_gt.mpr hpos]
          exact isAmount_round _ _ _

/-- With a positive sign it is an amount, unless it is no number. -/
theorem isAmount_unpack {spec : Format} {b : BitVec spec.numBits}
    (hsign : Sign.ofBitVec (unpackSign b) = .positive)
    (h : unpackExponent b = -1#_ → unpackMantissa b = 0#_) :
    IsAmount (UnpackedFloat.unpack spec b) := by
  unfold UnpackedFloat.unpack
  dsimp only
  rw [hsign]
  split
  · rename_i hexponent
    rw [if_pos (h hexponent)]
    trivial
  · split
    · split
      · trivial
      · trivial
    · trivial

theorem isAmount_components {exponent : BitVec 11} {mantissa : BitVec 52}
    (h : exponent = -1#_ → mantissa = 0#_) :
    IsAmount (UnpackedFloat.unpack .binary64
      (packComponents .binary64 .positive exponent mantissa)) := by
  refine isAmount_unpack ?_ fun hexponent => ?_
  · rw [unpackSign_packComponents]
    rfl
  · rw [unpackExponent_packComponents] at hexponent
    rw [unpackMantissa_packComponents]
    exact h hexponent

/-- What is put together as an amount comes apart as one, also when it was too large. -/
theorem isAmount_pack {x : UnpackedFloat} (hx : IsAmount x) :
    IsAmount (Float.Model.pack x).unpack := by
  show IsAmount (UnpackedFloat.unpack .binary64 (UnpackedFloat.pack .binary64 x))
  cases x with
  | notANumber => cases hx
  | zero sign => cases sign <;> trivial
  | infinity sign =>
    cases sign with
    | negative => cases hx
    | positive => exact isAmount_components fun _ => rfl
  | finite sign m e hm =>
    cases sign with
    | negative => cases hx
    | positive =>
      unfold UnpackedFloat.pack
      dsimp only
      split
      · exact isAmount_components fun _ => rfl
      · split
        · refine isAmount_components fun hexponent => ?_
          have hbits := congrArg BitVec.toNat hexponent
          rw [BitVec.toNat_ofNat, BitVec.neg_one_eq_allOnes, BitVec.toNat_allOnes,
            Nat.mod_eq_of_lt (by omega)] at hbits
          omega
        · exact isAmount_components fun hexponent => absurd hexponent (by decide)

end Double

instance : OrderedCost Float where
  zero_le_zero := by decide
  zero_le_floor c := by
    show decide ((0 : Float) ≤ if (0 : Float) < c then c else 0) = true
    rw [decide_eq_true_iff]
    split
    · rename_i hlt
      rw [Double.lt_iff] at hlt
      rw [Double.le_iff]
      unfold Float.Model.UnpackedFloat.lt at hlt
      unfold Float.Model.UnpackedFloat.le
      rw [eq_of_beq hlt]
      rfl
    · decide
  not_lt_of_le {x y} h := by
    have h : decide (x ≤ y) = true := h
    show decide (y < x) = false
    rw [decide_eq_true_iff, Double.le_iff] at h
    rw [decide_eq_false_iff_not, Double.lt_iff, Double.lt_eq_false_of_le h]
    exact Bool.false_ne_true
  le_of_not_lt {x y} hx hy h := by
    have hx : decide (0 ≤ x) = true := hx
    have hy : decide (0 ≤ y) = true := hy
    have h : decide (y < x) = false := h
    show decide (x ≤ y) = true
    rw [decide_eq_true_iff, Double.zero_le_iff] at hx hy
    rw [decide_eq_false_iff_not, Double.lt_iff, Bool.not_eq_true] at h
    rw [decide_eq_true_iff, Double.le_iff]
    exact Double.le_of_lt_eq_false hx hy h
  zero_le_add {x y} hx hy := by
    have hx : decide (0 ≤ x) = true := hx
    have hy : decide (0 ≤ y) = true := hy
    show decide (0 ≤ x + y) = true
    rw [decide_eq_true_iff, Double.zero_le_iff] at hx hy ⊢
    exact Double.isAmount_pack (Double.isAmount_add _ hx hy)

end Overseer
