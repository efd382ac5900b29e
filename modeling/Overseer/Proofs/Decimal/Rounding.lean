import Mathlib
import Overseer.Decimal.Binary

/-! # What a double takes

The rational numbers that are rounded to a double form an interval around it, closed when its mantissa is even. A
quotient of two numbers is computed with two more bits, the first of what is left over and whether there is anything
after it. They say on which side of the middle the quotient lies, and they keep saying it when the mantissa is shifted;
so a quotient in the interval of a double is rounded to that double.
-/

namespace Overseer.Decimal

open Float.Model Float.Model.UnpackedFloat

namespace Binary

/-- The form that a double has as its own: all the bits of a mantissa unless the exponent is the least. -/
structure Canonical (x : Binary) : Prop where
  lt : x.mantissa < 2 ^ 53
  least : -1074 ≤ x.exponent
  full : 2 ^ 52 ≤ x.mantissa ∨ x.exponent = -1074

def lower (x : Binary) : ℚ := (x.mantissa - if x.narrowBelow then 1 / 4 else 1 / 2) * 2 ^ x.exponent

def upper (x : Binary) : ℚ := (x.mantissa + 1 / 2) * 2 ^ x.exponent

/-- Whether a number is rounded to a double; the ends go to the even mantissa. -/
structure Takes (x : Binary) (q : ℚ) : Prop where
  lower_le : x.lower ≤ q
  le_upper : q ≤ x.upper
  inside : x.mantissa % 2 = 1 → x.lower < q ∧ q < x.upper

theorem narrowBelow_iff (x : Binary) : x.narrowBelow = true ↔ x.mantissa = 2 ^ 52 ∧ -1074 < x.exponent := by
  unfold narrowBelow leastExponent fractionBits
  rw [Bool.and_eq_true, beq_iff_eq, decide_eq_true_iff]
  rfl

theorem half_below_le_lower (x : Binary) : ((x.mantissa : ℚ) - 1 / 2) * 2 ^ x.exponent ≤ x.lower := by
  unfold lower
  refine mul_le_mul_of_nonneg_right ?_ (zpow_nonneg (by norm_num) _)
  split <;> linarith

theorem lower_lt_value (x : Binary) : x.lower < x.mantissa * 2 ^ x.exponent := by
  unfold lower
  refine mul_lt_mul_of_pos_right ?_ (zpow_pos (by norm_num) _)
  split <;> linarith

theorem value_lt_upper (x : Binary) : x.mantissa * 2 ^ x.exponent < x.upper := by
  unfold upper
  exact mul_lt_mul_of_pos_right (by linarith) (zpow_pos (by norm_num) _)

/-- A double takes its own value. -/
theorem takes_self (x : Binary) : x.Takes (x.mantissa * 2 ^ x.exponent) :=
  ⟨x.lower_lt_value.le, x.value_lt_upper.le, fun _ => ⟨x.lower_lt_value, x.value_lt_upper⟩⟩

end Binary

/-! ## Residual bits -/

/-- Where the residual bits place what is left over. -/
def Residue : Bool → Bool → ℚ → Prop
  | false, false, f => f = 0
  | false, true, f => 0 < f ∧ f < 1 / 2
  | true, false, f => f = 1 / 2
  | true, true, f => 1 / 2 < f ∧ f < 1

def Describes (em : ExtendedMantissa) (y : ℚ) : Prop := Residue em.roundBit em.stickyBit (y - em.mantissa)

namespace Residue

variable {r s : Bool} {f : ℚ}

theorem nonneg (h : Residue r s f) : 0 ≤ f := by
  cases r <;> cases s <;> simp only [Residue] at h <;> linarith [h]

theorem lt_one (h : Residue r s f) : f < 1 := by
  cases r <;> cases s <;> simp only [Residue] at h <;> linarith [h]

/-- One bit more is put in front of the residual bits. -/
theorem even (h : Residue r s f) : Residue false (r || s) (f / 2) := by
  cases r <;> cases s <;> simp only [Residue, Bool.or_false, Bool.or_true] at h ⊢
  · linarith
  · exact ⟨by linarith [h.1], by linarith [h.2]⟩
  · exact ⟨by linarith, by linarith⟩
  · exact ⟨by linarith [h.1], by linarith [h.2]⟩

theorem odd (h : Residue r s f) : Residue true (r || s) ((1 + f) / 2) := by
  cases r <;> cases s <;> simp only [Residue, Bool.or_false, Bool.or_true] at h ⊢
  · linarith
  · exact ⟨by linarith [h.1], by linarith [h.2]⟩
  · exact ⟨by linarith, by linarith⟩
  · exact ⟨by linarith [h.1], by linarith [h.2]⟩

end Residue

namespace Describes

variable {em : ExtendedMantissa} {y : ℚ}

theorem mantissa_le (h : Describes em y) : (em.mantissa : ℚ) ≤ y := by linarith [Residue.nonneg h]

theorem lt_succ (h : Describes em y) : y < em.mantissa + 1 := by linarith [Residue.lt_one h]

theorem shiftRightOne (h : Describes em y) : Describes em.shiftRightOne (y / 2) := by
  have hdiv : ((em.mantissa % 2 : Nat) : ℚ) + 2 * ((em.mantissa / 2 : Nat) : ℚ) = em.mantissa := by
    exact_mod_cast Nat.mod_add_div em.mantissa 2
  unfold Describes ExtendedMantissa.shiftRightOne
  dsimp only
  obtain hbit | hbit := Nat.mod_two_eq_zero_or_one em.mantissa
  · rw [hbit, Nat.cast_zero] at hdiv
    rw [hbit, show y / 2 - ((em.mantissa / 2 : Nat) : ℚ) = (y - em.mantissa) / 2 by linarith]
    exact h.even
  · rw [hbit, Nat.cast_one] at hdiv
    rw [hbit, show y / 2 - ((em.mantissa / 2 : Nat) : ℚ) = (1 + (y - em.mantissa)) / 2 by linarith]
    exact h.odd

theorem shiftRight (h : Describes em y) (n : Nat) : Describes (em >>> n) (y / 2 ^ n) := by
  change Describes (n.repeat ExtendedMantissa.shiftRightOne em) (y / 2 ^ n)
  induction n with
  | zero =>
    rw [pow_zero, div_one]
    exact h
  | succ n ih =>
    rw [pow_succ, ← div_div]
    exact ih.shiftRightOne

/-- The nearest whole number, a half going to the even one. -/
theorem roundedMantissa_eq (h : Describes em y) {n : Nat} (hlow : (n : ℚ) - 1 / 2 ≤ y) (hhigh : y ≤ n + 1 / 2)
    (hodd : n % 2 = 1 → (n : ℚ) - 1 / 2 < y ∧ y < n + 1 / 2) : em.roundedMantissa = n := by
  obtain ⟨m, r, s⟩ := em
  have hle : m < n + 1 := by
    have hle : (m : ℚ) < n + 1 := by linarith [h.mantissa_le]
    exact_mod_cast hle
  have hge : n < m + 2 := by
    have hge : (n : ℚ) < m + 2 := by linarith [h.lt_succ]
    exact_mod_cast hge
  obtain rfl | rfl : n = m ∨ n = m + 1 := by omega
  · cases r <;> cases s <;> simp only [Describes, Residue] at h
    · rfl
    · rfl
    · have heven : n % 2 = 0 := by
        by_contra hne
        linarith [(hodd (by omega)).2]
      change n + n % 2 = n
      omega
    · linarith [h.1]
  · rw [Nat.cast_add, Nat.cast_one] at hlow hodd
    cases r <;> cases s <;> simp only [Describes, Residue] at h
    · linarith
    · linarith [h.2]
    · have hne : (m + 1) % 2 = 0 := by
        by_contra hne
        linarith [(hodd (by omega)).1]
      change m + m % 2 = m + 1
      omega
    · rfl

/-- A quotient, with what is left over of it. -/
theorem div {d : Nat} (hd : 0 < d) (p : Nat) :
    Describes (ExtendedMantissa.ofMantissaAndAccuracy (p / d) (accuracyOfFraction (p % d) d)) (p / d : ℚ) := by
  have hpos : (0 : ℚ) < d := by exact_mod_cast hd
  have hrest : (p : ℚ) / d - ((p / d : Nat) : ℚ) = ((p % d : Nat) : ℚ) / d := by
    rw [eq_div_iff hpos.ne', sub_mul, div_mul_cancel₀ _ hpos.ne', sub_eq_iff_eq_add]
    exact_mod_cast (by rw [Nat.mul_comm]; exact (Nat.mod_add_div p d).symm : p = p % d + p / d * d)
  have hlt : p % d < d := Nat.mod_lt _ hd
  unfold accuracyOfFraction
  generalize p % d = f at hrest hlt ⊢
  generalize p / d = n at hrest ⊢
  generalize (p : ℚ) / d = y at hrest ⊢
  split
  · rename_i hzero
    change y - n = 0
    rw [hrest, hzero, Nat.cast_zero, zero_div]
  · rename_i hzero
    have hf : (0 : ℚ) < f := by exact_mod_cast Nat.pos_of_ne_zero hzero
    cases hc : compare (2 * f) d with
    | lt =>
      have hc : (2 * f : ℚ) < d := by exact_mod_cast Nat.compare_eq_lt.mp hc
      change 0 < y - n ∧ y - n < 1 / 2
      rw [hrest]
      exact ⟨div_pos hf hpos, by rw [div_lt_iff₀ hpos]; linarith⟩
    | eq =>
      have hc : (2 * f : ℚ) = d := by exact_mod_cast Nat.compare_eq_eq.mp hc
      change y - n = 1 / 2
      rw [hrest, div_eq_iff hpos.ne']
      linarith
    | gt =>
      have hc : (d : ℚ) < 2 * f := by exact_mod_cast Nat.compare_eq_gt.mp hc
      have hlt : (f : ℚ) < d := by exact_mod_cast hlt
      change 1 / 2 < y - n ∧ y - n < 1
      rw [hrest]
      exact ⟨by rw [lt_div_iff₀ hpos]; linarith, by rw [div_lt_one hpos]; exact hlt⟩

end Describes

/-! ## Shifts to the exponent of a double -/

theorem targetExponent_eq (m : Nat) (e : Int) :
    Format.binary64.targetExponent (totalExponent m e) = max (m.log2 + e - 52) (-1074) := by
  change max ((m.log2 : Int) + 1 + e - 53) (-1074) = _
  omega

/-- A mantissa of at most 53 bits stays where it is. -/
theorem shiftToTarget_small {m : Nat} {e : Int} (hm : m < 2 ^ 53) (he : -1074 ≤ e) :
    shiftToTargetExponent .binary64 m e .exact = (⟨m, false, false⟩, e) := by
  have hlog : m.log2 ≤ 52 := by
    by_cases hzero : m = 0
    · rw [hzero]
      decide
    · exact Nat.le_of_lt_succ ((Nat.log2_lt hzero).mpr hm)
  have hshift : (Format.binary64.targetExponent (totalExponent m e) - e).toNat = 0 := by
    rw [targetExponent_eq]
    omega
  change (ExtendedMantissa.mk m false false >>> _, e + ((_ : Nat) : Int)) = _
  rw [hshift]
  exact Prod.ext rfl (Int.add_zero e)

/-- A mantissa that rounding has made too long by one bit. -/
theorem shiftToTarget_carry {e : Int} (he : -1074 ≤ e) :
    shiftToTargetExponent .binary64 (2 ^ 53) e .exact = (⟨2 ^ 52, false, false⟩, e + 1) := by
  have hshift : (Format.binary64.targetExponent (totalExponent (2 ^ 53) e) - e).toNat = 1 := by
    rw [targetExponent_eq, Nat.log2_two_pow]
    omega
  change (ExtendedMantissa.mk (2 ^ 53) false false >>> _, e + ((_ : Nat) : Int)) = _
  rw [hshift]
  rfl

/-- The first shift of a number: at its own exponent it has fewer than 54 bits, and 53 unless that is the least. -/
theorem exists_first_shift {m : Nat} {e : Int} {acc : Accuracy} {q : ℚ}
    (h : Describes (ExtendedMantissa.ofMantissaAndAccuracy m acc) (q / 2 ^ e)) (hlong : 52 ≤ m.log2 ∨ e ≤ -1074) :
    ∃ em t, shiftToTargetExponent .binary64 m e acc = (em, t) ∧ Describes em (q / 2 ^ t) ∧ -1074 ≤ t ∧
      q < 2 ^ 53 * 2 ^ t ∧ (t = -1074 ∨ 2 ^ 52 * 2 ^ t ≤ q) := by
  have hmantissa : (ExtendedMantissa.ofMantissaAndAccuracy m acc).mantissa = m := by
    cases acc with
    | exact => rfl
    | inexact order => cases order <;> rfl
  have htwo : ∀ i : Int, (0 : ℚ) < 2 ^ i := fun i => zpow_pos (by norm_num) i
  obtain ⟨t, ht⟩ : ∃ t, t = max ((m.log2 : Int) + e - 52) (-1074) := ⟨_, rfl⟩
  have hshift : ((t - e).toNat : Int) = t - e := Int.toNat_of_nonneg (by omega)
  refine ⟨ExtendedMantissa.ofMantissaAndAccuracy m acc >>> (t - e).toNat, t, ?_, ?_, by omega, ?_, ?_⟩
  · unfold shiftToTargetExponent shiftToExponent
    rw [targetExponent_eq, ← ht]
    have hsum : e + ((t - e).toNat : Int) = t := by omega
    exact Prod.ext rfl hsum
  · have hy : q / 2 ^ t = q / 2 ^ e / 2 ^ (t - e).toNat := by
      rw [div_div, ← zpow_natCast, hshift, ← zpow_add₀ (by norm_num), add_sub_cancel]
    rw [hy]
    exact h.shiftRight _
  · have hq : q < (m + 1) * 2 ^ e := by
      rw [← div_lt_iff₀ (htwo e), ← hmantissa]
      exact h.lt_succ
    have hm : ((m + 1 : Nat) : ℚ) ≤ 2 ^ (m.log2 + 1) := by
      exact_mod_cast Nat.lt_log2_self
    calc q < (m + 1) * 2 ^ e := hq
      _ ≤ 2 ^ (m.log2 + 1) * 2 ^ e := by
        rw [Nat.cast_add, Nat.cast_one] at hm
        exact mul_le_mul_of_nonneg_right hm (htwo e).le
      _ ≤ 2 ^ 53 * 2 ^ t := by
        rw [← zpow_natCast, ← zpow_natCast (2 : ℚ) 53, ← zpow_add₀ (by norm_num), ← zpow_add₀ (by norm_num)]
        exact zpow_le_zpow_right₀ (by norm_num) (by push_cast; omega)
  · by_cases hleast : t = -1074
    · exact .inl hleast
    · right
      have hlog : m.log2 + e - 52 = t := by omega
      have hm : m ≠ 0 := by
        rintro rfl
        rw [show Nat.log2 0 = 0 by decide] at hlong hlog
        omega
      have hpow : (2 : ℚ) ^ m.log2 ≤ m := by exact_mod_cast Nat.log2_self_le hm
      calc (2 : ℚ) ^ 52 * 2 ^ t = 2 ^ m.log2 * 2 ^ e := by
            rw [← zpow_natCast, ← zpow_natCast (2 : ℚ) m.log2, ← zpow_add₀ (by norm_num), ← zpow_add₀ (by norm_num)]
            congr 1
            push_cast
            omega
        _ ≤ m * 2 ^ e := mul_le_mul_of_nonneg_right hpow (htwo e).le
        _ ≤ q := by
          rw [← le_div_iff₀ (htwo e), ← hmantissa]
          exact h.mantissa_le

/-- A number that a double takes has the exponent of the double, or it lies just below a power of two. -/
theorem Binary.Takes.exponent_cases {x : Binary} (hx : x.Canonical) {q : ℚ} (hq : x.Takes q) {t : Int}
    (hleast : -1074 ≤ t) (hlt : q < 2 ^ 53 * 2 ^ t) (hfull : t = -1074 ∨ 2 ^ 52 * 2 ^ t ≤ q) :
    t = x.exponent ∨ (t + 1 = x.exponent ∧ x.mantissa = 2 ^ 52 ∧ (2 ^ 53 - 1 / 2) * 2 ^ t ≤ q) := by
  have htwo : ∀ i : Int, (0 : ℚ) < 2 ^ i := fun i => zpow_pos (by norm_num) i
  have hlow := x.half_below_le_lower.trans hq.lower_le
  have hup := hq.le_upper
  unfold Binary.upper at hup
  obtain hgt | heq | hless := lt_trichotomy x.exponent t
  · exfalso
    have hfull := hfull.resolve_left (by have := hx.least; omega)
    have hmantissa : (x.mantissa : ℚ) + 1 ≤ 2 ^ 53 := by exact_mod_cast hx.lt
    have hstep : 2 * (2 : ℚ) ^ x.exponent ≤ 2 ^ t := by
      rw [← zpow_one_add₀ (by norm_num)]
      exact zpow_le_zpow_right₀ (by norm_num) (by omega)
    nlinarith [htwo x.exponent]
  · exact .inl heq.symm
  · right
    have hfull := hx.full.resolve_right (by omega)
    have hmantissa : (2 : ℚ) ^ 52 ≤ x.mantissa := by exact_mod_cast hfull
    have hnext : t + 1 = x.exponent := by
      by_contra hne
      have hstep : 4 * (2 : ℚ) ^ t ≤ 2 ^ x.exponent := by
        rw [show (4 : ℚ) = 2 ^ (2 : Int) by norm_num, ← zpow_add₀ (by norm_num)]
        exact zpow_le_zpow_right₀ (by norm_num) (by omega)
      nlinarith [htwo x.exponent]
    have hstep : (2 : ℚ) ^ x.exponent = 2 * 2 ^ t := by
      rw [← hnext, zpow_add_one₀ (by norm_num), mul_comm]
    rw [hstep] at hlow hup
    have hpower : x.mantissa = 2 ^ 52 := by
      refine le_antisymm (Nat.le_of_lt_succ ?_) hfull
      have hle : (x.mantissa : ℚ) < 2 ^ 52 + 1 := by nlinarith [htwo t]
      exact_mod_cast hle
    refine ⟨hnext, hpower, ?_⟩
    have hnarrow : x.narrowBelow = true := x.narrowBelow_iff.mpr ⟨hpower, by omega⟩
    have hlower := hq.lower_le
    unfold Binary.lower at hlower
    rw [if_pos hnarrow, hpower, hstep] at hlower
    push_cast at hlower
    linarith

/-- What a double takes is rounded to it. -/
theorem roundWithAccuracy_eq {x : Binary} (hx : x.Canonical) (hpos : 0 < x.mantissa) {q : ℚ} (hq : x.Takes q)
    (sign : Sign) {m : Nat} {e : Int} {acc : Accuracy}
    (h : Describes (ExtendedMantissa.ofMantissaAndAccuracy m acc) (q / 2 ^ e)) (hlong : 52 ≤ m.log2 ∨ e ≤ -1074) :
    roundWithAccuracy .binary64 sign m e acc = .finite sign x.mantissa x.exponent hpos := by
  obtain ⟨em, t, hshift, hem, hleast, hlt, hfull⟩ := exists_first_shift h hlong
  have ht : (0 : ℚ) < 2 ^ t := zpow_pos (by norm_num) t
  unfold roundWithAccuracy
  rw [hshift]
  dsimp only
  obtain rfl | ⟨hnext, hpower, hnear⟩ := hq.exponent_cases hx hleast hlt hfull
  · have hrounded : em.roundedMantissa = x.mantissa := by
      have hlow := x.half_below_le_lower
      have hup := hq.le_upper
      unfold Binary.upper at hup
      refine hem.roundedMantissa_eq ?_ ?_ fun hodd => ?_
      · rw [le_div_iff₀ ht]
        exact hlow.trans hq.lower_le
      · rw [div_le_iff₀ ht]
        exact hup
      · rw [lt_div_iff₀ ht, div_lt_iff₀ ht]
        exact ⟨hlow.trans_lt (hq.inside hodd).1, (hq.inside hodd).2⟩
    rw [hrounded, shiftToTarget_small hx.lt hx.least]
    exact dif_neg hpos.ne'
  · have hrounded : em.roundedMantissa = 2 ^ 53 := by
      refine hem.roundedMantissa_eq ?_ ?_ fun hodd => absurd hodd (by decide)
      · rw [le_div_iff₀ ht]
        exact_mod_cast hnear
      · have hle : q / 2 ^ t < 2 ^ 53 := by
          rw [div_lt_iff₀ ht]
          exact hlt
        push_cast
        linarith
    rw [hrounded, shiftToTarget_carry hleast]
    simp only [← hpower, hnext]
    exact dif_neg hpos.ne'

/-- A quotient is rounded to the double that takes it. -/
theorem div_eq {x : Binary} (hx : x.Canonical) (hpos : 0 < x.mantissa) {m₁ m₂ : Nat} (h₁ : 0 < m₁) (h₂ : 0 < m₂)
    {e₁ e₂ : Int} (hq : x.Takes (m₁ * 2 ^ e₁ / (m₂ * 2 ^ e₂))) :
    UnpackedFloat.div .binary64 (.finite .positive m₁ e₁ h₁) (.finite .positive m₂ e₂ h₂) =
      .finite .positive x.mantissa x.exponent hpos := by
  have htwo : ∀ i : Int, (2 : ℚ) ^ i ≠ 0 := fun i => zpow_ne_zero i (by norm_num)
  obtain ⟨t, ht⟩ :
      ∃ t, t = min (e₁ - e₂) (Format.binary64.targetExponent (totalExponent m₁ e₁ - totalExponent m₂ e₂)) :=
    ⟨_, rfl⟩
  have htarget : t = min (e₁ - e₂) (max (m₁.log2 + e₁ - (m₂.log2 + e₂) - 53) (-1074)) := by
    rw [ht]
    change min _ (max ((m₁.log2 : Int) + 1 + e₁ - ((m₂.log2 : Int) + 1 + e₂) - 53) (-1074)) = _
    congr 2
    omega
  obtain ⟨k, hk⟩ : ∃ k, k = (e₁ - e₂ - t).toNat := ⟨_, rfl⟩
  have hshift : (k : Int) = e₁ - e₂ - t := by omega
  have hlong : 52 ≤ (m₁ <<< k / m₂).log2 ∨ t ≤ -1074 := by
    by_cases hleast : t ≤ -1074
    · exact .inr hleast
    · left
      have hbits : m₂.log2 + 53 ≤ m₁.log2 + k := by omega
      have hge : 2 ^ 52 * m₂ ≤ m₁ <<< k := by
        rw [Nat.shiftLeft_eq]
        calc 2 ^ 52 * m₂ ≤ 2 ^ 52 * 2 ^ (m₂.log2 + 1) := Nat.mul_le_mul_left _ Nat.lt_log2_self.le
          _ = 2 ^ (m₂.log2 + 53) := by rw [← Nat.pow_add]; congr 1; omega
          _ ≤ 2 ^ (m₁.log2 + k) := Nat.pow_le_pow_right (by decide) hbits
          _ = 2 ^ m₁.log2 * 2 ^ k := Nat.pow_add ..
          _ ≤ m₁ * 2 ^ k := Nat.mul_le_mul_right _ (Nat.log2_self_le h₁.ne')
      have hquotient : 2 ^ 52 ≤ m₁ <<< k / m₂ := (Nat.le_div_iff_mul_le h₂).mpr hge
      exact (Nat.le_log2 (by omega)).mpr hquotient
  have hvalue : ((m₁ <<< k : Nat) : ℚ) / m₂ = m₁ * 2 ^ e₁ / (m₂ * 2 ^ e₂) / 2 ^ t := by
    have hm₂ : (m₂ : ℚ) ≠ 0 := by exact_mod_cast h₂.ne'
    have hpower : (2 : ℚ) ^ e₁ = 2 ^ k * (2 ^ e₂ * 2 ^ t) := by
      rw [← zpow_natCast, hshift, ← zpow_add₀ (by norm_num), ← zpow_add₀ (by norm_num)]
      congr 1
      omega
    rw [Nat.shiftLeft_eq, hpower, div_div, div_eq_div_iff hm₂ (by simp [hm₂, htwo])]
    push_cast
    ring
  have hround := roundWithAccuracy_eq hx hpos hq .positive (e := t) (by
    rw [← hvalue]
    exact Describes.div h₂ (m₁ <<< k)) hlong
  unfold UnpackedFloat.div divCore
  dsimp only
  rw [← ht, ← hk]
  exact hround

end Overseer.Decimal
