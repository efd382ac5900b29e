import Mathlib
import Overseer.Document.Decode
import Overseer.Proofs.Decimal.Nearest

/-! # Whole numbers are finite doubles

A whole number is read as a double by a product that is rounded once. What is rounded is a double as long as it is
neither below one nor too large, so an integer of 64 bits gives a finite double.

* `Rounded`: a number other than zero in the form that a double has as its own, so that packing keeps it.
* `rounded_roundWithAccuracy`, `rounded_mul`: what is rounded is of this form, and so is a product.
* `isFinite_floatOfInt`: an integer is read as a finite double.
-/

namespace Overseer.Decimal

open Float.Model Float.Model.UnpackedFloat

/-- A finite number other than zero that is a double as it stands. -/
def Rounded (u : UnpackedFloat) : Prop :=
  ∃ (x : Binary) (sign : Sign) (hpos : 0 < x.mantissa), x.Canonical ∧ x.exponent ≤ 971 ∧
    u = .finite sign x.mantissa x.exponent hpos

namespace Rounded

variable {u : UnpackedFloat}

theorem unpack_pack (h : Rounded u) : UnpackedFloat.unpack .binary64 (UnpackedFloat.pack .binary64 u) = u := by
  obtain ⟨x, sign, hpos, hx, hmost, rfl⟩ := h
  exact Decimal.unpack_pack hx hpos hmost sign

theorem neg (h : Rounded u) : Rounded u.neg := by
  obtain ⟨x, sign, hpos, hx, hmost, rfl⟩ := h
  exact ⟨x, -sign, hpos, hx, hmost, rfl⟩

theorem isFinite_ofModel (h : Rounded u) : (Float.ofModel (.pack u)).isFinite = true := by
  show UnpackedFloat.isFinite (UnpackedFloat.unpack .binary64 (UnpackedFloat.pack .binary64 u)) = true
  rw [h.unpack_pack]
  obtain ⟨x, sign, hpos, -, -, rfl⟩ := h
  rfl

theorem neg_ofModel (h : Rounded u) : -Float.ofModel (.pack u) = .ofModel (.pack u.neg) := by
  show Float.ofModel (.pack (UnpackedFloat.neg (UnpackedFloat.unpack .binary64
    (UnpackedFloat.pack .binary64 u)))) = _
  rw [h.unpack_pack]

end Rounded

/-! ## Numbers that are rounded -/

/-- Rounding adds one at the most. -/
theorem roundedMantissa_bounds (em : ExtendedMantissa) :
    em.mantissa ≤ em.roundedMantissa ∧ em.roundedMantissa ≤ em.mantissa + 1 := by
  obtain ⟨m, r, s⟩ := em
  cases r <;> cases s
  · exact ⟨Nat.le_refl m, Nat.le_succ m⟩
  · exact ⟨Nat.le_refl m, Nat.le_succ m⟩
  · show m ≤ m + m % 2 ∧ m + m % 2 ≤ m + 1
    omega
  · exact ⟨Nat.le_succ m, Nat.le_refl _⟩

theorem least_lt_one : (2 : ℚ) ^ 53 * 2 ^ (-1074 : Int) < 1 := by
  rw [← zpow_natCast, ← zpow_add₀ (by norm_num)]
  exact zpow_lt_one_of_neg₀ (by norm_num) (by norm_num)

/-- A number from one on that is not too large is rounded to a double. -/
theorem rounded_roundWithAccuracy {q : ℚ} (hone : 1 ≤ q) (hlarge : q < 2 ^ 64) (sign : Sign) {m : ℕ} {e : Int}
    {acc : Accuracy} (h : Describes (ExtendedMantissa.ofMantissaAndAccuracy m acc) (q / 2 ^ e))
    (hlong : 52 ≤ m.log2 ∨ e ≤ -1074) : Rounded (roundWithAccuracy .binary64 sign m e acc) := by
  obtain ⟨em, t, hshift, hem, hleast, hlt, hfull⟩ := exists_first_shift h hlong
  have htwo : (0 : ℚ) < 2 ^ t := zpow_pos (by norm_num) t
  have hfull : (2 : ℚ) ^ 52 * 2 ^ t ≤ q := by
    apply hfull.resolve_left
    rintro rfl
    linarith [least_lt_one]
  have hmost : t ≤ 970 := by
    have hpow : (2 : ℚ) ^ (52 + t) < 2 ^ (64 : Int) := by
      rw [zpow_add₀ (by norm_num)]
      exact_mod_cast hfull.trans_lt hlarge
    have hexponent := (zpow_lt_zpow_iff_right₀ (by norm_num : (1 : ℚ) < 2)).mp hpow
    omega
  have hlow : 2 ^ 52 ≤ em.mantissa := by
    have hy : (2 : ℚ) ^ 52 ≤ q / 2 ^ t := (le_div_iff₀ htwo).mpr hfull
    have hsucc : (2 : ℚ) ^ 52 < em.mantissa + 1 := hy.trans_lt hem.lt_succ
    exact Nat.le_of_lt_succ (by exact_mod_cast hsucc)
  have hhigh : em.mantissa < 2 ^ 53 := by
    have hy : q / 2 ^ t < 2 ^ 53 := (div_lt_iff₀ htwo).mpr hlt
    exact_mod_cast hem.mantissa_le.trans_lt hy
  obtain ⟨hdown, hup⟩ := roundedMantissa_bounds em
  unfold roundWithAccuracy
  rw [hshift]
  dsimp only
  by_cases hcarry : em.roundedMantissa < 2 ^ 53
  · have hpos : 0 < em.roundedMantissa := by omega
    refine ⟨⟨false, em.roundedMantissa, t⟩, sign, hpos, ⟨hcarry, hleast, .inl (hlow.trans hdown)⟩, ?_, ?_⟩
    · dsimp only
      omega
    · rw [shiftToTarget_small hcarry hleast]
      exact dif_neg hpos.ne'
  · have hpower : em.roundedMantissa = 2 ^ 53 := by omega
    have hpos : 0 < 2 ^ 52 := Nat.two_pow_pos 52
    have hbits : 2 ^ 52 < 2 ^ 53 := by decide
    refine ⟨⟨false, 2 ^ 52, t + 1⟩, sign, hpos, ⟨hbits, ?_, .inl (Nat.le_refl _)⟩, ?_, ?_⟩
    · dsimp only
      omega
    · dsimp only
      omega
    · rw [hpower, shiftToTarget_carry hleast]
      exact dif_neg hpos.ne'

/-- A product from one on that is not too large is a double when one of the factors has all its bits. -/
theorem rounded_mul {m₁ m₂ : ℕ} {e₁ e₂ : Int} (h₁ : 0 < m₁) (h₂ : 0 < m₂) (hlong : 2 ^ 52 ≤ m₁)
    (hone : (1 : ℚ) ≤ m₁ * 2 ^ e₁ * (m₂ * 2 ^ e₂)) (hlarge : (m₁ * 2 ^ e₁ * (m₂ * 2 ^ e₂) : ℚ) < 2 ^ 64) :
    Rounded (UnpackedFloat.mul .binary64 (.finite .positive m₁ e₁ h₁) (.finite .positive m₂ e₂ h₂)) := by
  have hvalue : (m₁ * 2 ^ e₁ * (m₂ * 2 ^ e₂) : ℚ) / 2 ^ (e₁ + e₂) = ((m₁ * m₂ : ℕ) : ℚ) := by
    rw [div_eq_iff (zpow_ne_zero _ (by norm_num)), zpow_add₀ (by norm_num)]
    push_cast
    ring
  have hexact : Describes (ExtendedMantissa.ofMantissaAndAccuracy (m₁ * m₂) .exact)
      ((m₁ * 2 ^ e₁ * (m₂ * 2 ^ e₂) : ℚ) / 2 ^ (e₁ + e₂)) := by
    rw [hvalue]
    exact sub_self _
  have hbits : 52 ≤ (m₁ * m₂).log2 := by
    apply (Nat.le_log2 (Nat.mul_pos h₁ h₂).ne').mpr
    exact hlong.trans (Nat.le_mul_of_pos_right m₁ h₂)
  exact rounded_roundWithAccuracy hone hlarge .positive hexact (.inl hbits)

/-! ## Whole numbers -/

/-- A double from one on has all its bits. -/
theorem Binary.Canonical.le_mantissa {x : Binary} (hx : x.Canonical) (hone : (1 : ℚ) ≤ x.mantissa * 2 ^ x.exponent) :
    2 ^ 52 ≤ x.mantissa := by
  apply hx.full.resolve_right
  intro hleast
  have hlt : (x.mantissa : ℚ) < 2 ^ 53 := by exact_mod_cast hx.lt
  have hsmall : (x.mantissa : ℚ) * 2 ^ (-1074 : Int) ≤ 2 ^ 53 * 2 ^ (-1074 : Int) :=
    mul_le_mul_of_nonneg_right hlt.le (zpow_nonneg (by norm_num) _)
  rw [hleast] at hone
  linarith [least_lt_one]

/-- Both ways of reading a whole number round a product that is worth the number. -/
theorem exists_ofScientific {d : ℕ} (hd : 0 < d) (hlarge : d < 2 ^ 64) :
    ∃ u, Rounded u ∧ Float.ofScientific d false 0 = .ofModel (.pack u) := by
  have hone : (1 : ℚ) ≤ d := by exact_mod_cast hd
  have hmost : (d : ℚ) < 2 ^ 64 := by exact_mod_cast hlarge
  unfold Float.ofScientific
  split
  · rename_i hfast
    have hword : d.toUInt64.toNat = d := Nat.mod_eq_of_lt hlarge
    obtain ⟨y, hy, hcanonical, hexponent, hvalue, hnat⟩ := exists_ofNat hd hfast.1
    have hpower : isPowerOfTen 0 (Float.exactlyRepresentablePowersOfTen[0]).toModel.unpack = true :=
      isPowerOfTen_powers ⟨0, by decide⟩
    obtain ⟨m, e, hm, hunpack, hten⟩ := exists_of_isPowerOfTen hpower
    have hlong : 2 ^ 52 ≤ y.mantissa := hcanonical.le_mantissa (hvalue ▸ hone)
    have hproduct : (y.mantissa * 2 ^ y.exponent * (m * 2 ^ e) : ℚ) = d := by rw [hvalue, hten, pow_zero, mul_one]
    rw [← hproduct] at hone hmost
    have hfloat : d.toUInt64.toFloat.toModel.unpack = .finite .positive y.mantissa y.exponent hy := by
      show UnpackedFloat.unpack .binary64 (UnpackedFloat.pack .binary64
        (UnpackedFloat.ofNat .binary64 d.toUInt64.toNat)) = _
      rw [hword, hnat]
      exact unpack_pack hcanonical hy hexponent .positive
    refine ⟨_, rounded_mul hy hm hlong hone hmost, ?_⟩
    rw [← hfloat, ← hunpack]
    rfl
  · have hwide : 2 ^ 52 ≤ d <<< 53 := by
      rw [Nat.shiftLeft_eq]
      omega
    have hpos : 0 < d <<< 53 := Nat.lt_of_lt_of_le (Nat.two_pow_pos 52) hwide
    have hproduct : (((d <<< 53 : ℕ) : ℚ) * 2 ^ (-53 : Int) * ((1 : ℕ) * 2 ^ (0 : Int))) = d := by
      rw [Nat.shiftLeft_eq, Nat.cast_mul, Nat.cast_pow, Nat.cast_ofNat, Nat.cast_one, zpow_zero, mul_one, mul_one,
        zpow_neg, zpow_ofNat]
      exact mul_inv_cancel_right₀ (pow_ne_zero 53 two_ne_zero) _
    rw [← hproduct] at hone hmost
    refine ⟨_, rounded_mul hpos Nat.one_pos hwide hone hmost, ?_⟩
    show Float.ofModel (.pack (UnpackedFloat.ofScientific .binary64 d 0)) = _
    unfold UnpackedFloat.ofScientific
    rw [dif_neg hd.ne', if_neg, if_neg, if_pos (Int.le_refl 0)]
    · rfl
    · show ¬(0 : Int) < -(2048 + (d.log2 : Int))
      omega
    · show ¬(0 : Int) > 2048
      omega

/-- An integer of 64 bits is read as a finite double. -/
theorem isFinite_floatOfInt {n : Int} (h : n.natAbs < 2 ^ 64) : (Document.floatOfInt n).isFinite = true := by
  by_cases hzero : n = 0
  · subst hzero
    decide
  · obtain ⟨u, hu, hread⟩ := exists_ofScientific (Int.natAbs_pos.mpr hzero) h
    unfold Document.floatOfInt
    dsimp only
    rw [hread]
    split
    · rw [hu.neg_ofModel]
      exact hu.neg.isFinite_ofModel
    · exact hu.isFinite_ofModel

end Overseer.Decimal
