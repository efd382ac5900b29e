import Mathlib
import Overseer.Decimal.Nearest
import Overseer.Proofs.Decimal.Packed

/-! # Decimals are read as the double that takes them

A decimal with places behind its point is read by dividing its digits by a power of ten. Where both are doubles they are
divided as such, and otherwise as numbers; both ways the quotient is rounded once.
-/

namespace Overseer.Decimal

open Float.Model Float.Model.UnpackedFloat

namespace Binary

/-- What a double other than zero takes is not too small. -/
theorem Takes.least_le {x : Binary} (hx : x.Canonical) (hpos : 0 < x.mantissa) {q : ℚ} (hq : x.Takes q) :
    (2 : ℚ) ^ (-1075 : Int) ≤ q := by
  have hmantissa : (1 : ℚ) ≤ x.mantissa := by exact_mod_cast hpos
  calc (2 : ℚ) ^ (-1075 : Int) = 1 / 2 * 2 ^ (-1074 : Int) := by
        rw [show (-1075 : Int) = -1 + -1074 by decide, zpow_add₀ (by norm_num), zpow_neg_one, one_div]
    _ ≤ 1 / 2 * 2 ^ x.exponent :=
      mul_le_mul_of_nonneg_left (zpow_le_zpow_right₀ (by norm_num) hx.least) (by norm_num)
    _ ≤ (x.mantissa - 1 / 2) * 2 ^ x.exponent :=
      mul_le_mul_of_nonneg_right (by linarith) (zpow_nonneg (by norm_num) _)
    _ ≤ q := x.half_below_le_lower.trans hq.lower_le

theorem Takes.lt_most {x : Binary} (hx : x.Canonical) (hmost : x.exponent ≤ 971) {q : ℚ} (hq : x.Takes q) :
    q < 2 ^ 1024 := by
  have hmantissa : (x.mantissa : ℚ) + 1 ≤ 2 ^ 53 := by exact_mod_cast hx.lt
  calc q ≤ (x.mantissa + 1 / 2) * 2 ^ x.exponent := hq.le_upper
    _ < 2 ^ 53 * 2 ^ x.exponent := mul_lt_mul_of_pos_right (by linarith) (zpow_pos (by norm_num) _)
    _ ≤ 2 ^ 53 * 2 ^ (971 : Int) :=
      mul_le_mul_of_nonneg_left (zpow_le_zpow_right₀ (by norm_num) hmost) (by norm_num)
    _ = 2 ^ 1024 := by rw [zpow_ofNat, ← pow_add]

end Binary

/-- A natural number of at most 53 bits is a double. -/
theorem exists_ofNat {d : Nat} (hd : 0 < d) (hlt : d < 2 ^ 53) :
    ∃ x : Binary, ∃ hpos : 0 < x.mantissa, x.Canonical ∧ x.exponent ≤ 971 ∧
      (x.mantissa * 2 ^ x.exponent : ℚ) = d ∧
      UnpackedFloat.ofNat .binary64 d = .finite .positive x.mantissa x.exponent hpos := by
  have hlog : d.log2 < 53 := (Nat.log2_lt hd.ne').mpr hlt
  obtain ⟨k, hk⟩ : ∃ k, k = 52 - d.log2 := ⟨_, rfl⟩
  have hpos : 0 < d <<< k := by
    rw [Nat.shiftLeft_eq]
    exact Nat.mul_pos hd (Nat.two_pow_pos k)
  have hbits : 2 ^ 52 ≤ d <<< k ∧ d <<< k < 2 ^ 53 := by
    rw [Nat.shiftLeft_eq, show 52 = d.log2 + k by omega, show 53 = d.log2 + 1 + k by omega, Nat.pow_add, Nat.pow_add]
    exact ⟨Nat.mul_le_mul_right _ (Nat.log2_self_le hd.ne'),
      Nat.mul_lt_mul_of_pos_right Nat.lt_log2_self (Nat.two_pow_pos k)⟩
  have hvalue : ((d <<< k : Nat) : ℚ) * 2 ^ (-(k : Int)) = d := by
    rw [Nat.shiftLeft_eq, zpow_neg, zpow_natCast]
    push_cast
    rw [mul_assoc, mul_inv_cancel₀ (by positivity), mul_one]
  have hx : (⟨false, d <<< k, -(k : Int)⟩ : Binary).Canonical := ⟨hbits.2, by dsimp only; omega, .inl hbits.1⟩
  refine ⟨⟨false, d <<< k, -(k : Int)⟩, hpos, hx, by dsimp only; omega, hvalue, ?_⟩
  have hexact : Describes (ExtendedMantissa.ofMantissaAndAccuracy (d <<< k) .exact)
      (((d <<< k : Nat) : ℚ) * 2 ^ (-(k : Int)) / 2 ^ (-(k : Int))) := by
    rw [mul_div_cancel_right₀ _ (zpow_ne_zero _ (by norm_num))]
    exact sub_self _
  have hround := roundWithAccuracy_eq hx hpos (Binary.takes_self _) .positive hexact
    (.inl (log2_of_full hbits.1 hbits.2).ge)
  have hshift : (0 - Format.binary64.targetExponent (totalExponent d 0)).toNat = k := by
    rw [targetExponent_eq]
    omega
  unfold UnpackedFloat.ofNat UnpackedFloat.ofInt UnpackedFloat.normalize
  rw [Int.compare_eq_gt.mpr (by omega)]
  dsimp only
  rw [Int.toNat_natCast]
  unfold UnpackedFloat.round decreaseExponent
  dsimp only
  rw [hshift, Int.zero_sub]
  exact hround

/-- Whether a double is a power of ten. -/
def isPowerOfTen (k : Nat) : UnpackedFloat → Bool
  | .finite .positive m e _ => m * 2 ^ e.toNat == 10 ^ k * 2 ^ (-e).toNat
  | _ => false

theorem isPowerOfTen_powers : ∀ k : Fin Float.exactlyRepresentablePowersOfTen.size,
    isPowerOfTen k (Float.exactlyRepresentablePowersOfTen[k]).toModel.unpack = true := by
  decide +kernel

theorem exists_of_isPowerOfTen {k : Nat} {x : UnpackedFloat} (h : isPowerOfTen k x = true) :
    ∃ m e, ∃ hpos : 0 < m, x = .finite .positive m e hpos ∧ (m * 2 ^ e : ℚ) = 10 ^ k := by
  cases x with
  | notANumber | infinity | zero => cases h
  | finite sign m e hpos =>
    cases sign with
    | negative => cases h
    | positive =>
      refine ⟨m, e, hpos, rfl, ?_⟩
      have heq : ((m * 2 ^ e.toNat : Nat) : ℚ) = ((10 ^ k * 2 ^ (-e).toNat : Nat) : ℚ) :=
        congrArg Nat.cast (beq_iff_eq.mp h)
      push_cast at heq
      obtain ⟨n, rfl | rfl⟩ := e.eq_nat_or_neg
      · rw [Int.toNat_natCast, Int.toNat_of_nonpos (by omega), pow_zero, mul_one] at heq
        rw [zpow_natCast, heq]
      · rw [Int.toNat_of_nonpos (by omega), neg_neg, Int.toNat_natCast, pow_zero, mul_one] at heq
        rw [heq, zpow_neg, zpow_natCast, mul_assoc, mul_inv_cancel₀ (by positivity), mul_one]

/-- Some digits with places behind the point are the double that takes their value. -/
theorem ofScientific_eq {x : Binary} (hx : x.Canonical) (hpos : 0 < x.mantissa) {d k : Nat} (hd : 0 < d) (hk : 0 < k)
    (hsmall : k ≤ 2048 + d.log2) (hq : x.Takes (d / 10 ^ k)) :
    Float.ofScientific d true k = .ofModel (.pack (.finite .positive x.mantissa x.exponent hpos)) := by
  unfold Float.ofScientific
  split
  · rename_i hfast
    have hword : d.toUInt64.toNat = d := by
      change d % 2 ^ 64 = d
      omega
    obtain ⟨y, hy, hcanonical, hmost, hvalue, hnat⟩ := exists_ofNat hd hfast.1
    have hk : k < Float.exactlyRepresentablePowersOfTen.size := Nat.lt_succ_of_le hfast.2
    have hpower : isPowerOfTen k (Float.exactlyRepresentablePowersOfTen[k]).toModel.unpack = true :=
      isPowerOfTen_powers ⟨k, hk⟩
    obtain ⟨m, e, hm, hunpack, hten⟩ := exists_of_isPowerOfTen hpower
    have hfloat : d.toUInt64.toFloat.toModel.unpack = .finite .positive y.mantissa y.exponent hy := by
      change UnpackedFloat.unpack .binary64 (UnpackedFloat.pack .binary64
        (UnpackedFloat.ofNat .binary64 d.toUInt64.toNat)) = _
      rw [hword, hnat]
      exact unpack_pack hcanonical hy hmost .positive
    have hquotient : UnpackedFloat.div .binary64 d.toUInt64.toFloat.toModel.unpack
        (Float.exactlyRepresentablePowersOfTen[k]).toModel.unpack =
          .finite .positive x.mantissa x.exponent hpos := by
      rw [hfloat, hunpack]
      exact div_eq hx hpos hy hm (by rw [hvalue, hten]; exact hq)
    exact congrArg (fun y => Float.ofModel (.pack y)) hquotient
  · have hneg : Int.negOfNat k = -(k : Int) := Int.negOfNat_eq
    have hwhole : (- -(k : Int)).toNat = k := by omega
    change Float.ofModel (.pack (UnpackedFloat.ofScientific .binary64 d (Int.negOfNat k))) = _
    unfold UnpackedFloat.ofScientific
    rw [hneg, dif_neg hd.ne', if_neg, if_neg, if_neg (by omega)]
    · rw [div_eq hx hpos hd (Nat.pow_pos (by decide)) (by
        rw [hwhole, zpow_zero, mul_one, mul_one]
        exact_mod_cast hq)]
    · change ¬-(k : Int) < -(2048 + (d.log2 : Int))
      omega
    · change ¬-(k : Int) > 2048
      omega

theorem lt_log2_of_pow_le {d k c : Nat} (h : 10 ^ k ≤ d * 2 ^ c) : k < d.log2 + 1 + c := by
  have hlt : 2 ^ k < 2 ^ (d.log2 + 1 + c) := calc
    2 ^ k ≤ 10 ^ k := Nat.pow_le_pow_left (by decide) k
    _ ≤ d * 2 ^ c := h
    _ < 2 ^ (d.log2 + 1) * 2 ^ c := Nat.mul_lt_mul_of_pos_right Nat.lt_log2_self (Nat.two_pow_pos c)
    _ = 2 ^ (d.log2 + 1 + c) := (Nat.pow_add ..).symm
  exact (Nat.pow_lt_pow_iff_right (by decide)).mp hlt

/-- Whatever is read as a double, with at least one place behind the point, is the double that takes it. -/
theorem nearest_eq {x : Binary} (hx : x.Canonical) (hpos : 0 < x.mantissa) (hmost : x.exponent ≤ 971) {d k : Nat}
    (hd : 0 < d) (hk : 0 < k) (hq : x.Takes (d / 10 ^ k)) :
    nearest d (-(k : Int)) = .ofModel (.pack (.finite .positive x.mantissa x.exponent hpos)) := by
  have hten : (0 : ℚ) < 10 ^ k := by positivity
  have hroom : d.log2 + 1 + 1075 ≤ 2048 + d.log2 := by omega
  have hlarge : 10 ^ k ≤ d * 2 ^ 1075 := by
    have hle := hq.least_le hx hpos
    rw [le_div_iff₀ hten, zpow_neg, inv_mul_le_iff₀ (by positivity)] at hle
    rw [mul_comm]
    exact_mod_cast hle
  have hsmall : d < 10 ^ (k + 309) := by
    have hlt := hq.lt_most hx hmost
    rw [div_lt_iff₀ hten] at hlt
    calc d < 2 ^ 1024 * 10 ^ k := by exact_mod_cast hlt
      _ ≤ 10 ^ 309 * 10 ^ k := Nat.mul_le_mul_right _ (by decide +kernel)
      _ = 10 ^ (k + 309) := by rw [Nat.pow_add, Nat.mul_comm]
  have hplaces : d.repr.length ≤ k + 309 := (Nat.length_repr_le_iff (by omega)).mpr hsmall
  have hzeros : k ≤ d.repr.length + 345 := by
    by_contra hlt
    have hpos := Nat.length_repr_pos (n := d)
    have hshort : d < 10 ^ (k - 346) := (Nat.length_repr_le_iff (by omega)).mp (by omega)
    have hbig : 2 ^ 1075 < 10 ^ 346 := by decide +kernel
    have hpow : 10 ^ k = 10 ^ (k - 346) * 10 ^ 346 := by
      rw [← Nat.pow_add]
      congr 1
      omega
    have hcontra : d * 2 ^ 1075 < 10 ^ (k - 346) * 10 ^ 346 :=
      Nat.mul_lt_mul_of_lt_of_le hshort hbig.le (by positivity)
    omega
  have hlog : k ≤ 2048 + d.log2 := (lt_log2_of_pow_le hlarge).le.trans hroom
  unfold nearest mostPlaces mostZeros
  change (if d = 0 then _ else if 310 < (d.repr.length : Int) + -(k : Int) then _ else
    if (d.repr.length : Int) + -(k : Int) < -345 then _ else if 0 ≤ -(k : Int) then _ else _) = _
  rw [if_neg hd.ne', if_neg (by omega), if_neg (by omega), if_neg (by omega), Int.natAbs_neg, Int.natAbs_natCast]
  exact ofScientific_eq hx hpos hd hk hlog hq

end Overseer.Decimal
