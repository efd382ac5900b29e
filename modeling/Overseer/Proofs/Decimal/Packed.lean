import Mathlib
import Overseer.Proofs.Decimal.Rounding

/-! # The bits of a double

A double is put together from its sign, exponent and mantissa and comes apart into the same, so the parts that are
printed tell which double it was.
-/

namespace Overseer.Decimal

open Float.Model Float.Model.UnpackedFloat

variable (b : BitVec Format.binary64.numBits)

theorem toNat_unpackMantissa : (unpackMantissa b).toNat = b.toNat % 2 ^ 52 := by
  unfold unpackMantissa
  rw [BitVec.toNat_cast, BitVec.extractLsb_toNat]
  rfl

theorem toNat_unpackExponent : (unpackExponent b).toNat = b.toNat / 2 ^ 52 % 2048 := by
  unfold unpackExponent
  rw [BitVec.toNat_cast, BitVec.extractLsb_toNat, Nat.shiftRight_eq_div_pow]
  rfl

theorem toNat_unpackSign : (unpackSign b).toNat = b.toNat / 2 ^ 63 % 2 := by
  unfold unpackSign
  rw [BitVec.toNat_cast, BitVec.extractLsb_toNat, Nat.shiftRight_eq_div_pow]
  rfl

theorem toBitVec_ofBitVec (v : BitVec 1) : (Sign.ofBitVec v).toBitVec = v := by
  revert v
  decide

/-- The three parts are all there is. -/
theorem packComponents_unpack :
    packComponents .binary64 (Sign.ofBitVec (unpackSign b)) (unpackExponent b) (unpackMantissa b) = b := by
  have hlow : (unpackMantissa b).toNat < 2 ^ 52 := (unpackMantissa b).isLt
  have hmid : (unpackExponent b).toNat < 2 ^ 11 := (unpackExponent b).isLt
  have hb : b.toNat < 2 ^ 64 := b.isLt
  apply BitVec.eq_of_toNat_eq
  unfold packComponents
  rw [toBitVec_ofBitVec, BitVec.toNat_append, BitVec.toNat_append, ← Nat.shiftLeft_add_eq_or_of_lt hmid,
    ← Nat.shiftLeft_add_eq_or_of_lt hlow, toNat_unpackMantissa, toNat_unpackExponent, toNat_unpackSign,
    Nat.shiftLeft_eq, Nat.shiftLeft_eq]
  omega

/-- With the implicit bit in front. -/
theorem toNat_implicit : (1#1 ++ unpackMantissa b).toNat = 2 ^ 52 + (unpackMantissa b).toNat := by
  rw [BitVec.toNat_append, ← Nat.shiftLeft_add_eq_or_of_lt (unpackMantissa b).isLt]
  rfl

theorem log2_of_full {m : Nat} (hlow : 2 ^ 52 ≤ m) (hhigh : m < 2 ^ 53) : m.log2 = 52 :=
  (Nat.log2_eq_iff (by omega)).mpr ⟨hlow, hhigh⟩

theorem log2_of_short {m : Nat} (h : m < 2 ^ 52) : m.log2 < 52 := by
  by_cases hzero : m = 0
  · rw [hzero]
    decide
  · exact (Nat.log2_lt hzero).mpr h

theorem pack_full {sign : Sign} {m : Nat} {e : Int} (hpos : 0 < m) (hlow : 2 ^ 52 ≤ m) (hhigh : m < 2 ^ 53)
    (hleast : -1074 ≤ e) (hmost : e ≤ 971) :
    UnpackedFloat.pack .binary64 (.finite sign m e hpos) =
      packComponents .binary64 sign (BitVec.ofNat 11 (e + 1075).toNat) (BitVec.ofNat 52 m) := by
  unfold UnpackedFloat.pack
  change (if 2048 ≤ (e + 1023 + 52).toNat + 1 then _ else if m.log2 + 1 = 53 then _ else _) = _
  rw [if_neg (by omega), if_pos (by rw [log2_of_full hlow hhigh])]
  change packComponents .binary64 sign (BitVec.ofNat 11 (e + 1023 + 52).toNat) _ = _
  rw [Int.add_assoc]
  rfl

theorem pack_short {sign : Sign} {m : Nat} (hpos : 0 < m) (h : m < 2 ^ 52) :
    UnpackedFloat.pack .binary64 (.finite sign m (-1074) hpos) =
      packComponents .binary64 sign 0#11 (BitVec.ofNat 52 m) := by
  have hlog := log2_of_short h
  unfold UnpackedFloat.pack
  change (if 2048 ≤ ((-1074 : Int) + 1023 + 52).toNat + 1 then _ else if m.log2 + 1 = 53 then _ else _) = _
  rw [if_neg (by omega), if_neg (by omega)]

theorem pack_unpack (h : Format.binary64.Valid b) :
    UnpackedFloat.pack .binary64 (UnpackedFloat.unpack .binary64 b) = b := by
  have hmantissa : (unpackMantissa b).toNat < 2 ^ 52 := (unpackMantissa b).isLt
  have hexponent : (unpackExponent b).toNat < 2 ^ 11 := (unpackExponent b).isLt
  have hparts := packComponents_unpack b
  unfold UnpackedFloat.unpack
  dsimp only
  split
  · rename_i hall
    split
    · rename_i hzero
      rw [hall, hzero] at hparts
      exact hparts
    · rename_i hne
      exact (h.eq_packedNaN hall hne).symm
  · rename_i hfinite
    have hne : (unpackExponent b).toNat ≠ 2047 := fun heq => hfinite (BitVec.eq_of_toNat_eq heq)
    split
    · rename_i hleast
      split
      · rename_i hzero
        rw [hleast, hzero] at hparts
        exact hparts
      · have hexponent : ((unpackExponent b).toNat : Int) - (1023 + 52) + 1 = -1074 := by
          rw [hleast]
          rfl
        change UnpackedFloat.pack .binary64 (.finite _ _ (((unpackExponent b).toNat : Int) - (1023 + 52) + 1) _) = b
        simp only [hexponent]
        rw [pack_short _ hmantissa, BitVec.ofNat_toNat, BitVec.setWidth_eq, ← hleast]
        exact hparts
    · rename_i hfull
      have hpos : (unpackExponent b).toNat ≠ 0 := fun heq => hfull (BitVec.eq_of_toNat_eq heq)
      change UnpackedFloat.pack .binary64 (.finite _ _ (((unpackExponent b).toNat : Int) - 1075) _) = b
      rw [pack_full _ (by rw [toNat_implicit]; omega) (by rw [toNat_implicit]; omega) (by omega) (by omega),
        Int.sub_add_cancel, Int.toNat_natCast, BitVec.ofNat_toNat, BitVec.setWidth_eq]
      have hbits : BitVec.ofNat 52 (1#1 ++ unpackMantissa b).toNat = unpackMantissa b := by
        apply BitVec.eq_of_toNat_eq
        rw [toNat_implicit, BitVec.toNat_ofNat]
        omega
      rw [hbits]
      exact hparts

theorem finite_congr {sign : Sign} {m m' : Nat} {e e' : Int} (hm : m = m') (he : e = e') (h : 0 < m) (h' : 0 < m') :
    UnpackedFloat.finite sign m e h = .finite sign m' e' h' := by
  subst hm he
  rfl

theorem ofBitVec_packComponents (sign : Sign) (exponent : BitVec 11) (mantissa : BitVec 52) :
    Sign.ofBitVec (unpackSign (packComponents .binary64 sign exponent mantissa)) = sign := by
  rw [unpackSign_packComponents]
  cases sign <;> rfl

theorem unpack_components_full (sign : Sign) {exponent : BitVec 11} (mantissa : BitVec 52) (hpos : exponent.toNat ≠ 0)
    (hfinite : exponent.toNat ≠ 2047) :
    UnpackedFloat.unpack .binary64 (packComponents .binary64 sign exponent mantissa) =
      .finite sign (2 ^ 52 + mantissa.toNat) (exponent.toNat - 1075) (Nat.add_pos_left (by decide) _) := by
  unfold UnpackedFloat.unpack
  dsimp only
  rw [unpackExponent_packComponents, ofBitVec_packComponents, if_neg fun heq => hfinite (congrArg BitVec.toNat heq),
    if_neg fun heq => hpos (congrArg BitVec.toNat heq)]
  refine finite_congr ?_ rfl _ _
  rw [toNat_implicit, unpackMantissa_packComponents]

theorem unpack_components_short (sign : Sign) {mantissa : BitVec 52} (hpos : 0 < mantissa.toNat) :
    UnpackedFloat.unpack .binary64 (packComponents .binary64 sign 0#11 mantissa) =
      .finite sign mantissa.toNat (-1074) hpos := by
  unfold UnpackedFloat.unpack
  dsimp only
  rw [unpackExponent_packComponents, ofBitVec_packComponents, if_neg (by decide), if_pos rfl,
    dif_neg (by rw [unpackMantissa_packComponents]; exact fun heq => hpos.ne' (congrArg BitVec.toNat heq))]
  refine finite_congr ?_ rfl _ _
  rw [unpackMantissa_packComponents]

theorem unpack_pack {x : Binary} (hx : x.Canonical) (hpos : 0 < x.mantissa) (hmost : x.exponent ≤ 971) (sign : Sign) :
    UnpackedFloat.unpack .binary64 (UnpackedFloat.pack .binary64 (.finite sign x.mantissa x.exponent hpos)) =
      .finite sign x.mantissa x.exponent hpos := by
  obtain ⟨hlt, hleast, hfull⟩ := hx
  by_cases hm : 2 ^ 52 ≤ x.mantissa
  · have hexponent : (BitVec.ofNat 11 (x.exponent + 1075).toNat).toNat = (x.exponent + 1075).toNat :=
      Nat.mod_eq_of_lt (by omega)
    have hmantissa : 2 ^ 52 + (BitVec.ofNat 52 x.mantissa).toNat = x.mantissa := by
      rw [BitVec.toNat_ofNat]
      omega
    rw [pack_full hpos hm hlt hleast hmost]
    refine (unpack_components_full sign _ (by omega) (by omega)).trans (finite_congr hmantissa ?_ _ _)
    omega
  · have hmantissa : (BitVec.ofNat 52 x.mantissa).toNat = x.mantissa := Nat.mod_eq_of_lt (by omega)
    have hexponent := hfull.resolve_left hm
    generalize x.exponent = e at hexponent ⊢
    subst hexponent
    rw [pack_short hpos (by omega)]
    exact (unpack_components_short sign (by omega)).trans (finite_congr hmantissa rfl _ _)

def isNegative : Sign → Bool
  | .negative => true
  | .positive => false

/-- What is printed of an unpacked double. -/
def partsOf : UnpackedFloat → Parts
  | .notANumber => .nan
  | .infinity sign => .infinite (isNegative sign)
  | .zero sign => .finite ⟨isNegative sign, 0, -1074⟩
  | .finite sign m e _ => .finite ⟨isNegative sign, m, e⟩

theorem parts_eq (x : Float) : parts x = partsOf x.toModel.unpack := by
  obtain ⟨b, hb⟩ : ∃ b : BitVec Format.binary64.numBits, b = x.toModel.toBits.toBitVec := ⟨_, rfl⟩
  have hsign : decide (b.toNat / Nat.pow 2 63 % 2 = 1) = isNegative (Sign.ofBitVec (unpackSign b)) := by
    have htoNat := toNat_unpackSign b
    obtain hs | hs : unpackSign b = 0#1 ∨ unpackSign b = 1#1 := by
      generalize unpackSign b = v
      revert v
      decide
    · rw [hs] at htoNat ⊢
      exact decide_eq_false (by change ¬b.toNat / 2 ^ 63 % 2 = 1; rw [← htoNat]; decide)
    · rw [hs] at htoNat ⊢
      exact decide_eq_true (by change b.toNat / 2 ^ 63 % 2 = 1; rw [← htoNat]; decide)
  have hexponent := toNat_unpackExponent b
  have hmantissa := toNat_unpackMantissa b
  have hunpack : x.toModel.unpack = UnpackedFloat.unpack .binary64 b := by rw [hb]; rfl
  have hparts : parts x = (if b.toNat / 2 ^ 52 % 2048 = 2047 then
      if b.toNat % 2 ^ 52 = 0 then .infinite (decide (b.toNat / Nat.pow 2 63 % 2 = 1)) else .nan
    else if b.toNat / 2 ^ 52 % 2048 = 0 then
      .finite ⟨decide (b.toNat / Nat.pow 2 63 % 2 = 1), b.toNat % 2 ^ 52, -1074⟩
    else .finite ⟨decide (b.toNat / Nat.pow 2 63 % 2 = 1), 2 ^ 52 + b.toNat % 2 ^ 52,
      ((b.toNat / 2 ^ 52 % 2048 : Nat) : Int) - 1075⟩) := by
    rw [hb]
    rfl
  rw [hunpack, hparts, hsign, ← hexponent, ← hmantissa]
  unfold UnpackedFloat.unpack
  dsimp only
  by_cases hall : (unpackExponent b).toNat = 2047
  · rw [if_pos hall, if_pos (BitVec.eq_of_toNat_eq hall)]
    by_cases hzero : (unpackMantissa b).toNat = 0
    · rw [if_pos hzero, if_pos (BitVec.eq_of_toNat_eq hzero)]
      rfl
    · rw [if_neg hzero, if_neg fun heq => hzero (congrArg BitVec.toNat heq)]
      rfl
  · rw [if_neg hall, if_neg fun heq => hall (congrArg BitVec.toNat heq)]
    by_cases hleast : (unpackExponent b).toNat = 0
    · rw [if_pos hleast, if_pos (BitVec.eq_of_toNat_eq hleast), hleast]
      by_cases hzero : (unpackMantissa b).toNat = 0
      · rw [dif_pos (BitVec.eq_of_toNat_eq hzero), hzero]
        rfl
      · rw [dif_neg fun heq => hzero (congrArg BitVec.toNat heq)]
        rfl
    · rw [if_neg hleast, if_neg fun heq => hleast (congrArg BitVec.toNat heq), ← toNat_implicit]
      rfl

/-! ## Doubles by their parts -/

theorem ofModel_pack_unpack (x : Float) : Float.ofModel (.pack x.toModel.unpack) = x := by
  obtain ⟨⟨bits, hvalid⟩⟩ := x
  have hpack : UInt64.ofBitVec (UnpackedFloat.pack .binary64 (UnpackedFloat.unpack .binary64 bits.toBitVec)) = bits :=
    congrArg UInt64.ofBitVec (pack_unpack bits.toBitVec hvalid)
  exact congrArg Float.ofModel (Float.Model.mk.injEq .. ▸ hpack)

/-- What is printed of a finite double is in the form that the double has as its own. -/
theorem canonical_of_parts {x : Float} {v : Binary} (h : parts x = .finite v) : v.Canonical ∧ v.exponent ≤ 971 := by
  have hfraction : x.toBits.toNat % Nat.pow 2 fractionBits < 2 ^ 52 := Nat.mod_lt _ (by decide)
  have hbiased : x.toBits.toNat / Nat.pow 2 fractionBits % 2048 < 2048 := Nat.mod_lt _ (by decide)
  unfold parts at h
  dsimp only at h
  generalize x.toBits.toNat % Nat.pow 2 fractionBits = fraction at h hfraction
  generalize x.toBits.toNat / Nat.pow 2 fractionBits % 2048 = biased at h hbiased
  split at h
  · split at h <;> cases h
  · split at h
    · cases h
      change Binary.Canonical ⟨_, fraction, -1074⟩ ∧ (-1074 : Int) ≤ 971
      exact ⟨⟨by dsimp only; omega, le_rfl, .inr rfl⟩, by decide⟩
    · cases h
      change Binary.Canonical ⟨_, 2 ^ 52 + fraction, _⟩ ∧ (biased : Int) - 1075 ≤ 971
      exact ⟨⟨by dsimp only; omega, by dsimp only; omega, .inl (by dsimp only; omega)⟩, by omega⟩

end Overseer.Decimal
