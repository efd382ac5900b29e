import Mathlib
import Overseer.Toml.Reader
import Overseer.Toml.Printer
import Overseer.Proofs.Decimal.Nearest
import Overseer.Proofs.Decimal.Shortest

/-! # Numbers are read as they were written

A number is one word. A natural number is its digits. A double is written with a point and at least one place behind it,
so no word for it is an integer, and what its digits are worth is what was printed, which the double takes.
-/

namespace Overseer.Toml

/-! ## Runs of digits -/

def AllDigits (s : List Char) : Prop := ∀ c ∈ s, Text.isAsciiDigit c = true

/-- Digits without a zero in front of others. -/
structure Whole (s : List Char) : Prop where
  digits : AllDigits s
  ne_nil : s ≠ []
  lead : s.head? = some '0' → s = ['0']

theorem AllDigits.append {s t : List Char} (hs : AllDigits s) (ht : AllDigits t) : AllDigits (s ++ t) := by
  intro c hc
  obtain hc | hc := List.mem_append.mp hc
  · exact hs c hc
  · exact ht c hc

theorem AllDigits.notMem {s : List Char} (hs : AllDigits s) {c : Char} (hc : Text.isAsciiDigit c = false) : c ∉ s := by
  intro hmem
  exact absurd ((hs c hmem).symm.trans hc) (by decide)

theorem allDigits_toDigits (n : Nat) : AllDigits (Nat.toDigits 10 n) :=
  fun _ hc => Nat.isDigit_of_mem_toDigits (by decide) (by decide) hc

theorem allDigits_zeros (n : Nat) : AllDigits (Decimal.zeros n) := by
  intro c hc
  rw [List.eq_of_mem_replicate hc]
  rfl

theorem digitRun?_of_digits {s : List Char} (hs : AllDigits s) {afterDigit : Bool} (h : afterDigit = true ∨ s ≠ []) :
    digitRun? Text.isAsciiDigit afterDigit s = some s := by
  induction s generalizing afterDigit with
  | nil =>
    obtain rfl := h.resolve_right fun hne => hne rfl
    rfl
  | cons c rest ih =>
    have hc : Text.isAsciiDigit c = true := hs c List.mem_cons_self
    have hne : c ≠ '_' := by
      rintro rfl
      cases hc
    have hrest : AllDigits rest := fun d hd => hs d (List.mem_cons_of_mem c hd)
    rw [digitRun?, if_neg hne, if_pos hc, ih hrest (.inl rfl)]
    rfl

theorem digitRun?_eq_none {s : List Char} {c : Char} (hmem : c ∈ s) (hne : c ≠ '_')
    (hc : Text.isAsciiDigit c = false) (afterDigit : Bool) : digitRun? Text.isAsciiDigit afterDigit s = none := by
  induction s generalizing afterDigit with
  | nil => cases hmem
  | cons d rest ih =>
    unfold digitRun?
    obtain rfl | hmem := List.mem_cons.mp hmem
    · rw [if_neg hne, if_neg (by rw [hc]; decide)]
    · rw [ih hmem, ih hmem]
      split
      · split <;> rfl
      · split <;> rfl

theorem Whole.wholeDigits? {s : List Char} (hs : Whole s) : wholeDigits? s = some s := by
  unfold Toml.wholeDigits?
  rw [digitRun?_of_digits hs.digits (.inr hs.ne_nil)]
  split
  · rename_i c rest heq
    have hs := hs.lead
    rw [Option.some_inj.mp heq] at hs
    cases hs rfl
  · rfl

theorem head?_toDigits (n : Nat) (h : (Nat.toDigits 10 n).head? = some '0') : n = 0 := by
  induction n using Nat.strong_induction_on with
  | h n ih =>
    rw [Nat.toDigits_eq_if (by decide)] at h
    split at h
    · rename_i hlt
      interval_cases n <;> first | rfl | cases h
    · rw [List.head?_append_of_ne_nil _ Nat.toDigits_ne_nil] at h
      have := ih (n / 10) (by omega) h
      omega

theorem whole_toDigits (n : Nat) : Whole (Nat.toDigits 10 n) := by
  refine ⟨allDigits_toDigits n, Nat.toDigits_ne_nil, fun h => ?_⟩
  rw [head?_toDigits n h]
  rfl

theorem decimalValue_eq (s : List Char) : Text.decimalValue s = Nat.ofDigitChars 10 s 0 := by
  unfold Text.decimalValue Nat.ofDigitChars
  congr 1
  funext n c
  rw [Nat.mul_comm]
  rfl

theorem decimalValue_toDigits (n : Nat) : Text.decimalValue (Nat.toDigits 10 n) = n := by
  rw [decimalValue_eq, Nat.ofDigitChars_ten_toDigits]

/-! ## Integers -/

theorem splitSign_of_digits {s : List Char} (hs : AllDigits s) : splitSign s = (false, s) := by
  unfold splitSign
  split
  · cases hs '-' List.mem_cons_self
  · cases hs '+' List.mem_cons_self
  · rfl

theorem integer?_of_digits {s : List Char} (hs : AllDigits s) : integer? s = decimalInteger? s := by
  unfold integer?
  split
  · cases hs 'x' (List.mem_cons_of_mem _ List.mem_cons_self)
  · cases hs 'o' (List.mem_cons_of_mem _ List.mem_cons_self)
  · cases hs 'b' (List.mem_cons_of_mem _ List.mem_cons_self)
  · rfl

/-- A word of digits is its value. -/
theorem scalar?_toDigits {n : Nat} (h : n < 2 ^ 64) : scalar? (Nat.toDigits 10 n) = some (.number (.int n)) := by
  have hdigits := allDigits_toDigits n
  have hinteger : integer? (Nat.toDigits 10 n) = some (n : Int) := by
    rw [integer?_of_digits hdigits]
    unfold decimalInteger?
    rw [splitSign_of_digits hdigits]
    dsimp only
    rw [(whole_toDigits n).wholeDigits?, Option.map_some, decimalValue_toDigits]
    rfl
  have hfits : fitsInteger n = true := by
    unfold fitsInteger
    rw [Bool.and_eq_true, decide_eq_true_iff, decide_eq_true_iff]
    change (-(2 ^ 127 : Nat) : Int) ≤ n ∧ (n : Int) < (2 ^ 128 : Nat)
    omega
  unfold scalar?
  rw [if_neg, if_neg, hinteger]
  · exact if_pos hfits
  · intro heq
    exact hdigits.notMem (c := 'f') rfl (heq ▸ List.mem_cons_self)
  · intro heq
    exact hdigits.notMem (c := 't') rfl (heq ▸ List.mem_cons_self)

/-! ## Doubles -/

/-- Digits with a point among them, and what they are worth. -/
structure Pointed (text : List Char) (whole fraction : List Char) (value : ℚ) : Prop where
  text_eq : text = whole ++ '.' :: fraction
  before : Whole whole
  after : AllDigits fraction
  after_ne_nil : fraction ≠ []
  value_eq : (Text.decimalValue (whole ++ fraction) / 10 ^ fraction.length : ℚ) = value

theorem decimalValue_zeros_append (n : Nat) (s : List Char) :
    Text.decimalValue (Decimal.zeros n ++ s) = Text.decimalValue s := by
  rw [decimalValue_eq, decimalValue_eq, Nat.ofDigitChars_append]
  unfold Decimal.zeros
  rw [Nat.ofDigitChars_replicate_zero, Nat.mul_zero]

theorem decimalValue_append_zeros (s : List Char) (n : Nat) :
    Text.decimalValue (s ++ Decimal.zeros n) = 10 ^ n * Text.decimalValue s := by
  rw [decimalValue_eq, decimalValue_eq, Nat.ofDigitChars_append]
  exact Nat.ofDigitChars_replicate_zero

section Places

variable {digits : List Char} {j k : Nat}

/-- The point is behind the digits and some zeros, and one more zero is behind the point. -/
theorem Whole.pointed_behind (h : Whole digits) (hlead : digits.head? = some '0' → k = 0) :
    Pointed (digits ++ Decimal.zeros k ++ ['.', '0']) (digits ++ Decimal.zeros k) ['0']
      (Text.decimalValue digits * 10 ^ k) where
  text_eq := rfl
  before :=
    { digits := h.digits.append (allDigits_zeros k)
      ne_nil := List.append_ne_nil_of_left_ne_nil h.ne_nil _
      lead := by
        intro hhead
        rw [List.head?_append_of_ne_nil _ h.ne_nil] at hhead
        rw [h.lead hhead, hlead hhead]
        rfl }
  after := allDigits_zeros 1
  after_ne_nil := by decide
  value_eq := by
    have hzeros : Decimal.zeros k ++ ['0'] = Decimal.zeros (k + 1) := List.replicate_succ'.symm
    rw [List.append_assoc, hzeros, decimalValue_append_zeros, List.length_singleton]
    push_cast
    ring

/-- The point is among the digits. -/
theorem Whole.pointed_among (h : Whole digits) (hlead : digits.head? ≠ some '0') (hj : 0 < j) (hk : 0 < k)
    (hlength : digits.length = j + k) :
    Pointed (digits.take j ++ '.' :: digits.drop j) (digits.take j) (digits.drop j)
      (Text.decimalValue digits / 10 ^ k) := by
  have hfraction : (digits.drop j).length = k := by
    rw [List.length_drop]
    omega
  have hwhole : (digits.take j).length = j := List.length_take_of_le (by omega)
  refine ⟨rfl, ⟨fun c hc => h.digits c (List.mem_of_mem_take hc), ?_, ?_⟩,
    fun c hc => h.digits c (List.mem_of_mem_drop hc), ?_, ?_⟩
  · apply List.ne_nil_of_length_pos
    rw [hwhole]
    exact hj
  · intro heq
    rw [List.head?_take, if_neg (by omega)] at heq
    exact absurd heq hlead
  · apply List.ne_nil_of_length_pos
    rw [hfraction]
    exact hk
  · rw [List.take_append_drop, hfraction]

/-- The point is in front of the digits, and zeros are between. -/
theorem Whole.pointed_before (h : Whole digits) (hlength : j + digits.length = k) :
    Pointed ('0' :: '.' :: Decimal.zeros j ++ digits) ['0'] (Decimal.zeros j ++ digits)
      (Text.decimalValue digits / 10 ^ k) where
  text_eq := rfl
  before := ⟨allDigits_zeros 1, by decide, fun _ => rfl⟩
  after := (allDigits_zeros j).append h.digits
  after_ne_nil := List.append_ne_nil_of_right_ne_nil _ h.ne_nil
  value_eq := by
    have hfraction : (Decimal.zeros j ++ digits).length = k := by
      rw [List.length_append, Decimal.zeros, List.length_replicate, hlength]
    have hzero : ['0'] = Decimal.zeros 1 := rfl
    rw [hfraction, hzero, decimalValue_zeros_append, decimalValue_zeros_append]

end Places

/-- A positional text is worth what its digits and its exponent say. -/
theorem exists_pointed {d : Nat} {e : Int} (h : 0 < d ∨ e = 0) :
    ∃ whole fraction, Pointed (Decimal.positionalText (Nat.toDigits 10 d) e) whole fraction (d * 10 ^ e) := by
  have hdigits := whole_toDigits d
  have hvalue := decimalValue_toDigits d
  have hzero := head?_toDigits d
  generalize Nat.toDigits 10 d = digits at hdigits hvalue hzero ⊢
  obtain rfl := hvalue
  unfold Decimal.positionalText
  dsimp only
  by_cases he : 0 ≤ e
  · obtain ⟨k, rfl⟩ := Int.eq_ofNat_of_zero_le he
    have hlead : digits.head? = some '0' → k = 0 := by
      intro hhead
      have := hzero hhead
      omega
    rw [if_pos he, Int.toNat_natCast, zpow_natCast]
    exact ⟨_, _, hdigits.pointed_behind hlead⟩
  · have hlead : digits.head? ≠ some '0' := by
      intro hhead
      have := hzero hhead
      omega
    obtain ⟨k, rfl⟩ : ∃ k : Nat, e = -(k : Int) := ⟨e.natAbs, by omega⟩
    rw [if_neg he, zpow_neg, zpow_natCast, ← div_eq_mul_inv]
    by_cases hplace : 0 < (digits.length : Int) + -(k : Int)
    · obtain ⟨j, hj⟩ := Int.eq_ofNat_of_zero_le hplace.le
      rw [if_pos hplace, hj, Int.toNat_natCast]
      exact ⟨_, _, hdigits.pointed_among hlead (by omega) (by omega) (by omega)⟩
    · obtain ⟨j, hj⟩ := Int.eq_ofNat_of_zero_le (Int.neg_nonneg_of_nonpos (not_lt.mp hplace))
      rw [if_neg hplace, hj, Int.toNat_natCast]
      exact ⟨_, _, hdigits.pointed_before (by omega)⟩

/-- The sign that is written in front of a number. -/
def signText (negative : Bool) : List Char := if negative then ['-'] else []

theorem splitSign_signText {s : List Char} {c : Char} (hc : Text.isAsciiDigit c = true) (h : s.head? = some c)
    (negative : Bool) : splitSign (signText negative ++ s) = (negative, s) := by
  cases negative with
  | true => rfl
  | false =>
    change splitSign s = (false, s)
    unfold splitSign
    split
    · cases Option.some_inj.mp h
      cases hc
    · cases Option.some_inj.mp h
      cases hc
    · rfl

theorem cutAt_of_notMem {stop : Char → Bool} {s : List Char} (h : ∀ c ∈ s, stop c = false) :
    cutAt stop s = (s, none) := by
  unfold cutAt
  rw [List.dropWhile_eq_nil_iff.mpr fun c hc => by rw [h c hc]; rfl]

theorem cutAt_append {stop : Char → Bool} {s t : List Char} {c : Char} (h : ∀ d ∈ s, stop d = false)
    (hc : stop c = true) : cutAt stop (s ++ c :: t) = (s, some t) := by
  have hs : ∀ d ∈ s, (!stop d) = true := fun d hd => by rw [h d hd]; rfl
  have hstop : ¬(!stop c) = true := by rw [hc]; decide
  unfold cutAt
  rw [List.dropWhile_append_of_pos hs, List.dropWhile_cons_of_neg (p := fun d => !stop d) hstop,
    List.takeWhile_append_of_pos hs, List.takeWhile_cons_of_neg (p := fun d => !stop d) hstop, List.append_nil]

namespace Pointed

variable {text whole fraction : List Char} {value : ℚ}

theorem mem_cases (h : Pointed text whole fraction value) {c : Char} (hc : c ∈ text) :
    c = '.' ∨ Text.isAsciiDigit c = true := by
  rw [h.text_eq, List.mem_append, List.mem_cons] at hc
  obtain hc | hc | hc := hc
  · exact .inr (h.before.digits c hc)
  · exact .inl hc
  · exact .inr (h.after c hc)

theorem exists_head (h : Pointed text whole fraction value) :
    ∃ c, Text.isAsciiDigit c = true ∧ text.head? = some c := by
  obtain ⟨c, rest, hwhole⟩ := List.exists_cons_of_ne_nil h.before.ne_nil
  refine ⟨c, h.before.digits c (hwhole ▸ List.mem_cons_self), ?_⟩
  rw [h.text_eq, hwhole]
  rfl

theorem decimalFloat? (h : Pointed text whole fraction value) (negative : Bool) :
    decimalFloat? (signText negative ++ text) =
      if (Decimal.nearest (Text.decimalValue (whole ++ fraction)) (-(fraction.length : Int))).isInf then none
      else some (if negative then -Decimal.nearest (Text.decimalValue (whole ++ fraction)) (-(fraction.length : Int))
        else Decimal.nearest (Text.decimalValue (whole ++ fraction)) (-(fraction.length : Int))) := by
  obtain ⟨c, hdigit, hhead⟩ := h.exists_head
  have hscale : cutAt (fun c => c = 'e' ∨ c = 'E') text = (text, none) := cutAt_of_notMem fun c hc => by
    obtain rfl | hc := h.mem_cases hc
    · rfl
    · refine decide_eq_false fun heq => ?_
      obtain rfl | rfl := heq <;> cases hc
  have hpoint : cutAt (· = '.') text = (whole, some fraction) := by
    rw [h.text_eq]
    refine cutAt_append (fun c hc => decide_eq_false ?_) rfl
    rintro rfl
    cases h.before.digits '.' hc
  unfold Toml.decimalFloat?
  rw [splitSign_signText hdigit hhead]
  dsimp only
  rw [hscale]
  dsimp only
  rw [hpoint]
  simp only [Option.isNone_none, Option.isNone_some, Bool.and_false, Bool.false_eq_true, if_false,
    h.before.wholeDigits?, optionalPart?, digitRun?_of_digits h.after (.inr h.after_ne_nil), Option.bind_eq_bind,
    Option.bind_some, Int.zero_sub]

end Pointed

/-! ## Words for doubles -/

namespace Pointed

variable {text whole fraction : List Char} {value : ℚ}

theorem mem_signText (h : Pointed text whole fraction value) (negative : Bool) {c : Char}
    (hc : c ∈ signText negative ++ text) : c = '-' ∨ c = '.' ∨ Text.isAsciiDigit c = true := by
  obtain hc | hc := List.mem_append.mp hc
  · cases negative with
    | true => exact .inl (List.mem_singleton.mp hc)
    | false => cases hc
  · exact .inr (h.mem_cases hc)

/-- With a point in it a word is no integer. -/
theorem integer?_eq_none (h : Pointed text whole fraction value) (negative : Bool) :
    integer? (signText negative ++ text) = none := by
  have hmem := fun c => h.mem_signText negative (c := c)
  obtain ⟨c, hdigit, hhead⟩ := h.exists_head
  have hpoint : '.' ∈ text := by
    rw [h.text_eq]
    exact List.mem_append_right _ List.mem_cons_self
  have hdecimal : decimalInteger? (signText negative ++ text) = none := by
    unfold decimalInteger?
    rw [splitSign_signText hdigit hhead]
    dsimp only
    unfold Toml.wholeDigits?
    rw [digitRun?_eq_none hpoint (by decide) rfl]
    rfl
  generalize signText negative ++ text = s at hmem hdecimal
  unfold integer?
  split
  · obtain hx | hx | hx := hmem 'x' (List.mem_cons_of_mem _ List.mem_cons_self) <;> cases hx
  · obtain hx | hx | hx := hmem 'o' (List.mem_cons_of_mem _ List.mem_cons_self) <;> cases hx
  · obtain hx | hx | hx := hmem 'b' (List.mem_cons_of_mem _ List.mem_cons_self) <;> cases hx
  · exact hdecimal

theorem scalar? (h : Pointed text whole fraction value) (negative : Bool) {x : Float}
    (hx : Toml.decimalFloat? (signText negative ++ text) = some x) :
    scalar? (signText negative ++ text) = some (.number (.float x)) := by
  have hmem := fun c => h.mem_signText negative (c := c)
  unfold Toml.scalar?
  rw [if_neg, if_neg, h.integer?_eq_none negative, hx]
  · rfl
  · intro heq
    rw [heq] at hmem
    obtain hc | hc | hc := hmem 'f' List.mem_cons_self <;> cases hc
  · intro heq
    rw [heq] at hmem
    obtain hc | hc | hc := hmem 't' List.mem_cons_self <;> cases hc

end Pointed

open Float.Model Float.Model.UnpackedFloat Decimal

theorem neg_ofModel_pack {v : Binary} (hv : v.Canonical) (hpos : 0 < v.mantissa) (hmost : v.exponent ≤ 971) :
    -Float.ofModel (.pack (.finite .positive v.mantissa v.exponent hpos)) =
      .ofModel (.pack (.finite .negative v.mantissa v.exponent hpos)) := by
  change Float.ofModel (.pack (UnpackedFloat.neg (UnpackedFloat.unpack .binary64 (UnpackedFloat.pack .binary64
    (.finite .positive v.mantissa v.exponent hpos))))) = _
  rw [unpack_pack hv hpos hmost]
  rfl

theorem isInf_ofModel_pack {v : Binary} (hv : v.Canonical) (hpos : 0 < v.mantissa) (hmost : v.exponent ≤ 971)
    (sign : Sign) : (Float.ofModel (.pack (.finite sign v.mantissa v.exponent hpos))).isInf = false := by
  change UnpackedFloat.isInf (UnpackedFloat.unpack .binary64 (UnpackedFloat.pack .binary64
    (.finite sign v.mantissa v.exponent hpos))) = false
  rw [unpack_pack hv hpos hmost]
  rfl

/-- The shortest digits of a double are worth a number that is nearest to it. -/
theorem exists_nearest_shortest {v : Binary} (hv : v.Canonical) (hpos : 0 < v.mantissa) (hmost : v.exponent ≤ 971) :
    ∃ whole fraction value,
      Pointed (positionalText (Nat.toDigits 10 v.shortest.digits) v.shortest.exponent) whole fraction value ∧
      nearest (Text.decimalValue (whole ++ fraction)) (-(fraction.length : Int)) =
        .ofModel (.pack (.finite .positive v.mantissa v.exponent hpos)) := by
  obtain ⟨hdigits, htakes⟩ := Binary.shortest_spec hv hpos
  obtain ⟨whole, fraction, hpointed⟩ := exists_pointed (e := v.shortest.exponent) (.inl hdigits)
  have hworth : 0 < Text.decimalValue (whole ++ fraction) := by
    by_contra hzero
    have hvalue := hpointed.value_eq
    rw [Nat.eq_zero_of_not_pos hzero, Nat.cast_zero, zero_div] at hvalue
    exact absurd hvalue.symm (by positivity)
  exact ⟨whole, fraction, _, hpointed, nearest_eq hv hpos hmost hworth
    (List.length_pos_of_ne_nil hpointed.after_ne_nil) (hpointed.value_eq ▸ htakes)⟩

/-- A text that is one word and is read as a value. -/
structure Word (s : List Char) (value : Document) : Prop where
  chars : ∀ c ∈ s, isWordChar c = true
  read : Toml.scalar? s = some value

theorem isWordChar_of_digit {c : Char} (h : Text.isAsciiDigit c = true) : isWordChar c = true := by
  unfold isWordChar Char.isAlphanum
  rw [show c.isDigit = true from h, Bool.or_true, Bool.true_or, Bool.true_or, Bool.true_or, Bool.true_or, Bool.true_or]

theorem word_int {n : Nat} (h : n < 2 ^ 64) : Word (writeNumber (.int n)) (.number (.int n)) := by
  have htext : writeNumber (.int n) = Nat.toDigits 10 n := Nat.toList_repr
  rw [htext]
  exact ⟨fun c hc => isWordChar_of_digit (allDigits_toDigits n c hc), scalar?_toDigits h⟩

theorem Pointed.word {text whole fraction : List Char} {value : ℚ} (h : Pointed text whole fraction value)
    (negative : Bool) {x : Float} (hx : Toml.decimalFloat? (signText negative ++ text) = some x) :
    Word (signText negative ++ text) (.number (.float x)) := by
  refine ⟨fun c hc => ?_, h.scalar? negative hx⟩
  obtain rfl | rfl | hc := h.mem_signText negative hc
  · rfl
  · rfl
  · exact isWordChar_of_digit hc

/-- A double other than the one that is no number is one word, which is read as it was written. -/
theorem word_float {x : Float} (h : x.isNaN = false) : Word (writeNumber (.float x)) (.number (.float x)) := by
  have hx := ofModel_pack_unpack x
  have hparts := parts_eq x
  have hnan : x.toModel.unpack.isNaN = false := h
  change Word (floatLayout.write x) _
  unfold Layout.write
  cases hu : x.toModel.unpack with
  | notANumber =>
    rw [hu] at hnan
    cases hnan
  | infinity sign =>
    rw [hu] at hx hparts
    rw [hparts, ← hx]
    cases sign with
    | negative =>
      change Word ['-', 'i', 'n', 'f'] _
      exact ⟨List.all_eq_true.mp rfl, rfl⟩
    | positive =>
      change Word ['i', 'n', 'f'] _
      exact ⟨List.all_eq_true.mp rfl, rfl⟩
  | zero sign =>
    rw [hu] at hx hparts
    rw [hparts, ← hx]
    cases sign with
    | negative =>
      change Word ['-', '0', '.', '0'] _
      exact ⟨List.all_eq_true.mp rfl, rfl⟩
    | positive =>
      change Word ['0', '.', '0'] _
      exact ⟨List.all_eq_true.mp rfl, rfl⟩
  | finite sign m e hpos =>
    rw [hu] at hx hparts
    obtain ⟨hcanonical, hmost⟩ := canonical_of_parts hparts
    obtain ⟨whole, fraction, value, hpointed, hnearest⟩ := exists_nearest_shortest hcanonical hpos hmost
    have hread : Toml.decimalFloat? (signText (isNegative sign) ++ positionalText
        (Nat.toDigits 10 (Binary.shortest ⟨isNegative sign, m, e⟩).digits)
        (Binary.shortest ⟨isNegative sign, m, e⟩).exponent) = some x := by
      rw [hpointed.decimalFloat?, hnearest, isInf_ofModel_pack hcanonical hpos hmost, if_neg (by decide),
        neg_ofModel_pack hcanonical hpos hmost, ← hx]
      cases sign <;> rfl
    rw [hparts]
    dsimp only [partsOf, floatLayout]
    rw [Bool.or_true, if_pos rfl, Nat.toString_eq_repr, Nat.toList_repr]
    exact hpointed.word (isNegative sign) hread

end Overseer.Toml
