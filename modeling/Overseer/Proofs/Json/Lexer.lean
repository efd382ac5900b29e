import Overseer.Json.Lexer
import Overseer.Json.Printer
import Overseer.Proofs.Toml.Scalar

/-! # The tokens of a printed value

A printed value is read as one token after the other (`tokens_chars`). A string gives its characters back: each of them
is escaped for itself, and a control character by its number. A number has a sign, whole digits, and perhaps a fraction
and an exponent (`Numeral`); its end is seen at the character behind it, so what follows a value has to be nothing, white
space, or the end of the item that it stands in (`Parted`). A double that is infinite and negative is printed as no
number, so the numbers of a value are finite (`Finite`).
-/

namespace Overseer

/-- The number is an integer or a finite double. -/
def Number.Finite : Number → Prop
  | .int _ => True
  | .float x => x.isFinite = true

namespace Json

mutual

/-- All numbers in the value are finite. -/
def Finite : Json → Prop
  | .number n => n.Finite
  | .array items => FiniteItems items
  | .obj fields => FiniteFields fields
  | _ => True

def FiniteItems : List Json → Prop
  | [] => True
  | item :: rest => item.Finite ∧ FiniteItems rest

def FiniteFields : List (String × Json) → Prop
  | [] => True
  | (_, value) :: rest => value.Finite ∧ FiniteFields rest

end

theorem FiniteFields.of_mem {fields : List (String × Json)} (h : FiniteFields fields) :
    ∀ field ∈ fields, field.2.Finite := by
  induction fields with
  | nil => exact nofun
  | cons first fields ih =>
    intro field hmem
    rcases List.mem_cons.mp hmem with rfl | hmem
    · exact h.1
    · exact ih h.2 field hmem

/-! ## White space -/

theorem tokens_cons (c : Char) (rest : List Char) : tokens (c :: rest) = (begin c).1 ++ tokensFrom (begin c).2 rest := rfl

theorem tokens_spaces {spaces : List Char} (h : ∀ c ∈ spaces, isSpace c = true) (rest : List Char) :
    tokens (spaces ++ rest) = tokens rest := by
  induction spaces with
  | nil => rfl
  | cons c spaces ih =>
    have hbegin : begin c = ([], .ready) := if_pos (h c List.mem_cons_self)
    rw [List.cons_append, tokens_cons, hbegin]
    exact ih fun d hd => h d (List.mem_cons_of_mem c hd)

/-! ## Strings -/

/-- A string of which these characters have been read. -/
def StringState.read (text : List Char) : StringState := ⟨text, true, none, .none⟩

theorem hexDigit?_hexChar {n : Nat} (h : n < 16) : Text.hexDigit? (Text.hexChar n) = some n := by
  decide +revert

theorem hexDigits_control {n : Nat} (h : n < 32) :
    Text.hexDigits 4 n = ['0', '0', Text.hexChar (n / 16), Text.hexChar (n % 16)] := by
  decide +revert

theorem tokensFrom_string (s : StringState) (c : Char) (rest : List Char) :
    tokensFrom (.string s) (c :: rest) = (s.next c).1 ++ tokensFrom (s.next c).2 rest := rfl

theorem tokensFrom_hexDigit {c : Char} {digit count : Nat} (hc : Text.hexDigit? c = some digit) (hcount : count ≠ 3)
    (value : Nat) (text rest : List Char) :
    tokensFrom (.string ⟨text, true, none, .hex count value⟩) (c :: rest) =
      tokensFrom (.string ⟨text, true, none, .hex (count + 1) (value * 16 + digit)⟩) rest := by
  rw [tokensFrom_string, StringState.next]
  dsimp only
  rw [hc]
  dsimp only
  rw [if_neg hcount]
  rfl

theorem tokensFrom_lastHexDigit {c : Char} {digit value : Nat} (hc : Text.hexDigit? c = some digit)
    (hsmall : value * 16 + digit < 0xd800) (text rest : List Char) :
    tokensFrom (.string ⟨text, true, none, .hex 3 value⟩) (c :: rest) =
      tokensFrom (.string (.read (Char.ofNat (value * 16 + digit) :: text))) rest := by
  have hhigh : isHighSurrogate (value * 16 + digit) = false := by
    simp [isHighSurrogate, hsmall]
  have hlow : isLowSurrogate (value * 16 + digit) = false := by
    simp [isLowSurrogate, Nat.lt_trans hsmall (by decide : 0xd800 < 0xdc00)]
  rw [tokensFrom_string, StringState.next]
  dsimp only
  rw [hc]
  dsimp only
  rw [if_pos rfl, StringState.pushUnit]
  dsimp only
  rw [hhigh, hlow]
  rfl

theorem tokensFrom_hexDigits {n : Nat} (h : n < 32) (text rest : List Char) :
    tokensFrom (.string ⟨text, true, none, .hex 0 0⟩) (Text.hexDigits 4 n ++ rest) =
      tokensFrom (.string (.read (Char.ofNat n :: text))) rest := by
  have hzero : Text.hexDigit? '0' = some 0 := rfl
  have hvalue : (((0 * 16 + 0) * 16 + 0) * 16 + n / 16) * 16 + n % 16 = n := by omega
  rw [hexDigits_control h]
  simp only [List.cons_append, List.nil_append]
  rw [tokensFrom_hexDigit hzero (by decide), tokensFrom_hexDigit hzero (by decide),
    tokensFrom_hexDigit (hexDigit?_hexChar (by omega)) (by decide),
    tokensFrom_lastHexDigit (hexDigit?_hexChar (Nat.mod_lt _ (by decide))) (by omega), hvalue]

/-- The characters that have an escape of their own. -/
def namedEscapes : List Char := ['"', '\\', '\x08', '\x0c', '\n', '\r', '\t']

theorem escapeChar_of_notMem {c : Char} (h : c ∉ namedEscapes) :
    escapeChar c = if c.toNat < 0x20 then ['\\', 'u'] ++ Text.hexDigits 4 c.toNat else [c] := by
  simp only [namedEscapes, List.mem_cons, List.not_mem_nil, or_false, not_or] at h
  simp only [escapeChar, h, if_false]

theorem tokensFrom_escapeChar (c : Char) (text rest : List Char) :
    tokensFrom (.string (.read text)) (escapeChar c ++ rest) = tokensFrom (.string (.read (c :: text))) rest := by
  by_cases hnamed : c ∈ namedEscapes
  · simp only [namedEscapes, List.mem_cons, List.not_mem_nil, or_false] at hnamed
    rcases hnamed with rfl | rfl | rfl | rfl | rfl | rfl | rfl <;> rfl
  · rw [escapeChar_of_notMem hnamed]
    split
    · rename_i hcontrol
      exact (tokensFrom_hexDigits hcontrol text rest).trans (by rw [Char.ofNat_toNat])
    · rename_i hplain
      have hquote : c ≠ '"' := by
        rintro rfl
        exact hnamed (by decide)
      have hbackslash : c ≠ '\\' := by
        rintro rfl
        exact hnamed (by decide)
      have hnext : (StringState.read text).next c = ([], .string (.read (c :: text))) := by
        unfold StringState.next
        simp only [StringState.read, hquote, hbackslash, hplain, if_false]
        rfl
      rw [List.singleton_append, tokensFrom_string, hnext]
      rfl

theorem tokensFrom_escaped (s text rest : List Char) :
    tokensFrom (.string (.read text)) (s.flatMap escapeChar ++ rest) =
      tokensFrom (.string (.read (s.reverse ++ text))) rest := by
  induction s generalizing text with
  | nil => rfl
  | cons c s ih =>
    rw [List.flatMap_cons, List.append_assoc, tokensFrom_escapeChar, ih, List.reverse_cons, List.append_assoc]
    rfl

theorem tokens_quote (s : String) (rest : List Char) : tokens (quote s ++ rest) = .string (some s) :: tokens rest := by
  have hopen : tokens (quote s ++ rest) =
      tokensFrom (.string (.read [])) (s.toList.flatMap escapeChar ++ '"' :: rest) := by
    rw [quote, List.append_assoc]
    rfl
  have hclose : ((StringState.read s.toList.reverse).next '"') = ([.string (some s)], .ready) := by
    unfold StringState.next StringState.token
    simp [StringState.read, StringState.closePair]
  rw [hopen, tokensFrom_escaped, List.append_nil, tokensFrom_string, hclose]
  rfl

/-! ## Numbers -/

/-- What may stand behind a value: nothing, white space, or the end of the item in which it stands. -/
def Parted (rest : List Char) : Prop := ∀ c ∈ rest.head?, isSpace c = true ∨ c = ',' ∨ c = ']' ∨ c = '\x7d'

theorem tokensFrom_complete {n : NumberState} (h : n.complete = true) (hrest : Parted rest) :
    tokensFrom (.number n) rest = .number n.value :: tokens rest := by
  cases rest with
  | nil => exact if_pos h
  | cons c rest =>
    have hnext : n.next c = none ∧ c.isDigit = false := by
      have hc : c = ' ' ∨ c = '\n' ∨ c = '\r' ∨ c = '\t' ∨ c = ',' ∨ c = ']' ∨ c = '\x7d' := by
        simpa [isSpace, or_assoc] using hrest c rfl
      obtain ⟨stage, negative, scaled, exponentNegative, exponent⟩ := n
      rcases hc with rfl | rfl | rfl | rfl | rfl | rfl | rfl <;> exact ⟨by cases stage <;> rfl, rfl⟩
    have hchar : nextChar (.number n) c = (.number n.value :: (begin c).1, (begin c).2) := by
      unfold nextChar
      dsimp only
      rw [hnext.1]
      dsimp only
      rw [if_neg (fun hdigit => absurd (hnext.2.symm.trans hdigit.2) (by decide)), if_pos h]
    change (nextChar (.number n) c).1 ++ tokensFrom (nextChar (.number n) c).2 rest = _
    rw [hchar]
    rfl

theorem tokensFrom_number {s : List Char} {n m : NumberState} (h : s.foldlM NumberState.next n = some m)
    (rest : List Char) : tokensFrom (.number n) (s ++ rest) = tokensFrom (.number m) rest := by
  induction s generalizing n with
  | nil =>
    obtain rfl : n = m := Option.some.inj h
    rfl
  | cons c s ih =>
    rw [List.foldlM_cons] at h
    obtain ⟨k, hk, hm⟩ := Option.bind_eq_some_iff.mp h
    have hchar : nextChar (.number n) c = ([], .number k) := by
      unfold nextChar
      dsimp only
      rw [hk]
    change (nextChar (.number n) c).1 ++ tokensFrom (nextChar (.number n) c).2 (s ++ rest) = _
    rw [hchar]
    exact ih hm

/-- From one stage of a number such characters lead to another. -/
def Leads (stage : NumberStage) (s : List Char) (stage' : NumberStage) : Prop :=
  ∀ n : NumberState, n.stage = stage → ∃ m, s.foldlM NumberState.next n = some m ∧ m.stage = stage'

namespace Leads

variable {stage stage' stage'' : NumberStage} {s t : List Char} {c : Char}

theorem nil (stage : NumberStage) : Leads stage [] stage := fun n h => ⟨n, rfl, h⟩

theorem cons (h : ∀ n : NumberState, n.stage = stage → ∃ m, n.next c = some m ∧ m.stage = stage')
    (hs : Leads stage' s stage'') : Leads stage (c :: s) stage'' := by
  intro n hn
  obtain ⟨k, hk, hstage⟩ := h n hn
  obtain ⟨m, hm, hstage'⟩ := hs k hstage
  refine ⟨m, ?_, hstage'⟩
  rw [List.foldlM_cons, hk]
  exact hm

theorem append (hs : Leads stage s stage') (ht : Leads stage' t stage'') : Leads stage (s ++ t) stage'' := by
  intro n hn
  obtain ⟨k, hk, hstage⟩ := hs n hn
  obtain ⟨m, hm, hstage'⟩ := ht k hstage
  refine ⟨m, ?_, hstage'⟩
  rw [List.foldlM_append, hk]
  exact hm

end Leads

/-- A digit leads from each of these stages to the other. -/
theorem next_digit {stage stage' : NumberStage} {c : Char} (hc : Text.isAsciiDigit c = true)
    (h : (stage, stage') ∈ [(NumberStage.integer, NumberStage.integer), (.point, .fraction), (.fraction, .fraction),
      (.exponentSign, .exponentDigits), (.exponentDigits, .exponentDigits)]) (n : NumberState) (hn : n.stage = stage) :
    ∃ m, n.next c = some m ∧ m.stage = stage' := by
  simp only [List.mem_cons, Prod.mk.injEq, List.not_mem_nil, or_false] at h
  obtain ⟨stage, negative, scaled, exponentNegative, exponent⟩ := n
  rcases h with ⟨rfl, rfl⟩ | ⟨rfl, rfl⟩ | ⟨rfl, rfl⟩ | ⟨rfl, rfl⟩ | ⟨rfl, rfl⟩ <;>
    · obtain rfl := hn
      exact ⟨_, if_pos hc, rfl⟩

theorem leads_digits {stage : NumberStage} (h : stage = .integer ∨ stage = .fraction ∨ stage = .exponentDigits)
    {s : List Char} (hs : Toml.AllDigits s) : Leads stage s stage := by
  induction s with
  | nil => exact .nil stage
  | cons c s ih =>
    refine .cons (next_digit (hs c List.mem_cons_self) ?_) (ih fun d hd => hs d (List.mem_cons_of_mem c hd))
    rcases h with rfl | rfl | rfl <;> decide

/-- The parts of a number as it is written. -/
structure Numeral (whole fraction exponent : List Char) : Prop where
  whole : Toml.Whole whole
  fraction : fraction = [] ∨ ∃ digits, fraction = '.' :: digits ∧ digits ≠ [] ∧ Toml.AllDigits digits
  exponent : exponent = [] ∨
    ∃ sign digits, exponent = 'e' :: sign :: digits ∧ (sign = '+' ∨ sign = '-') ∧ digits ≠ [] ∧ Toml.AllDigits digits

theorem begin_digit {c : Char} (hc : Text.isAsciiDigit c = true) (hzero : c ≠ '0') :
    begin c = ([], startNumber .integer false (some (Text.digitValue c))) := by
  have hne : ∀ d, Text.isAsciiDigit d = false → c ≠ d := by
    rintro d hd rfl
    exact absurd (hd.symm.trans hc) (by decide)
  have hspace : isSpace c = false := by
    simp [isSpace, hne ' ' rfl, hne '\n' rfl, hne '\r' rfl, hne '\t' rfl]
  have hdigit : c.isDigit = true := hc
  unfold begin
  simp only [hspace, hdigit, hzero, hne '\x7b' rfl, hne '\x7d' rfl, hne '[' rfl, hne ']' rfl, hne ',' rfl, hne ':' rfl,
    hne '"' rfl, hne '-' rfl, Bool.false_eq_true, if_false, if_true]

theorem leads_whole {whole : List Char} (h : Toml.Whole whole) :
    ∃ stage, (stage = .zero ∨ stage = .integer) ∧ Leads .sign whole stage := by
  obtain ⟨c, digits, rfl⟩ := List.exists_cons_of_ne_nil h.ne_nil
  have hdigits : Toml.AllDigits digits := fun d hd => h.digits d (List.mem_cons_of_mem c hd)
  by_cases hzero : c = '0'
  · rw [h.lead (congrArg some hzero)]
    refine ⟨.zero, .inl rfl, .cons ?_ (.nil .zero)⟩
    rintro ⟨stage, negative, scaled, exponentNegative, exponent⟩ rfl
    exact ⟨_, rfl, rfl⟩
  · refine ⟨.integer, .inr rfl, .cons ?_ (leads_digits (.inl rfl) hdigits)⟩
    rintro ⟨stage, negative, scaled, exponentNegative, exponent⟩ rfl
    exact ⟨_, (if_neg hzero).trans (if_pos (h.digits c List.mem_cons_self)), rfl⟩

/-- With its sign and its whole digits a number is under way. -/
theorem exists_whole {whole : List Char} (h : Toml.Whole whole) (negative : Bool) : ∃ n : NumberState,
    (n.stage = .zero ∨ n.stage = .integer) ∧
      ∀ rest, tokens (Toml.signText negative ++ whole ++ rest) = tokensFrom (.number n) rest := by
  cases negative with
  | true =>
    obtain ⟨stage, hstage, hleads⟩ := leads_whole h
    obtain ⟨n, hn, rfl⟩ := hleads ⟨.sign, true, .zero, false, 0⟩ rfl
    refine ⟨n, hstage, fun rest => Eq.trans ?_ (tokensFrom_number hn rest)⟩
    rfl
  | false =>
    obtain ⟨c, digits, rfl⟩ := List.exists_cons_of_ne_nil h.ne_nil
    have hdigits : Toml.AllDigits digits := fun d hd => h.digits d (List.mem_cons_of_mem c hd)
    by_cases hzero : c = '0'
    · rw [h.lead (congrArg some hzero)]
      exact ⟨_, .inl rfl, fun rest => rfl⟩
    · obtain ⟨n, hn, hstage⟩ := leads_digits (.inl rfl) hdigits
        ⟨.integer, false, Decimal.Scaled.zero.integerDigit (Text.digitValue c), false, 0⟩ rfl
      refine ⟨n, .inr hstage, fun rest => Eq.trans ?_ (tokensFrom_number hn rest)⟩
      change (begin c).1 ++ tokensFrom (begin c).2 (digits ++ rest) = _
      rw [begin_digit (h.digits c List.mem_cons_self) hzero]
      rfl

namespace Numeral

variable {whole fraction exponent : List Char}

theorem leads_fraction (h : Numeral whole fraction exponent) {stage : NumberStage}
    (hstage : stage = .zero ∨ stage = .integer) :
    ∃ stage', (stage' = .zero ∨ stage' = .integer ∨ stage' = .fraction) ∧ Leads stage fraction stage' := by
  rcases h.fraction with hnone | ⟨digits, hfraction, hne, hdigits⟩
  · rw [hnone]
    exact ⟨stage, hstage.imp_right .inl, .nil stage⟩
  · obtain ⟨c, digits, rfl⟩ := List.exists_cons_of_ne_nil hne
    have hpoint : Leads stage ['.'] .point := by
      refine .cons ?_ (.nil .point)
      rintro ⟨stage, negative, scaled, exponentNegative, exponent⟩ rfl
      rcases hstage with rfl | rfl
      · exact ⟨_, rfl, rfl⟩
      · exact ⟨_, rfl, rfl⟩
    have hafter : Leads .point (c :: digits) .fraction :=
      .cons (next_digit (hdigits c List.mem_cons_self) (by decide))
        (leads_digits (.inr (.inl rfl)) fun d hd => hdigits d (List.mem_cons_of_mem c hd))
    rw [hfraction]
    exact ⟨.fraction, .inr (.inr rfl), hpoint.append hafter⟩

theorem leads_exponent (h : Numeral whole fraction exponent) {stage : NumberStage}
    (hstage : stage = .zero ∨ stage = .integer ∨ stage = .fraction) :
    ∃ stage', (stage' = .zero ∨ stage' = .integer ∨ stage' = .fraction ∨ stage' = .exponentDigits) ∧
      Leads stage exponent stage' := by
  rcases h.exponent with hnone | ⟨sign, digits, hexponent, hsign, hne, hdigits⟩
  · rw [hnone]
    exact ⟨stage, hstage.imp_right (Or.imp_right .inl), .nil stage⟩
  · obtain ⟨c, digits, rfl⟩ := List.exists_cons_of_ne_nil hne
    have hletter : Leads stage ['e'] .exponent := by
      refine .cons ?_ (.nil .exponent)
      rintro ⟨stage, negative, scaled, exponentNegative, exponent⟩ rfl
      rcases hstage with rfl | rfl | rfl
      · exact ⟨_, rfl, rfl⟩
      · exact ⟨_, rfl, rfl⟩
      · exact ⟨_, rfl, rfl⟩
    have hsigned : Leads .exponent [sign] .exponentSign := by
      refine .cons ?_ (.nil .exponentSign)
      rintro ⟨stage, negative, scaled, exponentNegative, exponent⟩ rfl
      rcases hsign with rfl | rfl
      · exact ⟨_, rfl, rfl⟩
      · exact ⟨_, rfl, rfl⟩
    have hafter : Leads .exponentSign (c :: digits) .exponentDigits :=
      .cons (next_digit (hdigits c List.mem_cons_self) (by decide))
        (leads_digits (.inr (.inr rfl)) fun d hd => hdigits d (List.mem_cons_of_mem c hd))
    rw [hexponent]
    exact ⟨.exponentDigits, .inr (.inr (.inr rfl)), (hletter.append hsigned).append hafter⟩

theorem exists_token (h : Numeral whole fraction exponent) (negative : Bool) : ∃ value, ∀ rest, Parted rest →
    tokens (Toml.signText negative ++ whole ++ fraction ++ exponent ++ rest) = .number value :: tokens rest := by
  obtain ⟨n, hstage, hstart⟩ := exists_whole h.whole negative
  obtain ⟨stage, hstage, hfraction⟩ := h.leads_fraction hstage
  obtain ⟨stage', hstage', hexponent⟩ := h.leads_exponent hstage
  obtain ⟨m, hm, rfl⟩ := hfraction.append hexponent n rfl
  have hcomplete : m.complete = true := by
    unfold NumberState.complete
    rcases hstage' with heq | heq | heq | heq <;> rw [heq]
  refine ⟨m.value, fun rest hrest => ?_⟩
  calc tokens (Toml.signText negative ++ whole ++ fraction ++ exponent ++ rest)
      = tokens (Toml.signText negative ++ whole ++ (fraction ++ exponent ++ rest)) := by simp only [List.append_assoc]
    _ = tokensFrom (.number n) (fraction ++ exponent ++ rest) := hstart _
    _ = tokensFrom (.number m) rest := tokensFrom_number hm rest
    _ = .number m.value :: tokens rest := tokensFrom_complete hcomplete hrest

end Numeral

/-! ## How numbers are printed -/

theorem numeral_int (n : Int) : ∃ negative whole,
    Numeral whole [] [] ∧ numberText (.int n) = Toml.signText negative ++ whole ++ [] ++ [] := by
  cases n with
  | ofNat k =>
    refine ⟨false, Nat.toDigits 10 k, ⟨Toml.whole_toDigits k, .inl rfl, .inl rfl⟩, ?_⟩
    rw [List.append_nil, List.append_nil]
    exact Nat.toList_repr
  | negSucc k =>
    refine ⟨true, Nat.toDigits 10 (k + 1), ⟨Toml.whole_toDigits (k + 1), .inl rfl, .inl rfl⟩, ?_⟩
    rw [List.append_nil, List.append_nil]
    change ("-" ++ Nat.repr (k + 1)).toList = _
    rw [String.toList_append, Nat.toList_repr]
    rfl

theorem numeral_positional {d : Nat} {e : Int} (h : 0 < d ∨ e = 0) : ∃ whole fraction,
    Numeral whole fraction [] ∧ Decimal.positionalText (Nat.toDigits 10 d) e = whole ++ fraction ++ [] := by
  obtain ⟨whole, fraction, hpointed⟩ := Toml.exists_pointed h
  refine ⟨whole, '.' :: fraction, ⟨hpointed.before, .inr ⟨fraction, rfl, hpointed.after_ne_nil, hpointed.after⟩, .inl rfl⟩, ?_⟩
  rw [hpointed.text_eq, List.append_nil]

theorem whole_singleton {c : Char} (h : Text.isAsciiDigit c = true) : Toml.Whole [c] where
  digits _ hd := List.mem_singleton.mp hd ▸ h
  ne_nil := List.cons_ne_nil c []
  lead hhead := congrArg (· :: []) (Option.some.inj hhead)

theorem numeral_exponent (d : Nat) (e : Int) : ∃ whole fraction exponent,
    Numeral whole fraction exponent ∧ Decimal.exponentText (Nat.toDigits 10 d) e = whole ++ fraction ++ exponent := by
  have hwhole := Toml.whole_toDigits d
  generalize Nat.toDigits 10 d = digits at hwhole ⊢
  obtain ⟨c, rest, rfl⟩ := List.exists_cons_of_ne_nil hwhole.ne_nil
  have hrest : Toml.AllDigits rest := fun x hx => hwhole.digits x (List.mem_cons_of_mem c hx)
  unfold Decimal.exponentText
  dsimp only
  generalize ((c :: rest).length : Int) + e - 1 = lead
  have hexponent : ∃ sign digits, 'e' :: (if 0 ≤ lead then '+' else '-') :: (toString lead.natAbs).toList =
      'e' :: sign :: digits ∧ (sign = '+' ∨ sign = '-') ∧ digits ≠ [] ∧ Toml.AllDigits digits := by
    refine ⟨_, _, rfl, (ite_eq_or_eq _ _ _), ?_⟩
    rw [Nat.toString_eq_repr, Nat.toList_repr]
    exact ⟨Nat.toDigits_ne_nil, Toml.allDigits_toDigits _⟩
  split
  · exact ⟨c :: rest, [], _, ⟨hwhole, .inl rfl, .inr hexponent⟩, by rw [List.append_nil]⟩
  · rename_i hlong
    have hne : rest ≠ [] := by
      rintro rfl
      exact hlong (Nat.le_refl 1)
    exact ⟨[c], '.' :: rest, _, ⟨whole_singleton (hwhole.digits c List.mem_cons_self), .inr ⟨rest, rfl, hne, hrest⟩,
      .inr hexponent⟩, rfl⟩

theorem exists_parts {x : Float} (h : x.isFinite = true) : ∃ value, Decimal.parts x = .finite value := by
  have hfinite : x.toModel.unpack.isFinite = true := h
  rw [Decimal.parts_eq x]
  cases hu : x.toModel.unpack with
  | notANumber =>
    rw [hu] at hfinite
    cases hfinite
  | infinity sign =>
    rw [hu] at hfinite
    cases hfinite
  | zero sign => exact ⟨_, rfl⟩
  | finite sign m e hpos => exact ⟨_, rfl⟩

theorem numeral_float {x : Float} (h : x.isFinite = true) : ∃ negative whole fraction exponent,
    Numeral whole fraction exponent ∧
      numberText (.float x) = Toml.signText negative ++ whole ++ fraction ++ exponent := by
  obtain ⟨value, hparts⟩ := exists_parts h
  have hshortest : 0 < value.shortest.digits ∨ value.shortest.exponent = 0 := by
    by_cases hzero : value.mantissa = 0
    · refine .inr ?_
      rw [Decimal.Binary.shortest, if_pos hzero]
    · exact .inl (Decimal.Binary.shortest_spec (Decimal.canonical_of_parts hparts).1 (Nat.pos_of_ne_zero hzero)).1
  have hdigits : (toString value.shortest.digits).toList = Nat.toDigits 10 value.shortest.digits := by
    rw [Nat.toString_eq_repr, Nat.toList_repr]
  obtain ⟨plain, hwrite⟩ : ∃ plain : Bool, numberText (.float x) = Toml.signText value.negative ++
      if plain then Decimal.positionalText (Nat.toDigits 10 value.shortest.digits) value.shortest.exponent
      else Decimal.exponentText (Nat.toDigits 10 value.shortest.digits) value.shortest.exponent := by
    change ∃ plain : Bool, floatLayout.write x = _
    unfold Decimal.Layout.write
    rw [hparts]
    dsimp only
    rw [hdigits]
    exact ⟨_, rfl⟩
  cases plain with
  | true =>
    obtain ⟨whole, fraction, hnumeral, htext⟩ := numeral_positional hshortest
    refine ⟨value.negative, whole, fraction, [], hnumeral, ?_⟩
    rw [hwrite, if_pos rfl, htext, ← List.append_assoc, ← List.append_assoc]
  | false =>
    obtain ⟨whole, fraction, exponent, hnumeral, htext⟩ := numeral_exponent value.shortest.digits value.shortest.exponent
    refine ⟨value.negative, whole, fraction, exponent, hnumeral, ?_⟩
    rw [hwrite, if_neg Bool.false_ne_true, htext, ← List.append_assoc, ← List.append_assoc]

theorem exists_token_number {n : Number} (h : n.Finite) : ∃ value, ∀ rest, Parted rest →
    tokens (numberText n ++ rest) = .number value :: tokens rest := by
  cases n with
  | int n =>
    obtain ⟨negative, whole, hnumeral, htext⟩ := numeral_int n
    rw [htext]
    exact hnumeral.exists_token negative
  | float x =>
    obtain ⟨negative, whole, fraction, exponent, hnumeral, htext⟩ := numeral_float h
    rw [htext]
    exact hnumeral.exists_token negative

/-! ## Values -/

/-- The token of a number as it is printed. -/
def numberToken (n : Number) : Token := (tokens (numberText n)).headD .invalid

theorem tokens_numberText {n : Number} (h : n.Finite) {rest : List Char} (hrest : Parted rest) :
    tokens (numberText n ++ rest) = numberToken n :: tokens rest := by
  obtain ⟨value, hvalue⟩ := exists_token_number h
  have hself := hvalue [] nofun
  rw [List.append_nil] at hself
  rw [hvalue rest hrest, numberToken, hself]
  rfl

theorem exists_numberToken {n : Number} (h : n.Finite) : ∃ value, numberToken n = .number value := by
  obtain ⟨value, hvalue⟩ := exists_token_number h
  have hself := hvalue [] nofun
  rw [List.append_nil] at hself
  exact ⟨value, by rw [numberToken, hself]; rfl⟩

mutual

/-- The tokens of a value. -/
def lexed : Json → List Token
  | .null => [.null]
  | .bool b => [.bool b]
  | .number n => [numberToken n]
  | .string s => [.string (some s)]
  | .array items => .openArray :: [Token.comma].intercalate (lexedItems items) ++ [.closeArray]
  | .obj fields => .openObject :: [Token.comma].intercalate (lexedFields fields) ++ [.closeObject]

def lexedItems : List Json → List (List Token)
  | [] => []
  | item :: rest => lexed item :: lexedItems rest

def lexedFields : List (String × Json) → List (List Token)
  | [] => []
  | (key, value) :: rest => (.string (some key) :: .colon :: lexed value) :: lexedFields rest

end

/-- In front of what may stand behind a value, the text gives these tokens. -/
def Gives (text : List Char) (given : List Token) : Prop :=
  ∀ rest, Parted rest → tokens (text ++ rest) = given ++ tokens rest

theorem parted_cons {c : Char} (h : c = ',' ∨ c = ']' ∨ c = '\x7d') (rest : List Char) : Parted (c :: rest) := by
  rintro d hd
  obtain rfl := Option.some.inj hd
  exact .inr h

theorem gives_joined {parts : List (List Char)} {given : List (List Token)} (h : List.Forall₂ Gives parts given) :
    Gives (joined parts) ([Token.comma].intercalate given) := by
  unfold joined
  induction h with
  | nil => exact fun rest _ => rfl
  | @cons part gave parts given hpart hparts ih =>
    cases hparts with
    | nil =>
      rw [List.intercalate_singleton, List.intercalate_singleton]
      exact hpart
    | cons hsecond hthird =>
      intro rest hrest
      rw [List.intercalate_cons_cons, List.intercalate_cons_cons, List.append_assoc, List.append_assoc,
        List.append_assoc, List.append_assoc]
      exact (hpart _ (parted_cons (.inl rfl) _)).trans (congrArg (gave ++ .comma :: ·) (ih rest hrest))

mutual

theorem gives_chars (v : Json) (h : v.Finite) : Gives v.chars (lexed v) := by
  intro rest hrest
  cases v with
  | null => rfl
  | bool b =>
    cases b with
    | true => rfl
    | false => rfl
  | number n => exact tokens_numberText h hrest
  | string s => exact tokens_quote s rest
  | array items =>
    have hitems := gives_joined (gives_items items h) (']' :: rest) (parted_cons (.inr (.inl rfl)) rest)
    rw [chars, lexed, List.append_assoc, List.append_assoc]
    exact congrArg (Token.openArray :: ·) hitems
  | obj fields =>
    have hfields := gives_joined (gives_fields fields h) ('\x7d' :: rest) (parted_cons (.inr (.inr rfl)) rest)
    rw [chars, lexed, List.append_assoc, List.append_assoc]
    exact congrArg (Token.openObject :: ·) hfields

theorem gives_items (items : List Json) (h : FiniteItems items) :
    List.Forall₂ Gives (charsOfItems items) (lexedItems items) := by
  cases items with
  | nil => exact .nil
  | cons item items => exact .cons (gives_chars item h.1) (gives_items items h.2)

theorem gives_fields (fields : List (String × Json)) (h : FiniteFields fields) :
    List.Forall₂ Gives (charsOfFields fields) (lexedFields fields) := by
  cases fields with
  | nil => exact .nil
  | cons field fields =>
    refine .cons (fun rest hrest => ?_) (gives_fields fields h.2)
    rw [List.append_assoc, tokens_quote]
    exact congrArg (.string (some field.1) :: Token.colon :: ·) (gives_chars field.2 h.1 rest hrest)

end

/-- A printed value with white space around it is read as the tokens of the value. -/
theorem tokens_chars {v : Json} (h : v.Finite) {before after : List Char} (hbefore : ∀ c ∈ before, isSpace c = true)
    (hafter : ∀ c ∈ after, isSpace c = true) : tokens (before ++ v.chars ++ after) = lexed v := by
  have hparted : Parted after := fun c hc => .inl (hafter c (List.mem_of_mem_head? hc))
  have hend := tokens_spaces hafter []
  rw [List.append_nil] at hend
  rw [List.append_assoc, tokens_spaces hbefore, gives_chars v h after hparted, hend]
  exact List.append_nil _

end Json

end Overseer
