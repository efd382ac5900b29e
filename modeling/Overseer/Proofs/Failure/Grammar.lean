import Overseer.Failure.Noise
import Overseer.Proofs.Text.Word
import Mathlib.Data.List.TakeWhile

/-! # The grammar of noise

What each pattern matches, told as texts: a pattern takes a text of its grammar from the start and leaves what follows.
The grammars of dates, times of day and units have one length each, so there is nothing to choose. Digits run as far as
they go, and in a number with a unit the end of the digits is always seen, because what comes next is no digit.
-/

namespace Overseer.Noise

open Text (isBlank isWord)

/-! ## Matching characters -/

section Matching

variable {p : Char → Bool} {s r : List Char} {n : Nat}

theorem one_eq_some_iff : one p s = some r ↔ ∃ c, p c = true ∧ s = c :: r := by
  cases s with
  | nil => simp [one]
  | cons c s =>
    rw [one]
    split
    · rename_i h
      simp only [Option.some.injEq, List.cons.injEq]
      exact ⟨fun he => ⟨c, h, rfl, he⟩, fun ⟨_, _, _, he⟩ => he⟩
    · rename_i h
      simp only [reduceCtorEq, List.cons.injEq, false_iff]
      rintro ⟨d, hd, rfl, -⟩
      exact h hd

theorem char_eq_some_iff {c : Char} : char c s = some r ↔ s = c :: r := by
  rw [char, one_eq_some_iff]
  simp

theorem times_eq_some_iff :
    times p n s = some r ↔ ∃ a : List Char, a.length = n ∧ (∀ c ∈ a, p c = true) ∧ s = a ++ r := by
  induction n generalizing s with
  | zero =>
    rw [times, Option.some.injEq]
    constructor
    · rintro rfl
      exact ⟨[], rfl, List.forall_mem_nil _, rfl⟩
    · rintro ⟨a, ha, -, rfl⟩
      rw [List.length_eq_zero_iff.mp ha]
      rfl
  | succ n ih =>
    rw [times, Option.bind_eq_some_iff]
    constructor
    · rintro ⟨t, hone, htimes⟩
      obtain ⟨c, hc, rfl⟩ := one_eq_some_iff.mp hone
      obtain ⟨a, ha, hall, rfl⟩ := ih.mp htimes
      exact ⟨c :: a, congrArg (· + 1) ha, List.forall_mem_cons.mpr ⟨hc, hall⟩, rfl⟩
    · rintro ⟨a, ha, hall, rfl⟩
      cases a with
      | nil => cases ha
      | cons c a =>
        obtain ⟨hc, hall⟩ := List.forall_mem_cons.mp hall
        exact ⟨a ++ r, one_eq_some_iff.mpr ⟨c, hc, rfl⟩, ih.mpr ⟨a, Nat.succ.inj ha, hall, rfl⟩⟩

/-- What follows a run does not begin with one more character of it. -/
def Ends (p : Char → Bool) (r : List Char) : Prop := ∀ c ∈ r.head?, p c = false

theorem ends_nil (p : Char → Bool) : Ends p [] := fun _ h => nomatch h

theorem ends_cons {c : Char} (h : p c = false) (r : List Char) : Ends p (c :: r) := fun d hd => by
  obtain rfl := Option.some.inj hd
  exact h

theorem Ends.head {c : Char} (h : Ends p (c :: r)) : p c = false := h c rfl

theorem dropWhile_of_ends (h : Ends p r) : r.dropWhile p = r := by
  cases r with
  | nil => rfl
  | cons c r => exact List.dropWhile_cons_of_neg (by rw [h.head]; exact Bool.false_ne_true)

theorem ends_dropWhile (p : Char → Bool) (s : List Char) : Ends p (s.dropWhile p) := by
  induction s with
  | nil => exact ends_nil p
  | cons c s ih =>
    cases hc : p c with
    | true => rw [List.dropWhile_cons_of_pos hc]; exact ih
    | false =>
      rw [List.dropWhile_cons_of_neg (by rw [hc]; exact Bool.false_ne_true)]
      exact ends_cons hc s

theorem run_eq_some_iff : run p n s = some r ↔
    ∃ a : List Char, n ≤ a.length ∧ (∀ c ∈ a, p c = true) ∧ Ends p r ∧ s = a ++ r := by
  rw [run, Option.map_eq_some_iff]
  constructor
  · rintro ⟨t, htimes, rfl⟩
    obtain ⟨a, ha, hall, rfl⟩ := times_eq_some_iff.mp htimes
    refine ⟨a ++ t.takeWhile p, ?_, ?_, ends_dropWhile p t, ?_⟩
    · rw [List.length_append, ha]
      exact Nat.le_add_right _ _
    · intro c hc
      rcases List.mem_append.mp hc with hc | hc
      · exact hall c hc
      · exact List.mem_takeWhile_imp hc
    · rw [List.append_assoc, List.takeWhile_append_dropWhile]
  · rintro ⟨a, ha, hall, hends, rfl⟩
    refine ⟨a.drop n ++ r, times_eq_some_iff.mpr ⟨a.take n, ?_, ?_, ?_⟩, ?_⟩
    · rw [List.length_take, Nat.min_eq_left ha]
    · exact fun c hc => hall c (List.mem_of_mem_take hc)
    · rw [← List.append_assoc, List.take_append_drop]
    · rw [List.dropWhile_append_of_pos fun c hc => hall c (List.mem_of_mem_drop hc), dropWhile_of_ends hends]

/-- Nothing follows, or white space. -/
def Open (r : List Char) : Prop := ∀ c ∈ r.head?, isBlank c = true

theorem open_iff : Open r ↔ r.head?.all isBlank = true := (Option.all_eq_true ..).symm

instance (r : List Char) : Decidable (Open r) := decidable_of_iff _ open_iff.symm

theorem Open.ends (h : Open r) (hp : ∀ c, isBlank c = true → p c = false) : Ends p r := fun c hc => hp c (h c hc)

end Matching

theorem digit_of_isBlank {c : Char} (h : isBlank c = true) : digit c = false := Text.isDecimal_of_isBlank h

theorem not_isBlank_of_digit {c : Char} (h : digit c = true) : isBlank c = false := Text.not_isBlank_of_isDecimal h

theorem isWord_of_digit {c : Char} (h : digit c = true) : isWord c = true := Text.isWord_of_isDecimal h

theorem ends_digit_of_word {s : List Char} (h : s.head?.any isWord = false) : Ends digit s := by
  cases s with
  | nil => exact ends_nil digit
  | cons c s =>
    refine ends_cons ?_ s
    rw [Bool.eq_false_iff]
    intro hc
    have hword : isWord c = false := h
    rw [isWord_of_digit hc] at hword
    cases hword

theorem isHexDigit_of_isBlank {c : Char} (h : isBlank c = true) : Text.isHexDigit c = false := by
  have hcodes : ∀ n ∈ Text.blankCodes, Text.isHexDigit (Char.ofNat n) = false := by decide +kernel
  have hc := hcodes _ (Text.mem_blankCodes h)
  rwa [Char.ofNat_toNat] at hc

/-! ## Texts of the grammar -/

def Digits (n : Nat) (s : List Char) : Prop := s.length = n ∧ ∀ c ∈ s, digit c = true

def IsDate (s : List Char) : Prop :=
  ∃ year month day, Digits 4 year ∧ Digits 2 month ∧ Digits 2 day ∧ s = year ++ '-' :: (month ++ '-' :: day)

def IsClock (s : List Char) : Prop :=
  ∃ hours minutes seconds, Digits 2 hours ∧ Digits 2 minutes ∧ Digits 2 seconds ∧
    s = hours ++ ':' :: (minutes ++ ':' :: seconds)

/-- Three numbers with the same mark between them: a date is one, and so is a time of day. -/
def IsTriple (n : Nat) (mark : Char) (s : List Char) : Prop :=
  ∃ x y z, Digits n x ∧ Digits 2 y ∧ Digits 2 z ∧ s = x ++ mark :: (y ++ mark :: z)

theorem isDate_iff {s : List Char} : IsDate s ↔ IsTriple 4 '-' s := Iff.rfl

theorem isClock_iff {s : List Char} : IsClock s ↔ IsTriple 2 ':' s := Iff.rfl

/-- Nothing, or a point and digits. -/
def IsFraction (s : List Char) : Prop :=
  s = [] ∨ ∃ digits, digits ≠ [] ∧ (∀ c ∈ digits, digit c = true) ∧ s = '.' :: digits

/-- Nothing, `Z`, or a sign and hours and minutes. -/
def IsZone (s : List Char) : Prop :=
  s = [] ∨ s = ['Z'] ∨ ∃ sign hours minutes, (sign = '+' ∨ sign = '-') ∧ Digits 2 hours ∧ Digits 2 minutes ∧
    (s = sign :: (hours ++ minutes) ∨ s = sign :: (hours ++ ':' :: minutes))

def IsStamp (s : List Char) : Prop :=
  ∃ date mark clock, IsDate date ∧ (mark = 'T' ∨ mark = ' ') ∧ IsClock clock ∧ s = date ++ mark :: clock

def IsUnit (s : List Char) : Prop :=
  s = ['m', 's'] ∨ s = ['u', 's'] ∨ s = ['µ', 's'] ∨ s = ['n', 's'] ∨ s = ['s']

/-- Nothing, or one white space character. -/
def IsGap (s : List Char) : Prop := s = [] ∨ ∃ c, isBlank c = true ∧ s = [c]

/-- A number and a unit. -/
def IsSpan (s : List Char) : Prop :=
  ∃ digits fraction gap unit, digits ≠ [] ∧ (∀ c ∈ digits, digit c = true) ∧ IsFraction fraction ∧ IsGap gap ∧
    IsUnit unit ∧ s = digits ++ (fraction ++ (gap ++ unit))

def IsAddress (s : List Char) : Prop :=
  ∃ digits, digits ≠ [] ∧ (∀ c ∈ digits, Text.isHexDigit c = true) ∧ s = '0' :: 'x' :: digits

def IsLongNumber (s : List Char) : Prop := 5 ≤ s.length ∧ ∀ c ∈ s, digit c = true

/-! ## The patterns match their grammars -/

def date : Matcher := fun s => do
  let s ← times digit 4 s
  let s ← char '-' s
  let s ← times digit 2 s
  let s ← char '-' s
  times digit 2 s

def clock : Matcher := fun s => do
  let s ← times digit 2 s
  let s ← char ':' s
  let s ← times digit 2 s
  let s ← char ':' s
  times digit 2 s

def triple (n : Nat) (mark : Char) : Matcher := fun s => do
  let s ← times digit n s
  let s ← char mark s
  let s ← times digit 2 s
  let s ← char mark s
  times digit 2 s

def stamp : Matcher := fun s => do
  let s ← date s
  let s ← one (fun c => c == 'T' || c == ' ') s
  clock s

/-- A number and a unit, whatever is next to them. -/
def span : Matcher := fun s => do
  let s ← run digit 1 s
  timeUnit (optional (one isBlank) (optional fraction s))

variable {s r : List Char}

theorem timestamp_eq (s : List Char) :
    timestamp s = (stamp s).map fun r => optional zone (optional fraction r) := by
  simp only [timestamp, stamp, date, clock, Option.bind_eq_bind, Option.bind_assoc, Option.map_eq_bind,
    Function.comp_def]

theorem duration_eq (before : Option Char) (s : List Char) : duration before s =
    if Text.isBoundary before s.head? then
      (span s).bind fun r => if Text.isBoundary (some 's') r.head? then some r else none
    else none := by
  simp only [duration, span, Option.bind_eq_bind, Option.bind_assoc]

theorem triple_eq_some_iff {n : Nat} {mark : Char} :
    triple n mark s = some r ↔ ∃ a, IsTriple n mark a ∧ s = a ++ r := by
  simp only [triple, Option.bind_eq_bind, Option.bind_eq_some_iff, times_eq_some_iff, char_eq_some_iff]
  constructor
  · rintro ⟨_, ⟨x, hx, hxall, rfl⟩, _, rfl, _, ⟨y, hy, hyall, rfl⟩, _, rfl, z, hz, hzall, rfl⟩
    exact ⟨_, ⟨x, y, z, ⟨hx, hxall⟩, ⟨hy, hyall⟩, ⟨hz, hzall⟩, rfl⟩, by simp⟩
  · rintro ⟨a, ⟨x, y, z, ⟨hx, hxall⟩, ⟨hy, hyall⟩, ⟨hz, hzall⟩, rfl⟩, rfl⟩
    exact ⟨_, ⟨x, hx, hxall, by simp⟩, _, rfl, _, ⟨y, hy, hyall, rfl⟩, _, rfl, z, hz, hzall, rfl⟩

theorem date_eq_some_iff : date s = some r ↔ ∃ a, IsDate a ∧ s = a ++ r := triple_eq_some_iff

theorem clock_eq_some_iff : clock s = some r ↔ ∃ a, IsClock a ∧ s = a ++ r := triple_eq_some_iff

theorem stamp_eq_some_iff : stamp s = some r ↔ ∃ a, IsStamp a ∧ s = a ++ r := by
  simp only [stamp, Option.bind_eq_bind, Option.bind_eq_some_iff, date_eq_some_iff, clock_eq_some_iff,
    one_eq_some_iff, Bool.or_eq_true, beq_iff_eq]
  constructor
  · rintro ⟨_, ⟨d, hd, rfl⟩, _, ⟨mark, hmark, rfl⟩, c, hc, rfl⟩
    exact ⟨_, ⟨d, mark, c, hd, hmark, hc, rfl⟩, by simp⟩
  · rintro ⟨a, ⟨d, mark, c, hd, hmark, hc, rfl⟩, rfl⟩
    exact ⟨_, ⟨d, hd, by simp⟩, _, ⟨mark, hmark, rfl⟩, c, hc, rfl⟩

theorem timeUnit_eq_some_iff : timeUnit s = some r ↔ ∃ a, IsUnit a ∧ s = a ++ r := by
  constructor
  · intro h
    unfold timeUnit at h
    split at h
    · exact ⟨['m', 's'], Or.inl rfl, congrArg (['m', 's'] ++ ·) (Option.some.inj h)⟩
    · exact ⟨['u', 's'], Or.inr (Or.inl rfl), congrArg (['u', 's'] ++ ·) (Option.some.inj h)⟩
    · exact ⟨['µ', 's'], Or.inr (Or.inr (Or.inl rfl)), congrArg (['µ', 's'] ++ ·) (Option.some.inj h)⟩
    · exact ⟨['n', 's'], Or.inr (Or.inr (Or.inr (Or.inl rfl))), congrArg (['n', 's'] ++ ·) (Option.some.inj h)⟩
    · exact ⟨['s'], Or.inr (Or.inr (Or.inr (Or.inr rfl))), congrArg (['s'] ++ ·) (Option.some.inj h)⟩
    · cases h
  · rintro ⟨a, rfl | rfl | rfl | rfl | rfl, rfl⟩
    · rfl
    · rfl
    · rfl
    · rfl
    · rfl

theorem address_eq_some_iff :
    address s = some r ↔ ∃ a, IsAddress a ∧ Ends Text.isHexDigit r ∧ s = a ++ r := by
  simp only [address, Option.bind_eq_bind, Option.bind_eq_some_iff, char_eq_some_iff, run_eq_some_iff]
  constructor
  · rintro ⟨_, rfl, _, rfl, h, hlen, hall, hends, rfl⟩
    exact ⟨_, ⟨h, List.ne_nil_of_length_pos hlen, hall, rfl⟩, hends, rfl⟩
  · rintro ⟨a, ⟨h, hne, hall, rfl⟩, hends, rfl⟩
    exact ⟨_, rfl, _, rfl, h, List.length_pos_iff.mpr hne, hall, hends, rfl⟩

theorem longNumber_eq_some_iff : longNumber s = some r ↔ ∃ a, IsLongNumber a ∧ Ends digit r ∧ s = a ++ r := by
  rw [longNumber, run_eq_some_iff]
  constructor
  · rintro ⟨a, hlen, hall, hends, rfl⟩
    exact ⟨a, ⟨hlen, hall⟩, hends, rfl⟩
  · rintro ⟨a, ⟨hlen, hall⟩, hends, rfl⟩
    exact ⟨a, hlen, hall, hends, rfl⟩

theorem fraction_eq_some_iff : fraction s = some r ↔
    ∃ a, a ≠ [] ∧ (∀ c ∈ a, digit c = true) ∧ Ends digit r ∧ s = '.' :: (a ++ r) := by
  simp only [fraction, Option.bind_eq_some_iff, char_eq_some_iff, run_eq_some_iff]
  constructor
  · rintro ⟨_, rfl, a, hlen, hall, hends, rfl⟩
    exact ⟨a, List.ne_nil_of_length_pos hlen, hall, hends, rfl⟩
  · rintro ⟨a, hne, hall, hends, rfl⟩
    exact ⟨_, rfl, a, List.length_pos_iff.mpr hne, hall, hends, rfl⟩

theorem zone_cases (h : zone s = some r) : ∃ a, IsZone a ∧ s = a ++ r := by
  unfold zone at h
  split at h
  · exact ⟨['Z'], Or.inr (Or.inl rfl), congrArg ('Z' :: ·) (Option.some.inj h)⟩
  · rw [Option.bind_eq_bind, Option.bind_eq_some_iff] at h
    obtain ⟨t, hone, h⟩ := h
    obtain ⟨sign, hsign, rfl⟩ := one_eq_some_iff.mp hone
    rw [Bool.or_eq_true, beq_iff_eq, beq_iff_eq] at hsign
    rw [Option.bind_eq_some_iff] at h
    obtain ⟨u, hhours, hminutes⟩ := h
    obtain ⟨hours, hlen, hall, rfl⟩ := times_eq_some_iff.mp hhours
    obtain ⟨minutes, hlen', hall', hu⟩ := times_eq_some_iff.mp hminutes
    rw [optional] at hu
    cases hcolon : char ':' u with
    | none =>
      rw [hcolon] at hu
      have hu : u = minutes ++ r := hu
      refine ⟨sign :: (hours ++ minutes),
        Or.inr (Or.inr ⟨sign, hours, minutes, hsign, ⟨hlen, hall⟩, ⟨hlen', hall'⟩, Or.inl rfl⟩), ?_⟩
      rw [hu]
      simp
    | some v =>
      rw [hcolon] at hu
      obtain rfl := char_eq_some_iff.mp hcolon
      have hu : v = minutes ++ r := hu
      refine ⟨sign :: (hours ++ ':' :: minutes),
        Or.inr (Or.inr ⟨sign, hours, minutes, hsign, ⟨hlen, hall⟩, ⟨hlen', hall'⟩, Or.inr rfl⟩), ?_⟩
      rw [hu]
      simp

theorem optional_fraction_cases (s : List Char) : ∃ a, IsFraction a ∧ s = a ++ optional fraction s := by
  rw [optional]
  cases h : fraction s with
  | none => exact ⟨[], Or.inl rfl, rfl⟩
  | some r =>
    obtain ⟨a, hne, hall, -, rfl⟩ := fraction_eq_some_iff.mp h
    exact ⟨'.' :: a, Or.inr ⟨a, hne, hall, rfl⟩, rfl⟩

theorem optional_zone_cases (s : List Char) : ∃ a, IsZone a ∧ s = a ++ optional zone s := by
  rw [optional]
  cases h : zone s with
  | none => exact ⟨[], Or.inl rfl, rfl⟩
  | some r => exact zone_cases h

theorem timestamp_cases (h : timestamp s = some r) : ∃ a fraction zone, IsStamp a ∧ IsFraction fraction ∧ IsZone zone ∧
    s = a ++ (fraction ++ (zone ++ r)) := by
  rw [timestamp_eq, Option.map_eq_some_iff] at h
  obtain ⟨t, hstamp, hr⟩ := h
  obtain ⟨a, ha, rfl⟩ := stamp_eq_some_iff.mp hstamp
  obtain ⟨f, hf, ht⟩ := optional_fraction_cases t
  obtain ⟨z, hz, hu⟩ := optional_zone_cases (optional fraction t)
  refine ⟨a, f, z, ha, hf, hz, ?_⟩
  rw [← hr, ← hu, ← ht]

/-- A number begins with a digit. -/
theorem Digits.exists_cons {n : Nat} (h : Digits (n + 1) s) : ∃ c rest, s = c :: rest ∧ digit c = true := by
  cases s with
  | nil => cases h.1
  | cons c rest => exact ⟨c, rest, rfl, h.2 c List.mem_cons_self⟩

theorem IsTriple.exists_cons {n : Nat} {mark : Char} (h : IsTriple (n + 1) mark s) :
    ∃ c rest, s = c :: rest ∧ digit c = true := by
  obtain ⟨x, y, z, hx, -, -, rfl⟩ := h
  obtain ⟨c, rest, rfl, hc⟩ := hx.exists_cons
  exact ⟨c, _, rfl, hc⟩

theorem IsDate.exists_cons (h : IsDate s) : ∃ c rest, s = c :: rest ∧ digit c = true :=
  (isDate_iff.mp h).exists_cons

theorem IsClock.exists_cons (h : IsClock s) : ∃ c rest, s = c :: rest ∧ digit c = true :=
  (isClock_iff.mp h).exists_cons

theorem IsStamp.exists_cons (h : IsStamp s) : ∃ c rest, s = c :: rest ∧ digit c = true := by
  obtain ⟨date, mark, clock, hdate, -, -, rfl⟩ := h
  obtain ⟨c, rest, rfl, hc⟩ := hdate.exists_cons
  exact ⟨c, _, rfl, hc⟩

theorem IsAddress.exists_cons (h : IsAddress s) : ∃ c rest, s = c :: rest ∧ digit c = true := by
  obtain ⟨digits, -, -, rfl⟩ := h
  exact ⟨_, _, rfl, by decide⟩

theorem IsSpan.exists_cons (h : IsSpan s) : ∃ c rest, s = c :: rest ∧ digit c = true := by
  obtain ⟨digits, fraction, gap, unit, hne, hall, -, -, -, rfl⟩ := h
  obtain ⟨c, rest, rfl⟩ := List.exists_cons_of_ne_nil hne
  exact ⟨c, _, rfl, hall c List.mem_cons_self⟩

theorem IsLongNumber.exists_cons (h : IsLongNumber s) : ∃ c rest, s = c :: rest ∧ digit c = true := by
  cases s with
  | nil => cases h.1
  | cons c rest => exact ⟨c, rest, rfl, h.2 c List.mem_cons_self⟩

theorem ne_nil_of_exists_cons (h : ∃ c rest, s = c :: rest ∧ digit c = true) : s ≠ [] := by
  obtain ⟨c, rest, rfl, -⟩ := h
  exact List.cons_ne_nil c rest

theorem IsTriple.mem {n : Nat} {mark c : Char} (h : IsTriple n mark s) (hc : c ∈ s) : digit c = true ∨ c = mark := by
  obtain ⟨x, y, z, ⟨-, hx⟩, ⟨-, hy⟩, ⟨-, hz⟩, rfl⟩ := h
  simp only [List.mem_append, List.mem_cons] at hc
  rcases hc with hc | hc | hc | hc | hc
  · exact Or.inl (hx c hc)
  · exact Or.inr hc
  · exact Or.inl (hy c hc)
  · exact Or.inr hc
  · exact Or.inl (hz c hc)

theorem IsTriple.not_isBlank {n : Nat} {mark : Char} (h : IsTriple n mark s) (hmark : isBlank mark = false) :
    ∀ c ∈ s, isBlank c = false := by
  intro c hc
  rcases h.mem hc with hc | rfl
  · exact not_isBlank_of_digit hc
  · exact hmark

theorem IsDate.mem {c : Char} (h : IsDate s) (hc : c ∈ s) : digit c = true ∨ c = '-' := (isDate_iff.mp h).mem hc

theorem IsDate.hyphen_mem (h : IsDate s) : '-' ∈ s := by
  obtain ⟨year, month, day, -, -, -, rfl⟩ := h
  exact List.mem_append_right year List.mem_cons_self

theorem IsDate.not_isBlank (h : IsDate s) : ∀ c ∈ s, isBlank c = false :=
  (isDate_iff.mp h).not_isBlank (by decide)

theorem IsClock.mem {c : Char} (h : IsClock s) (hc : c ∈ s) : digit c = true ∨ c = ':' := (isClock_iff.mp h).mem hc

theorem IsClock.not_isBlank (h : IsClock s) : ∀ c ∈ s, isBlank c = false :=
  (isClock_iff.mp h).not_isBlank (by decide)

theorem IsUnit.mem {c : Char} (h : IsUnit s) (hc : c ∈ s) : c ∈ ['m', 'u', 'µ', 'n', 's'] := by
  have hletters : ∀ d ∈ s, d ∈ ['m', 'u', 'µ', 'n', 's'] := by
    rcases h with rfl | rfl | rfl | rfl | rfl
    · exact Text.forall_mem_of_all (by decide)
    · exact Text.forall_mem_of_all (by decide)
    · exact Text.forall_mem_of_all (by decide)
    · exact Text.forall_mem_of_all (by decide)
    · exact Text.forall_mem_of_all (by decide)
  exact hletters c hc

theorem IsUnit.not_digit {c : Char} (h : IsUnit s) (hc : c ∈ s) : digit c = false ∧ isBlank c = false ∧ c ≠ '.' := by
  have hletters : ∀ d ∈ ['m', 'u', 'µ', 'n', 's'], digit d = false ∧ isBlank d = false ∧ d ≠ '.' :=
    Text.forall_mem_of_all (by decide +kernel)
  exact hletters c (h.mem hc)

theorem IsUnit.ne_nil (h : IsUnit s) : s ≠ [] := by
  rcases h with rfl | rfl | rfl | rfl | rfl <;> exact List.cons_ne_nil _ _

/-- What stands in a number with a unit: digits, a point, white space and the letters of the units. -/
theorem IsSpan.mem {c : Char} (h : IsSpan s) (hc : c ∈ s) :
    digit c = true ∨ isBlank c = true ∨ c ∈ ['.', 'm', 'u', 'µ', 'n', 's'] := by
  obtain ⟨digits, fraction, gap, unit, -, hall, hfraction, hgap, hunit, rfl⟩ := h
  simp only [List.mem_append] at hc
  rcases hc with hc | hc | hc | hc
  · exact Or.inl (hall c hc)
  · rcases hfraction with rfl | ⟨d, -, hd, rfl⟩
    · cases hc
    · rcases List.mem_cons.mp hc with rfl | hc
      · exact Or.inr (Or.inr (by decide))
      · exact Or.inl (hd c hc)
  · rcases hgap with rfl | ⟨b, hb, rfl⟩
    · cases hc
    · rw [List.mem_singleton] at hc
      exact Or.inr (Or.inl (hc ▸ hb))
  · exact Or.inr (Or.inr (List.mem_cons_of_mem _ (hunit.mem hc)))

/-! ## Numbers with a unit -/

theorem getLast?_unit {unit : List Char} (h : IsUnit unit) : unit.getLast? = some 's' := by
  rcases h with rfl | rfl | rfl | rfl | rfl
  · rfl
  · rfl
  · rfl
  · rfl
  · rfl

theorem IsSpan.getLast? (h : IsSpan s) : s.getLast? = some 's' := by
  obtain ⟨digits, f, gap, unit, -, -, -, -, hunit, rfl⟩ := h
  rw [List.getLast?_append, List.getLast?_append, List.getLast?_append, getLast?_unit hunit]
  rfl

theorem optional_blank_cases (s : List Char) : ∃ a, IsGap a ∧ s = a ++ optional (one isBlank) s := by
  rw [optional]
  cases h : one isBlank s with
  | none => exact ⟨[], Or.inl rfl, rfl⟩
  | some r =>
    obtain ⟨c, hc, rfl⟩ := one_eq_some_iff.mp h
    exact ⟨[c], Or.inr ⟨c, hc, rfl⟩, rfl⟩

theorem ends_point {c : Char} (h : c ≠ '.') (r : List Char) : Ends (· == '.') (c :: r) :=
  ends_cons (p := (· == '.')) (beq_eq_false_iff_ne.mpr h) r

/-- A gap and a unit begin with neither a digit nor a point. -/
theorem ends_gap_unit {gap unit : List Char} (hgap : IsGap gap) (hunit : IsUnit unit) (r : List Char) :
    Ends digit (gap ++ (unit ++ r)) ∧ Ends (· == '.') (gap ++ (unit ++ r)) := by
  rcases hgap with rfl | ⟨c, hc, rfl⟩
  · obtain ⟨c, rest, rfl⟩ := List.exists_cons_of_ne_nil hunit.ne_nil
    obtain ⟨hdigit, -, hpoint⟩ := hunit.not_digit List.mem_cons_self
    exact ⟨ends_cons hdigit _, ends_point hpoint _⟩
  · refine ⟨ends_cons (digit_of_isBlank hc) _, ends_point ?_ _⟩
    rintro rfl
    exact absurd hc (by decide)

theorem IsFraction.ends_digit {f rest : List Char} (hf : IsFraction f) (hrest : Ends digit rest) :
    Ends digit (f ++ rest) := by
  rcases hf with rfl | ⟨digits, -, -, rfl⟩
  · exact hrest
  · exact ends_cons (by decide) _

theorem optional_gap {gap unit : List Char} (hgap : IsGap gap) (hunit : IsUnit unit) (r : List Char) :
    optional (one isBlank) (gap ++ (unit ++ r)) = unit ++ r := by
  rcases hgap with rfl | ⟨c, hc, rfl⟩
  · obtain ⟨c, rest, rfl⟩ := List.exists_cons_of_ne_nil hunit.ne_nil
    have hc := (hunit.not_digit List.mem_cons_self).2.1
    rw [optional, List.nil_append, List.cons_append, one, hc]
    rfl
  · rw [optional, List.cons_append, one, if_pos hc]
    rfl

theorem optional_fraction {f rest : List Char} (hf : IsFraction f) (hdigit : Ends digit rest)
    (hpoint : Ends (· == '.') rest) : optional fraction (f ++ rest) = rest := by
  rcases hf with rfl | ⟨digits, hne, hall, rfl⟩
  · have hnone : fraction rest = none := by
      rw [Option.eq_none_iff_forall_ne_some]
      intro r hr
      obtain ⟨a, -, -, -, rfl⟩ := fraction_eq_some_iff.mp hr
      exact absurd hpoint.head (by decide)
    rw [List.nil_append, optional, hnone]
    rfl
  · have hsome : fraction ('.' :: digits ++ rest) = some rest :=
      fraction_eq_some_iff.mpr ⟨digits, hne, hall, hdigit, rfl⟩
    rw [optional, hsome]
    rfl

theorem span_eq_some_iff : span s = some r ↔ ∃ a, IsSpan a ∧ s = a ++ r := by
  rw [span, Option.bind_eq_bind, Option.bind_eq_some_iff]
  constructor
  · rintro ⟨t, hrun, hunit⟩
    obtain ⟨digits, hlen, hall, -, rfl⟩ := run_eq_some_iff.mp hrun
    obtain ⟨f, hf, ht⟩ := optional_fraction_cases t
    obtain ⟨gap, hgap, hu⟩ := optional_blank_cases (optional fraction t)
    obtain ⟨unit, hunit, hr⟩ := timeUnit_eq_some_iff.mp hunit
    refine ⟨_, ⟨digits, f, gap, unit, List.ne_nil_of_length_pos hlen, hall, hf, hgap, hunit, rfl⟩, ?_⟩
    rw [ht, hu, hr]
    simp
  · rintro ⟨a, ⟨digits, f, gap, unit, hne, hall, hf, hgap, hunit, rfl⟩, rfl⟩
    obtain ⟨hdigit, hpoint⟩ := ends_gap_unit hgap hunit r
    have hrun : run digit 1 (digits ++ (f ++ (gap ++ unit)) ++ r) = some (f ++ (gap ++ (unit ++ r))) :=
      run_eq_some_iff.mpr ⟨digits, List.length_pos_iff.mpr hne, hall, hf.ends_digit hdigit, by simp⟩
    refine ⟨f ++ (gap ++ (unit ++ r)), hrun, ?_⟩
    rw [optional_fraction hf hdigit hpoint, optional_gap hgap hunit]
    exact timeUnit_eq_some_iff.mpr ⟨unit, hunit, rfl⟩

end Overseer.Noise
