import Overseer.Proofs.Failure.Replace
import Overseer.Proofs.Text.Blank

/-! # Texts that differ in their white space

Two texts with the same words, and runs of white space between them that may differ (`Relaid`). Two of the patterns look
at white space: a timestamp may have a space between the date and the time of day, and a duration may have one character
of white space between the number and the unit. Where the texts agree at these sites (`Agree`), each pattern matches in
both or in neither (`Kind.Respects`), and takes texts that again differ in their white space alone.
-/

namespace Overseer.Noise

open Text (isBlank isWord)

/-! ## Words and runs -/

def solid (c : Char) : Bool := !isBlank c

/-- The word at the start of a text. -/
def firstWord (s : List Char) : List Char := s.takeWhile solid

/-- A text that begins with a word. -/
def Worded (s : List Char) : Prop := s.head?.any solid = true

structure Run (g : List Char) : Prop where
  ne_nil : g ≠ []
  blank : ∀ c ∈ g, isBlank c = true

/-- Two texts with the same words, of which the first one has begun with `word` already. Each run of white space between
two words is replaced by another one, if this is allowed between these words. Runs at the end come and go. -/
inductive Relaid (allowed : (word run run' next : List Char) → Prop) : (word s t : List Char) → Prop
  | ends {word s t : List Char} (hs : ∀ c ∈ s, isBlank c = true) (ht : ∀ c ∈ t, isBlank c = true) :
      Relaid allowed word s t
  | char {word s t : List Char} {c : Char} (hc : isBlank c = false) (rest : Relaid allowed (word ++ [c]) s t) :
      Relaid allowed word (c :: s) (c :: t)
  | gap {word g g' s t : List Char} (hg : Run g) (hg' : Run g') (hs : Worded s)
      (ha : allowed word g g' (firstWord s)) (rest : Relaid allowed [] s t) :
      Relaid allowed word (g ++ s) (g' ++ t)

/-- Two texts that differ only in their white space, as far as this is allowed. Runs at the ends come and go. -/
def Reflowed (allowed : (word run run' next : List Char) → Prop) (s t : List Char) : Prop :=
  ∃ lead lead' s' t', (∀ c ∈ lead, isBlank c = true) ∧ (∀ c ∈ lead', isBlank c = true) ∧ s = lead ++ s' ∧
    t = lead' ++ t' ∧ Relaid allowed [] s' t'

/-! ## Where white space is looked at -/

def EndsInDigit (word : List Char) : Prop := ∃ c, digit c = true ∧ [c] <:+ word

def EndsInDate (word : List Char) : Prop := ∃ date, IsDate date ∧ date <:+ word

def StartsWithClock (word : List Char) : Prop := ∃ clock, IsClock clock ∧ clock <+: word

/-- A unit that no letter follows. -/
def StartsWithUnit (word : List Char) : Prop :=
  ∃ unit rest, IsUnit unit ∧ word = unit ++ rest ∧ ∀ c ∈ rest.head?, isWord c = true → digit c = true

/-- Between a digit and a unit, both runs are one character or neither is; between a date and a time of day, both are a
space or neither is. -/
def Agree (word run run' next : List Char) : Prop :=
  (EndsInDigit word → StartsWithUnit next → (run.length = 1 ↔ run'.length = 1)) ∧
    (EndsInDate word → StartsWithClock next → (run = [' '] ↔ run' = [' ']))

/-- Any run may be replaced by any other one. -/
def Anyhow (_word _run _run' _next : List Char) : Prop := True

variable {k : Kind} {allowed allowed' : (word run run' next : List Char) → Prop} {word word' a s t r : List Char}

theorem solid_iff {c : Char} : solid c = true ↔ isBlank c = false := by
  rw [solid, Bool.not_eq_true']

theorem solid_of_isBlank {c : Char} (h : isBlank c = true) : solid c = false := by
  rw [solid, h]
  rfl

theorem Run.append_ne {g : List Char} (hg : Run g) {c : Char} (hc : isBlank c = false) (s t : List Char) :
    g ++ s ≠ c :: t := by
  obtain ⟨d, g, rfl⟩ := List.exists_cons_of_ne_nil hg.ne_nil
  intro he
  have hd := hg.blank d List.mem_cons_self
  rw [(List.cons.inj he).1, hc] at hd
  cases hd

theorem Worded.exists_cons (h : Worded s) : ∃ c t, s = c :: t ∧ isBlank c = false := by
  cases s with
  | nil => cases h
  | cons c t => exact ⟨c, t, rfl, solid_iff.mp h⟩

theorem firstWord_append (ha : ∀ c ∈ a, isBlank c = false) (s : List Char) : firstWord (a ++ s) = a ++ firstWord s :=
  List.takeWhile_append_of_pos fun c hc => solid_iff.mpr (ha c hc)

theorem firstWord_of_blank (h : ∀ c ∈ s.head?, isBlank c = true) : firstWord s = [] := by
  cases s with
  | nil => rfl
  | cons c s => exact List.takeWhile_cons_of_neg (by rw [solid_of_isBlank (h c rfl)]; exact Bool.false_ne_true)

theorem Run.head? {g : List Char} (hg : Run g) (s : List Char) : ∀ c ∈ (g ++ s).head?, isBlank c = true := by
  obtain ⟨d, g, rfl⟩ := List.exists_cons_of_ne_nil hg.ne_nil
  intro c hc
  obtain rfl := Option.some.inj hc
  exact hg.blank d List.mem_cons_self

/-- What allows a run to be replaced allows the converse. -/
def Mutual (allowed : (word run run' next : List Char) → Prop) : Prop :=
  ∀ word run run' next, allowed word run run' next → allowed word run' run next

theorem mutual_agree : Mutual Agree := fun _ _ _ _ h => ⟨fun hw hn => (h.1 hw hn).symm, fun hw hn => (h.2 hw hn).symm⟩

theorem mutual_anyhow : Mutual Anyhow := fun _ _ _ _ h => h

namespace Relaid

/-- The texts begin with the same character, unless it is white space. -/
theorem head?_any (h : Relaid allowed word s t) {p : Char → Bool} (hp : ∀ c, isBlank c = true → p c = false) :
    s.head?.any p = t.head?.any p := by
  have hblank {x : List Char} (hx : ∀ c ∈ x.head?, isBlank c = true) : x.head?.any p = false := by
    cases x with
    | nil => rfl
    | cons c x => exact hp c (hx c rfl)
  cases h with
  | ends hs ht =>
    rw [hblank fun c hc => hs c (List.mem_of_mem_head? hc), hblank fun c hc => ht c (List.mem_of_mem_head? hc)]
  | char => rfl
  | gap hg hg' => rw [hblank (hg.head? _), hblank (hg'.head? _)]

theorem worded (h : Relaid allowed word s t) (hs : Worded s) : Worded t :=
  (h.head?_any fun _ => solid_of_isBlank).symm.trans hs

theorem ends_iff (h : Relaid allowed word s t) {p : Char → Bool} (hp : ∀ c, isBlank c = true → p c = false) :
    Ends p s ↔ Ends p t := by
  have hany (x : List Char) : Ends p x ↔ x.head?.any p = false := by
    cases x with
    | nil => exact ⟨fun _ => rfl, fun _ => ends_nil p⟩
    | cons c x => exact ⟨fun h => h.head, fun h => ends_cons h x⟩
  rw [hany, hany, h.head?_any hp]

theorem firstWord_eq (h : Relaid allowed word s t) : firstWord s = firstWord t := by
  induction h with
  | ends hs ht =>
    rw [firstWord_of_blank fun c hc => hs c (List.mem_of_mem_head? hc),
      firstWord_of_blank fun c hc => ht c (List.mem_of_mem_head? hc)]
  | @char word s t c hc rest ih =>
    have hcons (x : List Char) : firstWord (c :: x) = c :: firstWord x :=
      List.takeWhile_cons_of_pos (solid_iff.mpr hc)
    rw [hcons, hcons, ih]
  | gap hg hg' => rw [firstWord_of_blank (hg.head? _), firstWord_of_blank (hg'.head? _)]

theorem symm (hmutual : Mutual allowed) (h : Relaid allowed word s t) : Relaid allowed word t s := by
  induction h with
  | ends hs ht => exact .ends ht hs
  | char hc _ ih => exact .char hc ih
  | gap hg hg' hs ha rest ih =>
    exact .gap hg' hg (rest.worded hs) (rest.firstWord_eq ▸ hmutual _ _ _ _ ha) ih

theorem append (ha : ∀ c ∈ a, isBlank c = false) (h : Relaid allowed (word ++ a) s t) :
    Relaid allowed word (a ++ s) (a ++ t) := by
  induction a generalizing word with
  | nil => rwa [List.append_nil] at h
  | cons c a ih =>
    obtain ⟨hc, ha⟩ := List.forall_mem_cons.mp ha
    refine .char hc (ih ha ?_)
    rwa [List.append_assoc]

/-- What is no white space is in both texts. -/
theorem of_append (ha : ∀ c ∈ a, isBlank c = false) (h : Relaid allowed word (a ++ s) t) :
    ∃ t', t = a ++ t' ∧ Relaid allowed (word ++ a) s t' := by
  induction a generalizing word t with
  | nil => exact ⟨t, rfl, by rwa [List.append_nil]⟩
  | cons c a ih =>
    obtain ⟨hc, ha⟩ := List.forall_mem_cons.mp ha
    generalize hx : c :: a ++ s = x at h
    cases h with
    | ends hs ht =>
      subst hx
      rw [hs c List.mem_cons_self] at hc
      cases hc
    | @char word x y d hd rest =>
      obtain ⟨rfl, rfl⟩ := List.cons.inj hx
      obtain ⟨t', rfl, hrest⟩ := ih ha rest
      exact ⟨t', rfl, by rwa [List.append_assoc] at hrest⟩
    | gap hg => exact absurd hx.symm (hg.append_ne hc _ _)

/-- One character of white space in front of a word is a run of its own. -/
theorem of_blank {b : Char} (hb : isBlank b = true) (hs : Worded s) (h : Relaid allowed word (b :: s) t) :
    ∃ g' t', t = g' ++ t' ∧ Run g' ∧ allowed word [b] g' (firstWord s) ∧ Relaid allowed [] s t' := by
  obtain ⟨c, rest, rfl, hc⟩ := hs.exists_cons
  generalize hx : b :: c :: rest = x at h
  cases h with
  | ends hs ht =>
    subst hx
    rw [hs c (List.mem_cons_of_mem b List.mem_cons_self)] at hc
    cases hc
  | @char word x y d hd more =>
    obtain ⟨rfl, -⟩ := List.cons.inj hx
    rw [hb] at hd
    cases hd
  | @gap word g g' x y hg hg' hx' hallowed more =>
    obtain ⟨d, g, rfl⟩ := List.exists_cons_of_ne_nil hg.ne_nil
    obtain ⟨rfl, htail⟩ := List.cons.inj hx
    cases g with
    | nil =>
      obtain rfl : c :: rest = x := htail
      exact ⟨g', y, rfl, hg', hallowed, more⟩
    | cons e g =>
      obtain ⟨rfl, -⟩ := List.cons.inj htail
      rw [hg.blank c (List.mem_cons_of_mem b List.mem_cons_self)] at hc
      cases hc

/-- Up to white space both texts go on with the same word. -/
theorem exists_word (h : Relaid allowed word s t) : ∃ a s' t', (∀ c ∈ a, isBlank c = false) ∧ s = a ++ s' ∧
    t = a ++ t' ∧ Open s' ∧ Open t' ∧ Relaid allowed (word ++ a) s' t' := by
  induction h with
  | @ends word s t hs ht =>
    exact ⟨[], s, t, List.forall_mem_nil _, rfl, rfl, fun c hc => hs c (List.mem_of_mem_head? hc),
      fun c hc => ht c (List.mem_of_mem_head? hc), .ends hs ht⟩
  | @char word s t c hc rest ih =>
    obtain ⟨a, s', t', ha, rfl, rfl, hs', ht', hrest⟩ := ih
    exact ⟨c :: a, s', t', List.forall_mem_cons.mpr ⟨hc, ha⟩, rfl, rfl, hs', ht',
      by rwa [List.append_assoc] at hrest⟩
  | @gap word g g' s t hg hg' hs hallowed rest =>
    refine ⟨[], g ++ s, g' ++ t, List.forall_mem_nil _, rfl, rfl, hg.head? s, hg'.head? t, ?_⟩
    rw [List.append_nil]
    exact .gap hg hg' hs hallowed rest

end Relaid

/-! ## The next word -/

theorem startsWithClock_firstWord : StartsWithClock (firstWord s) ↔ StartsWithClock s := by
  constructor
  · rintro ⟨clock, hclock, hfront⟩
    exact ⟨clock, hclock, hfront.trans (List.takeWhile_prefix solid)⟩
  · rintro ⟨clock, hclock, rest, rfl⟩
    exact ⟨clock, hclock, by rw [firstWord_append hclock.not_isBlank]; exact List.prefix_append _ _⟩

theorem startsWithUnit_firstWord : StartsWithUnit (firstWord s) ↔ StartsWithUnit s := by
  have hsplit : s = firstWord s ++ s.dropWhile solid := (List.takeWhile_append_dropWhile).symm
  have hopen : Open (s.dropWhile solid) := fun c hc => by
    have hnot : solid c = false := ends_dropWhile solid s c hc
    rw [solid, Bool.not_eq_false'] at hnot
    exact hnot
  constructor
  · rintro ⟨unit, rest, hunit, he, hrest⟩
    refine ⟨unit, rest ++ s.dropWhile solid, hunit, by rw [← List.append_assoc, ← he, ← hsplit], fun c hc hword => ?_⟩
    cases rest with
    | nil =>
      rw [Text.isWord_of_isBlank (hopen c hc)] at hword
      cases hword
    | cons d rest => exact hrest c hc hword
  · rintro ⟨unit, rest, hunit, rfl, hrest⟩
    refine ⟨unit, firstWord rest, hunit, firstWord_append (fun c hc => (hunit.not_digit hc).2.1) rest, ?_⟩
    intro c hc hword
    cases rest with
    | nil => cases hc
    | cons d rest =>
      rw [firstWord, List.takeWhile_cons] at hc
      split at hc
      · exact hrest c hc hword
      · cases hc

/-! ## Patterns and words -/

/-- A matcher that sees no white space: what comes after a word is nothing to it. -/
def Local (m : Matcher) : Prop :=
  ∀ w x, (∀ c ∈ w, isBlank c = false) → Open x → m (w ++ x) = (m w).map (· ++ x)

theorem local_one {p : Char → Bool} (hp : ∀ c, isBlank c = true → p c = false) : Local (one p) := by
  intro w x _ hx
  cases w with
  | cons c w =>
    rw [List.cons_append, one, one]
    split
    · rfl
    · rfl
  | nil =>
    cases x with
    | nil => rfl
    | cons c x =>
      rw [List.nil_append, one, hp c (hx c rfl)]
      rfl

theorem Local.bind {m n : Matcher} (hm : Local m) (hn : Local n) (hsuffix : ∀ s r, m s = some r → r <:+ s) :
    Local fun s => (m s).bind n := by
  intro w x hw hx
  show (m (w ++ x)).bind n = ((m w).bind n).map (· ++ x)
  rw [hm w x hw hx]
  cases h : m w with
  | none => rfl
  | some r => exact hn r x (fun c hc => hw c ((hsuffix w r h).subset hc)) hx

theorem optional_append {m : Matcher} (hm : Local m) {w x : List Char} (hw : ∀ c ∈ w, isBlank c = false)
    (hx : Open x) : optional m (w ++ x) = optional m w ++ x := by
  rw [optional, optional, hm w x hw hx]
  cases m w with
  | none => rfl
  | some r => rfl

theorem one_suffix {p : Char → Bool} (s r : List Char) (h : one p s = some r) : r <:+ s := by
  obtain ⟨c, -, rfl⟩ := one_eq_some_iff.mp h
  exact List.suffix_cons c r

theorem times_suffix {p : Char → Bool} {n : Nat} (s r : List Char) (h : times p n s = some r) : r <:+ s := by
  obtain ⟨b, -, -, rfl⟩ := times_eq_some_iff.mp h
  exact List.suffix_append b r

theorem local_times {p : Char → Bool} (hp : ∀ c, isBlank c = true → p c = false) (n : Nat) : Local (times p n) := by
  induction n with
  | zero => exact fun w x _ _ => rfl
  | succ n ih => exact (local_one hp).bind ih one_suffix

theorem local_run {p : Char → Bool} (hp : ∀ c, isBlank c = true → p c = false) (n : Nat) : Local (run p n) := by
  intro w x hw hx
  rw [run, run, local_times hp n w x hw hx]
  cases h : times p n w with
  | none => rfl
  | some r =>
    have hdrop : (r ++ x).dropWhile p = r.dropWhile p ++ x := by
      rw [List.dropWhile_append]
      split
      · rename_i hnil
        rw [List.isEmpty_iff.mp hnil, List.nil_append, dropWhile_of_ends (hx.ends hp)]
      · rfl
    exact congrArg some hdrop

theorem char_of_isBlank {d : Char} (hd : isBlank d = false) (c : Char) (hc : isBlank c = true) : (c == d) = false := by
  rw [beq_eq_false_iff_ne]
  rintro rfl
  rw [hc] at hd
  cases hd

theorem local_fraction : Local fraction :=
  (local_one (char_of_isBlank (by decide))).bind (local_run (fun _ => digit_of_isBlank) 1) one_suffix

theorem local_offset : Local fun s => (times digit 2 s).bind fun s => times digit 2 (optional (char ':') s) := by
  refine (local_times (fun _ => digit_of_isBlank) 2).bind (fun w x hw hx => ?_) times_suffix
  have hcolon : Local (char ':') := local_one (char_of_isBlank (by decide))
  have hsub : ∀ c ∈ optional (char ':') w, isBlank c = false := by
    rw [optional]
    cases h : char ':' w with
    | none => exact hw
    | some r => exact fun c hc => hw c ((one_suffix w r h).subset hc)
  show times digit 2 (optional (char ':') (w ++ x)) = _
  rw [optional_append hcolon hw hx]
  exact local_times (fun _ => digit_of_isBlank) 2 _ x hsub hx

theorem zone_eq (s : List Char) : zone s = (char 'Z' s).or ((one (fun c => c == '+' || c == '-') s).bind fun s =>
    (times digit 2 s).bind fun s => times digit 2 (optional (char ':') s)) := by
  cases s with
  | nil => rfl
  | cons c s =>
    by_cases hc : c = 'Z'
    · subst hc
      rfl
    · have hnone : char 'Z' (c :: s) = none := by
        rw [char, one, beq_eq_false_iff_ne.mpr hc]
        rfl
      rw [hnone, Option.none_or, zone]
      · rfl
      · rintro rest he
        exact hc (List.cons.inj he).1

theorem local_zone : Local zone := by
  have hsign : ∀ c, isBlank c = true → (c == '+' || c == '-') = false := fun c hc => by
    rw [char_of_isBlank (by decide) c hc, char_of_isBlank (by decide) c hc]
    rfl
  have hletter : Local (char 'Z') := local_one (char_of_isBlank (by decide))
  have hoffset := (local_one hsign).bind local_offset one_suffix
  intro w x hw hx
  rw [zone_eq, zone_eq, hletter w x hw hx]
  cases char 'Z' w with
  | some r => rfl
  | none => exact hoffset w x hw hx

/-! ## What the patterns find in texts with the same words -/

/-- What a kind of noise finds in the one text, it finds in the other. -/
def Kind.Respects (k : Kind) (allowed : (word run run' next : List Char) → Prop) : Prop :=
  ∀ word s t before before' r, Relaid allowed word s t → before.any isWord = before'.any isWord →
    k.pattern before s = some r → ∃ a a' r' word', a ≠ [] ∧ a' ≠ [] ∧ a.getLast? = a'.getLast? ∧ s = a ++ r ∧
      t = a' ++ r' ∧ k.pattern before' t = some r' ∧ Relaid allowed word' r r'

theorem IsAddress.not_isBlank (h : IsAddress a) : ∀ c ∈ a, isBlank c = false := by
  obtain ⟨digits, -, hall, rfl⟩ := h
  refine List.forall_mem_cons.mpr ⟨by decide, List.forall_mem_cons.mpr ⟨by decide, fun c hc => ?_⟩⟩
  rw [Bool.eq_false_iff]
  intro hblank
  have hhex := hall c hc
  rw [isHexDigit_of_isBlank hblank] at hhex
  cases hhex

theorem respects_addresses (allowed : (word run run' next : List Char) → Prop) : addresses.Respects allowed := by
  intro word s t _ _ r h _ hs
  obtain ⟨a, ha, hends, rfl⟩ := address_eq_some_iff.mp hs
  obtain ⟨r', rfl, hr⟩ := h.of_append ha.not_isBlank
  have hends' := (hr.ends_iff fun _ => isHexDigit_of_isBlank).mp hends
  have hne := ne_nil_of_exists_cons ha.exists_cons
  exact ⟨a, a, r', _, hne, hne, rfl, rfl, rfl, address_eq_some_iff.mpr ⟨a, ha, hends', rfl⟩, hr⟩

theorem respects_longNumbers (allowed : (word run run' next : List Char) → Prop) :
    longNumbers.Respects allowed := by
  intro word s t _ _ r h _ hs
  obtain ⟨a, ha, hends, rfl⟩ := longNumber_eq_some_iff.mp hs
  obtain ⟨r', rfl, hr⟩ := h.of_append fun c hc => not_isBlank_of_digit (ha.2 c hc)
  have hends' := (hr.ends_iff fun _ => digit_of_isBlank).mp hends
  have hne := ne_nil_of_exists_cons ha.exists_cons
  exact ⟨a, a, r', _, hne, hne, rfl, rfl, rfl, longNumber_eq_some_iff.mpr ⟨a, ha, hends', rfl⟩, hr⟩

/-- A date, a space and a time of day are in both texts, if the texts agree on a space at such a place. -/
theorem Relaid.stamp (hagree : ∀ word g g' next, allowed word g g' next → EndsInDate word → StartsWithClock next →
    (g = [' '] ↔ g' = [' '])) (ha : IsStamp a) (h : Relaid allowed word (a ++ s) t) :
    ∃ t' word', t = a ++ t' ∧ Relaid allowed word' s t' := by
  obtain ⟨date, mark, clock, hdate, hmark, hclock, rfl⟩ := ha
  have happend : date ++ mark :: clock ++ s = date ++ (mark :: (clock ++ s)) := by simp
  rw [happend] at h
  obtain ⟨t₀, rfl, hafter⟩ := h.of_append hdate.not_isBlank
  rcases hmark with rfl | rfl
  · have hsolid : ∀ c ∈ 'T' :: clock, isBlank c = false := List.forall_mem_cons.mpr ⟨by decide, hclock.not_isBlank⟩
    obtain ⟨t', rfl, hrest⟩ := hafter.of_append (a := 'T' :: clock) hsolid
    exact ⟨t', _, by simp, hrest⟩
  · have hworded : Worded (clock ++ s) := by
      obtain ⟨c, rest, rfl, hc⟩ := hclock.exists_cons
      exact solid_iff.mpr (not_isBlank_of_digit hc)
    obtain ⟨g', t₁, rfl, -, hallowed, hnext⟩ := hafter.of_blank (b := ' ') (by decide) hworded
    have hstarts : StartsWithClock (firstWord (clock ++ s)) :=
      startsWithClock_firstWord.mpr ⟨clock, hclock, List.prefix_append clock s⟩
    obtain rfl := (hagree _ _ _ _ hallowed ⟨date, hdate, List.suffix_append _ _⟩ hstarts).mp rfl
    obtain ⟨t', rfl, hrest⟩ := hnext.of_append hclock.not_isBlank
    exact ⟨t', _, by simp, hrest⟩

/-- After a date and a time of day, the fraction and the zone are in the same word. -/
theorem Relaid.tail (h : Relaid allowed word s t) : ∃ a s' t' word', s = a ++ s' ∧ t = a ++ t' ∧
    optional zone (optional fraction s) = s' ∧ optional zone (optional fraction t) = t' ∧
      Relaid allowed word' s' t' := by
  obtain ⟨w, x, y, hw, rfl, rfl, hx, hy, hrest⟩ := h.exists_word
  obtain ⟨f, -, hf⟩ := optional_fraction_cases w
  obtain ⟨z, -, hz⟩ := optional_zone_cases (optional fraction w)
  have hw' : ∀ c ∈ optional fraction w, isBlank c = false := fun c hc =>
    hw c (by rw [hf]; exact List.mem_append_right f hc)
  have htail {x : List Char} (hx : Open x) :
      optional zone (optional fraction (w ++ x)) = optional zone (optional fraction w) ++ x := by
    rw [optional_append local_fraction hw hx, optional_append local_zone hw' hx]
  have hsplit : w = (f ++ z) ++ optional zone (optional fraction w) := by rw [List.append_assoc, ← hz, ← hf]
  have hleft : ∀ c ∈ optional zone (optional fraction w), isBlank c = false := fun c hc =>
    hw c (by rw [hsplit]; exact List.mem_append_right _ hc)
  refine ⟨f ++ z, _, _, word ++ (f ++ z), ?_, ?_, htail hx, htail hy, .append hleft ?_⟩
  · rw [← List.append_assoc, ← hsplit]
  · rw [← List.append_assoc, ← hsplit]
  · rwa [List.append_assoc, ← hsplit]

theorem respects_stamps (hagree : ∀ word g g' next, allowed word g g' next → EndsInDate word → StartsWithClock next →
    (g = [' '] ↔ g' = [' '])) : stamps.Respects allowed := by
  intro word s t _ _ r h _ hs
  have hs : timestamp s = some r := hs
  rw [timestamp_eq, Option.map_eq_some_iff] at hs
  obtain ⟨s₁, hstamp, hr⟩ := hs
  obtain ⟨a, ha, rfl⟩ := stamp_eq_some_iff.mp hstamp
  obtain ⟨t₁, word₁, rfl, hafter⟩ := h.stamp hagree ha
  obtain ⟨b, r₀, r', word', rfl, rfl, hleft, hleft', hrest⟩ := hafter.tail
  obtain rfl : r₀ = r := hleft.symm.trans hr
  have hne : a ++ b ≠ [] := List.append_ne_nil_of_left_ne_nil (ne_nil_of_exists_cons ha.exists_cons) b
  refine ⟨a ++ b, a ++ b, r', word', hne, hne, rfl, (List.append_assoc _ _ _).symm, (List.append_assoc _ _ _).symm,
    ?_, hrest⟩
  show timestamp (a ++ (b ++ r')) = some r'
  rw [timestamp_eq, stamp_eq_some_iff.mpr ⟨a, ha, rfl⟩, Option.map_some, hleft']

theorem IsFraction.not_isBlank (h : IsFraction a) : ∀ c ∈ a, isBlank c = false := by
  rcases h with rfl | ⟨digits, -, hall, rfl⟩
  · exact List.forall_mem_nil _
  · exact List.forall_mem_cons.mpr ⟨by decide, fun c hc => not_isBlank_of_digit (hall c hc)⟩

theorem endsInDigit_number {digits f : List Char} (hne : digits ≠ []) (hall : ∀ c ∈ digits, digit c = true)
    (hf : IsFraction f) : EndsInDigit (digits ++ f) := by
  rcases hf with rfl | ⟨more, hmore, hmall, rfl⟩
  · refine ⟨digits.getLast hne, hall _ (List.getLast_mem hne), ?_⟩
    rw [List.append_nil]
    exact ⟨digits.dropLast, List.dropLast_append_getLast hne⟩
  · refine ⟨more.getLast hmore, hmall _ (List.getLast_mem hmore), digits ++ '.' :: more.dropLast, ?_⟩
    rw [List.append_assoc, List.cons_append, List.dropLast_append_getLast hmore]

/-- A number and a unit are in both texts with at most one character of white space between them, if the texts agree on
this at such a place. -/
theorem Relaid.span (hagree : ∀ word g g' next, allowed word g g' next → EndsInDigit word → StartsWithUnit next →
    (g.length = 1 ↔ g'.length = 1)) (ha : IsSpan a) (hs : ∀ c ∈ s.head?, isWord c = true → digit c = true)
    (h : Relaid allowed word (a ++ s) t) : ∃ a' t' word', IsSpan a' ∧ t = a' ++ t' ∧ Relaid allowed word' s t' := by
  obtain ⟨digits, f, gap, unit, hne, hall, hf, hgap, hunit, rfl⟩ := ha
  have hnumber : ∀ c ∈ digits ++ f, isBlank c = false :=
    List.forall_mem_append.mpr ⟨fun c hc => not_isBlank_of_digit (hall c hc), hf.not_isBlank⟩
  have hsolid : ∀ c ∈ unit, isBlank c = false := fun c hc => (hunit.not_digit hc).2.1
  have happend : digits ++ (f ++ (gap ++ unit)) ++ s = digits ++ f ++ (gap ++ (unit ++ s)) := by simp
  rw [happend] at h
  obtain ⟨t₀, rfl, hafter⟩ := h.of_append hnumber
  rcases hgap with rfl | ⟨b, hb, rfl⟩
  · obtain ⟨t', rfl, hrest⟩ := Relaid.of_append hsolid hafter
    exact ⟨_, t', _, ⟨digits, f, [], unit, hne, hall, hf, Or.inl rfl, hunit, rfl⟩, by simp, hrest⟩
  · have hworded : Worded (unit ++ s) := by
      obtain ⟨c, rest, rfl⟩ := List.exists_cons_of_ne_nil hunit.ne_nil
      exact solid_iff.mpr (hsolid c List.mem_cons_self)
    obtain ⟨g', t₁, rfl, hg', hallowed, hnext⟩ := Relaid.of_blank hb hworded hafter
    have hstarts : StartsWithUnit (firstWord (unit ++ s)) :=
      startsWithUnit_firstWord.mpr ⟨unit, s, hunit, rfl, hs⟩
    have hends : EndsInDigit (word ++ (digits ++ f)) := by
      obtain ⟨c, hc, hsuffix⟩ := endsInDigit_number hne hall hf
      exact ⟨c, hc, hsuffix.trans (List.suffix_append _ _)⟩
    obtain ⟨b', rfl⟩ := List.length_eq_one_iff.mp ((hagree _ _ _ _ hallowed hends hstarts).mp rfl)
    obtain ⟨t', rfl, hrest⟩ := hnext.of_append hsolid
    refine ⟨_, t', _, ⟨digits, f, [b'], unit, hne, hall, hf, Or.inr ⟨b', ?_, rfl⟩, hunit, rfl⟩, by simp, hrest⟩
    exact hg'.blank b' List.mem_cons_self

theorem respects_durations (hagree : ∀ word g g' next, allowed word g g' next → EndsInDigit word →
    StartsWithUnit next → (g.length = 1 ↔ g'.length = 1)) : durations.Respects allowed := by
  intro word s t before before' r h hsame hs
  obtain ⟨a, ha, rfl, hbefore, hend⟩ := duration_eq_some_iff.mp hs
  have hhead : ∀ c ∈ r.head?, isWord c = true → digit c = true := by
    cases r with
    | nil => exact fun _ hc => nomatch hc
    | cons d r =>
      intro c hc hword
      obtain rfl := Option.some.inj hc
      have hnot : isWord d = false := hend
      rw [hnot] at hword
      cases hword
  obtain ⟨a', r', word', ha', rfl, hrest⟩ := h.span hagree ha hhead
  have hne := ne_nil_of_exists_cons ha.exists_cons
  have hne' := ne_nil_of_exists_cons ha'.exists_cons
  refine ⟨a, a', r', word', hne, hne', ha.getLast?.trans ha'.getLast?.symm, rfl, rfl, ?_, hrest⟩
  refine duration_eq_some_iff.mpr ⟨a', ha', rfl, hsame ▸ hbefore, ?_⟩
  rw [← hrest.head?_any fun _ => Text.isWord_of_isBlank]
  exact hend

end Overseer.Noise
