import Overseer.Proofs.Failure.Replace

/-! # What has been replaced is not found again

A kind of noise finds nothing in a text from which it has been replaced, and the replacements after it bring nothing of
it back: whatever a pattern could find in a text with tokens has been copied, and would have been found before
(`Scan.source`). A number with a unit is the one case in which the neighbours matter. A token never begins where a word
goes on, except for a long number right after the unit; texts without such places are `Unglued`, and marking them twice
is marking them once (`mark_mark`).
-/

namespace Overseer.Noise

open Text (isBlank isWord)

variable {k k' : Kind} {root : List Char → Prop} {before : Option Char} {s out a x y : List Char}

/-! ## Where a text comes from -/

/-- The character before a place, in the text and in what has become of it: the same one, unless a match ends there. -/
def SameBefore (k : Kind) (before : Option Char) (u v x : List Char) : Prop :=
  u.getLast?.or before = x.getLast?.or before ∨
    ∃ u' b, u = u' ++ b ∧ b ≠ [] ∧ k.pattern (u'.getLast?.or before) (b ++ v) = some v

/-- A token at the start of a text lies before a character that is not in it. -/
theorem exists_append_of_notMem {token : List Char} {c : Char} (hc : c ∉ token) (h : x ++ c :: y = token ++ out) :
    ∃ rest, x = token ++ rest ∧ rest ++ c :: y = out := by
  rcases List.append_eq_append_iff.mp h with ⟨z, htoken, hz⟩ | ⟨z, hx, hz⟩
  · cases z with
    | nil => exact ⟨[], by rw [htoken, List.append_nil, List.append_nil], hz⟩
    | cons d z =>
      rw [htoken, (List.cons.inj hz).1] at hc
      exact absurd (List.mem_append_right x List.mem_cons_self) hc
  · exact ⟨z, hx, hz.symm⟩

/-- A character that is in no token has been copied from a place where nothing was found. -/
theorem Scan.position (hk : k.Marks) {c : Char} (hc : c ∉ k.token) (h : Scan k before s (x ++ c :: y)) :
    ∃ u v, s = u ++ c :: v ∧ k.pattern (u.getLast?.or before) (c :: v) = none ∧ Scan k (some c) v y ∧
      SameBefore k before u (c :: v) x := by
  generalize hout : x ++ c :: y = out at h
  induction h generalizing x with
  | nil =>
    cases x with
    | nil => cases hout
    | cons d x => cases hout
  | @keep before d s out hnone rest ih =>
    cases x with
    | nil =>
      obtain ⟨rfl, rfl⟩ := List.cons.inj hout
      exact ⟨[], s, rfl, hnone, rest, Or.inl rfl⟩
    | cons e x =>
      obtain ⟨rfl, htail⟩ := List.cons.inj hout
      obtain ⟨u, v, rfl, hpattern, hscan, hsame⟩ := ih htail
      refine ⟨e :: u, v, rfl, by rwa [getLast?_cons_or], hscan, ?_⟩
      rcases hsame with hsame | ⟨u', b, rfl, hb, hmatch⟩
      · exact Or.inl (by rw [getLast?_cons_or, getLast?_cons_or, hsame])
      · exact Or.inr ⟨e :: u', b, rfl, hb, by rwa [getLast?_cons_or]⟩
  | @swap before b s out hne hsome rest ih =>
    -- The token comes first, since the character is not in it.
    obtain ⟨x, rfl, hrest⟩ := exists_append_of_notMem hc hout
    cases x with
    | nil =>
      cases rest with
      | nil => cases hrest
      | keep hnone rest =>
        obtain ⟨rfl, rfl⟩ := List.cons.inj hrest
        have hbefore := getLast?_append_or hne [] before
        rw [List.append_nil] at hbefore
        exact ⟨b, _, rfl, by rwa [hbefore], rest, Or.inr ⟨[], b, rfl, hne, hsome⟩⟩
      | swap =>
        obtain ⟨name, htoken, -⟩ := hk.token
        rw [htoken] at hrest hc
        exact absurd ((List.cons.inj hrest).1 ▸ List.mem_cons_self) hc
    | cons d x =>
      obtain ⟨u, v, rfl, hpattern, hscan, hsame⟩ := ih hrest
      refine ⟨b ++ u, v, (List.append_assoc b u _).symm, by rwa [getLast?_append_or hne], hscan, ?_⟩
      rcases hsame with hsame | ⟨u', b', rfl, hb', hmatch⟩
      · refine Or.inl ?_
        rw [getLast?_append_or hne, hsame, List.getLast?_append, List.getLast?_eq_some_getLast (List.cons_ne_nil d x)]
        rfl
      · exact Or.inr ⟨b ++ u', b', (List.append_assoc b u' b').symm, hb', by rwa [getLast?_append_or hne]⟩

/-- What begins with a digit and has no angle bracket has been copied, from a place where nothing was found. -/
theorem source_replace (hk : k.Marks) (hbegins : ∃ c rest, a = c :: rest ∧ digit c = true)
    (hbracket : ∀ c ∈ a, c ≠ '<') (h : k.replace s = x ++ (a ++ y)) :
    ∃ u v, s = u ++ (a ++ v) ∧ k.pattern u.getLast? (a ++ v) = none ∧ Scan k a.getLast? v y ∧
      SameBefore k none u (a ++ v) x := by
  obtain ⟨c, rest, rfl, hc⟩ := hbegins
  have hscan := scan_replaceFrom hk.takes none s
  rw [show k.replaceFrom none 0 s = x ++ c :: (rest ++ y) from h] at hscan
  have hmem : c ∉ k.token := fun hmem => by
    rw [(hk.mem_token hmem).1] at hc
    cases hc
  obtain ⟨u, v, rfl, hpattern, hrest, hsame⟩ := hscan.position hk hmem
  obtain ⟨v, rfl, hcopied⟩ := hrest.copied hk (List.forall_mem_cons.mp hbracket).2
  rw [Option.or_none] at hpattern
  refine ⟨u, v, rfl, hpattern, ?_, hsame⟩
  rwa [← getLast?_cons_or c rest none, Option.or_none] at hcopied

theorem infix_of_replace (hk : k.Marks) (hbegins : ∃ c rest, a = c :: rest ∧ digit c = true)
    (hbracket : ∀ c ∈ a, c ≠ '<') (h : a <:+: k.replace s) : a <:+: s := by
  obtain ⟨x, y, hxy⟩ := h
  obtain ⟨u, v, rfl, -⟩ := source_replace hk hbegins hbracket (hxy.symm.trans (List.append_assoc x a y))
  exact ⟨u, v, List.append_assoc u a v⟩

/-! ## Texts in which nothing is found -/

namespace Kind

/-- Nothing of this kind is in the text. -/
def Clean (k : Kind) (s : List Char) : Prop := ∀ x y, s = x ++ y → k.pattern x.getLast? y = none

theorem Clean.replace (h : k.Clean s) : k.replace s = s := by
  suffices hsuffix : ∀ y x, s = x ++ y → k.replaceFrom x.getLast? 0 y = y from hsuffix s [] rfl
  intro y
  induction y with
  | nil => exact fun _ _ => rfl
  | cons c y ih =>
    intro x hx
    have hrest := ih (x ++ [c]) (by rw [hx, List.append_assoc]; rfl)
    rw [List.getLast?_concat] at hrest
    rw [replaceFrom_keep (h x (c :: y) hx), hrest]

/-- A kind of noise that is found wherever one of its roots is, whatever is around it. -/
structure Rooted (k : Kind) (root : List Char → Prop) : Prop where
  found : ∀ before s, k.pattern before s = none ↔ ∀ a, root a → ¬ a <+: s
  begins : ∀ a, root a → ∃ c rest, a = c :: rest ∧ digit c = true
  bracket : ∀ a, root a → ∀ c ∈ a, c ≠ '<'

namespace Rooted

theorem clean_iff (h : k.Rooted root) : k.Clean s ↔ ∀ a, root a → ¬ a <:+: s := by
  constructor
  · rintro hclean a ha ⟨x, y, rfl⟩
    exact (h.found _ _).mp (hclean x (a ++ y) (List.append_assoc x a y)) a ha (List.prefix_append a y)
  · rintro hroots x y rfl
    exact (h.found _ _).mpr fun a ha hfront => hroots a ha (hfront.isInfix.trans (List.suffix_append x y).isInfix)

theorem clean_replace (h : k.Rooted root) (hk : k.Marks) (s : List Char) : k.Clean (k.replace s) := by
  refine h.clean_iff.mpr fun a ha => ?_
  rintro ⟨x, y, hxy⟩
  obtain ⟨u, v, -, hnone, -⟩ :=
    source_replace hk (h.begins a ha) (h.bracket a ha) (hxy.symm.trans (List.append_assoc x a y))
  exact (h.found _ _).mp hnone a ha (List.prefix_append a v)

/-- Replacing another kind leaves the text clean. -/
theorem clean_replace_of_clean (h : k.Rooted root) (hk' : k'.Marks) (hclean : k.Clean s) : k.Clean (k'.replace s) :=
  h.clean_iff.mpr fun a ha hwithin =>
    h.clean_iff.mp hclean a ha (infix_of_replace hk' (h.begins a ha) (h.bracket a ha) hwithin)

end Rooted

end Kind

theorem bracket_of_digit {c : Char} (h : digit c = true) : c ≠ '<' := by
  rintro rfl
  exact absurd h (by decide)

theorem rooted_stamps : stamps.Rooted IsStamp where
  found before s := by
    show timestamp s = none ↔ _
    rw [timestamp_eq, Option.map_eq_none_iff, Option.eq_none_iff_forall_ne_some]
    constructor
    · rintro hnone a ha ⟨r, rfl⟩
      exact hnone r (stamp_eq_some_iff.mpr ⟨a, ha, rfl⟩)
    · intro hroots r hr
      obtain ⟨a, ha, rfl⟩ := stamp_eq_some_iff.mp hr
      exact hroots a ha (List.prefix_append a r)
  begins _ := IsStamp.exists_cons
  bracket := by
    rintro _ ⟨date, mark, clock, hdate, hmark, hclock, rfl⟩ c hc
    rcases List.mem_append.mp hc with hc | hc
    · rcases hdate.mem hc with hc | rfl
      · exact bracket_of_digit hc
      · decide
    · rcases List.mem_cons.mp hc with rfl | hc
      · rcases hmark with rfl | rfl
        · decide
        · decide
      · rcases hclock.mem hc with hc | rfl
        · exact bracket_of_digit hc
        · decide

theorem run_eq_none_iff {p : Char → Bool} {n : Nat} :
    run p n s = none ↔ ∀ a : List Char, a.length = n → (∀ c ∈ a, p c = true) → ¬ a <+: s := by
  rw [run, Option.map_eq_none_iff, Option.eq_none_iff_forall_ne_some]
  constructor
  · rintro hnone a ha hall ⟨r, rfl⟩
    exact hnone r (times_eq_some_iff.mpr ⟨a, ha, hall, rfl⟩)
  · intro hroots r hr
    obtain ⟨a, ha, hall, rfl⟩ := times_eq_some_iff.mp hr
    exact hroots a ha hall (List.prefix_append a r)

theorem rooted_longNumbers : longNumbers.Rooted (Digits 5) where
  found _ _ := run_eq_none_iff.trans ⟨fun h a ha => h a ha.1 ha.2, fun h a hlen hall => h a ⟨hlen, hall⟩⟩
  begins _ := Digits.exists_cons
  bracket _ ha c hc := bracket_of_digit (ha.2 c hc)

/-- The shortest address. -/
def IsAddressRoot (a : List Char) : Prop := ∃ c, Text.isHexDigit c = true ∧ a = ['0', 'x', c]

theorem rooted_addresses : addresses.Rooted IsAddressRoot where
  found before s := by
    show address s = none ↔ _
    rw [Option.eq_none_iff_forall_ne_some]
    constructor
    · rintro hnone _ ⟨c, hc, rfl⟩ ⟨r, rfl⟩
      have hrun : run Text.isHexDigit 1 (c :: r) ≠ none := fun h =>
        run_eq_none_iff.mp h [c] rfl (List.forall_mem_singleton.mpr hc) (List.prefix_append [c] r)
      obtain ⟨t, ht⟩ := Option.ne_none_iff_exists'.mp hrun
      exact hnone t ht
    · intro hroots r hr
      obtain ⟨a, ⟨digits, hne, hall, rfl⟩, -, rfl⟩ := address_eq_some_iff.mp hr
      obtain ⟨c, rest, rfl⟩ := List.exists_cons_of_ne_nil hne
      exact hroots _ ⟨c, hall c List.mem_cons_self, rfl⟩ ⟨rest ++ r, rfl⟩
  begins a ha := by
    obtain ⟨c, -, rfl⟩ := ha
    exact ⟨'0', ['x', c], rfl, by decide⟩
  bracket := by
    rintro _ ⟨c, hc, rfl⟩ d hd
    simp only [List.mem_cons, List.not_mem_nil, or_false] at hd
    rcases hd with rfl | rfl | rfl
    · decide
    · decide
    · rintro rfl
      exact absurd hc (by decide)

/-! ## Numbers with a unit -/

/-- No number with a unit runs into a long number. -/
def Unglued (s : List Char) : Prop :=
  ∀ span number, IsSpan span → IsLongNumber number → ¬ span ++ number <:+: s

theorem IsSpan.bracket (h : IsSpan a) : ∀ c ∈ a, c ≠ '<' := by
  intro c hc
  rcases h.mem hc with hc | hc | hc
  · exact bracket_of_digit hc
  · rintro rfl
    exact absurd hc (by decide)
  · rintro rfl
    exact absurd hc (by decide)

theorem Unglued.replace (hk : k.Marks) (h : Unglued s) : Unglued (k.replace s) := by
  intro span number hspan hnumber hwithin
  refine h span number hspan hnumber (infix_of_replace hk ?_ ?_ hwithin)
  · obtain ⟨c, rest, rfl, hc⟩ := hspan.exists_cons
    exact ⟨c, rest ++ number, rfl, hc⟩
  · exact List.forall_mem_append.mpr ⟨hspan.bracket, fun c hc => bracket_of_digit (hnumber.2 c hc)⟩

/-- A number with a unit that is found after replacing has been there before, if the words that it is between are what
they were. -/
theorem duration_replace (hk : k.Marks)
    (hbefore : ∀ u b v, k.pattern u (b ++ v) = some v → Ends digit v)
    (hafter : ∀ a v y u, IsSpan a → Scan k a.getLast? v y → s = u ++ (a ++ v) → y.head?.any isWord = false →
      v.head?.any isWord = false)
    (h : k.replace s = x ++ y) (hsome : durations.pattern x.getLast? y ≠ none) :
    ∃ u v, s = u ++ v ∧ k.pattern u.getLast? v = none ∧ durations.pattern u.getLast? v ≠ none := by
  obtain ⟨r, hr⟩ := Option.ne_none_iff_exists'.mp hsome
  obtain ⟨a, ha, rfl, hstart, hend⟩ := duration_eq_some_iff.mp hr
  obtain ⟨u, v, hs, hnone, hscan, hsame⟩ := source_replace hk ha.exists_cons ha.bracket h
  refine ⟨u, a ++ v, hs, hnone, Option.ne_none_iff_exists'.mpr ⟨v, duration_eq_some_iff.mpr ⟨a, ha, rfl, ?_, ?_⟩⟩⟩
  · rcases hsame with hsame | ⟨u', b, -, -, hmatch⟩
    · rw [Option.or_none, Option.or_none] at hsame
      rw [hsame]
      exact hstart
    · have hdigit := hbefore _ b _ hmatch
      obtain ⟨c, rest, rfl, hc⟩ := ha.exists_cons
      rw [hdigit c rfl] at hc
      cases hc
  · exact hafter a v r u ha hscan hs hend

theorem clean_durations (s : List Char) : durations.Clean (durations.replace s) := by
  have hbefore (u : Option Char) (b v : List Char) (hmatch : durations.pattern u (b ++ v) = some v) :
      Ends digit v := by
    obtain ⟨_, -, -, -, hend⟩ := duration_eq_some_iff.mp hmatch
    exact ends_digit_of_word hend
  have hafter (a v y u : List Char) (ha : IsSpan a) (hscan : Scan durations a.getLast? v y) (_ : s = u ++ (a ++ v))
      (hend : y.head?.any isWord = false) : v.head?.any isWord = false := by
    cases hscan with
    | nil => rfl
    | keep => exact hend
    | swap hne hmatch =>
      -- No duration begins right after a unit.
      obtain ⟨_, -, -, hstart, -⟩ := duration_eq_some_iff.mp hmatch
      rw [ha.getLast?] at hstart
      exact absurd hstart (by decide)
  intro x y h
  by_contra hsome
  obtain ⟨u, v, -, hnone, hfound⟩ := duration_replace marks_durations hbefore hafter h hsome
  exact hfound hnone

theorem clean_durations_longNumbers (hclean : durations.Clean s) (hunglued : Unglued s) :
    durations.Clean (longNumbers.replace s) := by
  have hbefore (u : Option Char) (b v : List Char) (hmatch : longNumbers.pattern u (b ++ v) = some v) :
      Ends digit v := by
    obtain ⟨_, -, hends, -⟩ := longNumber_eq_some_iff.mp hmatch
    exact hends
  have hafter (a v y u : List Char) (ha : IsSpan a) (hscan : Scan longNumbers a.getLast? v y) (hs : s = u ++ (a ++ v))
      (hend : y.head?.any isWord = false) : v.head?.any isWord = false := by
    cases hscan with
    | nil => rfl
    | keep => exact hend
    | swap hne hmatch =>
      obtain ⟨number, hnumber, -, he⟩ := longNumber_eq_some_iff.mp hmatch
      rw [he, ← List.append_assoc a] at hs
      exact absurd ⟨u, _, (List.append_assoc u _ _).trans hs.symm⟩ (hunglued a number ha hnumber)
  intro x y h
  by_contra hsome
  obtain ⟨u, v, hs, -, hfound⟩ := duration_replace marks_longNumbers hbefore hafter h hsome
  exact hfound (hclean u v hs)

/-- In a text where no unit runs into a long number, all noise is gone after it has been replaced once. -/
theorem mark_mark (h : Unglued s) : mark (mark s) = mark s := by
  have hstamps : stamps.Clean (mark s) :=
    rooted_stamps.clean_replace_of_clean marks_longNumbers
      (rooted_stamps.clean_replace_of_clean marks_durations
        (rooted_stamps.clean_replace_of_clean marks_addresses (rooted_stamps.clean_replace marks_stamps s)))
  have haddresses : addresses.Clean (mark s) :=
    rooted_addresses.clean_replace_of_clean marks_longNumbers
      (rooted_addresses.clean_replace_of_clean marks_durations
        (rooted_addresses.clean_replace marks_addresses (stamps.replace s)))
  have hdurations : durations.Clean (mark s) :=
    clean_durations_longNumbers (clean_durations _)
      (((h.replace marks_stamps).replace marks_addresses).replace marks_durations)
  have hlongNumbers : longNumbers.Clean (mark s) := rooted_longNumbers.clean_replace marks_longNumbers _
  show longNumbers.replace (durations.replace (addresses.replace (stamps.replace (mark s)))) = mark s
  rw [hstamps.replace, haddresses.replace, hdurations.replace, hlongNumbers.replace]

end Overseer.Noise
