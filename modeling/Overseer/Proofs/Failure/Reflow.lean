import Overseer.Proofs.Failure.Layout

/-! # Texts with other white space are normalized alike

Replacing the matches of a pattern in two texts that differ in their white space leaves two texts that differ in their
white space (`Relaid.replaceFrom`). The places at which white space matters are no more than before: a token has no
digit, no unit and no colon, so what a word ends in, up to a token, and what the next one begins with have been there
all the time (`Trails`, `startsWithClock_of_replaceFrom`, `startsWithUnit_of_replaceFrom`). In the end white space is
collapsed, and then nothing is left in which the texts differ.
-/

namespace Overseer.Noise

open Text (isBlank isWord)

variable {k : Kind} {allowed allowed' : (word run run' next : List Char) → Prop}
  {before before' : Option Char} {word word' s t : List Char}

/-! ## The places at which white space matters -/

/-- What the first word ends in, the second one ends in too, up to a token. -/
def Trails (word' word : List Char) : Prop := ∀ a, '>' ∉ a → a <:+ word' → a <:+ word

theorem trails_self (word : List Char) : Trails word word := fun _ _ h => h

theorem Trails.concat (h : Trails word' word) (c : Char) : Trails (word' ++ [c]) (word ++ [c]) := by
  intro a ha hsuffix
  rcases List.suffix_concat_iff.mp hsuffix with rfl | ⟨b, rfl, hb⟩
  · exact List.nil_suffix
  · have hb' : '>' ∉ b := fun hmem => ha (List.mem_append_left [c] hmem)
    exact List.suffix_concat_iff.mpr (Or.inr ⟨b, rfl, h b hb' hb⟩)

theorem trails_token (hk : k.Marks) (word' word : List Char) : Trails (word' ++ k.token) word := by
  intro a ha hsuffix
  obtain ⟨name, htoken, -⟩ := hk.token
  rw [htoken, ← List.cons_append, ← List.append_assoc] at hsuffix
  rcases List.suffix_concat_iff.mp hsuffix with rfl | ⟨b, rfl, -⟩
  · exact List.nil_suffix
  · exact absurd (List.mem_append_right b (List.mem_singleton_self '>')) ha

theorem Trails.endsInDigit (h : Trails word' word) (hends : EndsInDigit word') : EndsInDigit word := by
  obtain ⟨c, hc, hsuffix⟩ := hends
  refine ⟨c, hc, h [c] ?_ hsuffix⟩
  rw [List.mem_singleton]
  rintro rfl
  exact absurd hc (by decide)

theorem Trails.endsInDate (h : Trails word' word) (hends : EndsInDate word') : EndsInDate word := by
  obtain ⟨date, hdate, hsuffix⟩ := hends
  refine ⟨date, hdate, h date (fun hmem => ?_) hsuffix⟩
  rcases hdate.mem hmem with hc | hc
  · exact absurd hc (by decide)
  · exact absurd hc (by decide)

theorem startsWithClock_of_replaceFrom (hk : k.Marks) (h : StartsWithClock (k.replaceFrom before 0 s)) :
    StartsWithClock s := by
  obtain ⟨clock, hclock, rest, hrest⟩ := h
  have hscan := scan_replaceFrom hk.takes before s
  rw [← hrest] at hscan
  have hbracket : ∀ c ∈ clock, c ≠ '<' := by
    rintro c hc rfl
    rcases hclock.mem hc with h | h
    · exact absurd h (by decide)
    · exact absurd h (by decide)
  obtain ⟨t, rfl, -⟩ := hscan.copied hk hbracket
  exact ⟨clock, hclock, List.prefix_append clock t⟩

theorem startsWithUnit_of_replaceFrom (hk : k.Marks) (h : StartsWithUnit (k.replaceFrom before 0 s)) :
    StartsWithUnit s := by
  obtain ⟨unit, rest, hunit, he, hrest⟩ := h
  have hscan := scan_replaceFrom hk.takes before s
  rw [he] at hscan
  have hbracket : ∀ c ∈ unit, c ≠ '<' := by
    rintro c hc rfl
    exact absurd (hunit.mem hc) (by decide)
  obtain ⟨t, rfl, hcopied⟩ := hscan.copied hk hbracket
  refine ⟨unit, t, hunit, rfl, fun c hc hword => ?_⟩
  cases hcopied with
  | nil => cases hc
  | keep => exact hrest c hc hword
  | swap hne hsome =>
    -- What has been replaced began with a digit.
    obtain ⟨d, a, hd, he⟩ := hk.begins _ _ _ hsome
    rw [he] at hc
    exact Option.some.inj hc ▸ hd

/-! ## Replacing in both texts -/

theorem worded_replaceFrom (hk : k.Marks) (h : Worded s) : Worded (k.replaceFrom before 0 s) := by
  obtain ⟨c, rest, rfl, hc⟩ := h.exists_cons
  have hscan := scan_replaceFrom hk.takes before (c :: rest)
  generalize k.replaceFrom before 0 (c :: rest) = out at hscan
  generalize hs : c :: rest = x at hscan
  cases hscan with
  | nil => cases hs
  | keep =>
    rw [← (List.cons.inj hs).1]
    exact solid_iff.mpr hc
  | swap =>
    obtain ⟨name, htoken, -⟩ := hk.token
    rw [htoken]
    rfl

/-- Replacing keeps two texts the same but for their white space. Strong induction on the text, since a match is
replaced as a whole; where nothing is replaced, by cases on how the texts go on. -/
theorem Relaid.replaceFrom (hk : k.Marks) (hmutual : Mutual allowed) (hrespects : k.Respects allowed)
    (hsites : ∀ word word' g g' s before, Trails word' word → allowed word g g' (firstWord s) →
      allowed' word' g g' (firstWord (k.replaceFrom before 0 s)))
    (h : Relaid allowed word s t) (htrails : Trails word' word) (hsame : before.any isWord = before'.any isWord) :
    Relaid allowed' word' (k.replaceFrom before 0 s) (k.replaceFrom before' 0 t) := by
  induction hn : s.length using Nat.strong_induction_on generalizing word word' s t before before' with
  | _ n ih =>
    subst hn
    have hnondigit {x : List Char} (hx : ∀ c ∈ x, isBlank c = true) : ∀ c ∈ x, digit c = false := fun c hc =>
      digit_of_isBlank (hx c hc)
    cases hpattern : k.pattern before s with
    | some r =>
      obtain ⟨a, a', r', word₁, hne, hne', hlast, rfl, rfl, hpattern', hrest⟩ :=
        hrespects _ _ _ _ _ _ h hsame hpattern
      rw [Kind.replaceFrom_swap hne hpattern, Kind.replaceFrom_swap hne' hpattern']
      refine .append (fun c hc => (hk.mem_token hc).2) ?_
      refine ih r.length ?_ hrest (trails_token hk word' word₁) (by rw [hlast]) rfl
      rw [List.length_append]
      exact Nat.lt_add_of_pos_left (List.length_pos_iff.mpr hne)
    | none =>
      have hpattern' : k.pattern before' t = none := by
        rw [Option.eq_none_iff_forall_ne_some]
        intro r hr
        obtain ⟨_, _, _, _, -, -, -, -, -, hboth, -⟩ := hrespects _ _ _ _ _ _ (h.symm hmutual) hsame.symm hr
        rw [hpattern] at hboth
        cases hboth
      cases h with
      | ends hs ht =>
        rw [hk.replaceFrom_eq_self (hnondigit hs), hk.replaceFrom_eq_self (hnondigit ht)]
        exact .ends hs ht
      | @char word s t c hc rest =>
        rw [Kind.replaceFrom_keep hpattern, Kind.replaceFrom_keep hpattern']
        exact .char hc (ih s.length (Nat.lt_succ_self _) rest (htrails.concat c) rfl rfl)
      | @gap word g g' s t hg hg' hs hallowed rest =>
        have hblank {x : List Char} (hx : Run x) (b : Option Char) : (x.getLast?.or b).any isWord = false := by
          rw [List.getLast?_eq_some_getLast hx.ne_nil]
          exact Text.isWord_of_isBlank (hx.blank _ (List.getLast_mem hx.ne_nil))
        rw [hk.replaceFrom_append (hnondigit hg.blank), hk.replaceFrom_append (hnondigit hg'.blank)]
        refine .gap hg hg' (worded_replaceFrom hk hs) (hsites _ _ _ _ _ _ htrails hallowed) ?_
        refine ih s.length ?_ rest (trails_self []) (by rw [hblank hg, hblank hg']) rfl
        rw [List.length_append]
        exact Nat.lt_add_of_pos_left (List.length_pos_iff.mpr hg.ne_nil)

theorem Reflowed.replace (hk : k.Marks) (hmutual : Mutual allowed) (hrespects : k.Respects allowed)
    (hsites : ∀ word word' g g' s before, Trails word' word → allowed word g g' (firstWord s) →
      allowed' word' g g' (firstWord (k.replaceFrom before 0 s)))
    (h : Reflowed allowed s t) : Reflowed allowed' (k.replace s) (k.replace t) := by
  obtain ⟨lead, lead', s, t, hlead, hlead', rfl, rfl, hrest⟩ := h
  have hnone {x : List Char} (hx : ∀ c ∈ x, isBlank c = true) : (x.getLast?.or none).any isWord = false := by
    rw [Option.or_none]
    exact Text.any_isWord_of_blank fun c hc => hx c (List.mem_of_getLast? hc)
  refine ⟨lead, lead', _, _, hlead, hlead', hk.replaceFrom_append (fun c hc => digit_of_isBlank (hlead c hc)) none s,
    hk.replaceFrom_append (fun c hc => digit_of_isBlank (hlead' c hc)) none t, ?_⟩
  exact hrest.replaceFrom hk hmutual hrespects hsites (trails_self []) (by rw [hnone hlead, hnone hlead'])

theorem agree_replaceFrom (hk : k.Marks) {g g' : List Char} (htrails : Trails word' word)
    (h : Agree word g g' (firstWord s)) : Agree word' g g' (firstWord (k.replaceFrom before 0 s)) := by
  refine ⟨fun hword hnext => h.1 (htrails.endsInDigit hword) ?_, fun hword hnext => h.2 (htrails.endsInDate hword) ?_⟩
  · exact startsWithUnit_firstWord.mpr (startsWithUnit_of_replaceFrom hk (startsWithUnit_firstWord.mp hnext))
  · exact startsWithClock_firstWord.mpr (startsWithClock_of_replaceFrom hk (startsWithClock_firstWord.mp hnext))

/-- Timestamps and addresses first, which leave the numbers with a unit as they are; then these; and long numbers last,
where white space does not matter any more. -/
theorem mark_reflowed (h : Reflowed Agree s t) : Reflowed Anyhow (mark s) (mark t) := by
  have hstamps : Reflowed Agree (stamps.replace s) (stamps.replace t) :=
    h.replace marks_stamps mutual_agree (respects_stamps fun _ _ _ _ ha => ha.2)
      fun _ _ _ _ _ _ => agree_replaceFrom marks_stamps
  have haddresses : Reflowed Agree _ _ :=
    hstamps.replace marks_addresses mutual_agree (respects_addresses Agree)
      fun _ _ _ _ _ _ => agree_replaceFrom marks_addresses
  have hdurations : Reflowed Anyhow _ _ :=
    haddresses.replace marks_durations mutual_agree (respects_durations fun _ _ _ _ ha => ha.1)
      fun _ _ _ _ _ _ _ _ => trivial
  exact hdurations.replace marks_longNumbers mutual_anyhow (respects_longNumbers Anyhow)
    fun _ _ _ _ _ _ _ _ => trivial

/-! ## Collapsing white space -/

theorem layout_before (before before' : Option Char) (n : Nat) (s : List Char) :
    layout.replaceFrom before n s = layout.replaceFrom before' n s := by
  cases s with
  | nil =>
    cases n with
    | zero => rfl
    | succ n => rfl
  | cons c s =>
    cases n with
    | zero => rfl
    | succ n => rfl

theorem collapse_cons {c : Char} (hc : isBlank c = false) (s : List Char) :
    layout.replace (c :: s) = c :: layout.replace s := by
  have hnone : layout.pattern none (c :: s) = none := by
    show blanks (c :: s) = none
    rw [blanks, run, times, one, hc]
    rfl
  rw [Kind.replace, Kind.replaceFrom_keep hnone, layout_before (some c) none]
  rfl

theorem collapse_run {g : List Char} (hg : Run g) (hs : Ends isBlank s) :
    layout.replace (g ++ s) = ' ' :: layout.replace s := by
  have hsome : layout.pattern none (g ++ s) = some s :=
    run_eq_some_iff.mpr ⟨g, List.length_pos_iff.mpr hg.ne_nil, hg.blank, hs, rfl⟩
  rw [Kind.replace, Kind.replaceFrom_swap hg.ne_nil hsome, layout_before g.getLast? none]
  rfl

theorem Worded.ends (h : Worded s) : Ends isBlank s := by
  obtain ⟨c, rest, rfl, hc⟩ := h.exists_cons
  exact ends_cons hc rest

theorem stripEnd_cons {x y : List Char} (h : Text.stripEnd x = Text.stripEnd y) (c : Char) :
    Text.stripEnd (c :: x) = Text.stripEnd (c :: y) := by
  have hdrop : x.reverse.dropWhile isBlank = y.reverse.dropWhile isBlank := List.reverse_injective h
  rw [Text.stripEnd, Text.stripEnd, List.reverse_cons, List.reverse_cons, List.dropWhile_append,
    List.dropWhile_append, hdrop]

theorem stripEnd_collapse_of_blank (h : ∀ c ∈ s, isBlank c = true) : Text.stripEnd (layout.replace s) = [] := by
  cases s with
  | nil => rfl
  | cons c s =>
    have hrun : Run (c :: s) := ⟨List.cons_ne_nil c s, h⟩
    have hcollapse := collapse_run hrun (ends_nil isBlank)
    rw [List.append_nil] at hcollapse
    rw [hcollapse]
    decide

theorem Relaid.stripEnd_collapse (h : Relaid allowed word s t) :
    Text.stripEnd (layout.replace s) = Text.stripEnd (layout.replace t) := by
  induction h with
  | ends hs ht => rw [stripEnd_collapse_of_blank hs, stripEnd_collapse_of_blank ht]
  | char hc _ ih => rw [collapse_cons hc, collapse_cons hc, stripEnd_cons ih]
  | gap hg hg' hs _ rest ih =>
    rw [collapse_run hg hs.ends, collapse_run hg' (rest.worded hs).ends, stripEnd_cons ih]

theorem Relaid.stripStart (h : Relaid allowed word s t) :
    ∃ word', Relaid allowed word' (Text.stripStart s) (Text.stripStart t) := by
  cases h with
  | ends hs ht =>
    rw [Text.stripStart, Text.stripStart, List.dropWhile_eq_nil_iff.mpr hs, List.dropWhile_eq_nil_iff.mpr ht]
    exact ⟨word, .ends (List.forall_mem_nil _) (List.forall_mem_nil _)⟩
  | char hc rest =>
    rw [Text.stripStart_of_head hc, Text.stripStart_of_head hc]
    exact ⟨word, .char hc rest⟩
  | gap hg hg' hs _ rest =>
    rw [Text.stripStart, Text.stripStart, List.dropWhile_append_of_pos hg.blank, List.dropWhile_append_of_pos hg'.blank,
      dropWhile_of_ends hs.ends, dropWhile_of_ends (rest.worded hs).ends]
    exact ⟨[], rest⟩

theorem stripStart_collapse (s : List Char) :
    Text.stripStart (layout.replace s) = layout.replace (Text.stripStart s) := by
  have hkeep {x : List Char} (hx : Ends isBlank x) : Text.stripStart (layout.replace x) = layout.replace x := by
    cases x with
    | nil => rfl
    | cons c x => rw [collapse_cons hx.head, Text.stripStart_of_head hx.head]
  have hends : Ends isBlank (Text.stripStart s) := ends_dropWhile isBlank s
  have hsplit : s = s.takeWhile isBlank ++ Text.stripStart s := List.takeWhile_append_dropWhile.symm
  cases hlead : s.takeWhile isBlank with
  | nil =>
    rw [hlead, List.nil_append] at hsplit
    rw [← hsplit] at hends ⊢
    exact hkeep hends
  | cons c g =>
    have hrun : Run (s.takeWhile isBlank) :=
      ⟨by rw [hlead]; exact List.cons_ne_nil c g, fun d hd => List.mem_takeWhile_imp hd⟩
    have hcollapse := collapse_run hrun hends
    rw [← hsplit] at hcollapse
    have hspace : Text.stripStart (' ' :: layout.replace (Text.stripStart s)) =
        Text.stripStart (layout.replace (Text.stripStart s)) := List.dropWhile_cons_of_pos (by decide)
    rw [hcollapse, hspace, hkeep hends]

theorem strip_collapse (h : Reflowed allowed s t) :
    Text.strip (layout.replace s) = Text.strip (layout.replace t) := by
  obtain ⟨lead, lead', s, t, hlead, hlead', rfl, rfl, hrest⟩ := h
  obtain ⟨word, hstripped⟩ := hrest.stripStart
  have hskip {x : List Char} (hx : ∀ c ∈ x, isBlank c = true) (y : List Char) :
      Text.stripStart (x ++ y) = Text.stripStart y := List.dropWhile_append_of_pos hx
  rw [Text.strip, Text.strip, stripStart_collapse, stripStart_collapse, hskip hlead, hskip hlead',
    hstripped.stripEnd_collapse]

/-- Texts that differ in their white space alone are normalized to the same text, if they agree where it matters. -/
theorem normalizeChars_reflowed (h : Reflowed Agree s t) : normalizeChars s = normalizeChars t := by
  rw [normalizeChars_eq, normalizeChars_eq, strip_collapse (mark_reflowed h)]

end Overseer.Noise
