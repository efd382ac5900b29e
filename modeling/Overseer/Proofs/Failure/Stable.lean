import Overseer.Proofs.Failure.Clean
import Overseer.Proofs.Failure.Reflow

/-! # Normalized texts stay as they are

In a `Neat` text white space is single spaces between words, and so it is in every normalized text. The noise is gone
from it as well, unless collapsing the white space has brought a number and its unit or a date and its time of day
together, or the replacement of a long number has freed a unit. In the second round there is no such place left, so a
third round changes nothing (`normalize_layout`).
-/

namespace Overseer.Noise

open Text (isBlank isWord)

variable {k : Kind} {allowed : (word run run' next : List Char) → Prop} {word s t a x y : List Char}

/-! ## Neat texts -/

/-- White space is spaces, each of them before a word. -/
def Spaced (s : List Char) : Prop := ∀ x b y, s = x ++ b :: y → isBlank b = true → b = ' ' ∧ Worded y

/-- White space is single spaces between words. -/
structure Neat (s : List Char) : Prop where
  head : Ends isBlank s
  spaced : Spaced s

theorem spaced_nil : Spaced [] := fun x b y h => by
  cases x with
  | nil => cases h
  | cons c x => cases h

theorem Spaced.tail {c : Char} (h : Spaced (c :: s)) : Spaced s := fun x b y hs => h (c :: x) b y (by rw [hs]; rfl)

theorem Spaced.cons {c : Char} (h : Spaced s) (hc : isBlank c = true → c = ' ' ∧ Worded s) : Spaced (c :: s) := by
  intro x b y hs hb
  cases x with
  | nil =>
    obtain ⟨rfl, rfl⟩ := List.cons.inj hs
    exact hc hb
  | cons d x => exact h x b y (List.cons.inj hs).2 hb

/-- Collapsing and stripping leave a neat text as it is. -/
theorem Spaced.collapse (h : Spaced s) : layout.replace s = s := by
  induction s with
  | nil => rfl
  | cons c s ih =>
    cases hc : isBlank c with
    | false => rw [collapse_cons hc, ih h.tail]
    | true =>
      obtain ⟨rfl, hworded⟩ := h [] c s rfl hc
      have hrun : Run [' '] := ⟨List.cons_ne_nil _ _, List.forall_mem_singleton.mpr hc⟩
      exact (collapse_run hrun hworded.ends).trans (congrArg (' ' :: ·) (ih h.tail))

theorem Neat.strip (h : Neat s) : Text.strip s = s := by
  have hstart : Text.stripStart s = s := dropWhile_of_ends h.head
  rw [Text.strip, hstart, Text.stripEnd_eq, List.rdropWhile_eq_self_iff]
  intro hne hblank
  obtain ⟨-, hworded⟩ := h.spaced s.dropLast (s.getLast hne) [] (List.dropLast_append_getLast hne).symm hblank
  cases hworded

theorem Neat.replace (hk : k.Marks) (h : Neat s) : Neat (k.replace s) where
  head := by
    cases s with
    | nil => exact ends_nil isBlank
    | cons c s =>
      have hworded : Worded (c :: s) := solid_iff.mpr h.head.head
      exact (worded_replaceFrom hk hworded).ends
  spaced x b y hs hb := by
    have hscan := scan_replaceFrom hk.takes none s
    rw [show k.replaceFrom none 0 s = x ++ b :: y from hs] at hscan
    have hmem : b ∉ k.token := fun hmem => by
      rw [(hk.mem_token hmem).2] at hb
      cases hb
    obtain ⟨u, v, rfl, -, hrest, -⟩ := hscan.position hk hmem
    obtain ⟨rfl, hworded⟩ := h.spaced u b v rfl hb
    rw [hrest.eq_replaceFrom]
    exact ⟨rfl, worded_replaceFrom hk hworded⟩

theorem Neat.mark (h : Neat s) : Neat (mark s) :=
  (((h.replace marks_stamps).replace marks_addresses).replace marks_durations).replace marks_longNumbers

theorem Neat.normalizeChars (h : Neat s) : normalizeChars s = Noise.mark s := by
  rw [normalizeChars_eq, h.mark.spaced.collapse, h.mark.strip]

/-! ## Every text has a neat form -/

/-- The neat form of the rest of a text. Strong induction on the rest, since a run of white space is passed as a
whole. -/
theorem exists_spaced (hallowed : ∀ x g y word, s = x ++ (g ++ y) → Run g → Worded y → word <:+ x →
    allowed word g [' '] (firstWord y)) (hs : s = x ++ y) (hword : word <:+ x) :
    ∃ n, Spaced n ∧ Relaid allowed word y n := by
  induction hn : y.length using Nat.strong_induction_on generalizing x y word with
  | _ n ih =>
    subst hn
    cases y with
    | nil => exact ⟨[], spaced_nil, .ends (List.forall_mem_nil _) (List.forall_mem_nil _)⟩
    | cons c y =>
      cases hc : isBlank c with
      | false =>
        have hs' : s = x ++ [c] ++ y := by rw [hs, List.append_assoc]; rfl
        have hword' : word ++ [c] <:+ x ++ [c] := List.suffix_concat_iff.mpr (Or.inr ⟨word, rfl, hword⟩)
        obtain ⟨n, hspaced, hrelaid⟩ := ih y.length (Nat.lt_succ_self _) hs' hword' rfl
        refine ⟨c :: n, hspaced.cons fun hblank => ?_, .char hc hrelaid⟩
        rw [hc] at hblank
        cases hblank
      | true =>
        have hsplit : c :: y = (c :: y).takeWhile isBlank ++ (c :: y).dropWhile isBlank :=
          List.takeWhile_append_dropWhile.symm
        have hends : Ends isBlank ((c :: y).dropWhile isBlank) := ends_dropWhile isBlank (c :: y)
        have hrun : Run ((c :: y).takeWhile isBlank) :=
          ⟨by rw [List.takeWhile_cons_of_pos hc]; exact List.cons_ne_nil _ _, fun d hd => List.mem_takeWhile_imp hd⟩
        cases hrest : (c :: y).dropWhile isBlank with
        | nil =>
          rw [hrest, List.append_nil] at hsplit
          rw [← hsplit] at hrun
          exact ⟨[], spaced_nil, .ends hrun.blank (List.forall_mem_nil _)⟩
        | cons d z =>
          rw [hrest] at hsplit hends
          have hworded : Worded (d :: z) := solid_iff.mpr hends.head
          have hlength : (d :: z).length < (c :: y).length := by
            rw [hsplit, List.length_append]
            exact Nat.lt_add_of_pos_left (List.length_pos_iff.mpr hrun.ne_nil)
          have hs' : s = x ++ (c :: y).takeWhile isBlank ++ d :: z := by rw [List.append_assoc, ← hsplit, hs]
          obtain ⟨n, hspaced, hrelaid⟩ := ih (d :: z).length hlength hs' List.nil_suffix rfl
          refine ⟨[' '] ++ n, hspaced.cons fun _ => ⟨rfl, hrelaid.worded hworded⟩, ?_⟩
          rw [hsplit]
          refine .gap hrun ⟨List.cons_ne_nil _ _, List.forall_mem_singleton.mpr (by decide)⟩ hworded ?_ hrelaid
          exact hallowed x _ _ word (hs'.trans (List.append_assoc _ _ _)) hrun hworded hword

theorem exists_neat (hallowed : ∀ x g y word, s = x ++ (g ++ y) → Run g → Worded y → word <:+ x →
    allowed word g [' '] (firstWord y)) : ∃ n, Neat n ∧ Reflowed allowed s n := by
  have hsplit : s = s.takeWhile isBlank ++ s.dropWhile isBlank := List.takeWhile_append_dropWhile.symm
  have hlead : ∀ c ∈ s.takeWhile isBlank, isBlank c = true := fun c hc => List.mem_takeWhile_imp hc
  obtain ⟨n, hspaced, hrelaid⟩ := exists_spaced hallowed hsplit (List.nil_suffix : [] <:+ s.takeWhile isBlank)
  cases hrest : s.dropWhile isBlank with
  | nil =>
    have hnil : ∀ c ∈ ([] : List Char), isBlank c = true := List.forall_mem_nil _
    rw [hrest] at hsplit
    exact ⟨[], ⟨ends_nil isBlank, spaced_nil⟩, _, [], [], [], hlead, hnil, hsplit, rfl, .ends hnil hnil⟩
  | cons d z =>
    have hends : Ends isBlank (d :: z) := hrest ▸ ends_dropWhile isBlank s
    have hworded : Worded (d :: z) := solid_iff.mpr hends.head
    rw [hrest] at hrelaid hsplit
    exact ⟨n, ⟨(hrelaid.worded hworded).ends, hspaced⟩, _, [], _, n, hlead, List.forall_mem_nil _, hsplit, rfl, hrelaid⟩

/-- At most one character of white space between a number and its unit, and only a space between a date and a time of
day. -/
def Tight (s : List Char) : Prop :=
  ∀ x g y, s = x ++ (g ++ y) → Run g → (EndsInDigit x → StartsWithUnit y → g.length = 1) ∧
    (EndsInDate x → StartsWithClock y → g = [' '])

theorem Tight.exists_neat (h : Tight s) : ∃ n, Neat n ∧ Reflowed Agree s n := by
  refine Noise.exists_neat fun x g y word hs hg _ hword => ⟨fun hends hstarts => ?_, fun hends hstarts => ?_⟩
  · obtain ⟨c, hc, hsuffix⟩ := hends
    rw [(h x g y hs hg).1 ⟨c, hc, hsuffix.trans hword⟩ (startsWithUnit_firstWord.mp hstarts)]
    rfl
  · obtain ⟨date, hdate, hsuffix⟩ := hends
    rw [(h x g y hs hg).2 ⟨date, hdate, hsuffix.trans hword⟩ (startsWithClock_firstWord.mp hstarts)]

/-- A normalized text is neat. -/
theorem neat_normalizeChars (s : List Char) : ∃ n, normalizeChars s = n ∧ Neat n ∧ Reflowed Anyhow (mark s) n := by
  have hexists : ∃ n, Neat n ∧ Reflowed Anyhow (mark s) n := exists_neat fun _ _ _ _ _ _ _ _ => trivial
  obtain ⟨n, hneat, hreflowed⟩ := hexists
  refine ⟨n, ?_, hneat, hreflowed⟩
  rw [normalizeChars_eq, strip_collapse hreflowed, hneat.spaced.collapse, hneat.strip]

/-! ## Words of the neat form are words of the text -/

/-- A character that is no white space comes after the white space at the start. -/
theorem exists_of_append_blank {c : Char} {g : List Char} (hg : ∀ d ∈ g, isBlank d = true) (hc : isBlank c = false)
    (h : x ++ c :: y = g ++ s) : ∃ z, s = z ++ c :: y := by
  rcases List.append_eq_append_iff.mp h with ⟨z, hz, hcz⟩ | ⟨z, -, hz⟩
  · cases z with
    | nil => exact ⟨[], hcz.symm⟩
    | cons d z =>
      have hblank := hg d (by rw [hz]; exact List.mem_append_right x List.mem_cons_self)
      rw [← (List.cons.inj hcz).1, hc] at hblank
      cases hblank
  · exact ⟨z, hz⟩

/-- From a character of a word on, the two texts are the same but for their white space. -/
theorem Relaid.position {c : Char} (hc : isBlank c = false) (h : Relaid allowed word (x ++ c :: y) t) :
    ∃ x' t' word', t = x' ++ t' ∧ Relaid allowed word' (c :: y) t' := by
  generalize hs : x ++ c :: y = s at h
  induction h generalizing x with
  | ends hblank =>
    rw [hblank c (by rw [← hs]; exact List.mem_append_right x List.mem_cons_self)] at hc
    cases hc
  | @char word s t d hd rest ih =>
    cases x with
    | nil =>
      obtain ⟨rfl, rfl⟩ := List.cons.inj hs
      exact ⟨[], c :: t, word, rfl, .char hd rest⟩
    | cons e x =>
      obtain ⟨rfl, htail⟩ := List.cons.inj hs
      obtain ⟨x', t', word', rfl, hrest⟩ := ih htail
      exact ⟨e :: x', t', word', rfl, hrest⟩
  | @gap word g g' s t hg hg' _ _ _ ih =>
    obtain ⟨z, htail⟩ := exists_of_append_blank hg.blank hc hs
    obtain ⟨x', t', word', rfl, hrest⟩ := ih htail.symm
    exact ⟨g' ++ x', t', word', (List.append_assoc g' x' t').symm, hrest⟩

theorem Reflowed.symm (hmutual : Mutual allowed) (h : Reflowed allowed s t) : Reflowed allowed t s := by
  obtain ⟨lead, lead', s', t', hlead, hlead', hs, ht, hrest⟩ := h
  exact ⟨lead', lead, t', s', hlead', hlead, ht, hs, hrest.symm hmutual⟩

theorem Reflowed.position (hbegins : ∃ c rest, a = c :: rest ∧ digit c = true)
    (h : Reflowed allowed (x ++ (a ++ y)) t) : ∃ x' t' word', t = x' ++ t' ∧ Relaid allowed word' (a ++ y) t' := by
  obtain ⟨c, rest, rfl, hc⟩ := hbegins
  obtain ⟨lead, lead', s', t', hlead, -, hs, rfl, hrest⟩ := h
  have hc' := not_isBlank_of_digit hc
  obtain ⟨z, rfl⟩ := exists_of_append_blank hlead hc' hs
  obtain ⟨x', t'', word', rfl, hfrom⟩ := hrest.position hc'
  exact ⟨lead' ++ x', t'', word', (List.append_assoc lead' x' t'').symm, hfrom⟩

theorem Unglued.reflowed (h : Unglued s) (hreflowed : Reflowed Agree s t) : Unglued t := by
  rintro span number hspan hnumber ⟨x, y, rfl⟩
  obtain ⟨c, rest, hcons, hc⟩ := hspan.exists_cons
  have hback := hreflowed.symm mutual_agree
  rw [List.append_assoc, List.append_assoc] at hback
  obtain ⟨x', t', word', rfl, hfrom⟩ := hback.position ⟨c, rest, hcons, hc⟩
  have hhead : ∀ c ∈ (number ++ y).head?, isWord c = true → digit c = true := by
    obtain ⟨d, more, rfl, hd⟩ := hnumber.exists_cons
    intro e he _
    exact Option.some.inj he ▸ hd
  obtain ⟨span', t'', word'', hspan', rfl, hafter⟩ := hfrom.span (fun _ _ _ _ ha => ha.1) hspan hhead
  obtain ⟨y', rfl, -⟩ := hafter.of_append fun c hc => not_isBlank_of_digit (hnumber.2 c hc)
  exact h span' number hspan' hnumber ⟨x', y', by simp⟩

theorem longNumbers_clean_normalizeChars (s : List Char) : longNumbers.Clean (normalizeChars s) := by
  obtain ⟨n, hn, -, hreflowed⟩ := neat_normalizeChars s
  have hmark : longNumbers.Clean (mark s) := rooted_longNumbers.clean_replace marks_longNumbers _
  rw [hn]
  refine rooted_longNumbers.clean_iff.mpr ?_
  rintro a ha ⟨x, y, rfl⟩
  have hback := hreflowed.symm mutual_anyhow
  rw [List.append_assoc] at hback
  obtain ⟨x', t', word', ht, hfrom⟩ := hback.position ha.exists_cons
  obtain ⟨y', rfl, -⟩ := hfrom.of_append fun c hc => not_isBlank_of_digit (ha.2 c hc)
  exact rooted_longNumbers.clean_iff.mp hmark a ha ⟨x', y', by rw [ht, List.append_assoc]⟩

theorem Kind.Clean.unglued (h : longNumbers.Clean s) : Unglued s := by
  rintro span number - ⟨hlength, hall⟩ ⟨x, y, rfl⟩
  refine rooted_longNumbers.clean_iff.mp h (number.take 5) ⟨?_, fun c hc => hall c (List.mem_of_mem_take hc)⟩ ?_
  · rw [List.length_take, Nat.min_eq_left hlength]
  · refine ⟨x ++ span, number.drop 5 ++ y, ?_⟩
    rw [List.append_assoc, ← List.append_assoc (number.take 5), List.take_append_drop, List.append_assoc x,
      ← List.append_assoc span, List.append_assoc x]

/-! ## The second round -/

theorem Neat.stable (hneat : Neat s) (h : Unglued s) :
    Noise.normalizeChars (Noise.normalizeChars s) = Noise.normalizeChars s := by
  rw [hneat.normalizeChars, hneat.mark.normalizeChars, mark_mark h]

theorem normalizeChars_stable (htight : Tight s) (h : Unglued s) :
    normalizeChars (normalizeChars s) = normalizeChars s := by
  obtain ⟨n, hneat, hreflowed⟩ := htight.exists_neat
  rw [normalizeChars_reflowed hreflowed]
  exact hneat.stable (h.reflowed hreflowed)

theorem normalizeChars_thrice (s : List Char) :
    normalizeChars (normalizeChars (normalizeChars s)) = normalizeChars (normalizeChars s) := by
  have hunglued := (longNumbers_clean_normalizeChars s).unglued
  obtain ⟨n, hn, hneat, -⟩ := neat_normalizeChars s
  rw [hn] at hunglued ⊢
  exact hneat.stable hunglued

/-- Layout does not matter, but for the white space between a number and a unit and between a date and a time of day. A
text where this is tight, and where no unit runs into a long number, is normalized for good in one round; every text is
in two. -/
theorem normalize_layout (text other : String) :
    (Reflowed Agree text.toList other.toList → normalize text = normalize other) ∧
      (Tight text.toList → Unglued text.toList → normalize (normalize text) = normalize text) ∧
      normalize (normalize (normalize text)) = normalize (normalize text) := by
  simp only [normalize, String.toList_ofList]
  exact ⟨fun h => congrArg String.ofList (normalizeChars_reflowed h),
    fun htight h => congrArg String.ofList (normalizeChars_stable htight h),
    congrArg String.ofList (normalizeChars_thrice text.toList)⟩

/-- A tab for the space between the number and the unit. -/
theorem normalize_layout_of_tab :
    normalize "5 ms" = normalize "5\tms" ∧ normalize (normalize "5 ms") = normalize "5 ms" := by
  have hunit : Worded "ms".toList := rfl
  have hreflowed : Reflowed Agree "5 ms".toList "5\tms".toList := by
    refine ⟨[], [], _, _, List.forall_mem_nil _, List.forall_mem_nil _, rfl, rfl, .char (by decide) ?_⟩
    refine @Relaid.gap _ _ [' '] ['\t'] "ms".toList "ms".toList ⟨by decide, List.forall_mem_singleton.mpr (by decide)⟩
      ⟨by decide, List.forall_mem_singleton.mpr (by decide)⟩ hunit ?_ ?_
    · refine ⟨fun _ _ => Iff.rfl, fun ⟨date, hdate, hsuffix⟩ => ?_⟩
      have hhyphen := hsuffix.subset hdate.hyphen_mem
      exact absurd hhyphen (by decide)
    · exact .char (by decide) (.char (by decide) (.ends (List.forall_mem_nil _) (List.forall_mem_nil _)))
  have htight : Tight "5 ms".toList := by
    intro x g y hs hg
    have hfilter := congrArg (List.filter isBlank) hs
    rw [List.filter_append, List.filter_append, List.filter_eq_self.mpr hg.blank,
      show "5 ms".toList.filter isBlank = [' '] by decide] at hfilter
    have hspace : g = [' '] := by
      rcases List.append_eq_singleton_iff.mp hfilter.symm with ⟨-, h⟩ | ⟨-, h⟩
      · rcases List.append_eq_singleton_iff.mp h with ⟨hnil, -⟩ | ⟨h, -⟩
        · exact absurd hnil hg.ne_nil
        · exact h
      · exact absurd (List.append_eq_nil_iff.mp h).1 hg.ne_nil
    exact ⟨fun _ _ => by rw [hspace]; rfl, fun _ _ => hspace⟩
  have hunglued : Unglued "5 ms".toList := by
    intro span number _ hnumber hwithin
    have hlength := hwithin.length_le
    rw [List.length_append, show "5 ms".toList.length = 4 by decide] at hlength
    have hlong := hnumber.1
    omega
  obtain ⟨hlayout, hstable, -⟩ := normalize_layout "5 ms" "5\tms"
  exact ⟨hlayout hreflowed, hstable htight hunglued⟩

/-- With two spaces the number and the unit are no duration; with one, which is what the text is normalized to, they
are. -/
theorem normalize_two_spaces : Reflowed Anyhow "5  ms".toList "5 ms".toList ∧ normalize "5  ms" = "5 ms" ∧
    normalize "5 ms" = "<duration>" := by
  refine ⟨?_, by decide +kernel, by decide +kernel⟩
  refine ⟨[], [], _, _, List.forall_mem_nil _, List.forall_mem_nil _, rfl, rfl, .char (by decide) ?_⟩
  refine @Relaid.gap _ _ [' ', ' '] [' '] "ms".toList "ms".toList ⟨by decide, Text.forall_mem_of_all (by decide)⟩
    ⟨by decide, List.forall_mem_singleton.mpr (by decide)⟩ rfl trivial ?_
  exact .char (by decide) (.char (by decide) (.ends (List.forall_mem_nil _) (List.forall_mem_nil _)))

end Overseer.Noise
