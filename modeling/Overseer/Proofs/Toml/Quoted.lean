import Mathlib
import Overseer.Toml.Quoted

/-! # Quoted texts are read as they were written

On one line every character is read as itself or by its escape. On several lines the end is found by its three quotes:
nowhere in the text are there three in a row, so a run of quotes is either followed by more of the text or it stands at
the end, where it is read together with the closing quotes.
-/

namespace Overseer.Toml

/-! ## Escapes -/

/-- A character that stands for itself in a basic text. -/
structure Bare (c : Char) : Prop where
  plain : isPlain c = true
  ne_quote : c ≠ '"'
  ne_backslash : c ≠ '\\'

/-- What follows a backslash stands for a character and does not continue a line. -/
structure Escapes (written : List Char) (c : Char) : Prop where
  read (rest : List Char) : escape? (written ++ rest) = some (c, rest)
  stays (rest : List Char) : continuation? (written ++ rest) = none

theorem escapes_letter {letter c : Char} (hread : ∀ rest, escape? (letter :: rest) = some (c, rest))
    (hspace : isSpace letter = false) (hline : ∀ rest, newline? (letter :: rest) = none) : Escapes [letter] c := by
  refine ⟨hread, fun rest => ?_⟩
  unfold continuation? skipSpace
  rw [List.singleton_append, List.dropWhile_cons_of_neg (by rw [hspace]; decide), hline]
  rfl

theorem codePoint?_upperHex {n : Nat} (h : n < 128) (rest : List Char) :
    codePoint? 4 (upperHex n ++ rest) = some (Char.ofNat n, rest) := by
  have hvalue : ∀ n : Fin 128, Text.hexValue? (upperHex n) = some n.val := by decide
  have hlength : (upperHex n).length = 4 := by
    rw [upperHex, List.length_map, Text.hexDigits, List.length_map, List.length_reverse, List.length_range]
  unfold codePoint?
  dsimp only
  rw [List.take_left' hlength, List.drop_left' hlength, if_pos hlength, hvalue ⟨n, h⟩]
  exact if_pos (Or.inl (by omega))

theorem escapes_coded {c : Char} (h : isPlain c = false) : Escapes ('u' :: upperHex c.toNat) c := by
  have hsmall : c.toNat < 128 := by
    unfold isPlain at h
    rw [Bool.or_eq_false_iff, Bool.and_eq_false_iff, decide_eq_false_iff_not, bne_eq_false_iff_eq] at h
    omega
  refine ⟨fun rest => ?_, fun rest => rfl⟩
  change codePoint? 4 (upperHex c.toNat ++ rest) = some (c, rest)
  rw [codePoint?_upperHex hsmall, Char.ofNat_toNat]

/-- In a basic text on one line a character is written as it is or escaped. -/
theorem escapeChar_cases (c : Char) :
    (escapeChar false c = [c] ∧ Bare c) ∨ (∃ written, escapeChar false c = '\\' :: written ∧ Escapes written c) := by
  unfold escapeChar
  rw [if_neg (by decide)]
  split
  · rename_i heq
    subst heq
    exact .inr ⟨['b'], rfl, escapes_letter (fun _ => rfl) rfl fun _ => rfl⟩
  split
  · rename_i heq
    subst heq
    exact .inr ⟨['t'], rfl, escapes_letter (fun _ => rfl) rfl fun _ => rfl⟩
  split
  · rename_i heq
    subst heq
    exact .inr ⟨['n'], rfl, escapes_letter (fun _ => rfl) rfl fun _ => rfl⟩
  split
  · rename_i heq
    subst heq
    exact .inr ⟨['f'], rfl, escapes_letter (fun _ => rfl) rfl fun _ => rfl⟩
  split
  · rename_i heq
    subst heq
    exact .inr ⟨['r'], rfl, escapes_letter (fun _ => rfl) rfl fun _ => rfl⟩
  split
  · rename_i heq
    subst heq
    exact .inr ⟨['"'], rfl, escapes_letter (fun _ => rfl) rfl fun _ => rfl⟩
  split
  · rename_i heq
    subst heq
    exact .inr ⟨['\\'], rfl, escapes_letter (fun _ => rfl) rfl fun _ => rfl⟩
  rename_i hline _ _ hquote hbackslash
  unfold needsEscape
  rw [bne_iff_ne.mpr hline, Bool.true_and]
  cases hplain : isPlain c with
  | true => exact .inl ⟨rfl, hplain, hquote, hbackslash⟩
  | false => exact .inr ⟨_, rfl, escapes_coded hplain⟩

/-! ## Texts on one line -/

theorem length_le_flatMap {α β : Type} {f : α → List β} (h : ∀ x, f x ≠ []) (s : List α) :
    s.length ≤ (s.flatMap f).length := by
  induction s with
  | nil => exact le_rfl
  | cons x s ih =>
    have hpos := List.length_pos_of_ne_nil (h x)
    rw [List.flatMap_cons, List.length_append, List.length_cons]
    omega

theorem escapeChar_ne_nil (c : Char) : escapeChar false c ≠ [] := by
  obtain ⟨heq, _⟩ | ⟨written, heq, _⟩ := escapeChar_cases c
  · rw [heq]
    exact List.cons_ne_nil _ _
  · rw [heq]
    exact List.cons_ne_nil _ _

theorem basicText_escapeLine (s rest : List Char) {n : Nat} (h : s.length < n) :
    basicText n (escapeLine s ++ '"' :: rest) = some (s, rest) := by
  induction s generalizing n with
  | nil =>
    obtain ⟨n, rfl⟩ := Nat.exists_eq_succ_of_ne_zero (Nat.ne_of_gt h)
    rfl
  | cons c s ih =>
    obtain ⟨n, rfl⟩ := Nat.exists_eq_succ_of_ne_zero (Nat.ne_of_gt (Nat.zero_lt_of_lt h))
    have ih := ih (n := n) (Nat.lt_of_succ_lt_succ h)
    have hline : escapeLine (c :: s) ++ '"' :: rest = escapeChar false c ++ (escapeLine s ++ '"' :: rest) := by
      unfold escapeLine
      rw [List.flatMap_cons, List.append_assoc]
    rw [hline]
    obtain ⟨heq, hbare⟩ | ⟨written, heq, hescapes⟩ := escapeChar_cases c
    · rw [heq, List.singleton_append, basicText, if_neg hbare.ne_quote, if_neg hbare.ne_backslash, if_pos hbare.plain,
        ih]
      rfl
    · rw [heq, List.cons_append, basicText, if_neg (by decide), if_pos rfl, hescapes.read, Option.bind_some]
      dsimp only
      rw [ih]
      rfl

theorem readLine?_writeBasic (s rest : List Char) : readLine? (writeBasic s ++ rest) = some (s, rest) := by
  have hlength : s.length ≤ (escapeLine s).length := length_le_flatMap escapeChar_ne_nil s
  have hshape : writeBasic s ++ rest = '"' :: (escapeLine s ++ '"' :: rest) := by
    unfold writeBasic
    rw [List.append_assoc]
    rfl
  rw [hshape]
  refine basicText_escapeLine s rest ?_
  rw [List.length_append]
  omega

theorem literalText_append {s : List Char} (rest : List Char) (h : ∀ c ∈ s, isPlain c = true ∧ c ≠ '\x27') :
    literalText (s ++ '\x27' :: rest) = some (s, rest) := by
  induction s with
  | nil => rfl
  | cons c s ih =>
    obtain ⟨hplain, hne⟩ := h c List.mem_cons_self
    rw [List.cons_append, literalText, if_neg hne, if_pos hplain, ih fun d hd => h d (List.mem_cons_of_mem c hd)]
    rfl

theorem readLine?_writeLiteral {s : List Char} (rest : List Char) (h : ∀ c ∈ s, isPlain c = true ∧ c ≠ '\x27') :
    readLine? (writeLiteral s ++ rest) = some (s, rest) := by
  have hshape : writeLiteral s ++ rest = '\x27' :: (s ++ '\x27' :: rest) := by
    unfold writeLiteral
    rw [List.append_assoc]
    rfl
  rw [hshape]
  exact literalText_append rest h

/-! ## Runs of quotes -/

/-- A text begins with at most two quotes, which are all of it or are followed by something else. -/
inductive Brief (quote : Char) : List Char → Prop
  | all {n : Nat} (h : n ≤ 2) : Brief quote (List.replicate n quote)
  | more {n : Nat} (h : n ≤ 2) {c : Char} (hc : c ≠ quote) (rest : List Char) :
      Brief quote (List.replicate n quote ++ c :: rest)

theorem closing?_of_more {quote c : Char} {n : Nat} (h : n ≤ 2) (hc : c ≠ quote) (rest : List Char) :
    closing? quote (List.replicate n quote ++ c :: rest) = none := by
  have hrun : (List.replicate n quote ++ c :: rest).takeWhile (· == quote) = List.replicate n quote := by
    rw [List.takeWhile_append_of_pos fun d hd => by rw [List.eq_of_mem_replicate hd]; exact beq_self_eq_true _,
      List.takeWhile_cons_of_neg (by rw [beq_iff_eq]; exact hc), List.append_nil]
  unfold closing?
  rw [hrun, List.length_replicate]
  exact if_neg (by omega)

theorem closing?_of_all {quote : Char} {n : Nat} (h : n ≤ 2) {rest : List Char} (hrest : rest.head? ≠ some quote) :
    closing? quote (List.replicate n quote ++ (triple quote ++ rest)) = some (List.replicate n quote, rest) := by
  have hshape : List.replicate n quote ++ (triple quote ++ rest) = List.replicate (n + 3) quote ++ rest := by
    rw [triple, ← List.append_assoc, List.replicate_append_replicate]
  have hrun : (List.replicate (n + 3) quote ++ rest).takeWhile (· == quote) = List.replicate (n + 3) quote := by
    rw [List.takeWhile_append_of_pos fun d hd => by rw [List.eq_of_mem_replicate hd]; exact beq_self_eq_true _]
    cases rest with
    | nil => exact List.append_nil _
    | cons c rest =>
      have hc : c ≠ quote := fun heq => hrest (congrArg some heq)
      rw [List.takeWhile_cons_of_neg (by rw [beq_iff_eq]; exact hc), List.append_nil]
  unfold closing?
  rw [hshape, hrun, List.length_replicate, if_pos (by omega), Nat.min_eq_left (by omega), Nat.add_sub_cancel,
    List.drop_left' List.length_replicate]

/-- In front of the closing quotes either all is read or more of the text follows. -/
theorem Brief.closing?_cases {quote : Char} {s : List Char} (h : Brief quote s) {rest : List Char}
    (hrest : rest.head? ≠ some quote) :
    closing? quote (s ++ (triple quote ++ rest)) = some (s, rest) ∨
      (s ≠ [] ∧ closing? quote (s ++ (triple quote ++ rest)) = none) := by
  cases h with
  | all h => exact .inl (closing?_of_all h hrest)
  | more h hc more =>
    right
    rw [List.append_assoc]
    exact ⟨List.append_ne_nil_of_right_ne_nil _ (List.cons_ne_nil _ _), closing?_of_more h hc _⟩

/-! ## Literal texts on several lines -/

/-- A character that may stand in a text on several lines. -/
def isInner (c : Char) : Bool := isPlain c || c == '\n'

theorem literalBlock_closed {s : List Char} {closed : List Char × List Char} (h : closing? '\x27' s = some closed)
    (n : Nat) : literalBlock (n + 1) s = some closed := by
  cases s with
  | nil => cases h
  | cons c s => rw [literalBlock, h]

theorem literalBlock_step {c : Char} {s : List Char} (h : closing? '\x27' (c :: s) = none) (hc : isInner c = true)
    (n : Nat) : literalBlock (n + 1) (c :: s) = prepend c (literalBlock n s) := by
  unfold isInner at hc
  rw [literalBlock, h]
  dsimp only
  rw [hc, Bool.true_or, if_pos rfl]

theorem literalBlock_append {s rest : List Char} (hchars : ∀ c ∈ s, isInner c = true)
    (hbrief : ∀ t, t <:+ s → Brief '\x27' t) (hrest : rest.head? ≠ some '\x27') {n : Nat} (h : s.length < n) :
    literalBlock n (s ++ (triple '\x27' ++ rest)) = some (s, rest) := by
  induction s generalizing n with
  | nil =>
    obtain ⟨n, rfl⟩ := Nat.exists_eq_succ_of_ne_zero (Nat.ne_of_gt h)
    exact literalBlock_closed (closing?_of_all (n := 0) (by decide) hrest) n
  | cons c s ih =>
    obtain ⟨n, rfl⟩ := Nat.exists_eq_succ_of_ne_zero (Nat.ne_of_gt (Nat.zero_lt_of_lt h))
    obtain hclosed | ⟨_, hopen⟩ := (hbrief _ (List.suffix_refl _)).closing?_cases hrest
    · exact literalBlock_closed hclosed n
    · rw [List.cons_append] at hopen ⊢
      rw [literalBlock_step hopen (hchars c List.mem_cons_self),
        ih (fun d hd => hchars d (List.mem_cons_of_mem c hd)) (fun t ht => hbrief t (ht.trans (List.suffix_cons c s)))
          (Nat.lt_of_succ_lt_succ h)]
      rfl

/-! ## Basic texts on several lines -/

theorem basicBlock_closed {s : List Char} {closed : List Char × List Char} (h : closing? '"' s = some closed)
    (n : Nat) : basicBlock (n + 1) s = some closed := by
  cases s with
  | nil => cases h
  | cons c s => rw [basicBlock, h]

theorem basicBlock_step {c : Char} {s : List Char} (h : closing? '"' (c :: s) = none) (hc : isInner c = true)
    (hne : c ≠ '\\') (n : Nat) : basicBlock (n + 1) (c :: s) = prepend c (basicBlock n s) := by
  unfold isInner at hc
  rw [basicBlock, h]
  dsimp only
  rw [if_neg hne, hc, Bool.true_or, if_pos rfl]

theorem basicBlock_escape {written : List Char} {c : Char} (h : Escapes written c) (s : List Char) (n : Nat) :
    basicBlock (n + 1) ('\\' :: (written ++ s)) = prepend c (basicBlock n s) := by
  have hopen : closing? '"' ('\\' :: (written ++ s)) = none :=
    closing?_of_more (n := 0) (by decide) (by decide) (written ++ s)
  rw [basicBlock, hopen]
  dsimp only
  rw [if_pos rfl, h.stays, h.read]
  rfl

theorem escapeBlock_cons_of_ne {c : Char} (hc : c ≠ '"') (quotes : Nat) (s : List Char) :
    escapeBlock quotes (c :: s) = escapeChar (c == '\n') c ++ escapeBlock 0 s := by
  rw [escapeBlock, if_neg hc]

theorem escapeInner_cases {c : Char} :
    (escapeChar (c == '\n') c = [c] ∧ isInner c = true ∧ c ≠ '\\') ∨
      (∃ written, escapeChar (c == '\n') c = '\\' :: written ∧ Escapes written c) := by
  by_cases hline : c = '\n'
  · subst hline
    exact .inl ⟨rfl, rfl, by decide⟩
  · rw [beq_eq_false_iff_ne.mpr hline]
    obtain ⟨heq, hbare⟩ | hescaped := escapeChar_cases c
    · exact .inl ⟨heq, by rw [isInner, hbare.plain]; rfl, hbare.ne_backslash⟩
    · exact .inr hescaped

/-- What is written begins with few quotes, and with all of the text if it is nothing but quotes. -/
theorem escapeBlock_cases (s : List Char) {quotes : Nat} (h : quotes ≤ 2) :
    (∃ n, n + quotes ≤ 2 ∧ s = List.replicate n '"' ∧ escapeBlock quotes s = List.replicate n '"') ∨
      (∃ n c rest, n + quotes ≤ 2 ∧ c ≠ '"' ∧ escapeBlock quotes s = List.replicate n '"' ++ c :: rest) := by
  induction s generalizing quotes with
  | nil => exact .inl ⟨0, by omega, rfl, rfl⟩
  | cons c s ih =>
    by_cases hc : c = '"'
    · subst hc
      rw [escapeBlock, if_pos rfl]
      split
      · rename_i hfew
        have hnext : quotes + 1 ≤ 2 := by omega
        obtain ⟨n, hn, hs, hwritten⟩ | ⟨n, d, rest, hn, hd, hwritten⟩ := ih hnext
        · exact .inl ⟨n + 1, by omega, by rw [hs]; rfl, by rw [hwritten]; rfl⟩
        · exact .inr ⟨n + 1, d, rest, by omega, hd, by rw [hwritten]; rfl⟩
      · exact .inr ⟨0, '\\', _, by omega, by decide, rfl⟩
    · right
      rw [escapeBlock_cons_of_ne hc]
      obtain ⟨heq, _⟩ | ⟨written, heq, _⟩ := escapeInner_cases (c := c)
      · exact ⟨0, c, _, by omega, hc, by rw [heq]; rfl⟩
      · exact ⟨0, '\\', _, by omega, by decide, by rw [heq]; rfl⟩

theorem basicBlock_escapeBlock (s : List Char) {rest : List Char} (hrest : rest.head? ≠ some '"') {quotes n : Nat}
    (hquotes : quotes ≤ 2) (h : s.length < n) :
    basicBlock n (escapeBlock quotes s ++ (triple '"' ++ rest)) = some (s, rest) := by
  induction s generalizing quotes n with
  | nil =>
    obtain ⟨n, rfl⟩ := Nat.exists_eq_succ_of_ne_zero (Nat.ne_of_gt h)
    exact basicBlock_closed (closing?_of_all (n := 0) (by decide) hrest) n
  | cons c s ih =>
    obtain ⟨n, rfl⟩ := Nat.exists_eq_succ_of_ne_zero (Nat.ne_of_gt (Nat.zero_lt_of_lt h))
    have hlength : s.length < n := Nat.lt_of_succ_lt_succ h
    obtain ⟨k, hk, hs, hwritten⟩ | ⟨k, d, more, hk, hd, hwritten⟩ := escapeBlock_cases (c :: s) hquotes
    · rw [hwritten, hs]
      exact basicBlock_closed (closing?_of_all (by omega) hrest) n
    · have hopen : closing? '"' (escapeBlock quotes (c :: s) ++ (triple '"' ++ rest)) = none := by
        rw [hwritten, List.append_assoc]
        exact closing?_of_more (by omega) hd _
      by_cases hc : c = '"'
      · subst hc
        rw [escapeBlock, if_pos rfl] at hopen ⊢
        split at hopen
        · rename_i hfew
          rw [if_pos hfew]
          rw [List.cons_append] at hopen ⊢
          rw [basicBlock_step hopen rfl (by decide), ih (by omega) hlength]
          rfl
        · rename_i hmany
          rw [if_neg hmany]
          have hescapes : Escapes ['"'] '"' := escapes_letter (fun _ => rfl) rfl fun _ => rfl
          refine (basicBlock_escape hescapes (escapeBlock 0 s ++ (triple '"' ++ rest)) n).trans ?_
          rw [ih (by decide) hlength]
          rfl
      · rw [escapeBlock_cons_of_ne hc, List.append_assoc] at hopen ⊢
        obtain ⟨heq, hinner, hne⟩ | ⟨written, heq, hescapes⟩ := escapeInner_cases (c := c)
        · rw [heq, List.singleton_append] at hopen ⊢
          rw [basicBlock_step hopen hinner hne, ih (by decide) hlength]
          rfl
        · rw [heq, List.cons_append, basicBlock_escape hescapes, ih (by decide) hlength]
          rfl

/-! ## The longest run -/

/-- The run that ends here and the longest one so far. -/
def runStep (quote : Char) (runs : Nat × Nat) (c : Char) : Nat × Nat :=
  let run := if c = quote then runs.1 + 1 else 0
  (run, max runs.2 run)

theorem longest_le_foldl (quote : Char) (s : List Char) (runs : Nat × Nat) :
    runs.2 ≤ (s.foldl (runStep quote) runs).2 := by
  induction s generalizing runs with
  | nil => exact le_rfl
  | cons c s ih => exact (le_max_left _ _).trans (ih (runStep quote runs c))

theorem foldl_runStep_mono (quote : Char) (s : List Char) {runs runs' : Nat × Nat} (hrun : runs.1 ≤ runs'.1)
    (hlongest : runs.2 ≤ runs'.2) :
    (s.foldl (runStep quote) runs).2 ≤ (s.foldl (runStep quote) runs').2 := by
  induction s generalizing runs runs' with
  | nil => exact hlongest
  | cons c s ih =>
    have hrun : (runStep quote runs c).1 ≤ (runStep quote runs' c).1 := by
      unfold runStep
      dsimp only
      split <;> omega
    exact ih hrun (max_le_max hlongest hrun)

theorem longestRun_of_suffix {quote : Char} {s t : List Char} (h : t <:+ s) :
    longestRun quote t ≤ longestRun quote s := by
  obtain ⟨front, rfl⟩ := h
  change (t.foldl (runStep quote) (0, 0)).2 ≤ ((front ++ t).foldl (runStep quote) (0, 0)).2
  rw [List.foldl_append]
  exact foldl_runStep_mono quote t (Nat.zero_le _) (Nat.zero_le _)

/-- What is not brief begins with three quotes. -/
theorem brief_or_triple (quote : Char) (s : List Char) : Brief quote s ∨ ∃ t, s = quote :: quote :: quote :: t := by
  cases s with
  | nil => exact .inl (.all (n := 0) (by decide))
  | cons a s =>
    by_cases ha : a = quote
    · subst ha
      cases s with
      | nil => exact .inl (.all (n := 1) (by decide))
      | cons b s =>
        by_cases hb : b = a
        · subst hb
          cases s with
          | nil => exact .inl (.all (n := 2) (by decide))
          | cons c s =>
            by_cases hc : c = b
            · subst hc
              exact .inr ⟨s, rfl⟩
            · exact .inl (.more (n := 2) (by decide) hc s)
        · exact .inl (.more (n := 1) (by decide) hb s)
    · exact .inl (.more (n := 0) (by decide) ha s)

theorem brief_of_longestRun {quote : Char} {s : List Char} (h : longestRun quote s ≤ 2) : Brief quote s := by
  refine (brief_or_triple quote s).resolve_right ?_
  rintro ⟨t, rfl⟩
  have hrun : [quote, quote, quote].foldl (runStep quote) (0, 0) = (3, 3) := by
    simp only [List.foldl_cons, List.foldl_nil, runStep, if_true]
    rfl
  have hle : 3 ≤ longestRun quote (quote :: quote :: quote :: t) := by
    change 3 ≤ (([quote, quote, quote] ++ t).foldl (runStep quote) (0, 0)).2
    rw [List.foldl_append, hrun]
    exact longest_le_foldl quote t (3, 3)
  omega

/-! ## Quoted texts -/

theorem readQuoted?_eq_readLine? {s : List Char} (hbasic : ∀ t, s ≠ '"' :: '"' :: '"' :: t)
    (hliteral : ∀ t, s ≠ '\x27' :: '\x27' :: '\x27' :: t) : readQuoted? s = readLine? s := by
  unfold readQuoted?
  split
  · exact absurd rfl (hbasic _)
  · exact absurd rfl (hliteral _)
  · rfl

/-- A basic text on one line is not taken for the start of several. -/
theorem readQuoted?_writeBasic (s : List Char) {rest : List Char} (hrest : rest.head? ≠ some '"') :
    readQuoted? (writeBasic s ++ rest) = some (s, rest) := by
  rw [readQuoted?_eq_readLine?, readLine?_writeBasic]
  · intro t heq
    cases s with
    | nil => exact hrest (congrArg (fun s => (s.drop 2).head?) heq)
    | cons c s =>
      have hsecond := congrArg (fun s => (s.drop 1).head?) heq
      obtain ⟨hc, hbare⟩ | ⟨written, hc, _⟩ := escapeChar_cases c
      · rw [writeBasic, escapeLine, List.flatMap_cons, hc] at hsecond
        exact hbare.ne_quote (Option.some_inj.mp hsecond)
      · rw [writeBasic, escapeLine, List.flatMap_cons, hc] at hsecond
        exact absurd (Option.some_inj.mp hsecond) (by decide)
  · intro t heq
    cases heq

theorem readQuoted?_writeLiteral {s rest : List Char} (h : ∀ c ∈ s, isPlain c = true ∧ c ≠ '\x27')
    (hrest : rest.head? ≠ some '\x27') : readQuoted? (writeLiteral s ++ rest) = some (s, rest) := by
  rw [readQuoted?_eq_readLine?, readLine?_writeLiteral rest h]
  · intro t heq
    cases heq
  · intro t heq
    cases s with
    | nil => exact hrest (congrArg (fun s => (s.drop 2).head?) heq)
    | cons c s =>
      have hsecond := congrArg (fun s => (s.drop 1).head?) heq
      exact (h c List.mem_cons_self).2 (Option.some_inj.mp hsecond)

theorem dropNewline_of_ne {c : Char} (hline : c ≠ '\n') (hreturn : c ≠ '\r') (s : List Char) :
    dropNewline (c :: s) = c :: s := by
  have hnone : newline? (c :: s) = none := by
    unfold newline?
    split
    · rename_i heq
      injection heq with hc
      exact absurd hc hline
    · rename_i heq
      injection heq with hc
      exact absurd hc hreturn
    · rfl
  rw [dropNewline, hnone]
  rfl

/-- A text on several lines begins on a line of its own if there is a second one. -/
theorem dropNewline_lines {quote : Char} {text written rest : List Char} (hquote : quote ≠ '\n' ∧ quote ≠ '\r')
    (h : '\n' ∉ text → ∀ c, written.head? = some c → c ≠ '\n' ∧ c ≠ '\r') :
    dropNewline ((if text.contains '\n' then ['\n'] else []) ++ (written ++ (triple quote ++ rest))) =
      written ++ (triple quote ++ rest) := by
  by_cases hlines : '\n' ∈ text
  · rw [if_pos (List.contains_iff_mem.mpr hlines)]
    rfl
  · rw [if_neg (mt List.contains_iff_mem.mp hlines), List.nil_append]
    cases written with
    | nil => exact dropNewline_of_ne hquote.1 hquote.2 _
    | cons c written =>
      obtain ⟨hline, hreturn⟩ := h hlines c rfl
      exact dropNewline_of_ne hline hreturn _

theorem inBlock_append (quote : Char) (text written rest : List Char) :
    inBlock quote text written ++ rest = quote :: quote :: quote ::
      ((if text.contains '\n' then ['\n'] else []) ++ (written ++ (triple quote ++ rest))) := by
  unfold inBlock
  rw [List.append_assoc, List.append_assoc, List.append_assoc]
  rfl

theorem ne_of_isInner {c : Char} (h : isInner c = true) : c ≠ '\r' := by
  rintro rfl
  exact absurd h (by decide)

theorem readQuoted?_literalBlock {s rest : List Char} (hchars : ∀ c ∈ s, isInner c = true)
    (hrun : longestRun '\x27' s ≤ 2) (hrest : rest.head? ≠ some '\x27') :
    readQuoted? (inBlock '\x27' s s ++ rest) = some (s, rest) := by
  rw [inBlock_append]
  change literalBlock _ (dropNewline _) = _
  rw [dropNewline_lines (by decide)]
  · refine literalBlock_append hchars (fun t ht => brief_of_longestRun ((longestRun_of_suffix ht).trans hrun)) hrest ?_
    rw [List.length_append, List.length_append]
    omega
  · intro hlines c hc
    have hmem : c ∈ s := List.mem_of_mem_head? hc
    exact ⟨fun heq => hlines (heq ▸ hmem), ne_of_isInner (hchars c hmem)⟩

theorem length_le_escapeBlock (s : List Char) (quotes : Nat) : s.length ≤ (escapeBlock quotes s).length := by
  induction s generalizing quotes with
  | nil => exact Nat.zero_le _
  | cons c s ih =>
    by_cases hc : c = '"'
    · rw [escapeBlock, if_pos hc]
      split
      · exact Nat.succ_le_succ (ih _)
      · exact Nat.succ_le_succ ((ih 0).trans (Nat.le_succ _))
    · have hlength := ih 0
      rw [escapeBlock_cons_of_ne hc, List.length_append, List.length_cons]
      obtain ⟨heq, _⟩ | ⟨written, heq, _⟩ := escapeInner_cases (c := c)
      · rw [heq, List.length_singleton]
        omega
      · rw [heq, List.length_cons]
        omega

/-- The first character that is written is no newline, unless the text begins with one. -/
theorem head?_escapeBlock {s : List Char} (hlines : '\n' ∉ s) {c : Char} (h : (escapeBlock 0 s).head? = some c) :
    c ≠ '\n' ∧ c ≠ '\r' := by
  cases s with
  | nil => cases h
  | cons d s =>
    have hne : d ≠ '\n' := fun heq => hlines (heq ▸ List.mem_cons_self)
    by_cases hd : d = '"'
    · rw [escapeBlock, if_pos hd, if_pos (by decide)] at h
      rw [← Option.some_inj.mp h]
      decide
    · rw [escapeBlock_cons_of_ne hd] at h
      obtain ⟨heq, hinner, _⟩ | ⟨written, heq, _⟩ := escapeInner_cases (c := d)
      · rw [heq] at h
        rw [← Option.some_inj.mp h]
        exact ⟨hne, ne_of_isInner hinner⟩
      · rw [heq] at h
        rw [← Option.some_inj.mp h]
        decide

theorem readQuoted?_basicBlock (s : List Char) {rest : List Char} (hrest : rest.head? ≠ some '"') :
    readQuoted? (inBlock '"' s (escapeBlock 0 s) ++ rest) = some (s, rest) := by
  have hlength := length_le_escapeBlock s 0
  rw [inBlock_append]
  change basicBlock _ (dropNewline _) = _
  rw [dropNewline_lines (by decide)]
  · refine basicBlock_escapeBlock s hrest (by decide) ?_
    rw [List.length_append, List.length_append]
    omega
  · exact fun hlines c hc => head?_escapeBlock hlines hc

theorem isInner_of_any {s : List Char} (h : s.any needsEscape = false) : ∀ c ∈ s, isInner c = true := by
  intro c hc
  have hcoded := List.any_eq_false.mp h c hc
  unfold needsEscape at hcoded
  unfold isInner
  cases hplain : isPlain c with
  | true => rfl
  | false =>
    rw [hplain, Bool.not_false, Bool.and_true, bne_iff_ne, not_not] at hcoded
    rw [hcoded]
    rfl

theorem isPlain_of_any {s : List Char} (h : s.any needsEscape = false) (hlines : s.contains '\n' = false) {c : Char}
    (hc : c ∈ s) : isPlain c = true := by
  have hinner := isInner_of_any h c hc
  have hne : c ≠ '\n' := by
    rintro rfl
    exact absurd (hlines.symm.trans (List.contains_iff_mem.mpr hc)) (by decide)
  rwa [isInner, beq_eq_false_iff_ne.mpr hne, Bool.or_false] at hinner

theorem ne_of_contains {s : List Char} {c d : Char} (h : s.contains d = false) (hc : c ∈ s) : c ≠ d := by
  rintro rfl
  exact absurd (h.symm.trans (List.contains_iff_mem.mpr hc)) (by decide)

/-- A quoted text is read as it was written, whichever form was chosen, when no quote follows it. -/
theorem readQuoted?_writeText (s : List Char) {rest : List Char} (hbasic : rest.head? ≠ some '"')
    (hliteral : rest.head? ≠ some '\x27') : readQuoted? (writeText s ++ rest) = some (s, rest) := by
  unfold writeText
  dsimp only
  split
  · exact readQuoted?_writeBasic s hbasic
  split
  · rename_i h
    simp only [Bool.and_eq_true, Bool.not_eq_true'] at h
    obtain ⟨⟨hcoded, hquote⟩, hlines⟩ := h
    exact readQuoted?_writeLiteral (fun c hc => ⟨isPlain_of_any hcoded hlines hc, ne_of_contains hquote hc⟩) hliteral
  split
  · exact readQuoted?_basicBlock s hbasic
  split
  · rename_i h
    simp only [Bool.and_eq_true, Bool.not_eq_true', decide_eq_true_iff] at h
    exact readQuoted?_literalBlock (isInner_of_any h.1) h.2 hliteral
  split
  · exact readQuoted?_basicBlock s hbasic
  · exact readQuoted?_writeBasic s hbasic

theorem exists_head_writeText (s : List Char) :
    ∃ quote rest, writeText s = quote :: rest ∧ (quote = '"' ∨ quote = '\x27') := by
  unfold writeText
  dsimp only
  split
  · exact ⟨'"', _, rfl, .inl rfl⟩
  split
  · exact ⟨'\x27', _, rfl, .inr rfl⟩
  split
  · exact ⟨'"', _, rfl, .inl rfl⟩
  split
  · exact ⟨'\x27', _, rfl, .inr rfl⟩
  split
  · exact ⟨'"', _, rfl, .inl rfl⟩
  · exact ⟨'"', _, rfl, .inl rfl⟩

end Overseer.Toml
