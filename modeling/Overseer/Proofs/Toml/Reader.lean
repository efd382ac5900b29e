import Mathlib
import Overseer.Proofs.Toml.Quoted
import Overseer.Proofs.Toml.Scalar

/-! # What is written is read as the statements it was written from

Each line is read by the first character of what it says and ends where the newline stands, so a table is read as its
header and one statement for each entry. Any fuel does that exceeds the number of lines.
-/

namespace Overseer.Toml

/-! ## First characters -/

/-- A character with which a key or a value that is no array begins. -/
def isLead (c : Char) : Bool := isWordChar c || c == '"' || c == '\x27'

/-- A character that is passed over between statements and between the items of an array. -/
def isFiller (c : Char) : Bool := isSpace c || c == '\n' || c == '\r' || c == '#'

theorem not_isFiller_of_isLead {c : Char} (h : isLead c = true) : isFiller c = false := by
  by_contra hfiller
  rw [Bool.not_eq_false] at hfiller
  unfold isFiller isSpace at hfiller
  simp only [Bool.or_eq_true, beq_iff_eq] at hfiller
  obtain (((rfl | rfl) | rfl) | rfl) | rfl := hfiller <;> cases h

theorem ne_of_not_isFiller {c : Char} (h : isFiller c = false) :
    isSpace c = false ∧ c ≠ '\n' ∧ c ≠ '\r' ∧ c ≠ '#' := by
  unfold isFiller at h
  simp only [Bool.or_eq_false_iff, beq_eq_false_iff_ne] at h
  obtain ⟨⟨⟨hspace, hline⟩, hreturn⟩, hcomment⟩ := h
  exact ⟨hspace, hline, hreturn, hcomment⟩

section Filler

variable {c : Char} (h : isFiller c = false) (s : List Char)

include h

theorem skipSpace_cons : skipSpace (c :: s) = c :: s :=
  List.dropWhile_cons_of_neg (by rw [(ne_of_not_isFiller h).1]; decide)

theorem endLine?_cons : endLine? (c :: s) = none := by
  obtain ⟨_, hline, hreturn, hcomment⟩ := ne_of_not_isFiller h
  have hskip : skipComment (c :: s) = c :: s := by
    unfold skipComment
    split
    · rename_i heq
      exact absurd (List.cons.inj heq).1 hcomment
    · rfl
  unfold endLine?
  rw [skipSpace_cons h, hskip]
  dsimp only
  unfold newline?
  split
  · rename_i heq
    exact absurd (List.cons.inj heq).1 hline
  · rename_i heq
    exact absurd (List.cons.inj heq).1 hreturn
  · rfl

theorem skipTrivia_cons : skipTrivia false (c :: s) = c :: s := by
  obtain ⟨hspace, hline, hreturn, hcomment⟩ := ne_of_not_isFiller h
  rw [skipTrivia, if_neg hline, if_neg fun hboth => hreturn hboth.1, if_neg (by decide),
    if_neg (by rw [hspace]; decide), if_neg hcomment]

end Filler

/-! ## Keys -/

theorem isLead_of_isBareKey {c : Char} (h : isBareKey c = true) : isLead c = true := by
  unfold isBareKey at h
  unfold isLead isWordChar
  simp only [Bool.or_eq_true] at h ⊢
  tauto

theorem exists_head_writeKey (s : List Char) : ∃ c rest, writeKey s = c :: rest ∧ isLead c = true := by
  unfold writeKey
  dsimp only
  split
  · rename_i h
    rw [Bool.and_eq_true] at h
    cases s with
    | nil => cases h.1
    | cons c rest => exact ⟨c, rest, rfl, isLead_of_isBareKey (List.all_eq_true.mp h.2 c List.mem_cons_self)⟩
  split
  · exact ⟨'"', _, rfl, rfl⟩
  split
  · exact ⟨'\x27', _, rfl, rfl⟩
  · exact ⟨'"', _, rfl, rfl⟩

/-- A quoted key is read as any text on one line. -/
theorem readSimpleKey?_of_quoted {s text rest : List Char} (h : (s ++ rest).takeWhile isBareKey = [])
    (hread : readLine? (s ++ rest) = some (text, rest)) :
    readSimpleKey? (s ++ rest) = some (String.ofList text, rest) := by
  unfold readSimpleKey?
  rw [h, hread]
  rfl

theorem readSimpleKey?_writeKey (s : List Char) {c : Char} (hc : isBareKey c = false) (rest : List Char) :
    readSimpleKey? (writeKey s ++ c :: rest) = some (String.ofList s, c :: rest) := by
  unfold writeKey
  dsimp only
  split
  · rename_i h
    rw [Bool.and_eq_true, Bool.not_eq_true', List.isEmpty_eq_false_iff] at h
    have hbare : (s ++ c :: rest).takeWhile isBareKey = s := by
      rw [List.takeWhile_append_of_pos (List.all_eq_true.mp h.2), List.takeWhile_cons_of_neg (by rw [hc]; decide),
        List.append_nil]
    unfold readSimpleKey?
    rw [hbare]
    split
    · exact absurd rfl h.1
    · rw [List.drop_left' rfl]
  split
  · exact readSimpleKey?_of_quoted rfl (readLine?_writeBasic s _)
  split
  · rename_i h
    simp only [Bool.and_eq_true, Bool.not_eq_true', Bool.or_eq_false_iff] at h
    obtain ⟨⟨hcoded, hlines⟩, hquote⟩ := h
    exact readSimpleKey?_of_quoted rfl (readLine?_writeLiteral _ fun d hd =>
      ⟨isPlain_of_any hcoded hlines hd, ne_of_contains hquote hd⟩)
  · exact readSimpleKey?_of_quoted rfl (readLine?_writeBasic s _)

theorem skipSpace_writeKey (s rest : List Char) : skipSpace (writeKey s ++ rest) = writeKey s ++ rest := by
  obtain ⟨c, more, hkey, hlead⟩ := exists_head_writeKey s
  rw [hkey]
  exact skipSpace_cons (not_isFiller_of_isLead hlead) _

theorem writePath_singleton (key : String) : writePath [key] = writeKey key.toList := by
  unfold writePath
  rw [List.map_singleton, List.intercalate_singleton]

theorem writePath_cons_cons (key next : String) (path : List String) :
    writePath (key :: next :: path) = writeKey key.toList ++ '.' :: writePath (next :: path) := by
  unfold writePath
  rw [List.map_cons, List.map_cons, List.intercalate_cons_cons, List.append_assoc]
  rfl

theorem length_le_writePath (path : List String) : path.length ≤ (writePath path).length + 1 := by
  induction path with
  | nil => exact Nat.zero_le _
  | cons key path ih =>
    cases path with
    | nil => exact Nat.succ_le_succ (Nat.zero_le _)
    | cons next path =>
      simp only [writePath_cons_cons, List.length_append, List.length_cons] at ih ⊢
      omega

theorem exists_head_writePath {path : List String} (hne : path ≠ []) :
    ∃ c rest, writePath path = c :: rest ∧ isLead c = true := by
  cases path with
  | nil => exact absurd rfl hne
  | cons key path =>
    obtain ⟨c, rest, hhead, hlead⟩ := exists_head_writeKey key.toList
    cases path with
    | nil => exact ⟨c, rest, (writePath_singleton key).trans hhead, hlead⟩
    | cons next path => exact ⟨c, _, by rw [writePath_cons_cons, hhead]; rfl, hlead⟩

/-- A path in a header. -/
theorem readPath_writePath {path : List String} (hne : path ≠ []) {n : Nat} (h : path.length ≤ n) (rest : List Char) :
    readPath n (writePath path ++ ']' :: rest) = some (path, ']' :: rest) := by
  induction path generalizing n with
  | nil => exact absurd rfl hne
  | cons key path ih =>
    obtain ⟨n, rfl⟩ := Nat.exists_eq_succ_of_ne_zero (Nat.ne_of_gt (Nat.zero_lt_of_lt h))
    cases path with
    | nil =>
      rw [writePath_singleton, readPath, skipSpace_writeKey, readSimpleKey?_writeKey _ rfl, String.ofList_toList]
      rfl
    | cons next path =>
      have hrest := ih (List.cons_ne_nil _ _) (n := n) (Nat.le_of_succ_le_succ h)
      rw [writePath_cons_cons, List.append_assoc, List.cons_append, readPath, skipSpace_writeKey,
        readSimpleKey?_writeKey _ rfl, String.ofList_toList]
      dsimp only
      rw [skipSpace_cons rfl]
      change (readPath n _).map _ = _
      rw [hrest]
      rfl

/-! ## Values -/

/-- The values that stand on one line: texts, natural numbers of 64 bits and doubles other than the one that is no
number. -/
inductive Scalar : Document → Prop
  | string (s : String) : Scalar (.string s)
  | int {n : Nat} (h : n < 2 ^ 64) : Scalar (.number (.int n))
  | float {x : Float} (h : x.isNaN = false) : Scalar (.number (.float x))

inductive Readable : Document → Prop
  | scalar {value : Document} (h : Scalar value) : Readable value
  | array {items : List Document} (h : ∀ item ∈ items, Scalar item) : Readable (.array false items)

/-- What follows a value that stands on one line. -/
def isStop (c : Char) : Bool := c == '\n' || c == ',' || c == ']'

theorem ne_of_isStop {c : Char} (h : isStop c = true) :
    isWordChar c = false ∧ c ≠ ' ' ∧ c ≠ '"' ∧ c ≠ '\x27' := by
  unfold isStop at h
  simp only [Bool.or_eq_true, beq_iff_eq] at h
  obtain (rfl | rfl) | rfl := h <;> decide

theorem readWord_append {s : List Char} {value : Document} (h : Word s value) {c : Char} (hc : isStop c = true)
    (rest : List Char) : readWord (s ++ c :: rest) = (s, c :: rest) := by
  obtain ⟨hend, hspace, _⟩ := ne_of_isStop hc
  have hword : (s ++ c :: rest).takeWhile isWordChar = s := by
    rw [List.takeWhile_append_of_pos h.chars, List.takeWhile_cons_of_neg (by rw [hend]; decide), List.append_nil]
  unfold readWord
  rw [hword]
  dsimp only
  rw [List.drop_left' rfl]
  split
  · rename_i heq
    exact absurd (List.cons.inj heq).1 hspace
  · rfl

theorem Word.exists_head {s : List Char} {value : Document} (h : Word s value) :
    ∃ c rest, s = c :: rest ∧ isWordChar c = true := by
  cases s with
  | nil => cases h.read
  | cons c rest => exact ⟨c, rest, rfl, h.chars c List.mem_cons_self⟩

theorem readValue_word {s : List Char} {value : Document} (h : Word s value) {c : Char} (hc : isStop c = true)
    (n : Nat) (rest : List Char) : readValue (n + 1) (s ++ c :: rest) = some (value, c :: rest) := by
  have hscalar : readScalar? (s ++ c :: rest) = some (value, c :: rest) := by
    unfold readScalar?
    rw [readWord_append h hc]
    dsimp only
    rw [h.read]
    rfl
  obtain ⟨d, more, hs, hd⟩ := h.exists_head
  rw [hs, List.cons_append] at hscalar ⊢
  unfold readValue
  split
  · rename_i heq
    rw [(List.cons.inj heq).1] at hd
    exact absurd hd (by decide)
  · rename_i heq
    rw [(List.cons.inj heq).1] at hd
    exact absurd hd (by decide)
  · rename_i heq
    obtain ⟨rfl, rfl⟩ := List.cons.inj heq
    rw [if_neg]
    · exact hscalar
    · rintro (rfl | rfl) <;> exact absurd hd (by decide)
  · rename_i heq
    cases heq

theorem readValue_writeText (s : String) {c : Char} (hc : isStop c = true) (n : Nat) (rest : List Char) :
    readValue (n + 1) (writeText s.toList ++ c :: rest) = some (.string s, c :: rest) := by
  obtain ⟨_, _, hbasic, hliteral⟩ := ne_of_isStop hc
  have hdouble : (c :: rest).head? ≠ some '"' := fun heq => hbasic (Option.some_inj.mp heq)
  have hsingle : (c :: rest).head? ≠ some '\x27' := fun heq => hliteral (Option.some_inj.mp heq)
  have hread := readQuoted?_writeText s.toList hdouble hsingle
  obtain ⟨quote, more, hs, hquote⟩ := exists_head_writeText s.toList
  rw [hs, List.cons_append] at hread ⊢
  obtain rfl | rfl := hquote
  · change (readQuoted? _).map _ = _
    rw [hread]
    exact congrArg (fun t => some (Document.string t, c :: rest)) String.ofList_toList
  · change (readQuoted? _).map _ = _
    rw [hread]
    exact congrArg (fun t => some (Document.string t, c :: rest)) String.ofList_toList

namespace Scalar

variable {value : Document}

theorem readValue (h : Scalar value) {c : Char} (hc : isStop c = true) (n : Nat) (rest : List Char) :
    readValue (n + 1) (writeScalar value ++ c :: rest) = some (value, c :: rest) := by
  cases h with
  | string s => exact readValue_writeText s hc n rest
  | int h => exact readValue_word (word_int h) hc n rest
  | float h => exact readValue_word (word_float h) hc n rest

theorem exists_head (h : Scalar value) : ∃ c rest, writeScalar value = c :: rest ∧ isLead c = true := by
  have hword : ∀ {s : List Char}, Word s value → ∃ c rest, s = c :: rest ∧ isLead c = true := by
    intro s hs
    obtain ⟨c, rest, heq, hc⟩ := hs.exists_head
    exact ⟨c, rest, heq, by rw [isLead, hc]; rfl⟩
  cases h with
  | string s =>
    obtain ⟨quote, rest, heq, rfl | rfl⟩ := exists_head_writeText s.toList
    · exact ⟨_, rest, heq, rfl⟩
    · exact ⟨_, rest, heq, rfl⟩
  | int h => exact hword (word_int h)
  | float h => exact hword (word_float h)

end Scalar

/-! ## Arrays -/

theorem nextPart?_close (rest : List Char) : nextPart? ']' (']' :: rest) = some (true, rest) := by
  unfold nextPart?
  rw [skipTrivia_cons rfl]
  rfl

/-- A comma and the end of the line, and then the next item or the end of the array. -/
theorem nextPart?_comma {c : Char} {s rest : List Char} (hskip : skipTrivia false s = c :: rest) :
    nextPart? ']' (',' :: s) = if c = ']' then some (true, rest) else some (false, c :: rest) := by
  unfold nextPart?
  rw [skipTrivia_cons rfl]
  dsimp only
  rw [if_neg (by decide), if_pos rfl, hskip]

/-- The start of a line of an array is passed over. -/
theorem skipTrivia_line {item : Document} {c : Char} {more : List Char} (hhead : writeScalar item = c :: more)
    (hfiller : isFiller c = false) (items : List Document) (rest : List Char) :
    skipTrivia false ('\n' :: ((item :: items).flatMap writeItem ++ ']' :: rest)) =
      writeScalar item ++ (',' :: '\n' :: (items.flatMap writeItem ++ ']' :: rest)) := by
  rw [List.flatMap_cons, writeItem, List.append_assoc, List.append_assoc, List.append_assoc, hhead]
  exact skipTrivia_cons hfiller _

/-- The lines of an array after the first item. -/
theorem readItems_lines {item : Document} {items : List Document} (h : Scalar item) (hall : ∀ v ∈ items, Scalar v)
    {n : Nat} (hn : items.length + 2 ≤ n) (rest : List Char) :
    readItems n (writeScalar item ++ (',' :: '\n' :: (items.flatMap writeItem ++ ']' :: rest))) =
      some (item :: items, rest) := by
  induction items generalizing item n with
  | nil =>
    obtain ⟨n, rfl⟩ : ∃ m, n = m + 2 := ⟨n - 2, by rw [List.length_nil] at hn; omega⟩
    have hskip : skipTrivia false ('\n' :: (([] : List Document).flatMap writeItem ++ ']' :: rest)) = ']' :: rest := rfl
    rw [readItems, h.readValue rfl]
    dsimp only
    rw [nextPart?_comma hskip]
    rfl
  | cons next items ih =>
    obtain ⟨n, rfl⟩ : ∃ m, n = m + 2 := ⟨n - 2, by rw [List.length_cons] at hn; omega⟩
    have hnext := hall next List.mem_cons_self
    obtain ⟨c, more, hhead, hlead⟩ := hnext.exists_head
    have hfiller := not_isFiller_of_isLead hlead
    have hrest := ih hnext (fun v hv => hall v (List.mem_cons_of_mem _ hv)) (n := n + 1)
      (by rw [List.length_cons] at hn; omega)
    have hskip := skipTrivia_line hhead hfiller items rest
    rw [readItems, h.readValue rfl]
    dsimp only
    rw [hhead, List.cons_append] at hskip hrest
    rw [nextPart?_comma hskip, if_neg]
    · dsimp only
      rw [hrest]
      rfl
    · rintro rfl
      cases hlead

theorem readValue_bracket {s more : List Char} {c : Char} (hskip : skipTrivia false s = c :: more) (hc : c ≠ ']')
    {n : Nat} {items : List Document} {rest : List Char} (h : readItems n (c :: more) = some (items, rest)) :
    readValue (n + 1) ('[' :: s) = some (.array false items, rest) := by
  rw [readValue, hskip]
  split
  · rename_i heq
    exact absurd (List.cons.inj heq).1 hc
  · rw [h]
    rfl

/-- An array is on one line when it has one item at most, and has a line for each item otherwise. -/
theorem readValue_array {items : List Document} (hall : ∀ v ∈ items, Scalar v) {n : Nat} (hn : items.length + 2 ≤ n)
    (rest : List Char) :
    readValue n (writeValue (.array false items) ++ '\n' :: rest) = some (.array false items, '\n' :: rest) := by
  cases items with
  | nil =>
    obtain ⟨n, rfl⟩ : ∃ m, n = m + 2 := ⟨n - 2, by omega⟩
    rfl
  | cons item items =>
    rw [List.length_cons] at hn
    obtain ⟨n, rfl⟩ : ∃ m, n = m + 3 := ⟨n - 3, by omega⟩
    have hitem := hall item List.mem_cons_self
    obtain ⟨c, more, hhead, hlead⟩ := hitem.exists_head
    have hfiller := not_isFiller_of_isLead hlead
    have hclose : c ≠ ']' := by
      rintro rfl
      cases hlead
    cases items with
    | nil =>
      have htext : writeValue (.array false [item]) ++ '\n' :: rest =
          '[' :: (writeScalar item ++ ']' :: '\n' :: rest) := by
        change ('[' :: writeScalar item ++ [']']) ++ '\n' :: rest = _
        rw [List.append_assoc]
        rfl
      have hitems : readItems (n + 2) (writeScalar item ++ ']' :: '\n' :: rest) = some ([item], '\n' :: rest) := by
        rw [readItems, hitem.readValue rfl]
        dsimp only
        rw [nextPart?_close]
      rw [hhead, List.cons_append] at hitems
      rw [htext, hhead]
      exact readValue_bracket (skipTrivia_cons hfiller _) hclose hitems
    | cons next items =>
      have htext : writeValue (.array false (item :: next :: items)) ++ '\n' :: rest =
          '[' :: '\n' :: ((item :: next :: items).flatMap writeItem ++ ']' :: '\n' :: rest) := by
        change ('[' :: '\n' :: (item :: next :: items).flatMap writeItem ++ [']']) ++ '\n' :: rest = _
        rw [List.append_assoc]
        rfl
      have hitems := readItems_lines hitem (fun v hv => hall v (List.mem_cons_of_mem _ hv)) (n := n + 2)
        (by omega) ('\n' :: rest)
      have hskip := skipTrivia_line hhead hfiller (next :: items) ('\n' :: rest)
      rw [hhead, List.cons_append] at hitems hskip
      rw [htext]
      exact readValue_bracket hskip hclose hitems

/-- A value at the end of a line is read as it was written. -/
theorem Readable.readValue {value : Document} (h : Readable value) {n : Nat} (rest : List Char)
    (hn : 2 * (writeValue value ++ '\n' :: rest).length + 2 ≤ n) :
    readValue n (writeValue value ++ '\n' :: rest) = some (value, '\n' :: rest) := by
  cases h with
  | scalar h =>
    obtain ⟨n, rfl⟩ : ∃ m, n = m + 1 := ⟨n - 1, by omega⟩
    have htext : writeValue value = writeScalar value := by cases h <;> rfl
    rw [htext]
    exact h.readValue rfl n rest
  | @array items h =>
    have hlength : items.length ≤ (writeValue (.array false items)).length := by
      cases items with
      | nil => exact Nat.zero_le _
      | cons item items =>
        cases items with
        | nil => exact Nat.succ_le_succ (Nat.zero_le _)
        | cons next items =>
          have hlines := length_le_flatMap (f := writeItem) (fun v => List.append_ne_nil_of_right_ne_nil _
            (List.cons_ne_nil _ _)) (item :: next :: items)
          change _ ≤ ('[' :: '\n' :: (item :: next :: items).flatMap writeItem ++ [']']).length
          simp only [List.length_append, List.length_cons] at hlines ⊢
          omega
    rw [List.length_append] at hn
    exact readValue_array h (by omega) rest

theorem Readable.exists_head {value : Document} (h : Readable value) :
    ∃ c rest, writeValue value = c :: rest ∧ isFiller c = false := by
  cases h with
  | scalar h =>
    obtain ⟨c, rest, heq, hlead⟩ := h.exists_head
    have htext : writeValue value = writeScalar value := by cases h <;> rfl
    exact ⟨c, rest, htext.trans heq, not_isFiller_of_isLead hlead⟩
  | @array items h =>
    cases items with
    | nil => exact ⟨'[', _, rfl, rfl⟩
    | cons item items =>
      cases items with
      | nil => exact ⟨'[', _, rfl, rfl⟩
      | cons next items => exact ⟨'[', _, rfl, rfl⟩

/-! ## Statements -/

theorem readPath?_writeKey (key : String) (rest : List Char) :
    readPath? (writeKey key.toList ++ ' ' :: '=' :: rest) = some ([key], '=' :: rest) := by
  unfold readPath?
  rw [readPath, skipSpace_writeKey, readSimpleKey?_writeKey _ rfl, String.ofList_toList]
  rfl

/-- The line of an entry. -/
theorem readStatement?_entry (key : String) {value : Document} (h : Readable value) (rest : List Char) :
    readStatement? (writeEntry (key, value) ++ rest) = some (.entry [key] value, '\n' :: rest) := by
  have hline : writeEntry (key, value) ++ rest =
      writeKey key.toList ++ ' ' :: '=' :: ' ' :: (writeValue value ++ '\n' :: rest) := by
    unfold writeEntry
    rw [List.append_assoc, List.append_assoc, List.append_assoc]
    rfl
  have hspace : skipSpace (' ' :: (writeValue value ++ '\n' :: rest)) = writeValue value ++ '\n' :: rest := by
    obtain ⟨c, more, hhead, hfiller⟩ := h.exists_head
    rw [hhead]
    exact skipSpace_cons hfiller _
  have hentry : readEntry? (writeEntry (key, value) ++ rest) = some (.entry [key] value, '\n' :: rest) := by
    rw [hline]
    unfold readEntry?
    rw [readPath?_writeKey]
    change (readValue _ (skipSpace (' ' :: (writeValue value ++ '\n' :: rest)))).map _ = _
    rw [hspace, h.readValue rest (by rw [List.length_cons]; omega)]
    rfl
  obtain ⟨c, more, hhead, hlead⟩ := exists_head_writeKey key.toList
  rw [hline, hhead, List.cons_append] at hentry ⊢
  unfold readStatement?
  split
  · rename_i heq
    rw [(List.cons.inj heq).1] at hlead
    cases hlead
  · exact hentry

/-- The line of a header. -/
theorem readStatement?_table {path : List String} (hne : path ≠ []) (rest : List Char) :
    readStatement? ('[' :: (writePath path ++ ']' :: rest)) = some (.table path, rest) := by
  have hpath : readPath? (writePath path ++ ']' :: rest) = some (path, ']' :: rest) := by
    have hlength := length_le_writePath path
    refine readPath_writePath hne ?_ rest
    rw [List.length_append]
    omega
  obtain ⟨c, more, hhead, hlead⟩ := exists_head_writePath hne
  change readHeader? (writePath path ++ ']' :: rest) = _
  rw [hhead, List.cons_append] at hpath ⊢
  unfold readHeader?
  split
  · rename_i heq
    rw [(List.cons.inj heq).1] at hlead
    cases hlead
  · rw [hpath]
    rfl

/-! ## Lines -/

theorem readStatements_line {c : Char} {s : List Char} (hc : isFiller c = false) {statement : Statement}
    {rest : List Char} (h : readStatement? (c :: s) = some (statement, '\n' :: rest)) (n : Nat) :
    readStatements (n + 1) (c :: s) = (readStatements n rest).map (statement :: ·) := by
  rw [readStatements, skipSpace_cons hc]
  dsimp only
  rw [endLine?_cons hc, h]
  rfl

theorem readStatements_blank (n : Nat) (rest : List Char) :
    readStatements (n + 1) ('\n' :: rest) = readStatements n rest := rfl

def Section.statements (t : Section) : List Statement :=
  .table t.path :: t.entries.map fun entry => .entry [entry.1] entry.2

/-- A table that can be read back. -/
structure Section.Readable (t : Section) : Prop where
  path_ne_nil : t.path ≠ []
  values : ∀ entry ∈ t.entries, Toml.Readable entry.2

theorem readStatements_entries {entries : List (String × Document)} (h : ∀ entry ∈ entries, Readable entry.2)
    (n : Nat) (rest : List Char) :
    readStatements (entries.length + n) (entries.flatMap writeEntry ++ rest) =
      (readStatements n rest).map ((entries.map fun entry => .entry [entry.1] entry.2) ++ ·) := by
  induction entries with
  | nil =>
    rw [List.length_nil, Nat.zero_add]
    exact Option.map_id'.symm
  | cons entry entries ih =>
    obtain ⟨key, value⟩ := entry
    have hline := readStatement?_entry key (h _ List.mem_cons_self) (entries.flatMap writeEntry ++ rest)
    obtain ⟨c, more, hhead, hlead⟩ := exists_head_writeKey key.toList
    have hfirst : writeEntry (key, value) = c :: (more ++ " = ".toList ++ writeValue value ++ ['\n']) := by
      unfold writeEntry
      rw [hhead]
      rfl
    rw [List.length_cons, Nat.add_right_comm, List.flatMap_cons, List.append_assoc]
    rw [hfirst, List.cons_append] at hline ⊢
    rw [readStatements_line (not_isFiller_of_isLead hlead) hline, ih fun v hv => h v (List.mem_cons_of_mem _ hv),
      Option.map_map]
    rfl

/-- The number of lines of a table with the empty line after it. -/
def Section.height (t : Section) : Nat := t.entries.length + 2

/-- A table with the empty line after it. -/
theorem readStatements_section {t : Section} (h : t.Readable) (n : Nat) (rest : List Char) :
    readStatements (t.height + n) (t.chars ++ '\n' :: rest) =
      (readStatements n rest).map (t.statements ++ ·) := by
  have hchars : t.chars ++ '\n' :: rest =
      '[' :: (writePath t.path ++ ']' :: '\n' :: (t.entries.flatMap writeEntry ++ '\n' :: rest)) := by
    unfold Section.chars
    rw [List.append_assoc, List.append_assoc]
    rfl
  rw [hchars, show t.height + n = t.entries.length + (n + 1) + 1 by unfold Section.height; omega,
    readStatements_line rfl (readStatement?_table h.path_ne_nil _), readStatements_entries h.values,
    readStatements_blank, Option.map_map]
  rfl

theorem readStatements_sections {sections : List Section} (h : ∀ t ∈ sections, t.Readable) (n : Nat)
    (rest : List Char) :
    readStatements ((sections.map Section.height).sum + n) (sections.flatMap (fun t => t.chars ++ ['\n']) ++ rest) =
      (readStatements n rest).map (sections.flatMap Section.statements ++ ·) := by
  induction sections with
  | nil =>
    rw [List.map_nil, List.sum_nil, Nat.zero_add]
    exact Option.map_id'.symm
  | cons t sections ih =>
    rw [List.map_cons, List.sum_cons, Nat.add_assoc, List.flatMap_cons, List.append_assoc, List.append_assoc,
      List.singleton_append, List.flatMap_cons, readStatements_section (h t List.mem_cons_self),
      ih fun t ht => h t (List.mem_cons_of_mem _ ht), Option.map_map]
    simp only [Function.comp_def, List.append_assoc]

theorem height_le_chars (t : Section) : t.height ≤ (t.chars ++ ['\n']).length := by
  have hentries := length_le_flatMap (f := writeEntry) (fun entry => List.append_ne_nil_of_right_ne_nil _
    (List.cons_ne_nil _ _)) t.entries
  unfold Section.height Section.chars
  simp only [List.length_append, List.length_cons]
  omega

theorem sum_height_le (sections : List Section) :
    (sections.map Section.height).sum ≤ (sections.flatMap fun t => t.chars ++ ['\n']).length := by
  induction sections with
  | nil => exact le_rfl
  | cons t sections ih =>
    rw [List.map_cons, List.sum_cons, List.flatMap_cons, List.length_append]
    exact Nat.add_le_add (height_le_chars t) ih

/-- The text of a file is its tables, each with a newline after it. -/
theorem toList_write {sections : List Section} (hne : sections ≠ []) :
    (write sections ++ "\n").toList = sections.flatMap fun t => t.chars ++ ['\n'] := by
  unfold write
  rw [String.toList_append, String.toList_ofList]
  induction sections with
  | nil => exact absurd rfl hne
  | cons t sections ih =>
    cases sections with
    | nil => rw [List.map_singleton, List.intercalate_singleton, List.flatMap_singleton]; rfl
    | cons next sections =>
      have ih := ih (List.cons_ne_nil _ _)
      rw [List.map_cons] at ih
      rw [List.map_cons, List.map_cons, List.intercalate_cons_cons, List.append_assoc, ih]
      rfl

/-- A file is read as the statements of its tables, in their order. -/
theorem document?_write {sections : List Section} (hne : sections ≠ []) (h : ∀ t ∈ sections, t.Readable) :
    document? (write sections ++ "\n") = build? (sections.flatMap Section.statements) := by
  have hstatements : readStatements ((sections.flatMap fun t => t.chars ++ ['\n']).length + 1)
      (sections.flatMap fun t => t.chars ++ ['\n']) = some (sections.flatMap Section.statements) := by
    obtain ⟨n, hn⟩ := Nat.exists_eq_add_of_le (sum_height_le sections)
    have hlines := readStatements_sections h (n + 1) []
    rw [List.append_nil] at hlines
    rw [hn, Nat.add_assoc, hlines]
    exact congrArg some (List.append_nil _)
  obtain ⟨rest, hmark⟩ : ∃ rest, (sections.flatMap fun t => t.chars ++ ['\n']) = '[' :: rest := by
    cases sections with
    | nil => exact absurd rfl hne
    | cons t sections => exact ⟨_, rfl⟩
  unfold document?
  rw [toList_write hne, hmark]
  dsimp only
  rw [if_neg (by decide), ← hmark, hstatements]
  rfl

end Overseer.Toml
