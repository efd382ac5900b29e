import Overseer.Proofs.Failure.Grammar
import Mathlib.Data.List.Infix

/-! # Replacing the matches of a pattern

`Scan` is the same as `replaceFrom`, as a relation with one rule for a character that stays and one for a match that is
replaced (`scan_replaceFrom`). A kind of noise `Marks` its matches when each of them begins with a digit and its token
has an angle bracket at both ends and neither a digit nor white space within. This is why what has been replaced is
never noise again: whatever a pattern finds in a text with tokens has been there before (`Scan.copied`).
-/

namespace Overseer.Noise

open Text (isBlank isWord)

def stamps : Kind := ⟨fun _ => timestamp, "<timestamp>".toList⟩

def addresses : Kind := ⟨fun _ => address, "<addr>".toList⟩

def durations : Kind := ⟨duration, "<duration>".toList⟩

def longNumbers : Kind := ⟨fun _ => longNumber, "<n>".toList⟩

def layout : Kind := ⟨fun _ => blanks, [' ']⟩

/-- The text before its white space is collapsed. -/
def mark (s : List Char) : List Char :=
  longNumbers.replace (durations.replace (addresses.replace (stamps.replace s)))

theorem normalizeChars_eq (s : List Char) : normalizeChars s = Text.strip (layout.replace (mark s)) := by
  rw [normalizeChars, mark]
  rfl

variable {k : Kind} {before : Option Char} {s r out : List Char}

/-! ## Scanning -/

theorem getLast?_cons_or (c : Char) (a : List Char) (before : Option Char) :
    (c :: a).getLast?.or before = a.getLast?.or (some c) := by
  cases a with
  | nil => rfl
  | cons d a => rw [List.getLast?_cons_cons]; simp [List.getLast?_cons]

theorem getLast?_append_or {a : List Char} (ha : a ≠ []) (b : List Char) (before : Option Char) :
    (a ++ b).getLast?.or before = b.getLast?.or a.getLast? := by
  rw [List.getLast?_append, List.getLast?_eq_some_getLast ha, Option.or_assoc]
  rfl

namespace Kind

/-- A match takes something from the start of a text. -/
def Takes (k : Kind) : Prop :=
  ∀ before s r, k.pattern before s = some r → ∃ a, a ≠ [] ∧ s = a ++ r

theorem replaceFrom_skip (k : Kind) (before : Option Char) (a r : List Char) :
    k.replaceFrom before a.length (a ++ r) = k.replaceFrom (a.getLast?.or before) 0 r := by
  induction a generalizing before with
  | nil => rfl
  | cons c a ih =>
    rw [List.length_cons, List.cons_append, replaceFrom, ih, getLast?_cons_or]

theorem replaceFrom_keep {c : Char} (h : k.pattern before (c :: s) = none) :
    k.replaceFrom before 0 (c :: s) = c :: k.replaceFrom (some c) 0 s := by
  rw [replaceFrom, h]

theorem replaceFrom_swap {a : List Char} (hne : a ≠ []) (h : k.pattern before (a ++ r) = some r) :
    k.replaceFrom before 0 (a ++ r) = k.token ++ k.replaceFrom a.getLast? 0 r := by
  obtain ⟨c, a, rfl⟩ := List.exists_cons_of_ne_nil hne
  rw [List.cons_append] at h ⊢
  rw [replaceFrom, h]
  show k.token ++ k.replaceFrom (some c) ((a ++ r).length - r.length) (a ++ r) = _
  rw [List.length_append, Nat.add_sub_cancel, replaceFrom_skip, ← getLast?_cons_or c a none, Option.or_none]

end Kind

/-- What becomes of a text, from left to right. -/
inductive Scan (k : Kind) : Option Char → List Char → List Char → Prop
  | nil (before : Option Char) : Scan k before [] []
  | keep {before : Option Char} {c : Char} {s out : List Char} (h : k.pattern before (c :: s) = none)
      (rest : Scan k (some c) s out) : Scan k before (c :: s) (c :: out)
  | swap {before : Option Char} {a s out : List Char} (hne : a ≠ []) (h : k.pattern before (a ++ s) = some s)
      (rest : Scan k a.getLast? s out) : Scan k before (a ++ s) (k.token ++ out)

theorem scan_replaceFrom (hk : k.Takes) (before : Option Char) (s : List Char) :
    Scan k before s (k.replaceFrom before 0 s) := by
  induction hn : s.length using Nat.strong_induction_on generalizing before s with
  | _ n ih =>
    subst hn
    cases s with
    | nil => exact .nil before
    | cons c s =>
      cases h : k.pattern before (c :: s) with
      | none =>
        rw [Kind.replaceFrom_keep h]
        exact .keep h (ih s.length (Nat.lt_succ_self _) _ s rfl)
      | some r =>
        obtain ⟨a, hne, he⟩ := hk before (c :: s) r h
        rw [he] at h ⊢
        rw [Kind.replaceFrom_swap hne h]
        refine .swap hne h (ih r.length ?_ _ r rfl)
        rw [he, List.length_append]
        exact Nat.lt_add_of_pos_left (List.length_pos_iff.mpr hne)

theorem Scan.eq_replaceFrom (h : Scan k before s out) : out = k.replaceFrom before 0 s := by
  induction h with
  | nil => rfl
  | keep h _ ih => rw [Kind.replaceFrom_keep h, ih]
  | swap hne h _ ih => rw [Kind.replaceFrom_swap hne h, ih]

/-! ## Kinds of noise with a token -/

/-- Each match begins with a digit, and the token can be told from all that is matched. -/
structure Kind.Marks (k : Kind) : Prop where
  begins : ∀ before s r, k.pattern before s = some r → ∃ c a, digit c = true ∧ s = c :: (a ++ r)
  token : ∃ name, k.token = '<' :: (name ++ ['>']) ∧ ∀ c ∈ name, digit c = false ∧ isBlank c = false

namespace Kind.Marks

theorem takes (hk : k.Marks) : k.Takes := fun before s r h => by
  obtain ⟨c, a, -, rfl⟩ := hk.begins before s r h
  exact ⟨c :: a, List.cons_ne_nil c a, rfl⟩

theorem pattern_cons (hk : k.Marks) {c : Char} (hc : digit c = false) (before : Option Char) (s : List Char) :
    k.pattern before (c :: s) = none := by
  rw [Option.eq_none_iff_forall_ne_some]
  intro r hr
  obtain ⟨d, a, hd, he⟩ := hk.begins before (c :: s) r hr
  rw [(List.cons.inj he).1, hd] at hc
  cases hc

/-- What has no digits stays as it is. -/
theorem replaceFrom_append (hk : k.Marks) {a : List Char} (ha : ∀ c ∈ a, digit c = false) (before : Option Char)
    (s : List Char) :
    k.replaceFrom before 0 (a ++ s) = a ++ k.replaceFrom (a.getLast?.or before) 0 s := by
  induction a generalizing before with
  | nil => rfl
  | cons c a ih =>
    obtain ⟨hc, ha⟩ := List.forall_mem_cons.mp ha
    rw [List.cons_append, Kind.replaceFrom_keep (hk.pattern_cons hc before (a ++ s)), ih ha, getLast?_cons_or]
    rfl

theorem replaceFrom_eq_self (hk : k.Marks) (hs : ∀ c ∈ s, digit c = false) (before : Option Char) :
    k.replaceFrom before 0 s = s := by
  have happend := hk.replaceFrom_append hs before []
  rw [List.append_nil] at happend
  exact happend.trans (List.append_nil s)

theorem mem_token (hk : k.Marks) {c : Char} (hc : c ∈ k.token) : digit c = false ∧ isBlank c = false := by
  obtain ⟨name, htoken, hname⟩ := hk.token
  rw [htoken, List.mem_cons, List.mem_append, List.mem_singleton] at hc
  rcases hc with rfl | hc | rfl
  · decide +kernel
  · exact hname c hc
  · decide +kernel

end Kind.Marks

theorem marks_stamps : stamps.Marks where
  begins before s r h := by
    obtain ⟨a, f, z, ha, -, -, rfl⟩ := timestamp_cases h
    obtain ⟨c, rest, rfl, hc⟩ := ha.exists_cons
    exact ⟨c, rest ++ (f ++ z), hc, by simp⟩
  token := ⟨"timestamp".toList, rfl, Text.forall_mem_of_all (by decide +kernel)⟩

theorem marks_addresses : addresses.Marks where
  begins before s r h := by
    obtain ⟨a, ha, -, rfl⟩ := address_eq_some_iff.mp h
    obtain ⟨c, rest, rfl, hc⟩ := ha.exists_cons
    exact ⟨c, rest, hc, rfl⟩
  token := ⟨"addr".toList, rfl, Text.forall_mem_of_all (by decide +kernel)⟩

theorem duration_eq_some_iff : duration before s = some r ↔
    ∃ a, IsSpan a ∧ s = a ++ r ∧ before.any isWord = false ∧ r.head?.any isWord = false := by
  have hafter (t : List Char) : Text.isBoundary (some 's') t.head? = true ↔ t.head?.any isWord = false := by
    rw [Text.isBoundary, Option.any_some, show isWord 's' = true by decide +kernel]
    cases t.head?.any isWord <;> simp
  rw [duration_eq]
  constructor
  · intro h
    split at h
    · rename_i hbefore
      obtain ⟨t, hspan, ht⟩ := Option.bind_eq_some_iff.mp h
      split at ht
      · rename_i hend
        obtain rfl := Option.some.inj ht
        obtain ⟨a, ha, rfl⟩ := span_eq_some_iff.mp hspan
        refine ⟨a, ha, rfl, ?_, (hafter t).mp hend⟩
        obtain ⟨c, rest, rfl, hc⟩ := ha.exists_cons
        have hword : (List.head? (c :: rest ++ t)).any isWord = true := isWord_of_digit hc
        rw [Text.isBoundary, hword] at hbefore
        simpa using hbefore
      · cases ht
    · cases h
  · rintro ⟨a, ha, rfl, hbefore, hend⟩
    have hstart : Text.isBoundary before (a ++ r).head? = true := by
      obtain ⟨c, rest, rfl, hc⟩ := ha.exists_cons
      have hword : (List.head? (c :: rest ++ r)).any isWord = true := isWord_of_digit hc
      rw [Text.isBoundary, hword, hbefore]
      rfl
    rw [if_pos hstart, span_eq_some_iff.mpr ⟨a, ha, rfl⟩, Option.bind_some, if_pos ((hafter r).mpr hend)]

theorem marks_durations : durations.Marks where
  begins before s r h := by
    obtain ⟨a, ha, rfl, -, -⟩ := duration_eq_some_iff.mp h
    obtain ⟨c, rest, rfl, hc⟩ := ha.exists_cons
    exact ⟨c, rest, hc, rfl⟩
  token := ⟨"duration".toList, rfl, Text.forall_mem_of_all (by decide +kernel)⟩

theorem marks_longNumbers : longNumbers.Marks where
  begins before s r h := by
    obtain ⟨a, ha, -, rfl⟩ := longNumber_eq_some_iff.mp h
    obtain ⟨c, rest, rfl, hc⟩ := ha.exists_cons
    exact ⟨c, rest, hc, rfl⟩
  token := ⟨"n".toList, rfl, Text.forall_mem_of_all (by decide +kernel)⟩

/-! ## What is copied -/

/-- Where no angle bracket is, nothing has been replaced. -/
theorem Scan.copied (hk : k.Marks) {a y : List Char} (ha : ∀ c ∈ a, c ≠ '<') (h : Scan k before s (a ++ y)) :
    ∃ t, s = a ++ t ∧ Scan k (a.getLast?.or before) t y := by
  induction a generalizing before s with
  | nil => exact ⟨s, rfl, h⟩
  | cons c a ih =>
    obtain ⟨hc, ha⟩ := List.forall_mem_cons.mp ha
    generalize hout : c :: a ++ y = out at h
    cases h with
    | nil => cases hout
    | keep hnone rest =>
      obtain ⟨rfl, rfl⟩ := List.cons.inj hout
      obtain ⟨t, rfl, hscan⟩ := ih ha rest
      exact ⟨t, rfl, by rw [getLast?_cons_or]; exact hscan⟩
    | swap hne hsome rest =>
      obtain ⟨name, htoken, -⟩ := hk.token
      rw [htoken] at hout
      exact absurd (List.cons.inj hout).1 hc

end Overseer.Noise
