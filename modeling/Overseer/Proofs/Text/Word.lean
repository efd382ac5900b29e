import Overseer.Text.Blank
import Overseer.Text.Digit
import Overseer.Text.Word
import Mathlib.Data.List.Basic

/-! # White space, digits and words

The three classes of characters that noise is told by: no white space is a digit or a word character, and every digit is
a word character. So a digit after white space, or at the start of the text, begins a word.
-/

namespace Overseer.Text

/-- All white space. -/
def blankCodes : List Nat :=
  [9, 10, 11, 12, 13, 32, 133, 160, 5760, 8192, 8193, 8194, 8195, 8196, 8197, 8198, 8199, 8200, 8201, 8202, 8232, 8233,
    8239, 8287, 12288]

theorem mem_blankCodes {c : Char} (h : isBlank c = true) : c.toNat ∈ blankCodes := by
  simp only [isBlank, Bool.or_eq_true, Bool.and_eq_true, decide_eq_true_eq, beq_iff_eq] at h
  simp only [blankCodes, List.mem_cons, List.not_mem_nil, or_false]
  omega

theorem blank_classes : ∀ n ∈ blankCodes, isWord (Char.ofNat n) = false ∧ isDecimal (Char.ofNat n) = false := by
  decide +kernel

theorem isWord_of_isBlank {c : Char} (h : isBlank c = true) : isWord c = false := by
  have hclass := (blank_classes _ (mem_blankCodes h)).1
  rwa [Char.ofNat_toNat] at hclass

theorem any_isWord_of_blank {o : Option Char} (h : ∀ c ∈ o, isBlank c = true) : o.any isWord = false := by
  cases o with
  | none => rfl
  | some c => exact isWord_of_isBlank (h c rfl)

theorem isDecimal_of_isBlank {c : Char} (h : isBlank c = true) : isDecimal c = false := by
  have hclass := (blank_classes _ (mem_blankCodes h)).2
  rwa [Char.ofNat_toNat] at hclass

theorem not_isBlank_of_isDecimal {c : Char} (h : isDecimal c = true) : isBlank c = false := by
  rw [Bool.eq_false_iff]
  intro hblank
  rw [isDecimal_of_isBlank hblank] at h
  cases h

/-! ## Digits are word characters -/

/-- A range of characters lies in one range of a table. -/
def Ranges.covers (table : Ranges) (range : Nat × Nat) : Bool :=
  table.any fun (lo, hi) => decide (lo ≤ range.1) && decide (range.2 ≤ hi)

theorem Ranges.contains_of_covers {table : Ranges} {range : Nat × Nat} (h : table.covers range = true) {c : Char}
    (hlo : range.1 ≤ c.toNat) (hhi : c.toNat ≤ range.2) : table.contains c = true := by
  obtain ⟨entry, hentry, hcovers⟩ := List.any_eq_true.mp h
  simp only [Bool.and_eq_true, decide_eq_true_eq] at hcovers
  refine List.any_eq_true.mpr ⟨entry, hentry, ?_⟩
  simp only [Bool.and_eq_true, decide_eq_true_eq]
  omega

/-- Past ASCII, the part of the table of word characters in which a range lies has it. -/
def WordRange (range : Nat × Nat) : Prop :=
  range.2 < 128 ∨
    128 ≤ range.1 ∧ range.2 < 0xf49 ∧ wordCharsA.covers range = true ∨
    0xf49 ≤ range.1 ∧ range.2 < 0xfb00 ∧ wordCharsB.covers range = true ∨
    0xfb00 ≤ range.1 ∧ range.2 < 0x11a50 ∧ wordCharsC.covers range = true ∨
    0x11a50 ≤ range.1 ∧ wordCharsD.covers range = true

instance (range : Nat × Nat) : Decidable (WordRange range) := inferInstanceAs (Decidable (_ ∨ _))

theorem wordRange_of_mem : ∀ range ∈ decimalDigits, WordRange range := by
  decide +kernel

theorem isWord_of_wordRange {range : Nat × Nat} (h : WordRange range) {c : Char} (hc : ¬ c.toNat < 128)
    (hlo : range.1 ≤ c.toNat) (hhi : c.toNat ≤ range.2) : isWord c = true := by
  rw [isWord, if_neg hc]
  rcases h with h | ⟨_, h2, h⟩ | ⟨h1, h2, h⟩ | ⟨h1, h2, h⟩ | ⟨h1, h⟩
  · omega
  · rw [if_pos (by omega)]
    exact Ranges.contains_of_covers h hlo hhi
  · rw [if_neg (by omega), if_pos (by omega)]
    exact Ranges.contains_of_covers h hlo hhi
  · rw [if_neg (by omega), if_neg (by omega), if_pos (by omega)]
    exact Ranges.contains_of_covers h hlo hhi
  · rw [if_neg (by omega), if_neg (by omega), if_neg (by omega)]
    exact Ranges.contains_of_covers h hlo hhi

theorem isWord_of_isDecimal {c : Char} (h : isDecimal c = true) : isWord c = true := by
  rw [isDecimal] at h
  split at h
  · rename_i hc
    rw [isWord, if_pos hc, Char.isAlphanum, h, Bool.or_true, Bool.true_or]
  · rename_i hc
    obtain ⟨range, hrange, hin⟩ := List.any_eq_true.mp h
    rw [Bool.and_eq_true, decide_eq_true_eq, decide_eq_true_eq] at hin
    exact isWord_of_wordRange (wordRange_of_mem range hrange) hc hin.1 hin.2

/-! ## The characters of a fixed text -/

/-- What holds of each character of a text is found out by going through the text. -/
theorem forall_mem_of_all {P : Char → Prop} [DecidablePred P] {s : List Char}
    (h : s.all (fun c => decide (P c)) = true) : ∀ c ∈ s, P c :=
  fun c hc => of_decide_eq_true (List.all_eq_true.mp h c hc)

end Overseer.Text
