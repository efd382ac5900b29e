import Overseer.Text.Blank
import Mathlib.Data.List.DropRight

/-! # Trimmed texts

What is left of a text that is not blank has no white space at its ends, and it is still not blank.
-/

namespace Overseer.Text

/-- Something is there, and no white space around it. -/
def Tidy (s : String) : Prop := trim s = s ∧ allBlank s = false

theorem stripEnd_eq (s : List Char) : stripEnd s = s.rdropWhile isBlank := rfl

theorem stripStart_of_head {c : Char} {s : List Char} (h : isBlank c = false) :
    stripStart (c :: s) = c :: s := by
  rw [stripStart, List.dropWhile_cons_of_neg (by simp [h])]

/-- What has been stripped at its start begins with a character that is no white space. -/
theorem stripStart_cases (s : List Char) :
    stripStart s = [] ∧ s.all isBlank = true ∨
      ∃ c rest, stripStart s = c :: rest ∧ isBlank c = false := by
  induction s with
  | nil => exact Or.inl ⟨rfl, rfl⟩
  | cons c s ih =>
    cases h : isBlank c with
    | true =>
      have hskip : stripStart (c :: s) = stripStart s := List.dropWhile_cons_of_pos h
      rw [hskip, List.all_cons, h, Bool.true_and]
      exact ih
    | false => exact Or.inr ⟨c, s, stripStart_of_head h, h⟩

/-- The first character stays when it is no white space. -/
theorem stripEnd_of_head {c : Char} (s : List Char) (h : isBlank c = false) :
    ∃ rest, stripEnd (c :: s) = c :: rest := by
  obtain ⟨tail, htail⟩ := List.rdropWhile_prefix isBlank (c :: s)
  cases hs : stripEnd (c :: s) with
  | nil =>
    have hall := (List.rdropWhile_eq_nil_iff.mp hs) c List.mem_cons_self
    rw [h] at hall
    cases hall
  | cons d rest =>
    rw [← stripEnd_eq, hs] at htail
    exact ⟨rest, by rw [(List.cons.inj htail).1]⟩

theorem strip_strip (s : List Char) : strip (strip s) = strip s := by
  rcases stripStart_cases s with ⟨hnil, -⟩ | ⟨c, rest, hs, hc⟩
  · have hstrip : strip s = [] := by
      rw [strip, hnil]
      rfl
    rw [hstrip]
    rfl
  · obtain ⟨kept, hkept⟩ := stripEnd_of_head rest hc
    have hstrip : strip s = stripEnd (c :: rest) := by rw [strip, hs]
    have hstart : stripStart (strip s) = strip s := by
      rw [hstrip, hkept]
      exact stripStart_of_head hc
    have hend : stripEnd (strip s) = strip s := by
      rw [hstrip]
      exact List.rdropWhile_idempotent isBlank _
    rw [strip, hstart, hend]

/-- Trimming makes no text blank. -/
theorem strip_all {s : List Char} (h : s.all isBlank = false) : (strip s).all isBlank = false := by
  rcases stripStart_cases s with ⟨-, hall⟩ | ⟨c, rest, hs, hc⟩
  · rw [h] at hall
    cases hall
  · obtain ⟨kept, hkept⟩ := stripEnd_of_head rest hc
    rw [strip, hs, hkept, List.all_cons, hc, Bool.false_and]

theorem tidy_of_trimmed? {s t : String} (h : trimmed? s = some t) : Tidy t := by
  unfold trimmed? at h
  split at h
  · cases h
  · rename_i hblank
    obtain rfl := Option.some.inj h
    have hblank : s.toList.all isBlank = false := by simpa [allBlank] using hblank
    refine ⟨?_, ?_⟩
    · rw [trim, trim, String.toList_ofList, strip_strip]
    · rw [allBlank, trim, String.toList_ofList]
      exact strip_all hblank

theorem strip_infix (s : List Char) : strip s <:+: s :=
  (List.rdropWhile_prefix isBlank (stripStart s)).isInfix.trans (List.dropWhile_suffix isBlank).isInfix

/-! ## Texts that do not end in white space -/

def Firm (s : List Char) : Prop := ∃ front c, s = front ++ [c] ∧ isBlank c = false

theorem Firm.append {t : List Char} (h : Firm t) (s : List Char) : Firm (s ++ t) := by
  obtain ⟨front, c, rfl, hc⟩ := h
  exact ⟨s ++ front, c, (List.append_assoc s front [c]).symm, hc⟩

theorem firm_of_forall {s : List Char} (hne : s ≠ []) (h : ∀ c ∈ s, isBlank c = false) : Firm s :=
  ⟨s.dropLast, s.getLast hne, (List.dropLast_append_getLast hne).symm, h _ (List.getLast_mem hne)⟩

theorem firm_strip {s : List Char} (hne : strip s ≠ []) : Firm (strip s) := by
  refine ⟨(strip s).dropLast, (strip s).getLast hne, (List.dropLast_append_getLast hne).symm, ?_⟩
  have hlast := List.rdropWhile_last_not isBlank (stripStart s) hne
  exact Bool.eq_false_iff.mpr hlast

/-- White space around a text that has none at its ends is taken away. -/
theorem strip_of_firm {c : Char} {lead rest trail : List Char} (hlead : ∀ d ∈ lead, isBlank d = true)
    (hc : isBlank c = false) (hrest : Firm (c :: rest)) (htrail : ∀ d ∈ trail, isBlank d = true) :
    strip (lead ++ (c :: rest ++ trail)) = c :: rest := by
  have hstart : stripStart (lead ++ (c :: rest ++ trail)) = c :: rest ++ trail :=
    (List.dropWhile_append_of_pos hlead).trans (stripStart_of_head hc)
  obtain ⟨front, d, hfront, hd⟩ := hrest
  have htrail : ∀ d ∈ trail.reverse, isBlank d = true := fun d hmem => htrail d (List.mem_reverse.mp hmem)
  rw [strip, hstart, stripEnd, hfront, List.reverse_append, List.dropWhile_append_of_pos htrail, List.reverse_append]
  show ((d :: front.reverse).dropWhile isBlank).reverse = front ++ [d]
  rw [List.dropWhile_cons_of_neg (by simp [hd]), List.reverse_cons, List.reverse_reverse]

end Overseer.Text
