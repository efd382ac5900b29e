import Overseer.Proofs.Prompt.Marker
import Mathlib.Data.Nat.Digits.Defs

/-! # The sections of the two prompts

A template is written section by section, each with its marker before it (`written`). When no marker is in what is
inserted, the reader finds the sections as they are written, with the white space around them gone (`sections_written`).
-/

namespace Overseer.Prompt

open Text (isBlank isWord)

/-! ## Templates -/

/-- A section as a template has it: what stands between its marker and the next one. -/
structure Part where
  key : String
  required : Bool
  text : String

def kindName (required : Bool) : String := if required then "required" else "droppable"

def markerText (key : String) (required : Bool) : String :=
  "<!-- section:" ++ (key ++ (" " ++ (kindName required ++ " -->")))

def written : List Part → String
  | [] => ""
  | part :: parts => markerText part.key part.required ++ (part.text ++ written parts)

/-- What is read of a section. -/
def Part.read (part : Part) : Section := ⟨part.key.toList, part.required, Text.strip part.text.toList⟩

def IsKey (key : String) : Prop := key.toList ≠ [] ∧ ∀ c ∈ key.toList, isWord c = true

/-- Each section has a key, no marker in it, and something to say unless it is required. -/
inductive Legible : List Part → Prop
  | nil : Legible []
  | cons {part : Part} {parts : List Part} (hkey : IsKey part.key)
      (hbare : Bare part.text.toList (written parts).toList)
      (hkept : part.required = true ∨ Text.strip part.text.toList ≠ []) (rest : Legible parts) : Legible (part :: parts)

variable {part : Part} {parts : List Part} {s lead trail : String}

theorem isMarker_markerText {key : String} (hkey : IsKey key) (required : Bool) :
    IsMarker key.toList required (markerText key required).toList := by
  have hspace : ∀ c ∈ [' '], isBlank c = true := List.forall_mem_singleton.mpr (by decide)
  have hkind : (kindName required).toList = kindText required := by
    cases required with
    | true => rfl
    | false => rfl
  refine ⟨[' '], [' '], [' '], hspace, hspace, hspace, List.cons_ne_nil _ _, hkey.1, hkey.2, ?_⟩
  simp only [markerText, String.toList_append, hkind]
  simp

theorem written_cons (part : Part) (parts : List Part) : (written (part :: parts)).toList =
    (markerText part.key part.required).toList ++ (part.text.toList ++ (written parts).toList) := by
  rw [written, String.toList_append, String.toList_append]

theorem written_head (parts : List Part) : ∀ c ∈ (written parts).toList.head?, c = '<' := by
  cases parts with
  | nil => exact fun _ hc => (nomatch hc)
  | cons part parts =>
    intro c hc
    rw [written_cons, markerText, String.toList_append] at hc
    exact (Option.some.inj hc).symm

theorem leadingText_chars (s : List Char) (rest : List Item) :
    leadingText (s.map Item.char ++ rest) = s ++ leadingText rest := by
  induction s with
  | nil => rfl
  | cons c s ih => exact congrArg (c :: ·) ih

theorem allSections_chars (s : List Char) (rest : List Item) :
    allSections (s.map Item.char ++ rest) = allSections rest := by
  induction s with
  | nil => rfl
  | cons c s ih => exact ih

theorem leadingText_written (h : Legible parts) : leadingText (items (written parts).toList) = [] := by
  cases h with
  | nil => rfl
  | cons hkey =>
    rw [written_cons, items_marker (isMarker_markerText hkey _)]
    rfl

theorem allSections_written (h : Legible parts) : allSections (items (written parts).toList) = parts.map Part.read := by
  induction h with
  | nil => rfl
  | @cons part parts hkey hbare _ rest ih =>
    rw [written_cons, items_marker (isMarker_markerText hkey _), items_bare hbare, allSections, leadingText_chars,
      leadingText_written rest, List.append_nil, allSections_chars, ih]
    rfl

theorem Legible.kept (h : Legible parts) : ∀ part ∈ parts, part.required = true ∨ Text.strip part.text.toList ≠ [] := by
  induction h with
  | nil => exact List.forall_mem_nil _
  | cons _ _ hkept _ ih => exact List.forall_mem_cons.mpr ⟨hkept, ih⟩

/-- The sections are read as they are written. -/
theorem sections_written (h : Legible parts) : sections (written parts).toList = parts.map Part.read := by
  rw [sections, allSections_written h, List.filter_eq_self]
  intro sec hsec
  obtain ⟨part, hpart, rfl⟩ := List.mem_map.mp hsec
  rw [Bool.or_eq_true, Bool.not_eq_true', Bool.eq_false_iff, ne_eq, List.isEmpty_iff]
  exact h.kept part hpart

/-! ## Inserted texts -/

/-- A text without markers between two texts without angle brackets. -/
theorem bare_inserted (hlead : '<' ∉ lead.toList) (hs : Markerless s.toList) (hopen : '<' ∉ trail.toList)
    (hclose : '>' ∉ trail.toList) (parts : List Part) :
    Bare (lead ++ (s ++ trail)).toList (written parts).toList := by
  rw [String.toList_append, String.toList_append]
  have hshut := shut_of_head hclose fun c hc => Or.inl (written_head parts c hc)
  exact (bare_of_bracket hlead _).append ((bare_of_shut hs hshut).append (bare_of_bracket hopen _))

theorem strip_ne_nil {s : List Char} {c : Char} (hmem : c ∈ s) (hc : isBlank c = false) : Text.strip s ≠ [] := by
  intro hnil
  have hall : s.all isBlank = false := List.all_eq_false.mpr ⟨c, hmem, by rw [hc]; exact Bool.false_ne_true⟩
  have hstrip := Text.strip_all hall
  rw [hnil] at hstrip
  cases hstrip

/-- A section with a heading has something to say. -/
theorem strip_heading (hlead : '#' ∈ lead.toList) (s : String) : Text.strip (lead ++ s).toList ≠ [] := by
  rw [String.toList_append]
  exact strip_ne_nil (List.mem_append_left _ hlead) (by decide)

theorem isDigit_of_mem_toString {n : Nat} {c : Char} (h : c ∈ (toString n).toList) : c.isDigit = true := by
  rw [Nat.toString_eq_repr, Nat.toList_repr] at h
  exact Nat.isDigit_of_mem_toDigits (by decide) (by decide) h

theorem isKey_of_mem : ∀ key ∈ ["contract", "target", "diagnosis", "failure", "history"], IsKey key := by
  have hwords : ∀ key ∈ ["contract", "target", "diagnosis", "failure", "history"],
      key.toList ≠ [] ∧ key.toList.all isWord = true := by decide +kernel
  intro key hkey
  obtain ⟨hne, hall⟩ := hwords key hkey
  exact ⟨hne, List.all_eq_true.mp hall⟩

/-! ## The template of a diagnosis -/

/-- The line of the iteration, and the blank line after it. -/
def iterationText (i : DiagnoseInputs) : String :=
  "\n- Iteration: " ++ (toString i.iteration ++ (" of " ++ (toString i.maxIterations ++ "\n\n")))

def historyParts (i : DiagnoseInputs) : List Part :=
  match i.previous.bind Text.trimmed? with
  | none => []
  | some previous => [⟨"history", false, "\n## Previous diagnosis\n" ++ (previous ++ "\n")⟩]

/-- The contract without its marker. -/
def diagnoseContractText : String :=
  "\n"
  ++ ("You are diagnosing a failed verification run. Do not edit any files.\n"
  ++ ("Reply with a single JSON object:\n"
  ++ ("`\x7b\"summary\": \"...\", \"suggestion\": \"...\", \"target_file\": \"path/to/file\"\x7d`.\n"
  ++ ("Set `target_file` only when the defect lives in a different file than the current target."
  ++ "\n\n"))))

def diagnoseParts (i : DiagnoseInputs) : List Part :=
  ⟨"contract", true, diagnoseContractText⟩ ::
    ⟨"target", true, "\n## Target\n- File: " ++ (i.target ++ iterationText i)⟩ ::
    ⟨"failure", true, "\n## Verification failure\n```\n" ++ (Text.trim i.failure ++
      ("\n```\n" ++ if (historyParts i).isEmpty then "" else "\n"))⟩ :: historyParts i

theorem diagnoseContract_eq : diagnoseContract = markerText "contract" true ++ diagnoseContractText := by
  have hmarker : "<!-- section:contract required -->\n" = markerText "contract" true ++ "\n" := rfl
  unfold diagnoseContract diagnoseContractText
  simp only [hmarker, String.append_assoc]

theorem diagnoseTemplate_eq (i : DiagnoseInputs) : diagnoseTemplate i = written (diagnoseParts i) := by
  have htarget : "<!-- section:target required -->\n## Target\n- File: " =
      markerText "target" true ++ "\n## Target\n- File: " := rfl
  have hfailure : "\n\n<!-- section:failure required -->\n## Verification failure\n```\n" =
      "\n\n" ++ (markerText "failure" true ++ "\n## Verification failure\n```\n") := rfl
  have hhistory : "\n<!-- section:history droppable -->\n## Previous diagnosis\n" =
      "\n" ++ (markerText "history" false ++ "\n## Previous diagnosis\n") := rfl
  unfold diagnoseTemplate diagnoseParts historyParts
  cases i.previous.bind Text.trimmed? with
  | none =>
    simp only [diagnoseContract_eq, htarget, hfailure, written, iterationText, String.append_assoc, List.isEmpty_nil,
      if_true, String.append_empty]
  | some previous =>
    simp only [diagnoseContract_eq, htarget, hfailure, hhistory, written, iterationText, String.append_assoc,
      List.isEmpty_cons, if_false, Bool.false_eq_true, String.append_empty]

/-- The texts that are inserted into a prompt. -/
def DiagnoseInputs.inserted (i : DiagnoseInputs) : List String :=
  i.target :: Text.trim i.failure :: (i.previous.bind Text.trimmed?).toList

theorem legible_historyParts {i : DiagnoseInputs} (h : ∀ text ∈ i.inserted, Markerless text.toList) :
    Legible (historyParts i) := by
  rw [historyParts]
  cases hprevious : i.previous.bind Text.trimmed? with
  | none => exact .nil
  | some previous =>
    have hmem : previous ∈ i.inserted := by simp [DiagnoseInputs.inserted, hprevious]
    exact .cons (isKey_of_mem "history" (by decide))
      (bare_inserted (by decide +kernel) (h previous hmem) (by decide) (by decide) [])
      (Or.inr (strip_heading (by decide +kernel) _)) .nil

theorem iterationText_bracket {i : DiagnoseInputs} {c : Char} (hc : c ∈ ['<', '>']) : c ∉ (iterationText i).toList := by
  have hnumber (n : Nat) : c ∉ (toString n).toList := fun hmem => by
    have hdigit := isDigit_of_mem_toString hmem
    have hnot : ∀ d ∈ ['<', '>'], d.isDigit = false := Text.forall_mem_of_all (by decide)
    rw [hnot c hc] at hdigit
    cases hdigit
  have hline : ∀ d ∈ ['<', '>'], d ∉ "\n- Iteration: ".toList ∧ d ∉ " of ".toList ∧ d ∉ "\n\n".toList :=
    Text.forall_mem_of_all (by decide +kernel)
  obtain ⟨hfirst, hof, hlast⟩ := hline c hc
  simp only [iterationText, String.toList_append, List.mem_append, hfirst, hof, hlast, hnumber, or_self,
    not_false_eq_true]

theorem legible_diagnoseParts {i : DiagnoseInputs} (h : ∀ text ∈ i.inserted, Markerless text.toList) :
    Legible (diagnoseParts i) := by
  have htarget : Markerless i.target.toList := h _ List.mem_cons_self
  have hfailure : Markerless (Text.trim i.failure).toList := h _ (List.mem_cons_of_mem _ List.mem_cons_self)
  have hcontract : '<' ∉ diagnoseContractText.toList := by
    simp only [diagnoseContractText, String.toList_append, List.mem_append, not_or]
    decide +kernel
  refine .cons (isKey_of_mem "contract" (by decide)) (bare_of_bracket hcontract _) (Or.inl rfl) ?_
  refine .cons (isKey_of_mem "target" (by decide)) (bare_inserted (by decide +kernel) htarget
    (iterationText_bracket (by decide)) (iterationText_bracket (by decide)) _) (Or.inl rfl) ?_
  refine .cons (isKey_of_mem "failure" (by decide)) (bare_inserted (by decide +kernel) hfailure ?_ ?_ _)
    (Or.inl rfl) (legible_historyParts h)
  · cases (historyParts i).isEmpty with
    | true => decide
    | false => decide
  · cases (historyParts i).isEmpty with
    | true => decide
    | false => decide

theorem sections_diagnoseTemplate {i : DiagnoseInputs} (h : ∀ text ∈ i.inserted, Markerless text.toList) :
    sections (diagnoseTemplate i).toList = (diagnoseParts i).map Part.read := by
  rw [diagnoseTemplate_eq, sections_written (legible_diagnoseParts h)]

/-! ## The template of a fix -/

/-- The suggestion, and the blank line before the next section. -/
def suggestionText (i : FixInputs) : String :=
  match i.suggestion.bind Text.trimmed? with
  | none => "\n" ++ "\n"
  | some suggestion => "\n" ++ ("\nSuggested fix: " ++ (suggestion ++ ("\n" ++ "\n")))

def fixParts (i : FixInputs) : List Part :=
  [⟨"contract", true, "\nApply the smallest change to `" ++ (i.target ++ ("` that makes verification pass.\n" ++
    "Do not touch unrelated files. Do not weaken or delete checks.\n\n"))⟩,
    ⟨"diagnosis", true, "\n## Diagnosis\n" ++ (Text.trim i.summary ++ suggestionText i)⟩,
    ⟨"failure", false, "\n## Verification failure\n```\n" ++ (Text.trim i.failure ++ "\n```")⟩]

theorem fixTemplate_eq (i : FixInputs) : fixTemplate i = written (fixParts i) := by
  have hcontract : "<!-- section:contract required -->\nApply the smallest change to `" =
      markerText "contract" true ++ "\nApply the smallest change to `" := rfl
  have hdiagnosis : "<!-- section:diagnosis required -->\n## Diagnosis\n" =
      markerText "diagnosis" true ++ "\n## Diagnosis\n" := rfl
  have hfailure : "\n<!-- section:failure droppable -->\n## Verification failure\n```\n" =
      "\n" ++ (markerText "failure" false ++ "\n## Verification failure\n```\n") := rfl
  unfold fixTemplate fixParts suggestionText
  cases i.suggestion.bind Text.trimmed? with
  | none => simp only [hcontract, hdiagnosis, hfailure, written, String.append_assoc, String.append_empty]
  | some suggestion => simp only [hcontract, hdiagnosis, hfailure, written, String.append_assoc, String.append_empty]

def FixInputs.inserted (i : FixInputs) : List String :=
  i.target :: Text.trim i.summary :: Text.trim i.failure :: (i.suggestion.bind Text.trimmed?).toList

/-- A suggestion comes after the summary with a colon before it, so a marker that begins in the summary does not end in
the suggestion. -/
theorem bare_diagnosis {i : FixInputs} (h : ∀ text ∈ i.inserted, Markerless text.toList) (parts : List Part) :
    Bare ("\n## Diagnosis\n" ++ (Text.trim i.summary ++ suggestionText i)).toList (written parts).toList := by
  have hsummary : Markerless (Text.trim i.summary).toList := h _ (List.mem_cons_of_mem _ List.mem_cons_self)
  rw [suggestionText]
  cases hsuggestion : i.suggestion.bind Text.trimmed? with
  | none => exact bare_inserted (by decide +kernel) hsummary (by decide) (by decide) parts
  | some suggestion =>
    have hmem : suggestion ∈ i.inserted := by simp [FixInputs.inserted, hsuggestion]
    have hrest : Bare ("\nSuggested fix: " ++ (suggestion ++ ("\n" ++ "\n"))).toList (written parts).toList :=
      bare_inserted (by decide +kernel) (h suggestion hmem) (by decide) (by decide) parts
    have hshut : Shut (("\n" ++ ("\nSuggested fix: " ++ (suggestion ++ ("\n" ++ "\n")))).toList ++
        (written parts).toList) := by
      have hcolon := shut_of_colon (s := "\n\nSuggested fi".toList) (c := 'x') (by decide +kernel) (by decide)
        (" ".toList ++ ((suggestion ++ ("\n" ++ "\n")).toList ++ (written parts).toList))
      have hsplit : "\n".toList ++ "\nSuggested fix: ".toList =
          "\n\nSuggested fi".toList ++ ['x', ':'] ++ " ".toList := by
        decide +kernel
      rw [← List.append_assoc, ← hsplit] at hcolon
      simpa only [String.toList_append, List.append_assoc] using hcolon
    rw [String.toList_append, String.toList_append]
    refine (bare_of_bracket (by decide +kernel) _).append ((bare_of_shut hsummary hshut).append ?_)
    rw [String.toList_append]
    exact (bare_of_bracket (by decide) _).append hrest

theorem legible_fixParts {i : FixInputs} (h : ∀ text ∈ i.inserted, Markerless text.toList) : Legible (fixParts i) := by
  have htarget : Markerless i.target.toList := h _ List.mem_cons_self
  have hfailure : Markerless (Text.trim i.failure).toList :=
    h _ (List.mem_cons_of_mem _ (List.mem_cons_of_mem _ List.mem_cons_self))
  refine .cons (isKey_of_mem "contract" (by decide)) (bare_inserted (by decide +kernel) htarget (by decide +kernel)
    (by decide +kernel) _) (Or.inl rfl) ?_
  refine .cons (isKey_of_mem "diagnosis" (by decide)) (bare_diagnosis h _) (Or.inl rfl) ?_
  exact .cons (isKey_of_mem "failure" (by decide))
    (bare_inserted (by decide +kernel) hfailure (by decide) (by decide) _)
    (Or.inr (strip_heading (by decide +kernel) _)) .nil

theorem sections_fixTemplate {i : FixInputs} (h : ∀ text ∈ i.inserted, Markerless text.toList) :
    sections (fixTemplate i).toList = (fixParts i).map Part.read := by
  rw [fixTemplate_eq, sections_written (legible_fixParts h)]

end Overseer.Prompt
