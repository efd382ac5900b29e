import Overseer.Proofs.Prompt.Budget
import Overseer.Proofs.Text.Blank

/-! # What is left out of a prompt

The sections of the two templates, told with what is inserted into them (`Request.outline`). Within the budget all of
them are there. Over it the one that may go is gone, and when the others are still too much the last one is cut: what
stays of it is the longest prefix for which there is room, and the mark comes after it when more than the mark fits
(`Fitted`).

No marker is left in the prompt. A section has none, since the reader has taken them; and none begins in one section and
ends in another, since every section but the first begins with a `#`, which is in no marker (`shut_of_head`).
-/

namespace Overseer.Prompt

open Text (isBlank byteLength Firm)

variable {budget : Nat} {secs kept : List Section} {key w s t u rest : List Char} {required : Bool}

/-! ## Texts without markers -/

theorem Markerless.within (h : Markerless t) (hs : s <:+: t) : Markerless s :=
  fun key required w hw hwithin => h key required w hw (hwithin.trans hs)

/-- A marker in two texts is in the one or in the other, when none goes from the first one into the second. -/
theorem Markerless.append (hs : Markerless s) (ht : Markerless t) (hshut : Shut t) : Markerless (s ++ t) := by
  rintro key required w hw ⟨front, back, he⟩
  rcases List.append_eq_append_iff.mp he with ⟨x, rfl, -⟩ | ⟨x, hx, rfl⟩
  · exact hs key required w hw ⟨front, x, rfl⟩
  · rcases List.append_eq_append_iff.mp hx with ⟨y, rfl, rfl⟩ | ⟨y, -, rfl⟩
    · by_cases hy : y = []
      · subst hy
        exact ht key required x hw (List.prefix_append x back).isInfix
      · by_cases hx : x = []
        · subst hx
          rw [List.append_nil] at hw
          exact hs key required y hw (List.suffix_append front y).isInfix
        · exact hshut key required y x hw hy hx (List.prefix_append x back)
    · exact ht key required w hw ⟨y, back, rfl⟩

theorem markerless_of_bare {tail : List Char} (h : Bare s tail) : Markerless s := by
  rintro key required w hw ⟨front, back, rfl⟩
  have hne : w ++ back ≠ [] := by
    obtain ⟨v, rfl, -⟩ := hw.bracket
    exact List.cons_ne_nil _ _
  have hnone := h front (w ++ back) (List.append_assoc front w back) hne
  rw [marker?_eq_some_iff.mpr ⟨w, hw, List.append_assoc w back tail⟩] at hnone
  cases hnone

/-! ## Sections one after the other -/

def Headed (sec : Section) : Prop := sec.content.head? = some '#'

theorem head?_joinSections {sec : Section} (h : Headed sec) (secs : List Section) :
    (joinSections (sec :: secs)).head? = some '#' := by
  cases secs with
  | nil =>
    rw [joinSections_singleton]
    exact h
  | cons next secs =>
    rw [joinSections_cons, List.head?_append, h]
    rfl

theorem markerless_joinSections (hmarkerless : ∀ sec ∈ secs, Markerless sec.content)
    (hheaded : ∀ sec ∈ secs.tail, Headed sec) : Markerless (joinSections secs) := by
  cases secs with
  | nil => exact markerless_of_bracket (by decide)
  | cons sec secs =>
    rw [List.tail_cons] at hheaded
    induction secs generalizing sec with
    | nil =>
      rw [joinSections_singleton]
      exact hmarkerless sec List.mem_cons_self
    | cons next secs ih =>
      obtain ⟨hsec, hsecs⟩ := List.forall_mem_cons.mp hmarkerless
      obtain ⟨hnext, hheaded⟩ := List.forall_mem_cons.mp hheaded
      have hhash : ∀ c ∈ (joinSections (next :: secs)).head?, c = '<' ∨ c = '#' := by
        rw [head?_joinSections hnext]
        exact fun c hc => Or.inr (Option.some.inj hc).symm
      have hblank : Markerless ['\n', '\n'] := markerless_of_bracket (by decide)
      rw [joinSections_cons]
      exact hsec.append (hblank.append (ih next hsecs hheaded) (shut_of_head (s := []) (by decide) hhash))
        (shut_of_head (by decide) hhash)

theorem content_infix_joinSections {sec : Section} (h : sec ∈ secs) : sec.content <:+: joinSections secs := by
  cases secs with
  | nil => cases h
  | cons first secs =>
    induction secs generalizing first with
    | nil =>
      obtain rfl := List.mem_singleton.mp h
      rw [joinSections_singleton]
    | cons next secs ih =>
      rw [joinSections_cons]
      rcases List.mem_cons.mp h with rfl | h
      · exact (List.prefix_append _ _).isInfix
      · exact (ih next h).trans ((List.suffix_append _ _).trans (List.suffix_append _ _)).isInfix

/-- What comes after the content of the last section comes after them all. -/
theorem joinSections_concat (others : List Section) (last : Section) (s t : List Char) :
    joinSections (others ++ [{ last with content := s ++ t }]) =
      joinSections (others ++ [{ last with content := s }]) ++ t := by
  induction others with
  | nil => rw [List.nil_append, List.nil_append, joinSections_singleton, joinSections_singleton]
  | cons sec others ih =>
    cases others with
    | nil =>
      simp only [List.cons_append, List.nil_append, joinSections_cons, joinSections_singleton, List.append_assoc]
    | cons next others =>
      simp only [List.cons_append] at ih ⊢
      rw [joinSections_cons, ih, joinSections_cons]
      simp only [List.append_assoc]

/-! ## What is kept of the sections -/

/-- What is left of a content that is too long: the longest prefix that leaves room for the mark, and then the mark,
unless there is room for nothing else. -/
structure Clipped (room : Nat) (content head clipped : List Char) : Prop where
  front : head <+: content
  fits : byteLength head ≤ room - byteLength truncationMark
  longest : ∀ longer, longer <+: content → byteLength longer ≤ room - byteLength truncationMark → longer <+: head
  mark : clipped = head ++ if byteLength truncationMark < room then truncationMark else []

/-- Within the budget everything is kept. Over it the sections that may go are gone, and when the others are still too
much the last one of them is clipped. -/
structure Fitted (budget : Nat) (secs kept : List Section) : Prop where
  whole : size secs ≤ budget → kept = secs
  spared : budget < size secs → size (staying secs) ≤ budget → kept = staying secs
  clipped : budget < size (staying secs) → ∃ others last head clipped, staying secs = others ++ [last] ∧
    Clipped (budget - size others) last.content head clipped ∧ kept = others ++ [{ last with content := clipped }]

theorem clipped_abridge {room : Nat} {content : List Char} (h : room < byteLength content) :
    Clipped room content (Text.headWithin (room - byteLength truncationMark) content)
      (Text.abridge truncationMark room content) where
  front := Text.headWithin_prefix _ _
  fits := Text.byteLength_headWithin _ _
  longest _ hlonger hlimit := Text.prefix_headWithin hlonger hlimit
  mark := by rw [Text.abridge, if_neg (by omega)]

/-- Nothing is kept of a section when there is no room for it. -/
theorem clipped_zero (content : List Char) : Clipped 0 content [] (Text.abridge truncationMark 0 content) where
  front := List.nil_prefix
  fits := Nat.le_refl _
  longest longer _ hlimit := by
    rw [Nat.zero_sub, Nat.le_zero_eq] at hlimit
    rw [Text.eq_nil_of_byteLength hlimit]
  mark := by
    have hlength := Text.byteLength_abridge truncationMark 0 content
    exact Text.eq_nil_of_byteLength (Nat.le_zero.mp hlength)

theorem fitted_fitSections (h : Sheddable dropOrder secs) (budget : Nat) :
    Fitted budget secs (fitSections budget secs) where
  whole := fitSections_within
  spared hover hfits := by rw [fitSections_over h hover, if_neg (by omega)]
  clipped hover := by
    have hall : budget < size secs := lt_of_lt_of_le hover (size_staying secs)
    rw [fitSections_over h hall, if_pos hover, abridgeLast]
    cases hlast : (staying secs).getLast? with
    | none =>
      rw [List.getLast?_eq_none_iff.mp hlast] at hover
      exact absurd hover (Nat.not_lt_zero budget)
    | some last =>
      have hsplit : staying secs = (staying secs).dropLast ++ [last] :=
        (List.dropLast_append_getLast? last hlast).symm
      have hsize : size (staying secs) = size (staying secs).dropLast + byteLength last.content := by
        conv_lhs => rw [hsplit]
        exact size_append _ _
      by_cases hroom : size (staying secs).dropLast ≤ budget
      · exact ⟨_, last, _, _, hsplit, clipped_abridge (by omega), rfl⟩
      · have hzero : budget - size (staying secs).dropLast = 0 := by omega
        refine ⟨_, last, [], _, hsplit, ?_, rfl⟩
        rw [hzero]
        exact clipped_zero last.content

/-- The prompt of what is kept begins as the one of all that stays, and then there may be the mark. -/
theorem Fitted.markerless (h : Fitted budget secs kept) (hmarkerless : ∀ sec ∈ secs, Markerless sec.content)
    (hheaded : ∀ sec ∈ secs.tail, Headed sec) (hfirst : ∀ sec ∈ secs.head?, sec.required = true) :
    Markerless (joinSections kept) := by
  have hstaying : Markerless (joinSections (staying secs)) := by
    refine markerless_joinSections (fun sec hsec => hmarkerless sec (List.mem_of_mem_filter hsec)) ?_
    cases secs with
    | nil => exact List.forall_mem_nil _
    | cons first secs =>
      rw [staying, List.filter_cons_of_pos (hfirst first rfl)]
      exact fun sec hsec => hheaded sec (List.mem_of_mem_filter hsec)
  by_cases hover : budget < size secs
  · by_cases hleft : budget < size (staying secs)
    · obtain ⟨others, last, head, clipped, hsplit, hclipped, rfl⟩ := h.clipped hleft
      obtain ⟨rest, hrest⟩ := hclipped.front
      have hjoin : joinSections (staying secs) =
          joinSections (others ++ [{ last with content := head }]) ++ rest := by
        rw [hsplit, ← joinSections_concat, hrest]
      have hfront : Markerless (joinSections (others ++ [{ last with content := head }])) :=
        hstaying.within ⟨[], rest, hjoin.symm⟩
      rw [hclipped.mark, joinSections_concat]
      split
      · have hshut : Shut (truncationMark ++ []) :=
          shut_of_head (by decide) fun _ hc => absurd hc (Option.not_mem_none _)
        rw [List.append_nil] at hshut
        exact hfront.append (markerless_of_bracket (by decide)) hshut
      · rwa [List.append_nil]
    · rwa [h.spared hover (by omega)]
  · rw [h.whole (by omega)]
    exact markerless_joinSections hmarkerless hheaded

/-! ## The sections of a request -/

def Section.ofText (key : String) (required : Bool) (text : String) : Section := ⟨key.toList, required, text.toList⟩

/-- The summary, when there is one, and the suggestion, when there is one. -/
def FixInputs.diagnosis (i : FixInputs) : String :=
  match i.suggestion.bind Text.trimmed? with
  | some suggestion => "## Diagnosis\n" ++ (Text.trim i.summary ++ ("\n\nSuggested fix: " ++ suggestion))
  | none => if Text.trim i.summary = "" then "## Diagnosis" else "## Diagnosis\n" ++ Text.trim i.summary

namespace Request

/-- The sections of the template in their order, with what is inserted into them. -/
def outline : Request → List Section
  | diagnose i =>
      .ofText "contract" true (Text.trim diagnoseContractText) ::
        .ofText "target" true ("## Target\n- File: " ++ (i.target ++ ("\n- Iteration: " ++ (toString i.iteration ++
          (" of " ++ toString i.maxIterations))))) ::
        .ofText "failure" true ("## Verification failure\n```\n" ++ (Text.trim i.failure ++ "\n```")) ::
        (i.previous.bind Text.trimmed?).toList.map fun previous =>
          .ofText "history" false ("## Previous diagnosis\n" ++ previous)
  | fix i =>
      [.ofText "contract" true ("Apply the smallest change to `" ++ (i.target ++
          ("` that makes verification pass.\n" ++ "Do not touch unrelated files. Do not weaken or delete checks."))),
        .ofText "diagnosis" true i.diagnosis,
        .ofText "failure" false ("## Verification failure\n```\n" ++ (Text.trim i.failure ++ "\n```"))]

/-- The key of the one section that may go. -/
def droppable : Request → String
  | diagnose _ => "history"
  | fix _ => "failure"

def parts : Request → List Part
  | diagnose i => diagnoseParts i
  | fix i => fixParts i

variable {r : Request}

theorem legible_parts (h : ∀ text ∈ r.inserted, Markerless text.toList) : Legible r.parts := by
  cases r with
  | diagnose i => exact legible_diagnoseParts h
  | fix i => exact legible_fixParts h

theorem sections_eq (h : ∀ text ∈ r.inserted, Markerless text.toList) : r.sections = r.parts.map Part.read := by
  cases r with
  | diagnose i => exact sections_diagnoseTemplate h
  | fix i => exact sections_fixTemplate h

end Request

theorem Legible.markerless {parts : List Part} (h : Legible parts) :
    ∀ sec ∈ parts.map Part.read, Markerless sec.content := by
  induction h with
  | nil => exact List.forall_mem_nil _
  | cons _ hbare _ _ ih =>
    exact List.forall_mem_cons.mpr ⟨(markerless_of_bare hbare).within <| Text.strip_infix _, ih⟩

/-- The white space around a section is not read. -/
theorem read_eq {name text body : String} {rest : List Char} (lead trail : String) (c : Char)
    (htext : text = lead ++ (body ++ trail)) (hbody : body.toList = c :: rest) (hc : isBlank c = false)
    (hfirm : Firm body.toList) (hlead : lead.toList.all isBlank = true)
    (htrail : trail.toList.all isBlank = true) :
    Part.read ⟨name, required, text⟩ = .ofText name required body := by
  have hstrip : Text.strip text.toList = body.toList := by
    rw [htext, String.toList_append, String.toList_append, hbody]
    exact Text.strip_of_firm (List.all_eq_true.mp hlead) hc (hbody ▸ hfirm) (List.all_eq_true.mp htrail)
  rw [Part.read, hstrip]
  rfl

theorem firm_append {a b : String} (h : Firm b.toList) : Firm (a ++ b).toList := by
  rw [String.toList_append]
  exact h.append _

theorem firm_toString (n : Nat) : Firm (toString n).toList := by
  have hdigit : ∀ m ∈ Text.blankCodes, (Char.ofNat m).isDigit = false := by decide
  have hne : (toString n).toList ≠ [] := by
    rw [Nat.toString_eq_repr, Nat.toList_repr]
    exact Nat.toDigits_ne_nil
  refine Text.firm_of_forall hne fun c hc => Bool.eq_false_iff.mpr fun hblank => ?_
  have hnot := hdigit _ (Text.mem_blankCodes hblank)
  rw [Char.ofNat_toNat, isDigit_of_mem_toString hc] at hnot
  cases hnot

theorem firm_of_trimmed? {s t : String} (h : Text.trimmed? s = some t) : Firm t.toList := by
  obtain ⟨htrim, hblank⟩ := Text.tidy_of_trimmed? h
  have hstrip : Text.strip t.toList = t.toList := by
    rw [← htrim, Text.trim, String.toList_ofList, Text.strip_strip]
  have hne : Text.strip t.toList ≠ [] := by
    intro hnil
    rw [hstrip] at hnil
    rw [Text.allBlank, hnil] at hblank
    cases hblank
  exact hstrip ▸ Text.firm_strip hne

theorem firm_fence : Firm "\n```".toList := ⟨"\n``".toList, '`', rfl, by decide⟩

theorem read_failure (failure trail : String) (required : Bool) (htrail : trail.toList.all isBlank = true) :
    Part.read ⟨"failure", required, "\n## Verification failure\n```\n" ++ (failure ++ ("\n```" ++ trail))⟩ =
      .ofText "failure" required ("## Verification failure\n```\n" ++ (failure ++ "\n```")) := by
  refine read_eq "\n" trail '#' ?_ (String.toList_append ..) (by decide)
    (firm_append (firm_append firm_fence)) (by decide) htrail
  have hhead : "\n## Verification failure\n```\n" = "\n" ++ "## Verification failure\n```\n" := rfl
  simp only [hhead, String.append_assoc]

theorem read_target (i : DiagnoseInputs) :
    Part.read ⟨"target", true, "\n## Target\n- File: " ++ (i.target ++ iterationText i)⟩ =
      .ofText "target" true ("## Target\n- File: " ++ (i.target ++ ("\n- Iteration: " ++ (toString i.iteration ++
        (" of " ++ toString i.maxIterations))))) := by
  refine read_eq "\n" "\n\n" '#' ?_ (String.toList_append ..) (by decide)
    (firm_append (firm_append (firm_append (firm_append (firm_append (firm_toString _)))))) (by decide) (by decide)
  have hhead : "\n## Target\n- File: " = "\n" ++ "## Target\n- File: " := rfl
  simp only [hhead, iterationText, String.append_assoc]

theorem read_history {previous : String} (h : Firm previous.toList) :
    Part.read ⟨"history", false, "\n## Previous diagnosis\n" ++ (previous ++ "\n")⟩ =
      .ofText "history" false ("## Previous diagnosis\n" ++ previous) := by
  refine read_eq "\n" "\n" '#' ?_ (String.toList_append ..) (by decide)
    (firm_append h) (by decide) (by decide)
  have hhead : "\n## Previous diagnosis\n" = "\n" ++ "## Previous diagnosis\n" := rfl
  simp only [hhead, String.append_assoc]

theorem read_contract (i : FixInputs) :
    Part.read ⟨"contract", true, "\nApply the smallest change to `" ++ (i.target ++
      ("` that makes verification pass.\n" ++ "Do not touch unrelated files. Do not weaken or delete checks.\n\n"))⟩ =
      .ofText "contract" true ("Apply the smallest change to `" ++ (i.target ++
        ("` that makes verification pass.\n" ++ "Do not touch unrelated files. Do not weaken or delete checks."))) := by
  have hfirm : Firm "Do not touch unrelated files. Do not weaken or delete checks.".toList :=
    ⟨"Do not touch unrelated files. Do not weaken or delete checks".toList, '.', rfl, by decide⟩
  refine read_eq "\n" "\n\n" 'A' ?_ (String.toList_append ..) (by decide)
    (firm_append (firm_append (firm_append hfirm))) (by decide) (by decide)
  have hhead : "\nApply the smallest change to `" = "\n" ++ "Apply the smallest change to `" := rfl
  have hlast : "Do not touch unrelated files. Do not weaken or delete checks.\n\n" =
      "Do not touch unrelated files. Do not weaken or delete checks." ++ "\n\n" := rfl
  simp only [hhead, hlast, String.append_assoc]

theorem read_diagnosis (i : FixInputs) :
    Part.read ⟨"diagnosis", true, "\n## Diagnosis\n" ++ (Text.trim i.summary ++ suggestionText i)⟩ =
      .ofText "diagnosis" true i.diagnosis := by
  rw [suggestionText, FixInputs.diagnosis]
  cases hsuggestion : i.suggestion.bind Text.trimmed? with
  | some suggestion =>
    obtain ⟨s, -, hs⟩ := Option.bind_eq_some_iff.mp hsuggestion
    refine read_eq "\n" "\n\n" '#' ?_ (String.toList_append ..) (by decide)
      (firm_append (firm_append (firm_append (firm_of_trimmed? hs)))) (by decide) (by decide)
    have hhead : "\n## Diagnosis\n" = "\n" ++ "## Diagnosis\n" := rfl
    have hsuggested : "\n\nSuggested fix: " = "\n" ++ "\nSuggested fix: " := rfl
    have hend : "\n\n" = "\n" ++ "\n" := rfl
    simp only [hhead, hsuggested, hend, String.append_assoc]
  | none =>
    by_cases hempty : Text.trim i.summary = ""
    · rw [if_pos hempty, hempty]
      refine read_eq "\n" "\n\n\n" '#' rfl rfl (by decide) ?_ (by decide) (by decide)
      exact ⟨"## Diagnosi".toList, 's', rfl, by decide⟩
    · rw [if_neg hempty]
      have hsummary : Firm (Text.trim i.summary).toList := by
        rw [Text.trim, String.toList_ofList]
        refine Text.firm_strip fun hnil => hempty ?_
        rw [Text.trim, hnil]
      refine read_eq "\n" "\n\n" '#' ?_ (String.toList_append ..) (by decide)
        (firm_append hsummary) (by decide) (by decide)
      have hhead : "\n## Diagnosis\n" = "\n" ++ "## Diagnosis\n" := rfl
      have hend : "\n\n" = "\n" ++ "\n" := rfl
      simp only [hhead, hend, String.append_assoc]

namespace Request

variable {r : Request}

/-- What is read of the template is what is said in it. -/
theorem outline_eq (r : Request) : r.parts.map Part.read = r.outline := by
  cases r with
  | diagnose i =>
    have hcontract : Part.read ⟨"contract", true, diagnoseContractText⟩ =
        .ofText "contract" true (Text.trim diagnoseContractText) := by
      simp only [Part.read, Section.ofText, Text.trim, String.toList_ofList]
    have htrail : (if (historyParts i).isEmpty then "" else "\n").toList.all isBlank = true := by
      cases (historyParts i).isEmpty with
      | true => decide
      | false => decide
    have hhistory : (historyParts i).map Part.read = (i.previous.bind Text.trimmed?).toList.map fun previous =>
        .ofText "history" false ("## Previous diagnosis\n" ++ previous) := by
      rw [historyParts]
      cases hprevious : i.previous.bind Text.trimmed? with
      | none => rfl
      | some previous =>
        obtain ⟨s, -, hs⟩ := Option.bind_eq_some_iff.mp hprevious
        exact congrArg (· :: []) (read_history (firm_of_trimmed? hs))
    have hend : "\n```\n" = "\n```" ++ "\n" := rfl
    rw [parts, diagnoseParts, outline, List.map_cons, List.map_cons, List.map_cons, hcontract, read_target, hhistory,
      hend, String.append_assoc, read_failure _ _ _ ?_]
    rw [String.toList_append, List.all_append, htrail]
    rfl
  | fix i =>
    have hfailure := read_failure (Text.trim i.failure) "" false (by decide)
    rw [String.append_empty] at hfailure
    rw [parts, fixParts, outline, List.map_cons, List.map_cons, List.map_singleton, read_contract, read_diagnosis,
      hfailure]

theorem headed_outline (r : Request) : ∀ sec ∈ r.outline.tail, Headed sec := by
  have hhead (key : String) (required : Bool) (title text : String) (htitle : title.toList.head? = some '#') :
      Headed (.ofText key required (title ++ text)) := by
    rw [Headed, Section.ofText, String.toList_append, List.head?_append, htitle]
    rfl
  cases r with
  | diagnose i =>
    simp only [outline, List.tail_cons, List.forall_mem_cons, List.forall_mem_map]
    exact ⟨hhead _ _ _ _ rfl, hhead _ _ _ _ rfl, fun _ _ => hhead _ _ _ _ rfl⟩
  | fix i =>
    simp only [outline, List.tail_cons, List.forall_mem_cons]
    refine ⟨?_, hhead _ _ _ _ rfl, List.forall_mem_nil _⟩
    rw [FixInputs.diagnosis]
    split
    · exact hhead _ _ _ _ rfl
    · split
      · rfl
      · exact hhead _ _ _ _ rfl

theorem required_head (r : Request) : ∀ sec ∈ r.outline.head?, sec.required = true := by
  cases r with
  | diagnose i => exact fun sec hsec => Option.some.inj hsec ▸ rfl
  | fix i => exact fun sec hsec => Option.some.inj hsec ▸ rfl

theorem required_eq_false_iff (r : Request) :
    ∀ sec ∈ r.outline, sec.required = false ↔ sec.key = r.droppable.toList := by
  cases r with
  | diagnose i =>
    simp only [outline, List.forall_mem_cons, List.forall_mem_map, Section.ofText, droppable]
    exact ⟨by decide, by decide, by decide, by simp⟩
  | fix i =>
    simp only [outline, List.forall_mem_cons, Section.ofText, droppable]
    exact ⟨by decide, by decide, by decide, List.forall_mem_nil _⟩

/-- What is inserted is in one of the sections as it is. -/
theorem exists_mem_outline {text : String} (h : text ∈ r.inserted) :
    ∃ sec ∈ r.outline, text.toList <:+: sec.content := by
  have hmid (key : String) (required : Bool) (front text back : String) :
      text.toList <:+: (Section.ofText key required (front ++ (text ++ back))).content := by
    rw [Section.ofText, String.toList_append, String.toList_append, ← List.append_assoc]
    exact List.infix_append _ _ _
  have hlast (key : String) (required : Bool) (front text : String) :
      text.toList <:+: (Section.ofText key required (front ++ text)).content := by
    rw [Section.ofText, String.toList_append]
    exact (List.suffix_append _ _).isInfix
  cases r with
  | diagnose i =>
    simp only [inserted, DiagnoseInputs.inserted, List.mem_cons] at h
    rcases h with rfl | rfl | hprevious
    · exact ⟨_, List.mem_cons_of_mem _ List.mem_cons_self, hmid ..⟩
    · exact ⟨_, List.mem_cons_of_mem _ (List.mem_cons_of_mem _ List.mem_cons_self), hmid ..⟩
    · refine ⟨.ofText "history" false ("## Previous diagnosis\n" ++ text), ?_, hlast ..⟩
      exact List.mem_cons_of_mem _ (List.mem_cons_of_mem _ (List.mem_cons_of_mem _ (List.mem_map_of_mem hprevious)))
  | fix i =>
    simp only [inserted, FixInputs.inserted, List.mem_cons] at h
    rcases h with rfl | rfl | rfl | hsuggestion
    · exact ⟨_, List.mem_cons_self, hmid ..⟩
    · refine ⟨_, List.mem_cons_of_mem _ List.mem_cons_self, ?_⟩
      rw [FixInputs.diagnosis]
      split
      · exact hmid ..
      · split
        · rename_i hempty
          rw [hempty]
          exact List.nil_infix
        · exact hlast ..
    · exact ⟨_, List.mem_cons_of_mem _ (List.mem_cons_of_mem _ List.mem_cons_self), hmid ..⟩
    · have hdiagnosis : i.diagnosis = "## Diagnosis\n" ++ (Text.trim i.summary ++ ("\n\nSuggested fix: " ++ text)) := by
        rw [FixInputs.diagnosis, Option.mem_toList.mp hsuggestion]
      refine ⟨_, List.mem_cons_of_mem _ List.mem_cons_self, ?_⟩
      rw [hdiagnosis, ← String.append_assoc, ← String.append_assoc]
      exact hlast ..

/-! ## The reduction of a prompt -/

/-- How a prompt is made of the sections that are kept. -/
structure Reduced (r : Request) (budget : Nat) (kept : List Section) : Prop where
  joined : (r.prompt budget).toList = ['\n', '\n'].intercalate (kept.map (·.content))
  markerless : Markerless (r.prompt budget).toList
  fitted : Fitted budget r.outline kept
  droppable : ∀ sec ∈ r.outline, sec.required = false ↔ sec.key = r.droppable.toList
  verbatim : size r.outline ≤ budget → ∀ text ∈ r.inserted, text.toList <:+: (r.prompt budget).toList

/-- Within the budget the prompt is the whole template with what is inserted. Over it only the section that may go is
left out, and only when the required ones are too much is the last of them cut. -/
theorem exists_reduced (r : Request) (budget : Nat) (h : ∀ text ∈ r.inserted, Markerless text.toList) :
    ∃ kept, r.Reduced budget kept := by
  have hsections : r.sections = r.outline := (sections_eq h).trans r.outline_eq
  have hprompt : (r.prompt budget).toList = joinSections (fitSections budget r.outline) := by
    rw [prompt_eq, String.toList_ofList, hsections]
  have hfitted : Fitted budget r.outline (fitSections budget r.outline) :=
    fitted_fitSections (hsections ▸ sheddable h) budget
  have hmarkerless : ∀ sec ∈ r.outline, Markerless sec.content := r.outline_eq ▸ (legible_parts h).markerless
  refine ⟨_, hprompt, ?_, hfitted, r.required_eq_false_iff, fun hwithin text htext => ?_⟩
  · rw [hprompt]
    exact hfitted.markerless hmarkerless r.headed_outline r.required_head
  · obtain ⟨sec, hsec, hinfix⟩ := exists_mem_outline htext
    rw [hprompt, fitSections_within hwithin]
    exact hinfix.trans (content_infix_joinSections hsec)

/-- The failure is gone, and of the diagnosis one character is left. -/
theorem exists_reduced_short : (∀ text ∈ (fix ⟨"a.rs", "off by one", none, "boom"⟩).inserted, Markerless text.toList) ∧
    (∃ kept, (fix ⟨"a.rs", "off by one", none, "boom"⟩).Reduced 140 kept) ∧
    (fix ⟨"a.rs", "off by one", none, "boom"⟩).prompt 140 =
      "Apply the smallest change to `a.rs` that makes verification pass.\n" ++
        "Do not touch unrelated files. Do not weaken or delete checks.\n\n#\n[truncated]" := by
  obtain ⟨hmarkerless, hsections⟩ := sections_short
  refine ⟨hmarkerless, exists_reduced _ 140 hmarkerless, ?_⟩
  rw [prompt_eq, hsections]
  decide +kernel

end Request

end Overseer.Prompt
