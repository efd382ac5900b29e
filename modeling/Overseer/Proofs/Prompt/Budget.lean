import Overseer.Proofs.Prompt.Sections
import Overseer.Proofs.Text.Cut

/-! # The size of a prompt

The budget is kept by the contents of the sections. The blank lines between them are not counted, neither when sections
are dropped nor when the last one is cut, so a prompt may be longer than its budget by two bytes for each section after
the first (`Request.length_prompt`).
-/

namespace Overseer.Prompt

open Text (byteLength)

variable {secs : List Section} {keys : List (List Char)} {key : List Char} {budget : Nat}

/-! ## Sizes -/

theorem size_cons (sec : Section) (secs : List Section) : size (sec :: secs) = byteLength sec.content + size secs := rfl

theorem size_append (secs more : List Section) : size (secs ++ more) = size secs + size more := by
  induction secs with
  | nil => exact (Nat.zero_add _).symm
  | cons sec secs ih => rw [List.cons_append, size_cons, size_cons, ih, Nat.add_assoc]

theorem joinSections_singleton (sec : Section) : joinSections [sec] = sec.content := List.append_nil sec.content

theorem joinSections_cons (sec next : Section) (secs : List Section) :
    joinSections (sec :: next :: secs) = sec.content ++ (['\n', '\n'] ++ joinSections (next :: secs)) := by
  simp [joinSections, List.intercalate]

/-- The blank lines between the sections. -/
def separators (secs : List Section) : Nat := 2 * (secs.length - 1)

theorem byteLength_joinSections (secs : List Section) :
    byteLength (joinSections secs) = size secs + separators secs := by
  cases secs with
  | nil => rfl
  | cons sec secs =>
    induction secs generalizing sec with
    | nil =>
      rw [joinSections_singleton]
      rfl
    | cons next secs ih =>
      have hblank : byteLength ['\n', '\n'] = 2 := rfl
      have hmore : separators (sec :: next :: secs) = 2 + separators (next :: secs) := by
        simp only [separators, List.length_cons]
        omega
      rw [joinSections_cons, Text.byteLength_append, Text.byteLength_append, ih, hblank, hmore, size_cons sec]
      omega

/-! ## Dropped sections -/

/-- The sections that stay. -/
def staying (secs : List Section) : List Section := secs.filter (·.required)

/-- At most one section may go, and its key is one of those that do. -/
inductive Sheddable (keys : List (List Char)) : List Section → Prop
  | none {secs : List Section} (h : ∀ sec ∈ secs, sec.required = true) : Sheddable keys secs
  | one {a b : List Section} {sec : Section} (ha : ∀ sec ∈ a, sec.required = true) (hsec : sec.required = false)
      (hkey : sec.key ∈ keys) (hb : ∀ sec ∈ b, sec.required = true) : Sheddable keys (a ++ sec :: b)

theorem staying_of_required (h : ∀ sec ∈ secs, sec.required = true) : staying secs = secs := List.filter_eq_self.mpr h

theorem size_staying (secs : List Section) : size (staying secs) ≤ size secs := by
  induction secs with
  | nil => exact Nat.le_refl _
  | cons sec secs ih =>
    rw [staying, List.filter_cons]
    split
    · exact Nat.add_le_add_left ih _
    · exact le_trans ih (Nat.le_add_left _ _)

theorem dropFirst_append {a : List Section} (ha : ∀ sec ∈ a, sec.required = true) (key : List Char)
    (secs : List Section) : dropFirst key (a ++ secs) = a ++ dropFirst key secs := by
  induction a with
  | nil => rfl
  | cons sec a ih =>
    obtain ⟨hsec, ha⟩ := List.forall_mem_cons.mp ha
    have hnot : ¬ (sec.key = key ∧ (!sec.required) = true) := fun hboth => by
      rw [hsec] at hboth
      cases hboth.2
    rw [List.cons_append, dropFirst, if_neg hnot, ih ha]
    rfl

theorem dropFirst_of_required (h : ∀ sec ∈ secs, sec.required = true) (key : List Char) :
    dropFirst key secs = secs := by
  have happend := dropFirst_append h key []
  rwa [List.append_nil, dropFirst, List.append_nil] at happend

/-- When only required sections are left, no key takes anything any more. -/
theorem foldl_required (h : ∀ sec ∈ secs, sec.required = true) (budget : Nat) (keys : List (List Char)) :
    keys.foldl (fun secs key => if size secs ≤ budget then secs else dropFirst key secs) secs = secs := by
  induction keys with
  | nil => rfl
  | cons key keys ih => rw [List.foldl_cons, dropFirst_of_required h, ite_self, ih]

/-- Over the budget, the section that may go is gone. -/
theorem foldl_shed (h : Sheddable keys secs) (hover : budget < size secs) :
    keys.foldl (fun secs key => if size secs ≤ budget then secs else dropFirst key secs) secs = staying secs := by
  cases h with
  | none h => rw [foldl_required h, staying_of_required h]
  | @one a b sec ha hsec hkey hb =>
    have hstaying : staying (a ++ sec :: b) = a ++ b := by
      rw [staying, List.filter_append, List.filter_cons_of_neg (by rw [hsec]; exact Bool.false_ne_true)]
      exact congrArg₂ (· ++ ·) (staying_of_required ha) (staying_of_required hb)
    have hleft : ∀ sec ∈ a ++ b, sec.required = true := List.forall_mem_append.mpr ⟨ha, hb⟩
    induction keys with
    | nil => cases hkey
    | cons key keys ih =>
      rw [List.foldl_cons, if_neg (by omega), dropFirst_append ha, dropFirst]
      by_cases heq : sec.key = key
      · rw [if_pos ⟨heq, by rw [hsec]; rfl⟩, foldl_required hleft, hstaying]
      · rw [if_neg fun hboth => heq hboth.1, dropFirst_of_required hb]
        exact ih ((List.mem_cons.mp hkey).resolve_left heq)

theorem foldl_within (h : size secs ≤ budget) (keys : List (List Char)) :
    keys.foldl (fun secs key => if size secs ≤ budget then secs else dropFirst key secs) secs = secs := by
  induction keys with
  | nil => rfl
  | cons key keys ih => rw [List.foldl_cons, if_pos h, ih]

/-! ## What is kept -/

/-- Within the budget, everything is kept. -/
theorem fitSections_within (h : size secs ≤ budget) : fitSections budget secs = secs := by
  have hshed : shed budget secs = secs := foldl_within h dropOrder
  rw [fitSections, hshed, if_neg (by omega)]

/-- Over the budget, the required sections are kept, and the last one is cut when they are still too much. -/
theorem fitSections_over (h : Sheddable dropOrder secs) (hover : budget < size secs) :
    fitSections budget secs =
      if budget < size (staying secs) then abridgeLast budget (staying secs) else staying secs := by
  have hshed : shed budget secs = staying secs := foldl_shed h hover
  rw [fitSections, hshed]

theorem length_abridgeLast (budget : Nat) (secs : List Section) : (abridgeLast budget secs).length = secs.length := by
  rw [abridgeLast]
  cases hlast : secs.getLast? with
  | none => rfl
  | some last =>
    have hne : secs ≠ [] := by
      rintro rfl
      cases hlast
    have hlength := List.length_pos_iff.mpr hne
    simp only [List.length_append, List.length_dropLast, List.length_singleton]
    omega

theorem size_abridgeLast (h : size secs.dropLast ≤ budget) : size (abridgeLast budget secs) ≤ budget := by
  rw [abridgeLast]
  cases hlast : secs.getLast? with
  | none =>
    obtain rfl := List.getLast?_eq_none_iff.mp hlast
    exact Nat.zero_le _
  | some last =>
    have hcut := Text.byteLength_abridge truncationMark (budget - size secs.dropLast) last.content
    show size (secs.dropLast ++ [_]) ≤ budget
    rw [size_append, size_cons]
    show size secs.dropLast + (byteLength (Text.abridge _ _ last.content) + 0) ≤ budget
    omega

/-- The required sections but the last one, and a blank line after each of them. -/
def floor (secs : List Section) : Nat :=
  let others := (staying secs).dropLast
  size others + 2 * others.length

/-- The contents that are kept are within the budget. -/
theorem size_fitSections (h : Sheddable dropOrder secs) (hfloor : floor secs ≤ budget) :
    size (fitSections budget secs) ≤ budget := by
  by_cases hover : budget < size secs
  · rw [fitSections_over h hover]
    split
    · refine size_abridgeLast ?_
      rw [floor] at hfloor
      omega
    · omega
  · rw [fitSections_within (by omega)]
    omega

/-! ## Prompts -/

/-- What a prompt is made for. -/
inductive Request
  | diagnose (i : DiagnoseInputs)
  | fix (i : FixInputs)

namespace Request

def inserted : Request → List String
  | diagnose i => i.inserted
  | fix i => i.inserted

/-- The sections of the template, the inserted texts among them. -/
def sections : Request → List Section
  | diagnose i => Prompt.sections (diagnoseTemplate i).toList
  | fix i => Prompt.sections (fixTemplate i).toList

def prompt (budget : Nat) : Request → String
  | diagnose i => Prompt.diagnose i budget
  | fix i => Prompt.fix i budget

theorem prompt_eq (r : Request) (budget : Nat) :
    r.prompt budget = String.ofList (joinSections (fitSections budget r.sections)) := by
  cases r with
  | diagnose i => rfl
  | fix i => rfl

theorem sheddable {r : Request} (h : ∀ text ∈ r.inserted, Markerless text.toList) : Sheddable dropOrder r.sections := by
  cases r with
  | diagnose i =>
    have hparts : ∀ sec ∈ ((diagnoseParts i).take 3).map Part.read, sec.required = true := by
      simp [diagnoseParts, Part.read]
    rw [sections, sections_diagnoseTemplate h]
    cases hprevious : i.previous.bind Text.trimmed? with
    | none =>
      have hhistory : historyParts i = [] := by rw [historyParts, hprevious]
      refine .none fun sec hsec => hparts sec ?_
      rwa [diagnoseParts, hhistory] at hsec ⊢
    | some previous =>
      have hhistory : ∃ part, historyParts i = [part] ∧ part.required = false ∧ part.key = "history" := by
        rw [historyParts, hprevious]
        exact ⟨_, rfl, rfl, rfl⟩
      obtain ⟨part, hhistory, hpart, hkey⟩ := hhistory
      have hdrop : part.read.key ∈ dropOrder := by
        have hmem : "history".toList ∈ dropOrder := by decide
        rwa [← hkey] at hmem
      have hsplit : (diagnoseParts i).map Part.read = ((diagnoseParts i).take 3).map Part.read ++ part.read :: [] := by
        rw [diagnoseParts, hhistory]
        rfl
      rw [hsplit]
      exact .one hparts hpart hdrop (List.forall_mem_nil _)
  | fix i =>
    have hparts : ∀ sec ∈ ((fixParts i).take 2).map Part.read, sec.required = true := by
      simp [fixParts, Part.read]
    have hfailure : "failure".toList ∈ dropOrder := by decide
    rw [sections, sections_fixTemplate h]
    refine .one (a := ((fixParts i).take 2).map Part.read) hparts rfl ?_ (List.forall_mem_nil _)
    simpa only [Part.read] using hfailure

theorem byteLength_prompt (r : Request) (budget : Nat) : byteLength (r.prompt budget).toList =
    size (fitSections budget r.sections) + separators (fitSections budget r.sections) := by
  rw [prompt_eq, String.toList_ofList, byteLength_joinSections]

theorem byteLength_prompt_within {r : Request} (h : size r.sections ≤ budget) :
    byteLength (r.prompt budget).toList = size r.sections + separators r.sections := by
  rw [byteLength_prompt, fitSections_within h]

/-- The budget is for the contents: the blank lines come on top. With all sections within the budget they are all there;
else the one that may go is gone; and when the required ones are too much, what is left after the last one has been cut
is within the budget. -/
theorem length_prompt (r : Request) (budget : Nat) (h : ∀ text ∈ r.inserted, Markerless text.toList)
    (hfloor : floor r.sections ≤ budget) :
    (size r.sections ≤ budget → byteLength (r.prompt budget).toList = size r.sections + separators r.sections) ∧
      (budget < size r.sections → size (staying r.sections) ≤ budget →
        byteLength (r.prompt budget).toList = size (staying r.sections) + separators (staying r.sections)) ∧
      (budget < size (staying r.sections) →
        byteLength (r.prompt budget).toList ≤ budget + separators (staying r.sections)) := by
  have hshed := sheddable h
  refine ⟨byteLength_prompt_within, fun hover hleft => ?_, fun hover => ?_⟩
  · rw [byteLength_prompt, fitSections_over hshed hover, if_neg (by omega)]
  · have hall : budget < size r.sections := lt_of_lt_of_le hover (size_staying _)
    have hsize := size_fitSections hshed hfloor
    have hkept : fitSections budget r.sections = abridgeLast budget (staying r.sections) := by
      rw [fitSections_over hshed hall, if_pos hover]
    rw [byteLength_prompt, separators, hkept, length_abridgeLast, ← hkept]
    exact Nat.add_le_add_right hsize _

/-- A fix with three short sections, of 127, 23 and 36 bytes. -/
theorem sections_short : (∀ text ∈ (fix ⟨"a.rs", "off by one", none, "boom"⟩).inserted, Markerless text.toList) ∧
    (fix ⟨"a.rs", "off by one", none, "boom"⟩).sections =
      (fixParts ⟨"a.rs", "off by one", none, "boom"⟩).map Part.read := by
  have hbracket : ∀ text ∈ (fix ⟨"a.rs", "off by one", none, "boom"⟩).inserted, '<' ∉ text.toList := by decide +kernel
  have hmarkerless : ∀ text ∈ (fix ⟨"a.rs", "off by one", none, "boom"⟩).inserted, Markerless text.toList :=
    fun text htext => markerless_of_bracket (hbracket text htext)
  exact ⟨hmarkerless, sections_fixTemplate hmarkerless⟩

theorem sizes_short : floor ((fixParts ⟨"a.rs", "off by one", none, "boom"⟩).map Part.read) = 129 ∧
    size ((fixParts ⟨"a.rs", "off by one", none, "boom"⟩).map Part.read) = 186 ∧
    size (staying ((fixParts ⟨"a.rs", "off by one", none, "boom"⟩).map Part.read)) = 150 := by
  decide +kernel

/-- The failure is dropped, and the prompt is still two bytes too long. -/
theorem length_prompt_of_short : floor (fix ⟨"a.rs", "off by one", none, "boom"⟩).sections ≤ 150 ∧
    byteLength ((fix ⟨"a.rs", "off by one", none, "boom"⟩).prompt 150).toList = 152 := by
  obtain ⟨hmarkerless, hsections⟩ := sections_short
  obtain ⟨hfloor, hsize, hstaying⟩ := sizes_short
  rw [← hsections] at hfloor hsize hstaying
  have hfloor : floor (fix ⟨"a.rs", "off by one", none, "boom"⟩).sections ≤ 150 := by omega
  have hlength := (length_prompt (fix ⟨"a.rs", "off by one", none, "boom"⟩) 150 hmarkerless hfloor).2.1 (by omega)
    (by omega)
  rw [hstaying, hsections] at hlength
  exact ⟨hfloor, hlength⟩

/-- The contents are exactly the budget, and the prompt is longer by the two blank lines. -/
theorem prompt_past_budget : (∀ text ∈ (fix ⟨"a.rs", "off by one", none, "boom"⟩).inserted, Markerless text.toList) ∧
    floor (fix ⟨"a.rs", "off by one", none, "boom"⟩).sections ≤ 186 ∧
    byteLength ((fix ⟨"a.rs", "off by one", none, "boom"⟩).prompt 186).toList = 190 := by
  obtain ⟨hmarkerless, hsections⟩ := sections_short
  obtain ⟨hfloor, hsize, -⟩ := sizes_short
  rw [← hsections] at hfloor hsize
  have hwithin : size (fix ⟨"a.rs", "off by one", none, "boom"⟩).sections ≤ 186 := by omega
  have hlength := byteLength_prompt_within hwithin
  rw [hsize, hsections] at hlength
  exact ⟨hmarkerless, by omega, hlength⟩

end Request

end Overseer.Prompt
