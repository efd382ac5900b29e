import Mathlib
import Overseer.Config.Storage
import Overseer.Disk.Tree

/-! # The parts of a path and of its directory

The parts that are empty or a dot lead nowhere. Without them a path has the parts of its directory and one more, which
is its name, and a path that ends in a name has the same parts in front of it as its temporary file. Paths are cut
from the end, so that texts are read backwards here, too.
-/

namespace Overseer

namespace Text

variable {c : Char} {s : List Char}

theorem exists_splitOn_eq (c : Char) (s : List Char) : ∃ part parts, splitOn c s = part :: parts := by
  cases s with
  | nil => exact ⟨[], [], rfl⟩
  | cons d s =>
    rw [splitOn]
    cases splitOn c s with
    | nil => exact ⟨_, _, rfl⟩
    | cons part parts =>
      dsimp only
      split
      · exact ⟨_, _, rfl⟩
      · exact ⟨_, _, rfl⟩

theorem splitOn_cons_self (c : Char) (s : List Char) : splitOn c (c :: s) = [] :: splitOn c s := by
  obtain ⟨part, parts, heq⟩ := exists_splitOn_eq c s
  rw [splitOn, heq]
  exact if_pos rfl

theorem splitOn_cons_of_ne {d : Char} (hne : d ≠ c) {part : List Char} {parts : List (List Char)}
    (h : splitOn c s = part :: parts) : splitOn c (d :: s) = (d :: part) :: parts := by
  rw [splitOn, h]
  exact if_neg hne

theorem splitOn_of_notMem (h : c ∉ s) : splitOn c s = [s] := by
  induction s with
  | nil => rfl
  | cons d s ih =>
    have hne : d ≠ c := fun heq => h (heq ▸ List.mem_cons_self)
    exact splitOn_cons_of_ne hne (ih fun hmem => h (List.mem_cons_of_mem d hmem))

theorem splitOn_append (c : Char) (s rest : List Char) :
    splitOn c (s ++ c :: rest) = splitOn c s ++ splitOn c rest := by
  induction s with
  | nil => exact splitOn_cons_self c rest
  | cons d s ih =>
    by_cases h : d = c
    · rw [h, List.cons_append, splitOn_cons_self, splitOn_cons_self, ih]
      rfl
    · obtain ⟨part, parts, heq⟩ := exists_splitOn_eq c s
      rw [heq] at ih
      rw [List.cons_append, splitOn_cons_of_ne h heq, splitOn_cons_of_ne h ih]
      rfl

end Text

namespace Path

open Text

/-- Whether a part leads to another place. -/
def isStep (part : List Char) : Bool := !(part == [] || part == ['.'])

theorem isStep_iff {part : List Char} : isStep part = true ↔ part ≠ [] ∧ part ≠ ['.'] := by
  simp [isStep]

/-- The parts that lead to other places. -/
def steps (s : List Char) : List (List Char) := (splitOn '/' s).filter isStep

theorem steps_append (s rest : List Char) : steps (s ++ '/' :: rest) = steps s ++ steps rest := by
  unfold steps
  rw [splitOn_append, List.filter_append]

/-- A text that is read backwards, cut at its last slash. -/
theorem splitOn_reverse (s : List Char) :
    (s.takeWhile (· != '/') = s ∧ splitOn '/' s.reverse = [s.reverse]) ∨
      ∃ front, s = s.takeWhile (· != '/') ++ '/' :: front ∧
        splitOn '/' s.reverse = splitOn '/' front.reverse ++ [(s.takeWhile (· != '/')).reverse] := by
  have hname : '/' ∉ s.takeWhile (· != '/') := fun h => by
    have := List.mem_takeWhile_imp h
    simp at this
  have hsplit := List.takeWhile_append_dropWhile (p := (· != '/')) (l := s)
  cases hdrop : s.dropWhile (· != '/') with
  | nil =>
    rw [hdrop, List.append_nil] at hsplit
    rw [hsplit] at hname
    exact Or.inl ⟨hsplit, splitOn_of_notMem (by rwa [List.mem_reverse])⟩
  | cons d front =>
    have hd : d = '/' := by
      have := List.head?_dropWhile_not (· != '/') s
      rw [hdrop] at this
      simpa using this
    rw [hdrop, hd] at hsplit
    refine Or.inr ⟨front, hsplit.symm, ?_⟩
    conv_lhs => rw [← hsplit]
    rw [List.reverse_append, List.reverse_cons, List.append_assoc, List.singleton_append, splitOn_append,
      splitOn_of_notMem (by rwa [List.mem_reverse] : '/' ∉ (s.takeWhile (· != '/')).reverse)]

theorem trimmedBack_of_forall_ne {s : List Char} (hslash : ∀ rest, s ≠ '/' :: rest)
    (hdot : ∀ rest, s ≠ '.' :: '/' :: rest) : trimmedBack s = s := by
  rw [trimmedBack]
  · exact hslash []
  · exact hslash
  · exact hdot []
  · exact hdot

theorem steps_trimmedBack (s : List Char) : steps (trimmedBack s).reverse = steps s.reverse := by
  induction s using trimmedBack.induct with
  | case1 => rfl
  | case2 rest h ih =>
    have hslash : steps ('/' :: rest).reverse = steps rest.reverse := by
      rw [List.reverse_cons, steps_append]
      exact List.append_nil _
    rw [trimmedBack, ih, hslash]
    exact h
  | case3 => rfl
  | case4 rest h ih =>
    have hdot : steps ('.' :: '/' :: rest).reverse = steps ('/' :: rest).reverse := by
      rw [List.reverse_cons, List.reverse_cons, List.append_assoc, List.singleton_append, steps_append, steps_append]
      rfl
    rw [trimmedBack, ih, hdot]
    exact h
  | case5 s hroot hslash hdotRoot hdot => rw [trimmedBack_of_forall_ne hslash hdot]

/-- A path that leads nowhere, or ends in a part that leads to another place. -/
def Neat (s : List Char) : Prop :=
  steps s = [] ∨ ∃ front name, splitOn '/' s = front ++ [name] ∧ isStep name = true

theorem neat_reverse {s : List Char} (hslash : ∀ rest, s ≠ '/' :: rest) (hdot : ∀ rest, s ≠ '.' :: '/' :: rest) :
    Neat s.reverse := by
  cases s with
  | nil => exact Or.inl rfl
  | cons c s =>
    have hc : (c != '/') = true := bne_iff_ne.mpr fun hc => hslash s (hc ▸ rfl)
    by_cases h : c = '.' ∧ s = []
    · obtain ⟨rfl, rfl⟩ := h
      exact Or.inl rfl
    · have hstep : isStep ((c :: s).takeWhile (· != '/')).reverse = true := by
        rw [List.takeWhile_cons_of_pos (p := (· != '/')) hc, isStep_iff]
        refine ⟨List.reverse_ne_nil_iff.mpr (List.cons_ne_nil _ _), fun heq => ?_⟩
        obtain ⟨rfl, htail⟩ := List.cons.inj (List.reverse_eq_iff.mp heq)
        cases s with
        | nil => exact h ⟨rfl, rfl⟩
        | cons d s =>
          have hd : d ≠ '/' := fun hd => hdot s (hd ▸ rfl)
          rw [List.takeWhile_cons_of_pos (p := (· != '/')) (bne_iff_ne.mpr hd)] at htail
          cases htail
      rcases splitOn_reverse (c :: s) with ⟨hname, hsplit⟩ | ⟨front, -, hsplit⟩
      · exact Or.inr ⟨[], _, by rw [hsplit, hname]; rfl, hstep⟩
      · exact Or.inr ⟨_, _, hsplit, hstep⟩

theorem neat_trimmedBack (s : List Char) : Neat (trimmedBack s).reverse := by
  induction s using trimmedBack.induct with
  | case1 => exact Or.inl rfl
  | case2 rest h ih =>
    rw [trimmedBack]
    · exact ih
    · exact h
  | case3 => exact Or.inl rfl
  | case4 rest h ih =>
    rw [trimmedBack]
    · exact ih
    · exact h
  | case5 s hroot hslash hdotRoot hdot =>
    rw [trimmedBack_of_forall_ne hslash hdot]
    exact neat_reverse hslash hdot

theorem neat_parent (path : String) : Neat (parent path).toList := by
  unfold parent
  split
  · exact Or.inl rfl
  · rw [String.toList_ofList]
    exact neat_trimmedBack _

theorem steps_parent (path : String) : steps (parent path).toList = steps (cutBack path).2.reverse := by
  rw [← steps_trimmedBack]
  unfold parent
  split
  · rename_i heq
    rw [heq]
    rfl
  · rw [String.toList_ofList]

/-! ## Paths that end in a name -/

section Named

variable {path : String} {front : List (List Char)} {name : List Char}

/-- A path that ends in a part which leads to another place is cut in front of that part. -/
theorem cutBack_of_isStep (h : splitOn '/' path.toList = front ++ [name]) (hname : isStep name = true) :
    ∃ rest, cutBack path = (name.reverse, rest) ∧ ((rest = [] ∧ front = []) ∨
      ∃ back, rest = '/' :: back ∧ front = splitOn '/' back.reverse) := by
  have hcut := splitOn_reverse path.toList.reverse
  rw [List.reverse_reverse, h] at hcut
  obtain ⟨s, hs⟩ : ∃ s, path.toList.reverse = s := ⟨_, rfl⟩
  rw [hs] at hcut
  obtain ⟨last, hlast⟩ : ∃ last, s.takeWhile (· != '/') = last := ⟨_, rfl⟩
  rw [hlast] at hcut
  have heq : name = last.reverse := by
    rcases hcut with ⟨rfl, hsplit⟩ | ⟨back, -, hsplit⟩
    · have hsingle : front ++ [name] = [] ++ [path.toList] := hsplit
      rw [← hs, List.reverse_reverse]
      exact (List.cons.inj (List.append_inj' hsingle rfl).2).1
    · exact (List.cons.inj (List.append_inj' hsplit rfl).2).1
  subst heq
  obtain ⟨hne, hdot⟩ := isStep_iff.mp hname
  have htrimmed : trimmedBack s = s := by
    refine trimmedBack_of_forall_ne ?_ ?_
    · rintro rest rfl
      exact hne (by rw [← hlast]; rfl)
    · rintro rest rfl
      exact hdot (by rw [← hlast]; rfl)
  have hcutBack : cutBack path = (last, s.drop last.length) := by
    unfold cutBack
    dsimp only
    rw [hs, htrimmed, hlast]
  refine ⟨s.drop last.length, by rw [hcutBack, List.reverse_reverse], ?_⟩
  rcases hcut with ⟨rfl, hsplit⟩ | ⟨back, hback, hsplit⟩
  · have hsingle : front ++ [last.reverse] = [] ++ [path.toList] := hsplit
    exact Or.inl ⟨List.drop_length, (List.append_inj' hsingle rfl).1⟩
  · refine Or.inr ⟨back, ?_, (List.append_inj' hsplit rfl).1⟩
    rw [hback, List.drop_left]

/-- The parts in front of the last one are those of the directory. -/
theorem steps_parent_of_isStep (h : splitOn '/' path.toList = front ++ [name]) (hname : isStep name = true) :
    steps (parent path).toList = front.filter isStep := by
  obtain ⟨rest, hcut, ⟨rfl, rfl⟩ | ⟨back, rfl, rfl⟩⟩ := cutBack_of_isStep h hname
  · rw [steps_parent, hcut]
    rfl
  · rw [steps_parent, hcut]
    dsimp only
    rw [List.reverse_cons, steps_append]
    exact List.append_nil _

theorem isName_iff {name : List Char} : isName name = true ↔ name ≠ [] ∧ name ≠ ['.'] ∧ name ≠ ['.', '.'] := by
  unfold isName
  split
  · simp
  · simp
  · simp
  · rename_i hempty hdot hdots
    simpa using ⟨hempty, hdot, hdots⟩

theorem isStep_of_isName {name : List Char} (h : isName name = true) : isStep name = true :=
  isStep_iff.mpr ⟨(isName_iff.mp h).1, (isName_iff.mp h).2.1⟩

theorem isName_reverse {name : List Char} (h : isName name = true) : isName name.reverse = true := by
  obtain ⟨hne, hdot, hdots⟩ := isName_iff.mp h
  refine isName_iff.mpr ⟨List.reverse_ne_nil_iff.mpr hne, ?_, ?_⟩
  · exact fun heq => hdot (List.reverse_eq_iff.mp heq)
  · exact fun heq => hdots (List.reverse_eq_iff.mp heq)

theorem stemBack_subset (s : List Char) : stemBack s ⊆ s := by
  unfold stemBack
  split
  · rename_i d c rest heq
    have hsuffix : d :: c :: rest <:+ s := heq ▸ List.dropWhile_suffix _
    exact fun x hx => hsuffix.subset (List.mem_cons_of_mem d hx)
  · exact fun x hx => hx

theorem slash_notMem_cutBack (path : String) : '/' ∉ (cutBack path).1 := fun h => by
  have := List.mem_takeWhile_imp h
  simp at this

/-- The temporary file has a name of its own in the same directory. -/
theorem splitOn_temporaryPath (h : splitOn '/' path.toList = front ++ [name]) (hname : isName name = true) :
    ∃ other, splitOn '/' (Config.temporaryPath path).toList = front ++ [other] := by
  obtain ⟨rest, hcut, hrest⟩ := cutBack_of_isStep h (isStep_of_isName hname)
  have hclean : '/' ∉ stemBack name.reverse := fun hmem => by
    have := slash_notMem_cutBack path
    rw [hcut] at this
    exact this (stemBack_subset _ hmem)
  obtain ⟨other, hother⟩ : ∃ other, (stemBack name.reverse).reverse ++ ".toml.tmp".toList = other := ⟨_, rfl⟩
  have htext : (Config.temporaryPath path).toList = rest.reverse ++ other := by
    unfold Config.temporaryPath withExtension
    rw [hcut]
    dsimp only
    rw [if_pos (isName_reverse hname), String.toList_ofList, List.reverse_append, List.append_assoc, ← hother]
    rfl
  have hslash : '/' ∉ other := by
    rw [← hother, List.mem_append, List.mem_reverse]
    exact not_or.mpr ⟨hclean, by decide⟩
  refine ⟨other, ?_⟩
  obtain ⟨rfl, rfl⟩ | ⟨back, rfl, rfl⟩ := hrest
  · rw [htext]
    exact splitOn_of_notMem hslash
  · rw [htext, List.reverse_cons, List.append_assoc, List.singleton_append, splitOn_append,
      splitOn_of_notMem hslash]

end Named

end Path

end Overseer
