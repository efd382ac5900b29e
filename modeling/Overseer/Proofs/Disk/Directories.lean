import Mathlib
import Overseer.Proofs.Disk.Tree

/-! # Directories can be made unless a file is in the way

The parts of a path lead from place to place. All places before the last one have to be directories, or nothing is
found under the path. Where none of the places of a directory is a file, those that are missing are made one after the
other, and afterwards all of them are directories and every other place is as it was.
-/

open Overseer.Path (isStep steps)
open Overseer.Text (splitOn)

namespace Overseer.Tree

variable {t u : Tree} {path : String}

/-- Where a part of a path leads. -/
def turn (place : List String) (part : List Char) : List String :=
  if isStep part then if part = ['.', '.'] then place.dropLast else place ++ [String.ofList part] else place

/-- The places that the parts of a path lead through, with the first and the last one. -/
def visited : List String → List (List Char) → List (List String)
  | place, [] => [place]
  | place, part :: parts => place :: visited (turn place part) parts

/-- Where the parts of a path lead. -/
def destination (place : List String) (parts : List (List Char)) : List String := parts.foldl turn place

theorem turn_of_not_isStep {part : List Char} (h : isStep part = false) (place : List String) :
    turn place part = place := by
  unfold turn
  rw [h]
  rfl

theorem mem_visited_self (place : List String) (parts : List (List Char)) : place ∈ visited place parts := by
  cases parts with
  | nil => exact List.mem_singleton_self place
  | cons part parts => exact List.mem_cons_self

theorem mem_visited_filter {q place : List String} {parts : List (List Char)} :
    q ∈ visited place (parts.filter isStep) ↔ q ∈ visited place parts := by
  induction parts generalizing place with
  | nil => exact Iff.rfl
  | cons part parts ih =>
    cases h : isStep part with
    | true =>
      rw [List.filter_cons_of_pos h, visited, visited, List.mem_cons, List.mem_cons, ih]
    | false =>
      rw [List.filter_cons_of_neg (by rw [h]; exact Bool.false_ne_true), ih, visited, turn_of_not_isStep h,
        List.mem_cons]
      refine ⟨Or.inr, ?_⟩
      rintro (rfl | hmem)
      · exact mem_visited_self q parts
      · exact hmem

theorem destination_mem_visited (place : List String) (parts : List (List Char)) :
    destination place parts ∈ visited place parts := by
  induction parts generalizing place with
  | nil => exact List.mem_singleton_self place
  | cons part parts ih => exact List.mem_cons_of_mem place (ih (turn place part))

theorem visited_concat (place : List String) (parts : List (List Char)) (part : List Char) :
    visited place (parts ++ [part]) = visited place parts ++ [destination place (parts ++ [part])] := by
  induction parts generalizing place with
  | nil => rfl
  | cons first parts ih =>
    rw [List.cons_append, visited, ih, visited]
    rfl

/-! ## Following a path -/

theorem follow_cons (t : Tree) (place : List String) (part : List Char) (rest : List String) :
    t.follow place (String.ofList part :: rest) =
      if t.isDirectory place then t.follow (turn place part) rest
      else .error (if (t.entry place).isSome then .notDirectory else .notFound) := by
  have hbeq : ∀ other, (String.ofList part == String.ofList other) = (part == other) := fun other => by
    rw [Bool.eq_iff_iff, beq_iff_eq, beq_iff_eq, String.ofList_inj]
  have hskip : (String.ofList part == "" || String.ofList part == ".") = !isStep part := by
    rw [isStep, Bool.not_not]
    exact congrArg₂ or (hbeq []) (hbeq ['.'])
  have hback : (String.ofList part == "..") = (part == ['.', '.']) := hbeq ['.', '.']
  rw [follow, hskip, hback]
  cases t.isDirectory place with
  | false => rfl
  | true =>
    unfold turn
    cases isStep part with
    | false => rfl
    | true =>
      by_cases h : part = ['.', '.']
      · subst h
        rfl
      · simp [h]

theorem follow_of_directories {place : List String} {parts : List (List Char)}
    (h : ∀ q ∈ visited place parts, t.isDirectory q = true) (part : List Char) :
    t.follow place ((parts ++ [part]).map String.ofList) = .ok (destination place (parts ++ [part])) := by
  induction parts generalizing place with
  | nil =>
    rw [List.nil_append, List.map_singleton, follow_cons, if_pos (h place (List.mem_singleton_self place))]
    rfl
  | cons first parts ih =>
    rw [List.cons_append, List.map_cons, follow_cons, if_pos (h place List.mem_cons_self)]
    exact ih fun q hq => h q (List.mem_cons_of_mem place hq)

/-- No place of these is a file. -/
def Passable (t : Tree) (places : List (List String)) : Prop := ∀ q ∈ places, ∀ bytes, t.entry q ≠ some (.file bytes)

theorem Passable.entry_eq_none {places : List (List String)} (h : t.Passable places) {q : List String}
    (hq : q ∈ places) (hdirectory : t.isDirectory q = false) : t.entry q = none := by
  cases hentry : t.entry q with
  | none => rfl
  | some e =>
    cases e with
    | file bytes => exact absurd hentry (h q hq bytes)
    | directory =>
      rw [isDirectory_iff.mpr hentry] at hdirectory
      cases hdirectory

theorem follow_of_missing {place : List String} {parts : List (List Char)}
    (hpassable : t.Passable (visited place parts)) (hmissing : ∃ q ∈ visited place parts, t.isDirectory q = false)
    (part : List Char) : t.follow place ((parts ++ [part]).map String.ofList) = .error .notFound := by
  induction parts generalizing place with
  | nil =>
    obtain ⟨q, hq, hdirectory⟩ := hmissing
    have hnone := hpassable.entry_eq_none hq hdirectory
    obtain rfl := List.mem_singleton.mp hq
    rw [List.nil_append, List.map_singleton, follow_cons, hdirectory, hnone]
    rfl
  | cons first parts ih =>
    rw [List.cons_append, List.map_cons, follow_cons]
    cases hdirectory : t.isDirectory place with
    | false =>
      rw [hpassable.entry_eq_none List.mem_cons_self hdirectory]
      rfl
    | true =>
      rw [if_pos rfl]
      refine ih (fun q hq => hpassable q (List.mem_cons_of_mem place hq)) ?_
      obtain ⟨q, hq, hfalse⟩ := hmissing
      rcases List.mem_cons.mp hq with rfl | hq
      · rw [hdirectory] at hfalse
        cases hfalse
      · exact ⟨q, hq, hfalse⟩

/-! ## Making directories -/

/-- The places have become directories, and all others are as they were. -/
structure Made (places : List (List String)) (t u : Tree) : Prop where
  directories : ∀ q ∈ places, u.isDirectory q = true
  others : ∀ q, q ∉ places → u.entry q = t.entry q

theorem Made.passable {places others : List (List String)} (hmade : Made places t u) (h : t.Passable others) :
    u.Passable others := by
  intro q hq bytes hentry
  by_cases hmem : q ∈ places
  · rw [isDirectory_iff.mp (hmade.directories q hmem)] at hentry
    cases hentry
  · rw [hmade.others q hmem] at hentry
    exact h q hq bytes hentry

theorem ensureDirectory_of_visited {front : List (List Char)} {name : List Char}
    (hparts : splitOn '/' path.toList = front ++ [name])
    (hfront : ∀ q ∈ visited [] front, t.isDirectory q = true)
    (hlast : ∀ bytes, t.entry (destination [] (front ++ [name])) ≠ some (.file bytes)) :
    ∃ u, t.ensureDirectory path = .ok u ∧ Made (visited [] (front ++ [name])) t u := by
  have hplace : t.place path = .ok (destination [] (front ++ [name])) := by
    unfold place names
    rw [hparts]
    exact follow_of_directories hfront name
  obtain ⟨last, hdestination⟩ : ∃ last, destination [] (front ++ [name]) = last := ⟨_, rfl⟩
  rw [visited_concat]
  rw [hdestination] at hlast hplace ⊢
  cases hentry : t.entry last with
  | none =>
    have hne : last ≠ [] := by
      rintro rfl
      cases hentry
    refine ⟨t.set last .directory, ensureDirectory_of_none hplace hentry, ?_, ?_⟩
    · intro q hq
      rcases List.mem_append.mp hq with hq | hq
      · exact isDirectory_set_directory (hfront q hq)
      · obtain rfl := List.mem_singleton.mp hq
        exact isDirectory_iff.mpr (entry_set hne t _)
    · intro q hq
      have hne : q ≠ last := fun heq => hq (List.mem_append_right _ (List.mem_singleton.mpr heq))
      exact entry_set_of_ne hne t _
  | some e =>
    cases e with
    | file bytes => exact absurd hentry (hlast bytes)
    | directory =>
      have hdirectory := isDirectory_iff.mpr hentry
      refine ⟨t, ensureDirectory_of_find (find_directory_iff.mpr ⟨last, hplace, hdirectory⟩), ?_, fun _ _ => rfl⟩
      intro q hq
      rcases List.mem_append.mp hq with hq | hq
      · exact hfront q hq
      · obtain rfl := List.mem_singleton.mp hq
        exact hdirectory

theorem ensureDirectory_of_missing {front : List (List Char)} {name : List Char}
    (hparts : splitOn '/' path.toList = front ++ [name]) (hpassable : t.Passable (visited [] front))
    (hmissing : ∃ q ∈ visited [] front, t.isDirectory q = false) :
    t.ensureDirectory path = .error .notFound := by
  have hplace : t.place path = .error .notFound := by
    unfold place names
    rw [hparts]
    exact follow_of_missing hpassable hmissing name
  unfold ensureDirectory makeDirectory find
  rw [hplace]
  rfl

/-- A directory can be made at once, or one that it lies in is missing. -/
theorem ensureDirectory_of_passable (hneat : Path.Neat path.toList)
    (h : t.Passable (visited [] (steps path.toList))) :
    (∃ u, t.ensureDirectory path = .ok u ∧ Made (visited [] (steps path.toList)) t u) ∨
      t.ensureDirectory path = .error .notFound ∧
        ∃ front name, splitOn '/' path.toList = front ++ [name] ∧ isStep name = true := by
  have hmem : ∀ q, q ∈ visited [] (steps path.toList) ↔ q ∈ visited [] (splitOn '/' path.toList) :=
    fun q => mem_visited_filter
  obtain ⟨front, name, hparts⟩ : ∃ front name, splitOn '/' path.toList = front ++ [name] := by
    obtain ⟨part, parts, hsplit⟩ := Text.exists_splitOn_eq '/' path.toList
    refine ⟨_, _, (List.dropLast_append_getLast (l := splitOn '/' path.toList) ?_).symm⟩
    rw [hsplit]
    exact List.cons_ne_nil part parts
  have hall := visited_concat [] front name
  rw [← hparts] at hall
  by_cases hfront : ∀ q ∈ visited [] front, t.isDirectory q = true
  · have hlast : ∀ bytes, t.entry (destination [] (front ++ [name])) ≠ some (.file bytes) := by
      refine h _ ((hmem _).mpr ?_)
      rw [hparts]
      exact destination_mem_visited [] (front ++ [name])
    obtain ⟨u, hu, hmade⟩ := ensureDirectory_of_visited hparts hfront hlast
    rw [← hparts] at hmade
    exact Or.inl ⟨u, hu, fun q hq => hmade.directories q ((hmem q).mp hq),
      fun q hq => hmade.others q fun hmem' => hq ((hmem q).mpr hmem')⟩
  · simp only [not_forall, Bool.not_eq_true] at hfront
    obtain ⟨q, hq, hmissing⟩ := hfront
    have hpassable : t.Passable (visited [] front) := fun q hq =>
      h q ((hmem q).mpr (hall ▸ List.mem_append_left _ hq))
    refine Or.inr ⟨ensureDirectory_of_missing hparts hpassable ⟨q, hq, hmissing⟩, ?_⟩
    rcases hneat with hnone | hstep
    · have hroot : q ∈ visited [] (steps path.toList) := (hmem q).mpr (hall ▸ List.mem_append_left _ hq)
      rw [hnone, visited, List.mem_singleton] at hroot
      rw [hroot, isDirectory_nil] at hmissing
      cases hmissing
    · exact hstep

/-- The directory of a path comes before the path itself, and each time there is one part less. -/
theorem makeDirectories_of_passable {n : ℕ} (hneat : Path.Neat path.toList) (hn : (steps path.toList).length ≤ n)
    (h : t.Passable (visited [] (steps path.toList))) :
    ∃ u, makeDirectories (n + 1) path t = .ok u ∧ Made (visited [] (steps path.toList)) t u := by
  induction n generalizing path with
  | zero =>
    rcases ensureDirectory_of_passable hneat h with ⟨u, hu, hmade⟩ | ⟨-, front, name, hparts, hname⟩
    · exact ⟨u, makeDirectories_of_ensureDirectory hu 0, hmade⟩
    · unfold steps at hn
      rw [hparts, List.filter_append, List.length_append, List.filter_cons_of_pos hname, List.length_cons] at hn
      omega
  | succ n ih =>
    rcases ensureDirectory_of_passable hneat h with ⟨u, hu, hmade⟩ | ⟨hmissing, front, name, hparts, hname⟩
    · exact ⟨u, makeDirectories_of_ensureDirectory hu (n + 1), hmade⟩
    · have hparent := Path.steps_parent_of_isStep hparts hname
      have hsteps : steps path.toList = steps (Path.parent path).toList ++ [name] := by
        rw [hparent]
        unfold steps
        rw [hparts, List.filter_append, List.filter_cons_of_pos hname]
        rfl
      have hall := visited_concat [] (steps (Path.parent path).toList) name
      rw [← hsteps] at hall
      have hlength : (steps (Path.parent path).toList).length ≤ n := by
        rw [hsteps, List.length_append, List.length_singleton] at hn
        omega
      obtain ⟨u, hu, hmade⟩ := ih (Path.neat_parent path) hlength fun q hq => h q (hall ▸ List.mem_append_left _ hq)
      have hfront : ∀ q ∈ visited [] front, u.isDirectory q = true := fun q hq =>
        hmade.directories q (by rw [hparent]; exact mem_visited_filter.mpr hq)
      have hmem : ∀ q, q ∈ visited [] (steps path.toList) ↔ q ∈ visited [] (front ++ [name]) := fun q => by
        rw [← hparts]
        exact mem_visited_filter
      have hpassable := hmade.passable h
      obtain ⟨v, hv, hlast⟩ := ensureDirectory_of_visited hparts hfront
        (hpassable _ ((hmem _).mpr (destination_mem_visited [] (front ++ [name]))))
      refine ⟨v, ?_, fun q hq => hlast.directories q ((hmem q).mp hq), fun q hq => ?_⟩
      · rw [makeDirectories, hmissing]
        dsimp only
        rw [hu]
        exact hv
      · rw [hlast.others q fun hmem' => hq ((hmem q).mpr hmem'), hmade.others q fun hmem' => hq ?_]
        exact hall ▸ List.mem_append_left _ hmem'

end Overseer.Tree
