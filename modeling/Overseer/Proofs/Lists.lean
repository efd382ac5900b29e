import Mathlib.Data.List.Basic

/-! # Lists that grow, and lists with separators

What is said of each member and the members before it is said of a list with one more member by saying it of the list and
of the new member (`forall_split_concat`). With a separator between them, parts are the first one and then each other one
behind a separator (`intercalate_cons`).
-/

namespace Overseer

variable {α : Type}

/-- A split of a list with one more member is at that member or splits the list. -/
theorem split_concat {xs earlier later : List α} {x y : α} (h : xs ++ [x] = earlier ++ y :: later) :
    (earlier = xs ∧ y = x) ∨ ∃ rest, xs = earlier ++ y :: rest := by
  rcases List.eq_nil_or_concat' later with rfl | ⟨rest, last, rfl⟩
  · obtain ⟨hxs, hx⟩ := List.append_inj' h rfl
    exact .inl ⟨hxs.symm, (List.singleton_inj.mp hx).symm⟩
  · rw [← List.cons_append, ← List.append_assoc] at h
    exact .inr ⟨rest, List.append_inj_left' h rfl⟩

theorem forall_split_concat {p : List α → α → Prop} {xs : List α} {x : α} :
    (∀ earlier y later, xs ++ [x] = earlier ++ y :: later → p earlier y) ↔
      (∀ earlier y later, xs = earlier ++ y :: later → p earlier y) ∧ p xs x := by
  constructor
  · refine fun h => ⟨fun earlier y later hxs => h earlier y (later ++ [x]) ?_, h xs x [] rfl⟩
    rw [hxs, List.append_assoc, List.cons_append]
  · rintro ⟨h, hx⟩ earlier y later hsplit
    rcases split_concat hsplit with ⟨rfl, rfl⟩ | ⟨rest, hxs⟩
    · exact hx
    · exact h earlier y rest hxs

/-- One part, and then each of the others after the separator. -/
theorem intercalate_cons (x : α) (part : List α) (parts : List (List α)) :
    [x].intercalate (part :: parts) = part ++ parts.flatMap (x :: ·) := by
  induction parts generalizing part with
  | nil => rw [List.intercalate_singleton, List.flatMap_nil, List.append_nil]
  | cons next parts ih =>
    rw [List.intercalate_cons_cons, ih, List.flatMap_cons, List.append_assoc]
    rfl

end Overseer
