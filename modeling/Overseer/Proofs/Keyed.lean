import Overseer.Keyed

/-! # What an insertion into an association list does

The key that is set finds its value, and every other key finds what it has found before. No order of the keys is
needed for it. A list whose keys are in order is what comes of inserting its entries one after the other.
-/

namespace Overseer.Keyed

variable {α : Type}

theorem lookup_cons (key : String) (entry : String × α) (entries : List (String × α)) :
    lookup key (entry :: entries) = if entry.1 = key then some entry.2 else lookup key entries := by
  unfold lookup
  by_cases h : entry.1 = key
  · simp [h]
  · simp [h]

theorem lookup_insert_self (key : String) (value : α) (entries : List (String × α)) :
    lookup key (insert key value entries) = some value := by
  induction entries with
  | nil => simp [insert, lookup_cons]
  | cons entry rest ih =>
    obtain ⟨k, v⟩ := entry
    rw [insert]
    split
    · rw [lookup_cons, if_pos rfl]
    · split
      · rw [lookup_cons, if_pos rfl]
      · rename_i hne
        rw [lookup_cons, if_neg (Ne.symm hne), ih]

theorem lookup_insert_of_ne {key other : String} (h : other ≠ key) (value : α)
    (entries : List (String × α)) :
    lookup other (insert key value entries) = lookup other entries := by
  induction entries with
  | nil => rw [insert, lookup_cons, if_neg (Ne.symm h)]
  | cons entry rest ih =>
    obtain ⟨k, v⟩ := entry
    rw [insert]
    split
    · rw [lookup_cons, if_neg (Ne.symm h)]
    · split
      · rename_i heq
        rw [lookup_cons, lookup_cons, if_neg (Ne.symm h), if_neg (heq ▸ Ne.symm h)]
      · rw [lookup_cons, lookup_cons, ih]

theorem lookup_insert (key other : String) (value : α) (entries : List (String × α)) :
    lookup other (insert key value entries)
      = if other = key then some value else lookup other entries := by
  by_cases h : other = key
  · rw [if_pos h, h, lookup_insert_self]
  · rw [if_neg h, lookup_insert_of_ne h]

/-- Of the entries that are set the last one for a key counts. -/
theorem lookup_foldl_insert (key : String) (entries base : List (String × α)) :
    lookup key (entries.foldl (fun acc (k, value) => insert k value acc) base)
      = entries.foldl (fun found entry => if key = entry.1 then some entry.2 else found)
          (lookup key base) := by
  induction entries generalizing base with
  | nil => rfl
  | cons entry entries ih => rw [List.foldl_cons, List.foldl_cons, ih, lookup_insert]

theorem lookup_eq_none {key : String} {entries : List (String × α)} (h : key ∉ entries.map (·.1)) :
    lookup key entries = none := by
  unfold lookup
  rw [Option.map_eq_none_iff, List.find?_eq_none]
  intro entry hentry heq
  exact h (beq_iff_eq.mp heq ▸ List.mem_map_of_mem hentry)

theorem mem_of_lookup {key : String} {value : α} {entries : List (String × α)} (h : lookup key entries = some value) :
    (key, value) ∈ entries := by
  obtain ⟨entry, hfound, rfl⟩ := Option.map_eq_some_iff.mp h
  have hkey := List.find?_some hfound
  obtain rfl : entry.1 = key := beq_iff_eq.mp hkey
  exact List.mem_of_find?_eq_some hfound

/-- With distinct keys it does not matter in which order the entries come. -/
theorem lookup_ofList {entries : List (String × α)} (h : (entries.map (·.1)).Nodup) (key : String) :
    lookup key (ofList entries) = lookup key entries := by
  have hfold : ∀ found, entries.foldl (fun found entry => if key = entry.1 then some entry.2 else found) found =
      (lookup key entries).or found := by
    induction entries with
    | nil => exact fun found => rfl
    | cons entry entries ih =>
      intro found
      obtain ⟨hnotMem, hrest⟩ := List.nodup_cons.mp h
      rw [List.foldl_cons, ih hrest, lookup_cons]
      by_cases heq : key = entry.1
      · subst heq
        rw [lookup_eq_none hnotMem, if_pos rfl, if_pos rfl]
        rfl
      · rw [if_neg heq, if_neg (Ne.symm heq)]
  unfold ofList
  rw [lookup_foldl_insert, hfold]
  exact Option.or_none

/-! ## Lists in order -/

/-- Each key is before those that follow it. -/
def Sorted (entries : List (String × α)) : Prop := (entries.map (·.1)).Pairwise (· < ·)

instance (entries : List (String × α)) : Decidable (Sorted entries) :=
  inferInstanceAs (Decidable ((entries.map (·.1)).Pairwise (· < ·)))

theorem Sorted.nodup {entries : List (String × α)} (h : Sorted entries) : (entries.map (·.1)).Nodup :=
  List.Pairwise.imp String.ne_of_lt h

theorem insert_of_forall_lt {key : String} {value : α} {entries : List (String × α)}
    (h : ∀ entry ∈ entries, entry.1 < key) : insert key value entries = entries ++ [(key, value)] := by
  induction entries with
  | nil => rfl
  | cons entry entries ih =>
    have hlt := h entry List.mem_cons_self
    rw [insert, if_neg (String.lt_asymm hlt), if_neg (Ne.symm (String.ne_of_lt hlt)),
      ih fun e he => h e (List.mem_cons_of_mem _ he)]
    rfl

theorem foldl_insert_of_sorted {entries base : List (String × α)} (h : Sorted (base ++ entries)) :
    entries.foldl (fun acc (k, value) => insert k value acc) base = base ++ entries := by
  induction entries generalizing base with
  | nil => exact (List.append_nil base).symm
  | cons entry entries ih =>
    obtain ⟨key, value⟩ := entry
    have hlt : ∀ entry ∈ base, entry.1 < key := by
      unfold Sorted at h
      rw [List.map_append, List.pairwise_append] at h
      exact fun entry hentry => h.2.2 _ (List.mem_map_of_mem hentry) _ List.mem_cons_self
    rw [List.foldl_cons]
    dsimp only
    rw [insert_of_forall_lt hlt, ih (by rwa [List.append_assoc]), List.append_assoc]
    rfl

theorem sorted_nil : Sorted ([] : List (String × α)) := List.Pairwise.nil

theorem mem_insert {key : String} {value : α} {entry : String × α} {entries : List (String × α)}
    (h : entry ∈ insert key value entries) : entry = (key, value) ∨ entry ∈ entries := by
  induction entries with
  | nil => exact Or.inl (List.mem_singleton.mp h)
  | cons first entries ih =>
    obtain ⟨k, v⟩ := first
    rw [insert] at h
    split at h
    · exact List.mem_cons.mp h
    · split at h
      · exact (List.mem_cons.mp h).imp_right (List.mem_cons_of_mem _)
      · rcases List.mem_cons.mp h with h | h
        · exact Or.inr (h ▸ List.mem_cons_self)
        · exact (ih h).imp_right (List.mem_cons_of_mem _)

theorem sorted_cons {entry : String × α} {entries : List (String × α)} :
    Sorted (entry :: entries) ↔ (∀ e ∈ entries, entry.1 < e.1) ∧ Sorted entries := by
  unfold Sorted
  rw [List.map_cons, List.pairwise_cons, List.forall_mem_map]

theorem Sorted.insert {entries : List (String × α)} (h : Sorted entries) (key : String) (value : α) :
    Sorted (Keyed.insert key value entries) := by
  induction entries with
  | nil => exact sorted_cons.mpr ⟨List.forall_mem_nil _, sorted_nil⟩
  | cons first entries ih =>
    obtain ⟨k, v⟩ := first
    obtain ⟨hfirst, hrest⟩ := sorted_cons.mp h
    rw [Keyed.insert]
    split
    · rename_i hlt
      refine sorted_cons.mpr ⟨List.forall_mem_cons.mpr ⟨hlt, fun e he => ?_⟩, h⟩
      exact String.lt_trans hlt (hfirst e he)
    · rename_i hnlt
      split
      · rename_i heq
        subst heq
        exact sorted_cons.mpr ⟨hfirst, hrest⟩
      · rename_i hne
        refine sorted_cons.mpr ⟨fun e he => ?_, ih hrest⟩
        rcases mem_insert he with rfl | he
        · exact Std.lt_of_le_of_ne (String.not_lt.mp hnlt) (Ne.symm hne)
        · exact hfirst e he

theorem sorted_ofList (entries : List (String × α)) : Sorted (ofList entries) := by
  have hfold : ∀ base, Sorted base → Sorted (entries.foldl (fun acc (k, value) => Keyed.insert k value acc) base) := by
    induction entries with
    | nil => exact fun _ h => h
    | cons entry entries ih => exact fun base h => ih _ (h.insert entry.1 entry.2)
  exact hfold [] sorted_nil

theorem mem_foldl_insert {entry : String × α} {entries base : List (String × α)}
    (h : entry ∈ entries.foldl (fun acc (k, value) => Keyed.insert k value acc) base) :
    entry ∈ base ∨ entry ∈ entries := by
  induction entries generalizing base with
  | nil => exact Or.inl h
  | cons first entries ih =>
    rcases ih h with hmem | hmem
    · rcases mem_insert hmem with rfl | hmem
      · exact Or.inr List.mem_cons_self
      · exact Or.inl hmem
    · exact Or.inr (List.mem_cons_of_mem first hmem)

theorem mem_ofList {entry : String × α} {entries : List (String × α)} (h : entry ∈ ofList entries) : entry ∈ entries :=
  (mem_foldl_insert h).resolve_left List.not_mem_nil

theorem ofList_of_sorted {entries : List (String × α)} (h : Sorted entries) : ofList entries = entries := by
  have hbase : Sorted ([] ++ entries) := h
  exact foldl_insert_of_sorted hbase

end Overseer.Keyed
