import Mathlib
import Overseer.Document.Decode
import Overseer.Proofs.Keyed

/-! # What a record finds in a table

A table with distinct keys is a record of whatever fields are asked of it, and each of them is what is found under its
name; so is a JSON object, whatever its values are seen as. Values come back through the readers of their types: numbers
up to the bound of a reader, doubles, strings, lists, and tables whose keys are in order.
-/

namespace Overseer.Document

/-- A table with all its keys read. -/
def table (entries : List (String × Document)) : Document :=
  .object (entries.map fun entry => (some entry.1, entry.2))

theorem valuesOf_table (name : String) (entries : List (String × Document)) :
    valuesOf name (entries.map fun entry => (some entry.1, entry.2)) =
      (entries.filter fun entry => entry.1 == name).map (·.2) := by
  unfold valuesOf
  rw [List.filter_map, List.map_map]
  rfl

theorem head?_valuesOf (name : String) (entries : List (String × Document)) :
    (valuesOf name (entries.map fun entry => (some entry.1, entry.2))).head? = Keyed.lookup name entries := by
  rw [valuesOf_table, List.head?_map, List.head?_filter]
  rfl

theorem length_valuesOf (name : String) (entries : List (String × Document)) :
    (valuesOf name (entries.map fun entry => (some entry.1, entry.2))).length = (entries.map (·.1)).count name := by
  rw [valuesOf_table, List.length_map, List.count_eq_length_filter, List.filter_map, List.length_map]
  rfl

/-- The fields of a record that a table is read as. -/
def fieldsOf (names : List String) (entries : List (String × Document)) : Record :=
  ⟨false, names.filterMap fun name => (Keyed.lookup name entries).map fun value => (name, value)⟩

/-- A table is a record of fields none of which it has twice. -/
theorem record?_table_eq_some_iff {names : List String} {entries : List (String × Document)} {r : Record} :
    record? names (table entries) = some r ↔
      (∀ name ∈ names, (entries.map (·.1)).count name ≤ 1) ∧ r = fieldsOf names entries := by
  have hkeys : (entries.map fun entry => (some entry.1, entry.2)).all (fun m => m.1.isSome) = true := by
    rw [List.all_map]
    exact List.all_eq_true.mpr fun _ _ => rfl
  change (if _ then _ else none) = some r ↔ _
  simp only [hkeys, Bool.true_and, List.all_eq_true, decide_eq_true_iff, length_valuesOf, head?_valuesOf]
  split
  · rename_i honce
    exact ⟨fun h => ⟨honce, (Option.some.inj h).symm⟩, fun h => congrArg some h.2.symm⟩
  · rename_i honce
    exact iff_of_false (fun h => nomatch h) (fun h => honce h.1)

theorem record?_table {entries : List (String × Document)} (h : (entries.map (·.1)).Nodup) (names : List String) :
    record? names (table entries) = some (fieldsOf names entries) :=
  record?_table_eq_some_iff.mpr ⟨fun name _ => List.nodup_iff_count_le_one.mp h name, rfl⟩

theorem lookup_filterMap (name : String) (names : List String) (entries : List (String × Document)) :
    Keyed.lookup name (names.filterMap fun name => (Keyed.lookup name entries).map fun value => (name, value)) =
      if name ∈ names then Keyed.lookup name entries else none := by
  induction names with
  | nil => rfl
  | cons first names ih =>
    by_cases hfirst : first = name
    · subst hfirst
      rw [if_pos List.mem_cons_self]
      cases hlookup : Keyed.lookup first entries with
      | some value =>
        rw [List.filterMap_cons_some (by rw [hlookup]; rfl), Keyed.lookup_cons, if_pos rfl]
      | none =>
        rw [List.filterMap_cons_none (by rw [hlookup]; rfl), ih, hlookup, ite_self]
    · have hmem : name ∈ first :: names ↔ name ∈ names :=
        ⟨fun h => (List.mem_cons.mp h).resolve_left (Ne.symm hfirst), List.mem_cons_of_mem first⟩
      simp only [hmem]
      cases hlookup : Keyed.lookup first entries with
      | some value =>
        rw [List.filterMap_cons_some (by rw [hlookup]; rfl), Keyed.lookup_cons, if_neg hfirst, ih]
      | none => rw [List.filterMap_cons_none (by rw [hlookup]; rfl), ih]

theorem get?_fieldsOf {names : List String} {name : String} (h : name ∈ names)
    (entries : List (String × Document)) : (fieldsOf names entries).get? name = Keyed.lookup name entries :=
  (lookup_filterMap name names entries).trans (if_pos h)

/-! ## Fields of records -/

namespace Record

variable {α : Type} {r : Record} {name : String} {value : Document} {read : Document → Option α}

theorem required_of_get? (h : r.get? name = some value) : r.required name read = read value := by
  rw [required, h, Option.bind_some]

theorem withDefault_of_get? (h : r.get? name = some value) (default : α) :
    r.withDefault name default read = read value := by
  rw [withDefault, h]

theorem withDefault_of_none (h : r.get? name = none) (default : α) :
    r.withDefault name default read = some default := by
  rw [withDefault, h]

theorem optional_of_get? (h : r.get? name = some value) : r.optional name read = nullable? read value := by
  rw [optional, h]

end Record

section Fields

variable {α : Type} {names : List String} {name : String} {entries : List (String × Document)}

/-- What is done with the record that a table is read as. -/
theorem record?_table_bind {β : Type} (h : (entries.map (·.1)).Nodup) (next : Record → Option β) :
    (record? names (table entries) >>= next) = next (fieldsOf names entries) := by
  rw [record?_table h]
  rfl

/-- What is done with a field that is in the table. -/
theorem withDefault_bind {β : Type} {value : Document} {read : Document → Option α} {x default : α}
    {next : α → Option β} (h : name ∈ names) (hvalue : Keyed.lookup name entries = some value)
    (hread : read value = some x) : ((fieldsOf names entries).withDefault name default read >>= next) = next x := by
  rw [Record.withDefault_of_get? ((get?_fieldsOf h entries).trans hvalue), hread]
  rfl

/-- What is done with the default of a field that is not in the table. -/
theorem withDefault_bind_of_none {β : Type} {read : Document → Option α} {default : α} {next : α → Option β}
    (h : name ∈ names) (hvalue : Keyed.lookup name entries = none) :
    ((fieldsOf names entries).withDefault name default read >>= next) = next default := by
  rw [Record.withDefault_of_none ((get?_fieldsOf h entries).trans hvalue)]
  rfl

end Fields

/-! ## Objects -/

/-- The fields of an object, each value as it is seen. -/
def entriesOf (see : Json → Document) (fields : List (String × Json)) : List (String × Document) :=
  fields.map fun field => (field.1, see field.2)

theorem keys_entriesOf (see : Json → Document) (fields : List (String × Json)) :
    (entriesOf see fields).map (·.1) = fields.map (·.1) := by
  rw [entriesOf, List.map_map]
  rfl

theorem lookup_entriesOf (see : Json → Document) (key : String) (fields : List (String × Json)) :
    Keyed.lookup key (entriesOf see fields) = (Keyed.lookup key fields).map see := by
  unfold Keyed.lookup entriesOf
  rw [List.find?_map, Option.map_map, Option.map_map]
  rfl

theorem ofJson_obj (fields : List (String × Json)) : ofJson (.obj fields) = table (entriesOf ofJson fields) := by
  rw [ofJson, table, entriesOf, List.map_map]
  congr 1
  induction fields with
  | nil => rfl
  | cons field fields ih => exact congrArg ((some field.1, ofJson field.2) :: ·) ih

/-! ## Values -/

theorem natUpTo?_nat {n greatest : ℕ} (h : n ≤ greatest) : natUpTo? greatest (.number (.int n)) = some n := by
  unfold natUpTo?
  dsimp only
  rw [if_pos ⟨Int.natCast_nonneg n, Int.ofNat_le.mpr h⟩, Int.toNat_natCast]

theorem word32?_nat {n : ℕ} (h : n < 2 ^ 32) : word32? (.number (.int n)) = some n :=
  natUpTo?_nat (Nat.le_sub_one_of_lt h)

theorem word64?_nat {n : ℕ} (h : n < 2 ^ 64) : word64? (.number (.int n)) = some n :=
  natUpTo?_nat (Nat.le_sub_one_of_lt h)

section Items

variable {α β : Type}

theorem mapM_map {read : β → Option α} {write : α → β} {xs : List α} (h : ∀ x ∈ xs, read (write x) = some x) :
    (xs.map write).mapM read = some xs := by
  induction xs with
  | nil => rfl
  | cons x xs ih =>
    rw [List.map_cons, List.mapM_cons, h x List.mem_cons_self, ih fun y hy => h y (List.mem_cons_of_mem _ hy)]
    rfl

variable {read : Document → Option α} {write : α → Document}

/-- Keys in order are what makes the table come back as it was. -/
theorem dictionary?_table {entries : List (String × α)} (hsorted : Keyed.Sorted entries)
    (h : ∀ entry ∈ entries, read (write entry.2) = some entry.2) :
    dictionary? read (table (entries.map fun entry => (entry.1, write entry.2))) = some entries := by
  have hmembers : ((entries.map fun entry => (entry.1, write entry.2)).map fun entry => (some entry.1, entry.2)).mapM
      (member? read) = some entries := by
    rw [List.map_map]
    refine mapM_map fun entry hentry => ?_
    unfold member?
    dsimp only [Function.comp_apply]
    rw [h entry hentry]
  change (List.mapM (member? read) _).map Keyed.ofList = _
  rw [hmembers, Option.map_some, Keyed.ofList_of_sorted hsorted]

end Items

end Overseer.Document
