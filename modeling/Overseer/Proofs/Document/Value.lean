import Overseer.Proofs.Decimal.Whole
import Overseer.Proofs.Document.Decode
import Overseer.Proofs.Document.Reads
import Overseer.Proofs.Json.Lexer

/-! # JSON values as documents

A JSON value is kept by a document and comes back from it, since the keys of its objects are in order (`Json.Ordered`),
and whatever comes back from a document has its keys in order. The numbers of a value are finite, and so is every double
that is read of it.

* `toJson?_ofJson`, `ordered_of_toJson?`: values and documents.
* `recordOf`: the record that is read of an object that has been written, field by field.
* `closed_finiteJson`: a finite value has finite parts, and a reader finds nothing else in it.
-/

namespace Overseer

/-! ## Values with their keys in order -/

namespace Json

mutual

/-- The keys of every object in the value are in order. -/
def Ordered : Json → Prop
  | .array items => OrderedItems items
  | .obj fields => Keyed.Sorted fields ∧ OrderedFields fields
  | _ => True

def OrderedItems : List Json → Prop
  | [] => True
  | item :: rest => item.Ordered ∧ OrderedItems rest

def OrderedFields : List (String × Json) → Prop
  | [] => True
  | (_, value) :: rest => value.Ordered ∧ OrderedFields rest

end

theorem orderedFields_iff {fields : List (String × Json)} : OrderedFields fields ↔ ∀ field ∈ fields, field.2.Ordered := by
  induction fields with
  | nil => exact iff_of_true trivial (List.forall_mem_nil _)
  | cons field fields ih =>
    rw [List.forall_mem_cons, ← ih]
    rfl

theorem FiniteItems.of_mem {items : List Json} (h : FiniteItems items) : ∀ item ∈ items, item.Finite := by
  induction items with
  | nil => exact nofun
  | cons first items ih => exact List.forall_mem_cons.mpr ⟨h.1, ih h.2⟩

end Json

namespace Document

mutual

theorem toJson?_ofJson (v : Json) (h : v.Ordered) : (ofJson v).toJson? = some v := by
  cases v with
  | null | bool b | number n | string s => rfl
  | array items =>
    rw [ofJson, toJson?, itemsToJson?_ofItems items h]
    rfl
  | obj fields =>
    rw [ofJson, toJson?, membersToJson?_ofFields fields h.2, Option.map_some, Json.object, Keyed.ofList_of_sorted h.1]

theorem itemsToJson?_ofItems (items : List Json) (h : Json.OrderedItems items) :
    itemsToJson? (ofItems items) = some items := by
  cases items with
  | nil => rfl
  | cons item items => rw [ofItems, itemsToJson?, toJson?_ofJson item h.1, itemsToJson?_ofItems items h.2]

theorem membersToJson?_ofFields (fields : List (String × Json)) (h : Json.OrderedFields fields) :
    membersToJson? (ofFields fields) = some fields := by
  cases fields with
  | nil => rfl
  | cons field fields =>
    obtain ⟨key, value⟩ := field
    rw [ofFields]
    unfold membersToJson?
    rw [toJson?_ofJson value h.1, membersToJson?_ofFields fields h.2]

end

mutual

/-- Objects are put together by insertions, whatever the order of their members was. -/
theorem ordered_of_toJson? (d : Document) {v : Json} (h : d.toJson? = some v) : v.Ordered := by
  cases d with
  | null | bool b | number n | string s =>
    obtain rfl := Option.some.inj h
    trivial
  | array exact items =>
    obtain ⟨values, hvalues, rfl⟩ := Option.map_eq_some_iff.mp h
    exact ordered_of_itemsToJson? items hvalues
  | object members =>
    obtain ⟨fields, hfields, rfl⟩ := Option.map_eq_some_iff.mp h
    refine ⟨Keyed.sorted_ofList fields, Json.orderedFields_iff.mpr ?_⟩
    intro field hmem
    exact Json.orderedFields_iff.mp (ordered_of_membersToJson? members hfields) field (Keyed.mem_ofList hmem)
  | unreadable => cases h

theorem ordered_of_itemsToJson? (items : List Document) {values : List Json} (h : itemsToJson? items = some values) :
    Json.OrderedItems values := by
  cases items with
  | nil =>
    obtain rfl := Option.some.inj h
    trivial
  | cons item items =>
    rw [itemsToJson?] at h
    split at h
    · rename_i hitem hitems
      obtain rfl := Option.some.inj h
      exact ⟨ordered_of_toJson? item hitem, ordered_of_itemsToJson? items hitems⟩
    · cases h

theorem ordered_of_membersToJson? (members : List (Option String × Document)) {fields : List (String × Json)}
    (h : membersToJson? members = some fields) : Json.OrderedFields fields := by
  cases members with
  | nil =>
    obtain rfl := Option.some.inj h
    trivial
  | cons member members =>
    obtain ⟨key, document⟩ := member
    unfold membersToJson? at h
    split at h
    · rename_i hvalue hmembers
      obtain rfl := Option.some.inj h
      exact ⟨ordered_of_toJson? document hvalue, ordered_of_membersToJson? members hmembers⟩
    · cases h

end

/-! ## Records that have been written -/

section Written

variable {α : Type} {names : List String} {name : String} {fields : List (String × Json)} {v : Json}
  {read : Document → Option α} {x : α}

/-- The record that is read of an object with these fields. -/
def recordOf (names : List String) (fields : List (String × Json)) : Record :=
  fieldsOf names (entriesOf ofJson (Keyed.ofList fields))

theorem record?_object (names : List String) (fields : List (String × Json)) :
    record? names (ofJson (.object fields)) = some (recordOf names fields) := by
  have hkeys : ((entriesOf ofJson (Keyed.ofList fields)).map (·.1)).Nodup := by
    rw [keys_entriesOf]
    exact (Keyed.sorted_ofList fields).nodup
  rw [Json.object, ofJson_obj, record?_table hkeys]
  rfl

theorem get?_recordOf (h : name ∈ names) (hkeys : (fields.map (·.1)).Nodup) :
    (recordOf names fields).get? name = (Keyed.lookup name fields).map ofJson := by
  rw [recordOf, get?_fieldsOf h, lookup_entriesOf, Keyed.lookup_ofList hkeys]

theorem get?_recordOf_of_lookup (h : name ∈ names) (hkeys : (fields.map (·.1)).Nodup)
    (hvalue : Keyed.lookup name fields = some v) : (recordOf names fields).get? name = some (ofJson v) := by
  rw [get?_recordOf h hkeys, hvalue]
  rfl

theorem required_recordOf (h : name ∈ names) (hkeys : (fields.map (·.1)).Nodup)
    (hvalue : Keyed.lookup name fields = some v) (hread : read (ofJson v) = some x) :
    (recordOf names fields).required name read = some x :=
  (Record.required_of_get? (get?_recordOf_of_lookup h hkeys hvalue)).trans hread

theorem withDefault_recordOf (h : name ∈ names) (hkeys : (fields.map (·.1)).Nodup)
    (hvalue : Keyed.lookup name fields = some v) (hread : read (ofJson v) = some x) (default : α) :
    (recordOf names fields).withDefault name default read = some x :=
  (Record.withDefault_of_get? (get?_recordOf_of_lookup h hkeys hvalue) default).trans hread

/-- A field that is null when it has no value. -/
theorem optional_recordOf {found : Option α} (h : name ∈ names) (hkeys : (fields.map (·.1)).Nodup)
    (hvalue : Keyed.lookup name fields = some v) (hread : nullable? read (ofJson v) = some found) :
    (recordOf names fields).optional name read = some found :=
  (Record.optional_of_get? (get?_recordOf_of_lookup h hkeys hvalue)).trans hread

/-- A field that is left out when it has no value. -/
theorem withDefault_recordOf_map {write : α → Json} {found : Option α} (h : name ∈ names)
    (hkeys : (fields.map (·.1)).Nodup) (hvalue : Keyed.lookup name fields = found.map write)
    (hread : ∀ x ∈ found, nullable? read (ofJson (write x)) = some (some x)) :
    (recordOf names fields).withDefault name none (nullable? read) = some found := by
  cases found with
  | none =>
    refine Record.withDefault_of_none ?_ none
    rw [get?_recordOf h hkeys, hvalue]
    rfl
  | some x => exact withDefault_recordOf h hkeys hvalue (hread x rfl) none

end Written

/-! ## What is read of values -/

/-- The JSON values, seen as documents, all of whose numbers are finite. -/
def FiniteJson (d : Document) : Prop := ∃ v : Json, v.Finite ∧ d = ofJson v

theorem ofItems_eq_map (items : List Json) : ofItems items = items.map ofJson := by
  induction items with
  | nil => rfl
  | cons item items ih => rw [ofItems, ih, List.map_cons]

theorem closed_finiteJson : Closed FiniteJson where
  items := by
    rintro exact items ⟨v, hv, hd⟩ d hmem
    cases v with
    | array values =>
      obtain ⟨-, rfl⟩ := Document.array.inj hd
      rw [ofItems_eq_map] at hmem
      obtain ⟨value, hvalue, rfl⟩ := List.mem_map.mp hmem
      exact ⟨value, Json.FiniteItems.of_mem hv value hvalue, rfl⟩
    | null | bool b | number n | string s | obj fields => cases hd
  members := by
    rintro members ⟨v, hv, hd⟩ member hmem
    cases v with
    | obj fields =>
      rw [ofJson_obj, table, entriesOf, List.map_map] at hd
      obtain rfl := Document.object.inj hd
      obtain ⟨field, hfield, rfl⟩ := List.mem_map.mp hmem
      exact ⟨field.2, Json.FiniteFields.of_mem hv field hfield, rfl⟩
    | null | bool b | number n | string s | array items => cases hd

/-- Every double that is read of a JSON value is finite. -/
theorem reads_float : Reads FiniteJson float? fun x => x.isFinite = true := by
  rintro _ ⟨v, hv, rfl⟩ x h
  cases v with
  | number n =>
    cases n with
    | float y => exact Option.some.inj h ▸ hv
    | int n =>
      rw [ofJson, float?] at h
      split at h
      · rename_i hrange
        obtain rfl := Option.some.inj h
        have hbounds : -((2 ^ 63 : ℕ) : Int) ≤ n ∧ n < ((2 ^ 64 : ℕ) : Int) := hrange
        apply Decimal.isFinite_floatOfInt
        omega
      · cases h
  | null | bool b | string s | array items | obj fields => cases h

end Document

end Overseer
