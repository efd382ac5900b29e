import Mathlib
import Overseer.Document.Decode
import Overseer.Proofs.Keyed

/-! # What is read of documents

What a reader reads has some property, whatever the document; or the document has to be of some class, and then so have
its parts (`Closed`), since a reader goes on to them. Both are one statement over a class of documents, `Reads`, with
`Any` for the class of all of them. Each way of reading a field, a value that may be null or a table hands the property
on from the values to what is made of them.
-/

namespace Overseer.Document

variable {α : Type} {D : Document → Prop} {read : Document → Option α} {P : α → Prop} {r : Record} {name : String}

/-- Everything that is read of a document of the class has the property. -/
def Reads (D : Document → Prop) (read : Document → Option α) (P : α → Prop) : Prop :=
  ∀ d, D d → ∀ x, read d = some x → P x

def Any (_ : Document) : Prop := True

/-- The fields of the record are of the class. -/
def Record.Within (r : Record) (D : Document → Prop) : Prop := ∀ name d, r.get? name = some d → D d

/-- With a document its parts are of the class. -/
structure Closed (D : Document → Prop) : Prop where
  items : ∀ {exact : Bool} {items : List Document}, D (.array exact items) → ∀ d ∈ items, D d
  members : ∀ {members : List (Option String × Document)}, D (.object members) → ∀ member ∈ members, D member.2

theorem within_any (r : Record) : r.Within Any := fun _ _ _ => trivial

theorem closed_any : Closed Any := ⟨fun _ _ _ => trivial, fun _ _ _ => trivial⟩

theorem reads_any (read : Document → Option α) : Reads D read fun _ => True := fun _ _ _ _ => trivial

theorem Closed.record? (hD : Closed D) {d : Document} (hd : D d) {names : List String}
    (h : Document.record? names d = some r) : r.Within D := by
  intro name value hget
  have hmem := Keyed.mem_of_lookup hget
  cases d with
  | null | bool b | number n | string s | unreadable => cases h
  | array exact items =>
    rw [Document.record?] at h
    split at h
    · cases h
    · obtain rfl := Option.some.inj h
      exact hD.items hd value (List.of_mem_zip hmem).2
  | object members =>
    rw [Document.record?] at h
    split at h
    · obtain rfl := Option.some.inj h
      obtain ⟨field, -, hfield⟩ := List.mem_filterMap.mp hmem
      obtain ⟨found, hfound, heq⟩ := Option.map_eq_some_iff.mp hfield
      obtain ⟨-, rfl⟩ := Prod.mk.inj heq
      obtain ⟨member, hmember, rfl⟩ := List.mem_map.mp (List.mem_of_mem_head? hfound)
      exact hD.members hd member (List.mem_of_mem_filter hmember)
    · cases h

namespace Reads

/-- A field has what its default has and everything that is read. -/
theorem withDefault (hread : Reads D read P) (hr : r.Within D) {default x : α}
    (h : r.withDefault name default read = some x) (hdefault : P default) : P x := by
  unfold Record.withDefault at h
  split at h
  · exact Option.some.inj h ▸ hdefault
  · rename_i d hget
    exact hread d (hr name d hget) x h

theorem nullable (hread : Reads D read P) : Reads D (nullable? read) fun found => ∀ x ∈ found, P x := by
  intro d hd found h x hx
  obtain rfl := Option.mem_def.mp hx
  unfold nullable? at h
  split at h
  · cases h
  · obtain ⟨y, hy, heq⟩ := Option.map_eq_some_iff.mp h
    exact Option.some.inj heq ▸ hread d hd y hy

theorem optional (hread : Reads D read P) (hr : r.Within D) {found : Option α}
    (h : r.optional name read = some found) : ∀ x ∈ found, P x := by
  unfold Record.optional at h
  split at h
  · split at h
    · cases h
    · obtain rfl := Option.some.inj h
      exact nofun
  · rename_i d hget
    exact hread.nullable d (hr name d hget) found h

end Reads

/-! ## Tables -/

theorem exists_of_mem_mapM {β : Type} {read : β → Option α} {xs : List β} {ys : List α} (h : xs.mapM read = some ys) :
    ∀ y ∈ ys, ∃ x ∈ xs, read x = some y := by
  induction xs generalizing ys with
  | nil =>
    obtain rfl := Option.some.inj h
    exact List.forall_mem_nil _
  | cons x xs ih =>
    rw [List.mapM_cons] at h
    obtain ⟨first, hfirst, hrest⟩ := Option.bind_eq_some_iff.mp h
    obtain ⟨rest, hread, hys⟩ := Option.bind_eq_some_iff.mp hrest
    obtain rfl := Option.some.inj hys
    refine List.forall_mem_cons.mpr ⟨⟨x, List.mem_cons_self, hfirst⟩, ?_⟩
    intro y hy
    obtain ⟨z, hz, hzy⟩ := ih hread y hy
    exact ⟨z, List.mem_cons_of_mem x hz, hzy⟩

/-- The keys of a table are in order, and its values are what is read of the members. -/
theorem Reads.dictionary (hread : Reads D read P) (hD : Closed D) :
    Reads D (dictionary? read) fun entries => Keyed.Sorted entries ∧ ∀ entry ∈ entries, P entry.2 := by
  intro d hd entries h
  unfold dictionary? at h
  split at h
  · rename_i members
    obtain ⟨read, hmembers, rfl⟩ := Option.map_eq_some_iff.mp h
    refine ⟨Keyed.sorted_ofList read, fun entry hentry => ?_⟩
    obtain ⟨member, hmember, hmem⟩ := exists_of_mem_mapM hmembers entry (Keyed.mem_ofList hentry)
    unfold member? at hmem
    split at hmem
    · rename_i key value hkey hvalue
      obtain rfl := Option.some.inj hmem
      exact hread member.2 (hD.members hd member hmember) value hvalue
    · cases hmem
  · cases h

/-! ## Numbers -/

theorem reads_natUpTo (greatest : ℕ) : Reads D (natUpTo? greatest) (· ≤ greatest) := by
  intro d _ n h
  unfold natUpTo? at h
  split at h
  · split at h
    · rename_i hbounds
      obtain rfl := Option.some.inj h
      omega
    · cases h
  · cases h

theorem reads_word32 : Reads D word32? (· < 2 ^ 32) := fun d hd n h =>
  Nat.lt_of_le_pred (by decide) (reads_natUpTo _ d hd n h)

theorem reads_word64 : Reads D word64? (· < 2 ^ 64) := fun d hd n h =>
  Nat.lt_of_le_pred (by decide) (reads_natUpTo _ d hd n h)

end Overseer.Document
