import Mathlib
import Overseer.Proofs.Document.Decode
import Overseer.Proofs.Toml.Reader

/-! # Tables are built as they are read

A header makes a table at the end of the one it belongs to, and each entry goes to the end of that table. As nothing
that is there before has the same key, the tables come out in the order of the file with all their entries. A `Block`
is a table of the root together with the table in it, and a file of blocks is read as the document that they stand for.
-/

namespace Overseer.Toml

def keys (members : Members) : List String := members.map (·.1)

/-- Entries as members of a table. -/
def values (entries : List (String × Document)) : Members := entries.map fun entry => (entry.1, .value entry.2)

section Last

variable {key : String} {node : Node} {members : Members}

theorem find_of_notMem (h : key ∉ keys members) : find key members = none := by
  unfold find
  rw [Option.map_eq_none_iff, List.find?_eq_none]
  intro entry hentry heq
  exact h (List.mem_map.mpr ⟨entry, hentry, beq_iff_eq.mp heq⟩)

theorem find_concat (h : key ∉ keys members) : find key (members ++ [(key, node)]) = some node := by
  have hnone := find_of_notMem h
  unfold find at hnone ⊢
  rw [Option.map_eq_none_iff] at hnone
  rw [List.find?_append, hnone, Option.none_or, List.find?_singleton, if_pos (beq_self_eq_true key)]
  rfl

theorem replace_concat (h : key ∉ keys members) (other : Node) :
    replace key other (members ++ [(key, node)]) = members ++ [(key, other)] := by
  have hfront : replace key other members = members := by
    refine (List.map_congr_left fun entry hentry => ?_).trans (List.map_id members)
    exact if_neg fun heq => h (List.mem_map.mpr ⟨entry, hentry, heq⟩)
  unfold replace at hfront ⊢
  rw [List.map_append, hfront, List.map_singleton, if_pos rfl]

theorem define_of_notMem (h : key ∉ keys members) (value : Document) :
    define value [key] members = some (members ++ [(key, .value value)]) := by
  rw [define, find_of_notMem h]

end Last

/-! ## One table -/

/-- A table in its place: what goes on with the table goes on with the whole as `place` says. -/
def Focus (path : List String) (place : Members → Members) : Prop :=
  ∀ change members, within change path (place members) = (change members).map place

theorem foldlM_entries {path : List String} {place : Members → Members} (hfocus : Focus path place)
    {entries : List (String × Document)} {members : Members} (hkeys : (keys members ++ entries.map (·.1)).Nodup) :
    (entries.map fun entry => Statement.entry [entry.1] entry.2).foldlM Building.add ⟨place members, path⟩ =
      some ⟨place (members ++ values entries), path⟩ := by
  induction entries generalizing members with
  | nil => exact congrArg (fun members => some (Building.mk (place members) path)) (List.append_nil members).symm
  | cons entry entries ih =>
    have hnew : entry.1 ∉ keys members := fun hmem =>
      (List.nodup_append.mp hkeys).2.2 _ hmem _ List.mem_cons_self rfl
    have hadd : Building.add ⟨place members, path⟩ (.entry [entry.1] entry.2) =
        some ⟨place (members ++ [(entry.1, .value entry.2)]), path⟩ := by
      change (within (define entry.2 [entry.1]) path (place members)).map _ = _
      rw [hfocus, define_of_notMem hnew]
      rfl
    rw [List.map_cons, List.foldlM_cons, hadd]
    refine (ih ?_).trans ?_
    · unfold keys at hkeys ⊢
      rw [List.map_append, List.append_assoc]
      exact hkeys
    · rw [List.append_assoc]
      rfl

/-- The statements of a table whose header makes it. -/
theorem foldlM_section {t : Section} {root : Members} {place : Members → Members}
    (hopen : openAt openTable t.path root = some (place [])) (hfocus : Focus t.path place)
    (hkeys : (t.entries.map (·.1)).Nodup) (current : List String) :
    t.statements.foldlM Building.add ⟨root, current⟩ = some ⟨place (values t.entries), t.path⟩ := by
  have hadd : Building.add ⟨root, current⟩ (.table t.path) = some ⟨place [], t.path⟩ := by
    change (openAt openTable t.path root).map _ = _
    rw [hopen]
    rfl
  unfold Section.statements
  rw [List.foldlM_cons, hadd]
  exact foldlM_entries hfocus hkeys

/-! ## Tables after others -/

/-- A table at the end of the root. -/
def lastTable (front : Members) (key : String) (members : Members) : Members :=
  front ++ [(key, .table .header members)]

/-- A table at the end of the last one. -/
def lastInner (front : Members) (key : String) (outer : Members) (inner : String) (members : Members) : Members :=
  lastTable front key (lastTable outer inner members)

section Places

variable {front outer : Members} {key inner : String}

theorem focus_lastTable (h : key ∉ keys front) : Focus [key] (lastTable front key) := by
  intro change members
  unfold within lastTable
  rw [find_concat h]
  dsimp only
  unfold within
  cases change members with
  | none => rfl
  | some members => exact congrArg some (replace_concat h _)

theorem focus_lastInner (h : key ∉ keys front) (hinner : inner ∉ keys outer) :
    Focus [key, inner] (lastInner front key outer inner) := by
  intro change members
  have hsub := focus_lastTable hinner change members
  unfold within lastInner lastTable
  rw [find_concat h]
  dsimp only
  change (within change [inner] (lastTable outer inner members)).map _ = _
  rw [hsub]
  cases change members with
  | none => rfl
  | some members => exact congrArg some (replace_concat h _)

theorem foldlM_lastTable (h : key ∉ keys front) {entries : List (String × Document)}
    (hkeys : (entries.map (·.1)).Nodup) (current : List String) :
    (Section.statements ⟨[key], entries⟩).foldlM Building.add ⟨front, current⟩ =
      some ⟨lastTable front key (values entries), [key]⟩ := by
  refine foldlM_section (t := ⟨[key], entries⟩) ?_ (focus_lastTable h) hkeys current
  rw [openAt, openTable, find_of_notMem h]
  rfl

theorem foldlM_lastInner (h : key ∉ keys front) (hinner : inner ∉ keys outer) {entries : List (String × Document)}
    (hkeys : (entries.map (·.1)).Nodup) (current : List String) :
    (Section.statements ⟨[key, inner], entries⟩).foldlM Building.add ⟨lastTable front key outer, current⟩ =
      some ⟨lastInner front key outer inner (values entries), [key, inner]⟩ := by
  refine foldlM_section (t := ⟨[key, inner], entries⟩) ?_ (focus_lastInner h hinner) hkeys current
  unfold lastTable
  rw [openAt, find_concat h]
  dsimp only
  rw [openAt, openTable, find_of_notMem hinner]
  · exact congrArg some (replace_concat h _)
  · exact List.cons_ne_nil inner []

end Places

/-! ## Documents -/

theorem memberDocuments_append (members others : Members) :
    memberDocuments (members ++ others) = memberDocuments members ++ memberDocuments others := by
  induction members with
  | nil => rfl
  | cons member members ih =>
    obtain ⟨key, node⟩ := member
    rw [List.cons_append, memberDocuments, memberDocuments, ih]
    rfl

theorem memberDocuments_values (entries : List (String × Document)) :
    memberDocuments (values entries) = entries.map fun entry => (some entry.1, entry.2) := by
  induction entries with
  | nil => rfl
  | cons entry entries ih =>
    change (some entry.1, Node.document (.value entry.2)) :: memberDocuments (values entries) = _
    rw [ih]
    rfl

/-! ## Files -/

/-- A table of the root, with one table in it at most. -/
structure Block where
  key : String
  entries : List (String × Document)
  inner : Option (String × List (String × Document))

namespace Block

def sections (b : Block) : List Section :=
  ⟨[b.key], b.entries⟩ :: b.inner.toList.map fun (key, entries) => ⟨[b.key, key], entries⟩

def statements (b : Block) : List Statement := b.sections.flatMap Section.statements

def members (b : Block) : Members :=
  match b.inner with
  | none => values b.entries
  | some (key, entries) => lastTable (values b.entries) key (values entries)

/-- The entries of the table, of which the table in it is one. -/
def contents (b : Block) : List (String × Document) :=
  match b.inner with
  | none => b.entries
  | some (key, entries) => b.entries ++ [(key, .table entries)]

/-- No key is given twice. -/
structure Distinct (b : Block) : Prop where
  contents : (b.contents.map (·.1)).Nodup
  inner : ∀ t ∈ b.inner, (t.2.map (·.1)).Nodup

theorem Distinct.of_none {key : String} {entries : List (String × Document)} (h : (entries.map (·.1)).Nodup) :
    Distinct ⟨key, entries, none⟩ := ⟨h, fun _ ht => nomatch ht⟩

theorem Distinct.of_some {key inner : String} {entries innerEntries : List (String × Document)}
    (h : ((entries ++ [(inner, Document.table innerEntries)]).map (·.1)).Nodup)
    (hinner : (innerEntries.map (·.1)).Nodup) :
    Distinct ⟨key, entries, some (inner, innerEntries)⟩ :=
  ⟨h, fun _ ht => Option.some.inj ht ▸ hinner⟩

theorem memberDocuments_members (b : Block) :
    memberDocuments b.members = b.contents.map fun entry => (some entry.1, entry.2) := by
  obtain ⟨key, entries, inner⟩ := b
  cases inner with
  | none => exact memberDocuments_values entries
  | some t =>
    change memberDocuments (values entries ++ [(t.1, .table .header (values t.2))]) =
      (entries ++ [(t.1, Document.table t.2)]).map _
    rw [memberDocuments_append, memberDocuments_values, memberDocuments, Node.document, memberDocuments_values,
      List.map_append]
    rfl

end Block

theorem keys_values (entries : List (String × Document)) : keys (values entries) = entries.map (·.1) := by
  unfold keys values
  rw [List.map_map]
  rfl

theorem foldlM_block {b : Block} (hb : b.Distinct) {front : Members} (h : b.key ∉ keys front)
    (current : List String) :
    ∃ path, b.statements.foldlM Building.add ⟨front, current⟩ = some ⟨lastTable front b.key b.members, path⟩ := by
  obtain ⟨key, entries, inner⟩ := b
  have hcontents := hb.contents
  cases inner with
  | none =>
    refine ⟨[key], ?_⟩
    change (Section.statements ⟨[key], entries⟩ ++ []).foldlM Building.add ⟨front, current⟩ = _
    rw [List.append_nil]
    exact foldlM_lastTable h hcontents current
  | some t =>
    obtain ⟨inner, innerEntries⟩ := t
    change ((entries ++ [(inner, Document.table innerEntries)]).map (·.1)).Nodup at hcontents
    rw [List.map_append, List.nodup_append] at hcontents
    have hinner : inner ∉ keys (values entries) := by
      rw [keys_values]
      exact fun hmem => hcontents.2.2 _ hmem _ List.mem_cons_self rfl
    refine ⟨[key, inner], ?_⟩
    change (Section.statements ⟨[key], entries⟩ ++ (Section.statements ⟨[key, inner], innerEntries⟩ ++ [])).foldlM
      Building.add ⟨front, current⟩ = _
    rw [List.append_nil, List.foldlM_append, foldlM_lastTable h hcontents.1 current]
    exact foldlM_lastInner h hinner (hb.inner _ rfl) [key]

theorem foldlM_blocks {blocks : List Block} (hb : ∀ b ∈ blocks, b.Distinct) {front : Members}
    (h : (keys front ++ blocks.map Block.key).Nodup) (current : List String) :
    ∃ path, (blocks.flatMap Block.statements).foldlM Building.add ⟨front, current⟩ =
      some ⟨front ++ blocks.map fun b => (b.key, .table .header b.members), path⟩ := by
  induction blocks generalizing front current with
  | nil => exact ⟨current, congrArg (fun members => some (Building.mk members current)) (List.append_nil front).symm⟩
  | cons b blocks ih =>
    have hnew : b.key ∉ keys front := fun hmem =>
      (List.nodup_append.mp h).2.2 _ hmem _ List.mem_cons_self rfl
    obtain ⟨path, hfirst⟩ := foldlM_block (hb b List.mem_cons_self) hnew current
    have hrest : (keys (lastTable front b.key b.members) ++ blocks.map Block.key).Nodup := by
      unfold lastTable keys
      rw [List.map_append, List.append_assoc]
      exact h
    obtain ⟨last, hlast⟩ := ih (fun b hmem => hb b (List.mem_cons_of_mem _ hmem)) hrest path
    refine ⟨last, ?_⟩
    rw [List.flatMap_cons, List.foldlM_append, hfirst]
    refine hlast.trans ?_
    unfold lastTable
    rw [List.append_assoc]
    rfl

theorem build?_blocks {blocks : List Block} (hb : ∀ b ∈ blocks, b.Distinct) (h : (blocks.map Block.key).Nodup) :
    build? (blocks.flatMap Block.statements) =
      some (.table (blocks.map fun b => (b.key, .table b.contents))) := by
  have hroot : (keys [] ++ blocks.map Block.key).Nodup := h
  obtain ⟨path, hfold⟩ := foldlM_blocks hb hroot []
  have hdocuments : memberDocuments (blocks.map fun b => (b.key, .table .header b.members)) =
      (blocks.map fun b => (b.key, Document.table b.contents)).map fun entry => (some entry.1, entry.2) := by
    clear hb h hroot hfold
    induction blocks with
    | nil => rfl
    | cons b blocks ih =>
      rw [List.map_cons, memberDocuments, Node.document, b.memberDocuments_members, ih]
      rfl
  unfold build?
  rw [hfold, List.nil_append, Option.map_some, hdocuments]
  rfl

/-- A file of blocks is read as the tables that it was written from. -/
theorem document?_write_blocks {blocks : List Block} (hne : blocks ≠ []) (hb : ∀ b ∈ blocks, b.Distinct)
    (h : (blocks.map Block.key).Nodup) (hreadable : ∀ t ∈ blocks.flatMap Block.sections, t.Readable) :
    document? (write (blocks.flatMap Block.sections) ++ "\n") =
      some (.table (blocks.map fun b => (b.key, .table b.contents))) := by
  have hsections : blocks.flatMap Block.sections ≠ [] := by
    cases blocks with
    | nil => exact absurd rfl hne
    | cons b blocks => exact List.cons_ne_nil _ _
  rw [document?_write hsections hreadable, List.flatMap_assoc]
  exact build?_blocks hb h

end Overseer.Toml
