import Overseer.Healing.Diagnosis
import Overseer.Proofs.Document.Decode
import Overseer.Proofs.Json.Reader
import Overseer.Proofs.Text.Blank

/-! # A diagnosis is the same however it is wrapped

A table tells a diagnosis if it has a summary and if the other fields are texts, null or missing, each field at most once
(`Told`). So it matters only what the known fields say as texts or as null (`decode?_congr`), and that is the same whether the
object itself is looked at or what is read of its printed form (`ofJsonText?_compact`).
-/

namespace Overseer

namespace Document

/-- A field that is a text, null, or not there. -/
def Says : Option Document → Option String → Prop
  | found, some text => found = some (.string text)
  | found, none => found = none ∨ found = some .null

theorem string?_eq_some_iff {document : Document} {text : String} :
    document.string? = some text ↔ document = .string text := by
  cases document <;> simp [string?]

theorem nullableString?_eq_some_iff {document : Document} {text : Option String} :
    nullable? string? document = some text ↔ Says (some document) text := by
  cases document <;> cases text <;> simp [nullable?, string?, Says, eq_comm]

theorem required_eq_some_iff {r : Record} {name text : String} :
    r.required name string? = some text ↔ r.get? name = some (.string text) := by
  unfold Record.required
  cases r.get? name with
  | none => simp
  | some document => rw [Option.bind_some, string?_eq_some_iff, Option.some_inj]

theorem withDefault_eq_some_iff {r : Record} {name : String} {text : Option String} :
    r.withDefault name none (nullable? string?) = some text ↔ Says (r.get? name) text := by
  unfold Record.withDefault
  cases r.get? name with
  | none => cases text <;> simp [Says]
  | some document => exact nullableString?_eq_some_iff

/-- As texts and as null the documents say the same. -/
structure Agrees (document document' : Document) : Prop where
  string : ∀ text, document = .string text ↔ document' = .string text
  null : document = .null ↔ document' = .null

theorem Agrees.refl (document : Document) : Agrees document document := ⟨fun _ => Iff.rfl, Iff.rfl⟩

theorem Agrees.symm {document document' : Document} (h : Agrees document document') : Agrees document' document :=
  ⟨fun text => (h.string text).symm, h.null.symm⟩

theorem says_congr {found found' : Option Document} (h : Option.Rel Agrees found found') (text : Option String) :
    Says found text ↔ Says found' text := by
  cases h with
  | none => exact Iff.rfl
  | some hagrees =>
    cases text with
    | none => simp [Says, hagrees.null]
    | some text => simp [Says, hagrees.string text]

end Document

namespace Diagnosis

open Document

def keys : List String := ["summary", "suggestion", "target_file"]

/-- What a table says of a diagnosis. -/
structure Told (entries : List (String × Document)) (d : Diagnosis) : Prop where
  once : ∀ key ∈ keys, (entries.map (·.1)).count key ≤ 1
  summary : Says (Keyed.lookup "summary" entries) (some d.summary)
  suggestion : Says (Keyed.lookup "suggestion" entries) d.suggestion
  target : Says (Keyed.lookup "target_file" entries) d.target

theorem decode?_table_iff {entries : List (String × Document)} {d : Diagnosis} :
    decode? (table entries) = some d ↔ Told entries d := by
  have hget : ∀ key ∈ keys, (fieldsOf keys entries).get? key = Keyed.lookup key entries := fun key hmem =>
    get?_fieldsOf hmem entries
  have hsummary := hget "summary" (by decide)
  have hsuggestion := hget "suggestion" (by decide)
  have htarget := hget "target_file" (by decide)
  unfold decode?
  simp only [Option.bind_eq_bind, Option.bind_eq_some_iff]
  constructor
  · rintro ⟨r, hr, summary, hs, suggestion, hg, target, ht, he⟩
    obtain ⟨honce, rfl⟩ := record?_table_eq_some_iff.mp hr
    obtain rfl := Option.some.inj he
    rw [required_eq_some_iff] at hs
    rw [withDefault_eq_some_iff] at hg ht
    exact ⟨honce, hsummary ▸ hs, hsuggestion ▸ hg, htarget ▸ ht⟩
  · intro h
    refine ⟨fieldsOf keys entries, record?_table_eq_some_iff.mpr ⟨h.once, rfl⟩, d.summary, ?_, d.suggestion, ?_,
      d.target, ?_, rfl⟩
    · exact required_eq_some_iff.mpr (hsummary.trans h.summary)
    · rw [withDefault_eq_some_iff, hsuggestion]
      exact h.suggestion
    · rw [withDefault_eq_some_iff, htarget]
      exact h.target

/-! ## Objects and their printed forms -/

section Objects

variable {see see' : Json → Document} {fields : List (String × Json)} {d : Diagnosis}

theorem rel_lookup (h : ∀ field ∈ fields, Agrees (see field.2) (see' field.2)) (key : String) :
    Option.Rel Agrees (Keyed.lookup key (entriesOf see fields)) (Keyed.lookup key (entriesOf see' fields)) := by
  rw [lookup_entriesOf, lookup_entriesOf]
  unfold Keyed.lookup
  cases hfound : fields.find? fun field => field.1 == key with
  | none => exact .none
  | some field => exact .some (h field (List.mem_of_find?_eq_some hfound))

theorem Told.of_agrees (h : ∀ field ∈ fields, Agrees (see field.2) (see' field.2)) (ht : Told (entriesOf see fields) d) :
    Told (entriesOf see' fields) d where
  once := by
    have honce := ht.once
    rw [keys_entriesOf] at honce ⊢
    exact honce
  summary := (says_congr (rel_lookup h "summary") _).mp ht.summary
  suggestion := (says_congr (rel_lookup h "suggestion") _).mp ht.suggestion
  target := (says_congr (rel_lookup h "target_file") _).mp ht.target

/-- Views of an object that agree on texts and on null give the same diagnosis, or none both. -/
theorem decode?_congr (h : ∀ field ∈ fields, Agrees (see field.2) (see' field.2)) :
    decode? (table (entriesOf see fields)) = decode? (table (entriesOf see' fields)) := by
  refine Option.ext fun d => ?_
  rw [decode?_table_iff, decode?_table_iff]
  exact ⟨.of_agrees h, .of_agrees fun field hmem => (h field hmem).symm⟩

theorem seen_obj (fields : List (String × Json)) :
    Json.seen Json.deepest 0 (.obj fields) = table (entriesOf (Json.seen Json.deepest 1) fields) := by
  rw [Json.seen, if_neg (by decide), table, entriesOf, List.map_map]
  congr 1
  induction fields with
  | nil => rfl
  | cons field fields ih => exact congrArg ((some field.1, Json.seen Json.deepest 1 field.2) :: ·) ih

/-- What is read of a printed value agrees with the value. -/
theorem agrees_seen {v : Json} (h : v.Finite) (room outer : Nat) :
    Agrees (Json.seen room outer v) (Document.ofJson v) := by
  cases v with
  | null => exact .refl .null
  | bool b => exact .refl (.bool b)
  | number n =>
    obtain ⟨value, hvalue⟩ := Json.exists_numberToken h
    rw [Json.seen, hvalue, Document.ofJson]
    cases value with
    | none => exact ⟨by simp, by simp⟩
    | some value => exact ⟨by simp, by simp⟩
  | string s => exact .refl (.string s)
  | array items =>
    rw [Json.seen, Document.ofJson]
    split
    · exact ⟨by simp, by simp⟩
    · exact ⟨by simp, by simp⟩
  | obj fields =>
    rw [Json.seen, Document.ofJson]
    split
    · exact ⟨by simp, by simp⟩
    · exact ⟨by simp, by simp⟩

/-- The text of an object, with any white space around it, gives the diagnosis that the object gives. -/
theorem ofJsonText?_compact (h : (Json.obj fields).Finite) {before after : String}
    (hbefore : ∀ c ∈ before.toList, Json.isSpace c = true) (hafter : ∀ c ∈ after.toList, Json.isSpace c = true) :
    ofJsonText? (before ++ (Json.obj fields).compact ++ after) = decode? (Document.ofJson (.obj fields)) := by
  have htext : before ++ (Json.obj fields).compact ++ after =
      String.ofList (before.toList ++ (Json.obj fields).chars ++ after.toList) := by
    apply String.ext
    simp [Json.compact]
  rw [ofJsonText?, htext, Json.document?_chars h hbefore hafter, Option.bind_some, seen_obj, ofJson_obj]
  exact decode?_congr fun field hmem => agrees_seen (Json.FiniteFields.of_mem h field hmem) Json.deepest 1

end Objects

/-! ## Outputs -/

theorem ofOutput?_eq_some_iff {output : Json} {d : Diagnosis} :
    ofOutput? output = some d ↔ read? output = some d ∧ Text.allBlank d.summary = false := by
  rw [ofOutput?, Option.filter_eq_some_iff, Bool.not_eq_true']

/-- The objects that are taken for a diagnosis, and what is taken from them. -/
theorem ofOutput?_obj_iff {fields : List (String × Json)} {d : Diagnosis} : ofOutput? (.obj fields) = some d ↔
    Told (entriesOf Document.ofJson fields) d ∧ Text.allBlank d.summary = false := by
  rw [ofOutput?_eq_some_iff, read?, ofJson_obj, decode?_table_iff]

theorem ofOutput?_of_text {text : String} {d : Diagnosis} (h : ofJsonText? text = some d)
    (hd : Text.allBlank d.summary = false) : ofOutput? (.string text) = some d := by
  rw [ofOutput?_eq_some_iff, read?, h]
  exact ⟨rfl, hd⟩

theorem allBlank_trim {text : String} (h : Text.allBlank text = false) : Text.allBlank (Text.trim text) = false := by
  rw [Text.allBlank, Text.trim, String.toList_ofList]
  exact Text.strip_all h

theorem ofOutput?_of_plain {text : String} (h : ofJsonText? text = none) (hd : Text.allBlank text = false) :
    ofOutput? (.string text) = some ⟨Text.trim text, none, none⟩ := by
  rw [ofOutput?_eq_some_iff, read?, h]
  exact ⟨rfl, allBlank_trim hd⟩

/-- An object, the text of an object and plain text give diagnoses that none of the three wrappings changes. -/
theorem same_however_wrapped :
    (∀ output d, ofOutput? output = some d → Text.allBlank d.summary = false) ∧
      (∀ fields d, (Json.obj fields).Finite → ofOutput? (.obj fields) = some d →
        ∀ before after : String, (∀ c ∈ before.toList, Json.isSpace c = true) →
          (∀ c ∈ after.toList, Json.isSpace c = true) →
            ofOutput? (.string (before ++ (Json.obj fields).compact ++ after)) = some d) ∧
      ∀ text, (¬ ∃ d, ofJsonText? text = some d) → Text.allBlank text = false →
        ofOutput? (.string text) = some ⟨Text.trim text, none, none⟩ := by
  refine ⟨fun output d h => (ofOutput?_eq_some_iff.mp h).2, ?_, ?_⟩
  · intro fields d hfinite h before after hbefore hafter
    obtain ⟨hread, hsummary⟩ := ofOutput?_eq_some_iff.mp h
    exact ofOutput?_of_text ((ofJsonText?_compact hfinite hbefore hafter).trans hread) hsummary
  · intro text hnone hsummary
    exact ofOutput?_of_plain (Option.eq_none_iff_forall_ne_some.mpr fun d h => hnone ⟨d, h⟩) hsummary

/-- An unknown field and a null change nothing. -/
theorem same_however_wrapped_of_object :
    let fields : List (String × Json) :=
      [("extra", .array [.number (.int (-7)), .obj [("deep", .null)]]), ("suggestion", .null),
        ("summary", .string "a \"quoted\"\ncause")]
    (Json.obj fields).Finite ∧ ofOutput? (.obj fields) = some ⟨"a \"quoted\"\ncause", none, none⟩ ∧
      ofOutput? (.string ("\n " ++ (Json.obj fields).compact ++ "\t")) = some ⟨"a \"quoted\"\ncause", none, none⟩ ∧
      ofJsonText? " no cause found\n" = none ∧
      ofOutput? (.string " no cause found\n") = some ⟨"no cause found", none, none⟩ := by
  intro fields
  have hfinite : (Json.obj fields).Finite := ⟨⟨trivial, ⟨trivial, trivial⟩, trivial⟩, trivial, trivial, trivial⟩
  have htold : ofOutput? (.obj fields) = some ⟨"a \"quoted\"\ncause", none, none⟩ := by rfl
  have hplain : ofJsonText? " no cause found\n" = none := by rfl
  refine ⟨hfinite, htold, ?_, hplain, ?_⟩
  · exact same_however_wrapped.2.1 fields _ hfinite htold "\n " "\t" (List.all_eq_true.mp rfl) (List.all_eq_true.mp rfl)
  · exact same_however_wrapped.2.2 " no cause found\n" (fun h => nomatch hplain.symm.trans h.choose_spec) (by decide)

end Diagnosis

end Overseer
