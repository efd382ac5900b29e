import Overseer.Json.Reader
import Overseer.Proofs.Json.Lexer
import Overseer.Proofs.Lists

/-! # Printed values are read

The tokens of a value give one document (`run_lexed`), whatever containers are open around it and whatever tokens follow.
It says the same as the value (`seen`), but for a container that lies too deep, which is passed over, and for the numbers,
which are whatever their digits are worth to the reader. So `document?_chars`: a printed value with white space around it
is one value and nothing else.
-/

namespace Overseer.Json

/-! ## What is seen of a value -/

mutual

/-- What a reader with that much room sees of a value that lies in so many containers. -/
def seen (room outer : Nat) : Json → Document
  | .null => .null
  | .bool b => .bool b
  | .number n =>
      match numberToken n with
      | .number (some n) => .number n
      | _ => .unreadable
  | .string s => .string s
  | .array items => if room ≤ outer then .unreadable else .array true (seenItems room (outer + 1) items)
  | .obj fields => if room ≤ outer then .unreadable else .object (seenFields room (outer + 1) fields)

def seenItems (room outer : Nat) : List Json → List Document
  | [] => []
  | item :: rest => seen room outer item :: seenItems room outer rest

def seenFields (room outer : Nat) : List (String × Json) → List (Option String × Document)
  | [] => []
  | (key, value) :: rest => (some key, seen room outer value) :: seenFields room outer rest

end

/-! ## Runs of the reader -/

/-- How the reading goes on after a token. -/
def Outcome.resume (room : Nat) (outcome : Outcome) (rest : List Token) : Option (Document × List Token) :=
  match outcome with
  | .continue frames expect => Reading.run ⟨room, frames, expect⟩ rest
  | .complete value => some (value, rest)
  | .refuse => none

variable {room : Nat} {frames : List Frame}

theorem run_cons (room : Nat) (frames : List Frame) (expect : Expect) (token : Token) (rest : List Token) :
    Reading.run ⟨room, frames, expect⟩ (token :: rest) =
      (Reading.next ⟨room, frames, expect⟩ token).resume room rest := by
  rw [Reading.run]
  rfl

/-- A value never starts with the end of an array. -/
theorem exists_cons_lexed {v : Json} (h : v.Finite) : ∃ token rest, lexed v = token :: rest ∧ token ≠ .closeArray := by
  cases v with
  | number n =>
    obtain ⟨value, hvalue⟩ := exists_numberToken h
    exact ⟨_, _, rfl, hvalue ▸ nofun⟩
  | null => exact ⟨_, _, rfl, nofun⟩
  | bool b => exact ⟨_, _, rfl, nofun⟩
  | string s => exact ⟨_, _, rfl, nofun⟩
  | array items => exact ⟨_, _, rfl, nofun⟩
  | obj fields => exact ⟨_, _, rfl, nofun⟩

theorem run_valueOrEnd {v : Json} (h : v.Finite) (room : Nat) (frames : List Frame) (rest : List Token) :
    Reading.run ⟨room, frames, .valueOrEnd⟩ (lexed v ++ rest) = Reading.run ⟨room, frames, .value⟩ (lexed v ++ rest) := by
  obtain ⟨token, more, hlexed, hne⟩ := exists_cons_lexed h
  have hnext : Reading.next ⟨room, frames, .valueOrEnd⟩ token = startValue frames token := by
    unfold Reading.next
    dsimp only
    split
    · contradiction
    · rfl
  rw [hlexed, List.cons_append, run_cons, run_cons, hnext]
  rfl

theorem closed_items (room : Nat) (items : List Json) (frames : List Frame) :
    closed room (.array (seenItems room (frames.length + 1) items).reverse) frames =
      seen room frames.length (.array items) := by
  rw [closed, seen, List.reverse_reverse]

theorem closed_fields (room : Nat) (fields : List (String × Json)) (key : Option String) (frames : List Frame) :
    closed room (.object (seenFields room (frames.length + 1) fields).reverse key) frames =
      seen room frames.length (.obj fields) := by
  rw [closed, seen, List.reverse_reverse]

mutual

theorem run_lexed (v : Json) (h : v.Finite) (room : Nat) (frames : List Frame) (rest : List Token) :
    Reading.run ⟨room, frames, .value⟩ (lexed v ++ rest) =
      (place (seen room frames.length v) frames).resume room rest := by
  cases v with
  | null => rfl
  | bool b => rfl
  | number n =>
    obtain ⟨value, hvalue⟩ := exists_numberToken h
    rw [lexed, seen, hvalue, List.singleton_append, run_cons]
    cases value with
    | none => rfl
    | some value => rfl
  | string s => rfl
  | array items =>
    cases items with
    | nil => rfl
    | cons item items =>
      rw [lexed, lexedItems, intercalate_cons, List.cons_append, List.cons_append, List.append_assoc, List.append_assoc,
        run_cons]
      change Reading.run ⟨room, .array [] :: frames, .valueOrEnd⟩ _ = _
      rw [run_valueOrEnd h.1, run_lexed item h.1]
      refine (run_items items h.2 room [seen room (frames.length + 1) item] frames rest).trans ?_
      rw [← closed_items, seenItems, List.reverse_cons]
  | obj fields =>
    cases fields with
    | nil => rfl
    | cons field fields =>
      rw [lexed, lexedFields, intercalate_cons, List.cons_append, List.cons_append, List.append_assoc, List.append_assoc,
        run_cons]
      change Reading.run ⟨room, .object [] (some field.1) :: frames, .value⟩ (lexed field.2 ++
        ((lexedFields fields).flatMap (.comma :: ·) ++ .closeObject :: rest)) = _
      rw [run_lexed field.2 h.1]
      refine (run_fields fields h.2 room [(some field.1, seen room (frames.length + 1) field.2)] frames rest).trans ?_
      rw [← closed_fields room (field :: fields) none, seenFields, List.reverse_cons]

/-- The items of an array that is open, up to its end. -/
theorem run_items (items : List Json) (h : FiniteItems items) (room : Nat) (read : List Document) (frames : List Frame)
    (rest : List Token) :
    Reading.run ⟨room, .array read :: frames, .commaOrEnd⟩
        ((lexedItems items).flatMap (.comma :: ·) ++ .closeArray :: rest) =
      (place (closed room (.array ((seenItems room (frames.length + 1) items).reverse ++ read)) frames)
        frames).resume room rest := by
  cases items with
  | nil => rfl
  | cons item items =>
    rw [lexedItems, List.flatMap_cons, List.append_assoc, List.cons_append, run_cons]
    change Reading.run ⟨room, .array read :: frames, .value⟩ _ = _
    rw [run_lexed item h.1]
    change Reading.run ⟨room, .array (seen room (frames.length + 1) item :: read) :: frames, .commaOrEnd⟩ _ = _
    rw [run_items items h.2, seenItems, List.reverse_cons, List.append_assoc]
    rfl

/-- The members of an object that is open, up to its end. -/
theorem run_fields (fields : List (String × Json)) (h : FiniteFields fields) (room : Nat)
    (read : List (Option String × Document)) (frames : List Frame) (rest : List Token) :
    Reading.run ⟨room, .object read none :: frames, .commaOrEnd⟩
        ((lexedFields fields).flatMap (.comma :: ·) ++ .closeObject :: rest) =
      (place (closed room (.object ((seenFields room (frames.length + 1) fields).reverse ++ read) none) frames)
        frames).resume room rest := by
  cases fields with
  | nil => rfl
  | cons field fields =>
    rw [lexedFields, List.flatMap_cons, List.append_assoc, List.cons_append, run_cons]
    change Reading.run ⟨room, .object read (some field.1) :: frames, .value⟩ (lexed field.2 ++
      ((lexedFields fields).flatMap (.comma :: ·) ++ .closeObject :: rest)) = _
    rw [run_lexed field.2 h.1]
    change Reading.run ⟨room, .object ((some field.1, seen room (frames.length + 1) field.2) :: read) none :: frames,
      .commaOrEnd⟩ _ = _
    rw [run_fields fields h.2, seenFields, List.reverse_cons, List.append_assoc]
    rfl

end

/-- A printed value with white space around it is one value and nothing else. -/
theorem document?_chars {v : Json} (h : v.Finite) {before after : List Char} (hbefore : ∀ c ∈ before, isSpace c = true)
    (hafter : ∀ c ∈ after, isSpace c = true) :
    document? (String.ofList (before ++ v.chars ++ after)) = some (seen deepest 0 v) := by
  have hrun : Reading.run ⟨deepest, [], .value⟩ (lexed v) = some (seen deepest 0 v, []) := by
    have hrun := run_lexed v h deepest [] []
    rw [List.append_nil] at hrun
    exact hrun
  unfold document? next?
  rw [String.toList_ofList, tokens_chars h hbefore hafter, hrun]

end Overseer.Json
