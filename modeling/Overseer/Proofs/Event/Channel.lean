import Overseer.Event.Channel
import Overseer.Proofs.Table
import Mathlib.Algebra.GroupWithZero.Nat
import Mathlib.Data.List.TakeDrop

/-! # What a subscriber of a channel gets

A channel is looked at next to the list of all that it has kept (`Channel.Holds`): the ring is the end of that list, and
each subscriber stands at a place in it. A `Subscription` is told without any channel, by what has been sent since it
began and by the receipts so far. What it gets next is a function of these two and of the size of the ring
(`Subscription.next`), and that a channel gives it just that is what `take_eq_next` says.
-/

namespace Overseer

variable {α : Type}

namespace Receipt

/-- How many messages a receipt accounts for, those that it reports as missed included. -/
def span : Receipt α → Nat
  | message _ => 1
  | lagged missed => missed
  | empty | noSubscriber => 0

def value? : Receipt α → Option α
  | message value => some value
  | _ => none

end Receipt

/-- One subscription: what has been sent since it began, and what it has got. -/
structure Subscription (α : Type) where
  sent : List α
  receipts : List (Receipt α)

namespace Subscription

def begun : Subscription α := ⟨[], []⟩

def spans (receipts : List (Receipt α)) : Nat := (receipts.map Receipt.span).sum

/-- How many messages the receipts account for. -/
def position (s : Subscription α) : Nat := spans s.receipts

def unread (s : Subscription α) : List α := s.sent.drop s.position

/-- The messages of the receipts, where a report of missed messages is replaced by as many of those to come. -/
def fillIn : List α → List (Receipt α) → List α
  | _, [] => []
  | later, .message value :: receipts => value :: fillIn (later.drop 1) receipts
  | later, .lagged missed :: receipts => later.take missed ++ fillIn (later.drop missed) receipts
  | later, .empty :: receipts => fillIn later receipts
  | later, .noSubscriber :: receipts => fillIn later receipts

def filled (s : Subscription α) : List α := fillIn s.sent s.receipts

/-- The messages that have been received. -/
def received (s : Subscription α) : List α := s.receipts.filterMap Receipt.value?

/-- What there is to get from a ring of a given size. -/
def next (size : Nat) (s : Subscription α) : Receipt α :=
  match s.unread with
  | [] => .empty
  | value :: later => if size ≤ later.length then .lagged (later.length + 1 - size) else .message value

def send (value : α) (s : Subscription α) : Subscription α := { s with sent := s.sent ++ [value] }

def get (receipt : Receipt α) (s : Subscription α) : Subscription α :=
  { s with receipts := s.receipts ++ [receipt] }

/-- The receipts tell the messages one after the other: nothing is skipped in silence, nothing told twice. -/
structure Unbroken (s : Subscription α) : Prop where
  position_le : s.position ≤ s.sent.length
  filled : s.filled = s.sent.take s.position

variable {s : Subscription α}

theorem spans_cons (receipt : Receipt α) (receipts : List (Receipt α)) :
    spans (receipt :: receipts) = receipt.span + spans receipts := by
  simp [spans]

theorem position_get (receipt : Receipt α) (s : Subscription α) :
    (s.get receipt).position = s.position + receipt.span := by
  simp [position, get, spans]

theorem fillIn_append (later : List α) (receipts more : List (Receipt α)) :
    fillIn later (receipts ++ more) = fillIn later receipts ++ fillIn (later.drop (spans receipts)) more := by
  induction receipts generalizing later with
  | nil => rfl
  | cons receipt receipts ih =>
    rw [List.cons_append, spans_cons, ← List.drop_drop]
    cases receipt with
    | message value => rw [fillIn, fillIn, ih, List.cons_append]; rfl
    | lagged missed => rw [fillIn, fillIn, ih, List.append_assoc]; rfl
    | empty | noSubscriber => rw [fillIn, fillIn, ih]; rfl

/-- What is sent later does not change what has been told. -/
theorem fillIn_send {later : List α} {receipts : List (Receipt α)} (h : spans receipts ≤ later.length)
    (more : List α) : fillIn (later ++ more) receipts = fillIn later receipts := by
  induction receipts generalizing later with
  | nil => rfl
  | cons receipt receipts ih =>
    rw [spans_cons] at h
    cases receipt with
    | message value =>
      have h : 1 + spans receipts ≤ later.length := h
      rw [fillIn, fillIn, List.drop_append_of_le_length (by omega), ih (by rw [List.length_drop]; omega)]
    | lagged missed =>
      have h : missed + spans receipts ≤ later.length := h
      rw [fillIn, fillIn, List.take_append_of_le_length (by omega), List.drop_append_of_le_length (by omega),
        ih (by rw [List.length_drop]; omega)]
    | empty | noSubscriber =>
      have h : 0 + spans receipts ≤ later.length := h
      rw [fillIn, fillIn, ih (by omega)]

theorem unbroken_begun : (begun : Subscription α).Unbroken := ⟨Nat.le_refl 0, rfl⟩

theorem Unbroken.send (h : s.Unbroken) (value : α) : (s.send value).Unbroken := by
  have hle : s.position ≤ s.sent.length := h.position_le
  refine ⟨?_, ?_⟩
  · show s.position ≤ (s.sent ++ [value]).length
    rw [List.length_append]
    omega
  · show fillIn (s.sent ++ [value]) s.receipts = (s.sent ++ [value]).take s.position
    rw [fillIn_send hle, List.take_append_of_le_length hle]
    exact h.filled

theorem length_unread (s : Subscription α) : s.unread.length = s.sent.length - s.position := List.length_drop

/-! ## What comes next -/

theorem next_of_nil (size : Nat) (h : s.unread = []) : s.next size = .empty := by
  rw [next, h]

theorem next_of_le {size : Nat} {value : α} {later : List α} (h : s.unread = value :: later)
    (hle : s.unread.length ≤ size) : s.next size = .message value := by
  have hlater : ¬ size ≤ later.length := by
    rw [h, List.length_cons] at hle
    omega
  rw [next, h]
  exact if_neg hlater

theorem next_of_lt {size : Nat} (h : size < s.unread.length) :
    s.next size = .lagged (s.unread.length - size) := by
  cases hunread : s.unread with
  | nil => rw [hunread] at h; cases h
  | cons value later =>
    have hlater : size ≤ later.length := by
      rw [hunread, List.length_cons] at h
      omega
    rw [next, hunread]
    exact if_pos hlater

/-- What comes next is nothing new, the next message, or a report that leaves as much to be read as the ring holds. -/
theorem next_cases (size : Nat) (s : Subscription α) :
    s.unread = [] ∧ s.next size = .empty ∨
      (∃ value later, s.unread = value :: later ∧ later.length < size ∧ s.next size = .message value) ∨
      size < s.unread.length ∧ s.next size = .lagged (s.unread.length - size) := by
  by_cases hlt : size < s.unread.length
  · exact Or.inr (Or.inr ⟨hlt, next_of_lt hlt⟩)
  · cases hunread : s.unread with
    | nil => exact Or.inl ⟨rfl, next_of_nil size hunread⟩
    | cons value later =>
      have hlater : later.length < size := by
        rw [hunread, List.length_cons] at hlt
        omega
      exact Or.inr (Or.inl ⟨value, later, rfl, hlater, next_of_le hunread (by omega)⟩)

theorem unread_get (receipt : Receipt α) (s : Subscription α) :
    (s.get receipt).unread = s.unread.drop receipt.span := by
  rw [unread, position_get, unread, List.drop_drop]
  rfl

theorem Unbroken.get_next (h : s.Unbroken) (size : Nat) : (s.get (s.next size)).Unbroken := by
  have hlength := length_unread s
  have hle := h.position_le
  have hfilled (receipt : Receipt α) :
      (s.get receipt).filled = s.sent.take s.position ++ fillIn s.unread [receipt] := by
    rw [← h.filled]
    exact fillIn_append s.sent s.receipts [receipt]
  rcases next_cases size s with ⟨-, hnext⟩ | ⟨value, later, hunread, -, hnext⟩ | ⟨hlt, hnext⟩
  · rw [hnext]
    refine ⟨by rw [position_get]; exact hle, ?_⟩
    rw [hfilled, position_get]
    exact List.append_nil _
  · rw [hnext]
    rw [hunread, List.length_cons] at hlength
    have hspan : (Receipt.message value).span = 1 := rfl
    refine ⟨by rw [position_get, hspan]; show s.position + 1 ≤ s.sent.length; omega, ?_⟩
    rw [hfilled, position_get, hspan]
    show s.sent.take s.position ++ [value] = s.sent.take (s.position + 1)
    rw [List.take_add, ← unread, hunread]
    rfl
  · rw [hnext]
    have hspan : (Receipt.lagged (s.unread.length - size) : Receipt α).span = s.unread.length - size := rfl
    refine ⟨by rw [position_get, hspan]; show s.position + _ ≤ s.sent.length; omega, ?_⟩
    rw [hfilled, position_get, hspan]
    show s.sent.take s.position ++ (s.unread.take (s.unread.length - size) ++ []) = s.sent.take _
    rw [List.append_nil, List.take_add]
    rfl

end Subscription

/-! ## The ring -/

namespace Channel

open Subscription

variable {c : Channel α} {log : List α}

/-- The channel has kept these messages, the newest of them in its ring. -/
structure Holds (c : Channel α) (log : List α) : Prop where
  sent : c.sent = log.length
  ring : c.ring = log.drop (log.length - c.size)

theorem holds_new (capacity : Nat) : (new capacity : Channel α).Holds [] :=
  ⟨rfl, List.drop_nil.symm⟩

theorem Holds.push (h : c.Holds log) (value : α) :
    Holds { c with ring := keepNewest c.size (c.ring ++ [value]), sent := c.sent + 1 } (log ++ [value]) := by
  refine ⟨?_, ?_⟩
  · show c.sent + 1 = (log ++ [value]).length
    rw [List.length_append, h.sent]
    rfl
  · show keepNewest c.size (c.ring ++ [value]) = (log ++ [value]).drop ((log ++ [value]).length - c.size)
    have hdrop : c.ring ++ [value] = (log ++ [value]).drop (log.length - c.size) := by
      rw [h.ring, List.drop_append_of_le_length (Nat.sub_le _ _)]
    have hlength : (log ++ [value]).length = log.length + 1 := List.length_append
    rw [keepNewest, hdrop, List.drop_drop, List.length_drop, hlength]
    congr 1
    omega

/-- A subscriber that stands where its subscription does gets what comes next for that subscription. -/
theorem take_eq_next (h : c.Holds log) {s : Subscription α} {place : Nat} (hplace : place ≤ log.length)
    (hunread : log.drop place = s.unread) :
    c.take place = (s.next c.size, place + (s.next c.size).span) := by
  have hlength : s.unread.length = log.length - place := by rw [← hunread, List.length_drop]
  have hsent := h.sent
  unfold take
  rcases next_cases c.size s with ⟨hnil, hnext⟩ | ⟨value, later, hcons, hlater, hnext⟩ | ⟨hlt, hnext⟩
  · rw [hnil] at hlength
    have hpast : c.sent ≤ place := by
      have hlength : 0 = log.length - place := hlength
      omega
    rw [if_pos hpast, hnext]
    rfl
  · rw [hcons, List.length_cons] at hlength
    rw [if_neg (by omega), if_neg (by omega), hnext]
    have hfound : c.ring[place - c.oldest]? = some value := by
      have hring : c.ring.length = log.length - (log.length - c.size) := by rw [h.ring, List.length_drop]
      have hplace : log.length - c.size + (place - c.oldest) = place := by
        rw [oldest]
        omega
      have hhead : log[place]? = some value := by
        rw [← List.head?_drop, hunread, hcons]
        rfl
      rw [h.ring, List.getElem?_drop, hplace, hhead]
    rw [hfound]
    rfl
  · rw [if_neg (by omega), if_pos (by omega), hnext]
    refine Prod.ext_iff.mpr ⟨congrArg Receipt.lagged ?_, ?_⟩
    · omega
    · show c.sent - c.size = place + (s.unread.length - c.size)
      omega

end Channel

end Overseer
