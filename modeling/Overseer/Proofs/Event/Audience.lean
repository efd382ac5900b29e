import Overseer.Proofs.Event.Channel
import Mathlib.Data.List.Induction

/-! # The audience of a channel

Anybody may send, subscribe, leave and receive, in any order. The `Audience` is the channel together with what each
subscriber has got so far. A subscriber gets what its own subscription tells that comes next (`receive_eq_next`), so
what the others do, how many they are and how slow they are does not matter to it (`member_perform`).
-/

namespace Overseer

variable {α : Type}

/-- What the users of a channel can do. -/
inductive ChannelCall (α : Type)
  | send (value : α)
  | subscribe (name : String)
  | leave (name : String)
  | receive (name : String)
  deriving DecidableEq

/-- Whether a call is one that a subscriber hears of: all that is sent, and its own calls. -/
def ChannelCall.concerns (name : String) : ChannelCall α → Bool
  | send _ => true
  | subscribe other | leave other | receive other => other == name

/-- A channel and its subscriptions. -/
structure Audience (α : Type) where
  channel : Channel α
  members : Table String (Subscription α)

namespace Audience

def gathered (capacity : Nat) : Audience α := ⟨.new capacity, []⟩

def perform (a : Audience α) : ChannelCall α → Audience α
  | .send value => ⟨a.channel.send value, a.members.map fun entry => (entry.1, entry.2.send value)⟩
  | .subscribe name => ⟨a.channel.subscribe name, a.members.set name .begun⟩
  | .leave name => ⟨(a.channel.unsubscribe name).2, a.members.remove name⟩
  | .receive name =>
      ⟨(a.channel.receive name).2, a.members.modify name (·.get (a.channel.receive name).1)⟩

/-- The audience of a new channel after some calls. -/
def run (capacity : Nat) (calls : List (ChannelCall α)) : Audience α :=
  calls.foldl perform (gathered capacity)

end Audience

namespace Subscription

/-- What a call does to the subscription under a name, told without the channel. -/
def follow (size : Nat) (name : String) (s : Option (Subscription α)) : ChannelCall α → Option (Subscription α)
  | .send value => s.map (·.send value)
  | .subscribe other => if other = name then some .begun else s
  | .leave other => if other = name then none else s
  | .receive other => if other = name then s.map fun s => s.get (s.next size) else s

theorem follow_of_not_concerns {name : String} {call : ChannelCall α} (h : call.concerns name = false) (size : Nat)
    (s : Option (Subscription α)) : follow size name s call = s := by
  cases call with
  | send value => cases h
  | subscribe other => exact if_neg (beq_eq_false_iff_ne.mp h)
  | leave other => exact if_neg (beq_eq_false_iff_ne.mp h)
  | receive other => exact if_neg (beq_eq_false_iff_ne.mp h)

/-- Whoever has been told last that messages are missing has as many to read as the ring holds. -/
def FullAfterLag (size : Nat) (s : Subscription α) : Prop :=
  ∀ missed, s.receipts.getLast? = some (.lagged missed) → size ≤ s.unread.length

end Subscription

namespace Audience

open Subscription

variable {a : Audience α} {log : List α} {name : String} {s : Subscription α}

/-- A subscriber stands at a place in all that has been kept, and what follows is what it has not read. -/
structure Stands (size : Nat) (log : List α) (s : Subscription α) (place : Nat) : Prop where
  place_le : place ≤ log.length
  unread : log.drop place = s.unread
  unbroken : s.Unbroken
  full : s.FullAfterLag size

/-- The channel knows of each member, and of nobody else. -/
structure Faithful (a : Audience α) (log : List α) : Prop where
  holds : a.channel.Holds log
  stands : ∀ name, Option.Rel (Stands a.channel.size log) (a.members.get? name) (a.channel.subscribers.get? name)

theorem Stands.send {size place : Nat} (h : Stands size log s place) (value : α) :
    Stands size (log ++ [value]) (s.send value) place := by
  have hunread : (s.send value).unread = s.unread ++ [value] :=
    List.drop_append_of_le_length h.unbroken.position_le
  refine ⟨?_, ?_, h.unbroken.send value, ?_⟩
  · rw [List.length_append]
    exact Nat.le_add_right_of_le h.place_le
  · rw [hunread, List.drop_append_of_le_length h.place_le, h.unread]
  · intro missed hlast
    rw [hunread, List.length_append]
    exact Nat.le_add_right_of_le (h.full missed hlast)

theorem stands_send_of_rel {size : Nat} {member : Option (Subscription α)} {place : Option Nat}
    (h : Option.Rel (Stands size log) member place) (value : α) :
    Option.Rel (Stands size (log ++ [value])) (member.map (·.send value)) place := by
  cases h with
  | none => exact .none
  | some hstands => exact .some (hstands.send value)

theorem Stands.get_next {size place : Nat} (h : Stands size log s place) :
    Stands size log (s.get (s.next size)) (place + (s.next size).span) := by
  have hlength : s.unread.length = log.length - place := by rw [← h.unread, List.length_drop]
  have hplace := h.place_le
  refine ⟨?_, ?_, h.unbroken.get_next size, ?_⟩
  · rcases next_cases size s with ⟨-, hnext⟩ | ⟨value, later, hcons, -, hnext⟩ | ⟨hlt, hnext⟩
    · rw [hnext]
      exact h.place_le
    · rw [hcons, List.length_cons] at hlength
      rw [hnext]
      show place + 1 ≤ log.length
      omega
    · rw [hnext]
      show place + (s.unread.length - size) ≤ log.length
      omega
  · rw [unread_get, ← List.drop_drop, h.unread]
  · intro missed hlast
    have hlast : s.next size = .lagged missed := by
      have hget : (s.receipts ++ [s.next size]).getLast? = some (.lagged missed) := hlast
      rw [List.getLast?_concat] at hget
      exact Option.some.inj hget
    rcases next_cases size s with ⟨-, hnext⟩ | ⟨_, _, -, -, hnext⟩ | ⟨hlt, hnext⟩
    · cases hlast.symm.trans hnext
    · cases hlast.symm.trans hnext
    · rw [unread_get, hnext, List.length_drop]
      show size ≤ s.unread.length - (s.unread.length - size)
      omega

theorem stands_begun (size : Nat) (log : List α) : Stands size log .begun log.length :=
  ⟨Nat.le_refl _, List.drop_length, unbroken_begun, fun _ h => nomatch h⟩

theorem faithful_gathered (capacity : Nat) : (gathered capacity : Audience α).Faithful [] :=
  ⟨Channel.holds_new capacity, fun _ => .none⟩

theorem Faithful.exists_place (h : a.Faithful log) (hs : a.members.get? name = some s) :
    ∃ place, a.channel.subscribers.get? name = some place ∧ Stands a.channel.size log s place := by
  have hrel := h.stands name
  rw [hs] at hrel
  cases hplace : a.channel.subscribers.get? name with
  | none => rw [hplace] at hrel; cases hrel
  | some place =>
    rw [hplace] at hrel
    cases hrel with
    | some hstands => exact ⟨place, rfl, hstands⟩

/-- A member receives what comes next for it. -/
theorem Faithful.receive_eq_next (h : a.Faithful log) (hs : a.members.get? name = some s) :
    (a.channel.receive name).1 = s.next a.channel.size := by
  obtain ⟨place, hplace, hstands⟩ := h.exists_place hs
  rw [Channel.receive, hplace]
  exact congrArg Prod.fst (Channel.take_eq_next h.holds hstands.place_le hstands.unread)

theorem size_perform (a : Audience α) (call : ChannelCall α) : (a.perform call).channel.size = a.channel.size := by
  cases call with
  | send value =>
    show (a.channel.send value).size = a.channel.size
    unfold Channel.send
    split
    · rfl
    · rfl
  | subscribe name => rfl
  | leave name => rfl
  | receive name =>
    show (a.channel.receive name).2.size = a.channel.size
    unfold Channel.receive
    split
    · rfl
    · rfl

/-- A call does to a member what it does to its subscription alone. -/
theorem Faithful.member_perform (h : a.Faithful log) (name : String) (call : ChannelCall α) :
    (a.perform call).members.get? name = follow a.channel.size name (a.members.get? name) call := by
  cases call with
  | send value => exact Table.get?_map_values _ _ _
  | subscribe other =>
    by_cases heq : other = name
    · subst heq
      exact (Table.get?_set _ _ _).trans (if_pos rfl).symm
    · exact (Table.get?_set_of_ne (Ne.symm heq) _ _).trans (if_neg heq).symm
  | leave other =>
    by_cases heq : other = name
    · subst heq
      exact (Table.get?_remove _ _).trans (if_pos rfl).symm
    · exact (Table.get?_remove_of_ne (Ne.symm heq) _).trans (if_neg heq).symm
  | receive other =>
    by_cases heq : other = name
    · subst heq
      refine (Table.get?_modify _ _ _).trans (Eq.trans ?_ (if_pos rfl).symm)
      cases hs : a.members.get? other with
      | none => rfl
      | some s => exact congrArg (fun receipt => some (s.get receipt)) (h.receive_eq_next hs)
    · exact (Table.get?_modify_of_ne (Ne.symm heq) _ _).trans (if_neg heq).symm

theorem Faithful.send (h : a.Faithful log) (value : α) : ∃ log, (a.perform (.send value)).Faithful log := by
  have hmember (name : String) : (a.perform (.send value)).members.get? name
      = (a.members.get? name).map (·.send value) := h.member_perform name (.send value)
  by_cases hempty : a.channel.subscribers.isEmpty = true
  · -- Nobody listens, so nothing is kept, and there is no subscription that could miss it.
    have hchannel : (a.perform (.send value)).channel = a.channel := if_pos hempty
    have hnone (name : String) : a.channel.subscribers.get? name = none := by
      rw [List.isEmpty_iff.mp hempty]
      rfl
    refine ⟨log, by rw [hchannel]; exact h.holds, fun name => ?_⟩
    have hrel := h.stands name
    rw [hnone] at hrel
    rw [hmember, hchannel, hnone]
    cases hmembers : a.members.get? name with
    | none => exact .none
    | some s => rw [hmembers] at hrel; cases hrel
  · have hchannel : (a.perform (.send value)).channel = { a.channel with
        ring := Channel.keepNewest a.channel.size (a.channel.ring ++ [value])
        sent := a.channel.sent + 1 } := if_neg hempty
    refine ⟨log ++ [value], by rw [hchannel]; exact h.holds.push value, fun name => ?_⟩
    rw [hmember, hchannel]
    exact stands_send_of_rel (h.stands name) value

theorem Faithful.receive (h : a.Faithful log) (other : String) : (a.perform (.receive other)).Faithful log := by
  cases hmember : a.members.get? other with
  | none =>
    have hplace : a.channel.subscribers.get? other = none := by
      have hrel := h.stands other
      rw [hmember] at hrel
      cases hplace : a.channel.subscribers.get? other with
      | none => rfl
      | some place => rw [hplace] at hrel; cases hrel
    have hchannel : (a.perform (.receive other)).channel = a.channel := by
      show (a.channel.receive other).2 = a.channel
      rw [Channel.receive, hplace]
    refine ⟨by rw [hchannel]; exact h.holds, fun name => ?_⟩
    rw [h.member_perform, hchannel]
    by_cases heq : other = name
    · subst heq
      rw [follow, if_pos rfl, hmember, hplace]
      exact .none
    · rw [follow, if_neg heq]
      exact h.stands name
  | some s =>
    obtain ⟨place, hplace, hstands⟩ := h.exists_place hmember
    have hchannel : (a.perform (.receive other)).channel = { a.channel with
        subscribers := a.channel.subscribers.set other (place + (s.next a.channel.size).span) } := by
      show (a.channel.receive other).2 = _
      rw [Channel.receive, hplace]
      show { a.channel with subscribers := a.channel.subscribers.set other (a.channel.take place).2 } = _
      rw [Channel.take_eq_next h.holds hstands.place_le hstands.unread]
    refine ⟨by rw [hchannel]; exact ⟨h.holds.sent, h.holds.ring⟩, fun name => ?_⟩
    rw [h.member_perform, hchannel]
    by_cases heq : other = name
    · subst heq
      rw [follow, if_pos rfl, hmember, Table.get?_set]
      exact .some hstands.get_next
    · rw [follow, if_neg heq, Table.get?_set_of_ne (Ne.symm heq)]
      exact h.stands name

/-- Whatever is called, the channel goes on knowing of each member and of nobody else. -/
theorem Faithful.perform (h : a.Faithful log) (call : ChannelCall α) : ∃ log, (a.perform call).Faithful log := by
  cases call with
  | send value => exact h.send value
  | subscribe other =>
    refine ⟨log, ⟨h.holds.sent, h.holds.ring⟩, fun name => ?_⟩
    have hsubscribers : (a.perform (.subscribe other)).channel.subscribers
        = a.channel.subscribers.set other log.length := by rw [← h.holds.sent]; rfl
    rw [h.member_perform, hsubscribers]
    by_cases heq : other = name
    · subst heq
      rw [follow, if_pos rfl, Table.get?_set]
      exact .some (stands_begun _ log)
    · rw [follow, if_neg heq, Table.get?_set_of_ne (Ne.symm heq)]
      exact h.stands name
  | leave other =>
    refine ⟨log, ⟨h.holds.sent, h.holds.ring⟩, fun name => ?_⟩
    have hsubscribers : (a.perform (.leave other)).channel.subscribers = a.channel.subscribers.remove other := rfl
    rw [h.member_perform, hsubscribers]
    by_cases heq : other = name
    · subst heq
      rw [follow, if_pos rfl, Table.get?_remove]
      exact .none
    · rw [follow, if_neg heq, Table.get?_remove_of_ne (Ne.symm heq)]
      exact h.stands name
  | receive other => exact ⟨log, h.receive other⟩

/-! ## Runs -/

theorem run_concat (capacity : Nat) (calls : List (ChannelCall α)) (call : ChannelCall α) :
    run capacity (calls ++ [call]) = (run capacity calls).perform call := by
  rw [run, run, List.foldl_append]
  rfl

theorem exists_faithful_run (capacity : Nat) (calls : List (ChannelCall α)) :
    ∃ log, (run capacity calls).Faithful log := by
  induction calls using List.reverseRecOn with
  | nil => exact ⟨[], faithful_gathered capacity⟩
  | append_singleton calls call ih =>
    obtain ⟨log, h⟩ := ih
    rw [run_concat]
    exact h.perform call

theorem size_run (capacity : Nat) (calls : List (ChannelCall α)) :
    (run capacity calls).channel.size = (max capacity 1).nextPowerOfTwo := by
  induction calls using List.reverseRecOn with
  | nil => rfl
  | append_singleton calls call ih => rw [run_concat, size_perform, ih]

/-- Each subscription goes on by itself. -/
theorem member_run (capacity : Nat) (calls : List (ChannelCall α)) (name : String) :
    (run capacity calls).members.get? name
      = calls.foldl (follow (max capacity 1).nextPowerOfTwo name) none := by
  induction calls using List.reverseRecOn with
  | nil => rfl
  | append_singleton calls call ih =>
    obtain ⟨log, h⟩ := exists_faithful_run capacity calls
    rw [run_concat, h.member_perform, size_run, ih, List.foldl_append]
    rfl

/-- What the others do is nothing to a subscriber. -/
theorem member_run_filter (capacity : Nat) (calls : List (ChannelCall α)) (name : String) :
    (run capacity (calls.filter (·.concerns name))).members.get? name = (run capacity calls).members.get? name := by
  rw [member_run, member_run]
  generalize (max capacity 1).nextPowerOfTwo = size
  generalize (none : Option (Subscription α)) = s
  induction calls generalizing s with
  | nil => rfl
  | cons call calls ih =>
    cases hcall : call.concerns name with
    | true => rw [List.filter_cons_of_pos hcall, List.foldl_cons, List.foldl_cons, ih]
    | false =>
      rw [List.filter_cons_of_neg (by simp [hcall]), List.foldl_cons, follow_of_not_concerns hcall, ih]

/-! ## What a subscriber is told -/

/-- What a member of an audience has been told so far, and what it can be told next. -/
structure Served (a : Audience α) (name : String) (s : Subscription α) : Prop where
  /-- With what was missed put in, the receipts tell the first messages that were sent since it subscribed. -/
  told : s.filled = s.sent.take s.position
  position_le : s.position ≤ s.sent.length
  /-- Messages are missed only when there are more to read than the ring holds, and then as many as do not fit. -/
  lagged : ∀ missed, (a.channel.receive name).1 = .lagged missed →
    a.channel.size < s.unread.length ∧ missed + a.channel.size = s.unread.length
  /-- The message after a report of missed ones is the oldest in the ring. -/
  oldest : ∀ value missed, (a.channel.receive name).1 = .message value →
    s.receipts.getLast? = some (.lagged missed) → a.channel.ring.head? = some value

theorem Faithful.served (h : a.Faithful log) (hs : a.members.get? name = some s) : a.Served name s := by
  obtain ⟨place, -, hstands⟩ := h.exists_place hs
  have hreceive := h.receive_eq_next hs
  refine ⟨hstands.unbroken.filled, hstands.unbroken.position_le, fun missed hlag => ?_,
    fun value missed hmessage hlast => ?_⟩
  · rw [hreceive] at hlag
    rcases next_cases a.channel.size s with ⟨-, hnext⟩ | ⟨_, _, -, -, hnext⟩ | ⟨hlt, hnext⟩
    · cases hlag.symm.trans hnext
    · cases hlag.symm.trans hnext
    · obtain rfl := Receipt.lagged.inj (hlag.symm.trans hnext)
      exact ⟨hlt, Nat.sub_add_cancel (Nat.le_of_lt hlt)⟩
  · rw [hreceive] at hmessage
    rcases next_cases a.channel.size s with ⟨-, hnext⟩ | ⟨_, later, hcons, hlater, hnext⟩ | ⟨-, hnext⟩
    · cases hmessage.symm.trans hnext
    · -- There is no more to read than the ring holds, and after the report no less.
      obtain rfl := Receipt.message.inj (hmessage.symm.trans hnext)
      have hlength : s.unread.length = log.length - place := by rw [← hstands.unread, List.length_drop]
      have hfull := hstands.full missed hlast
      have hplace := hstands.place_le
      have hends : log.length - a.channel.size = place := by
        rw [hcons, List.length_cons] at hlength hfull
        omega
      rw [h.holds.ring, hends, hstands.unread, hcons]
      rfl
    · cases hmessage.symm.trans hnext

/-- A subscription in a run: it is served from a ring whose size is a power of two, whatever is sent comes to what it
has to read, and it is as if there were nobody else. -/
structure Subscribed (buffer : Nat) (calls : List (ChannelCall α)) (name : String) (s : Subscription α) : Prop where
  size : (run buffer calls).channel.size = (max buffer 1).nextPowerOfTwo
  served : (run buffer calls).Served name s
  sends : ∀ value, (run buffer (calls ++ [.send value])).members.get? name = some (s.send value)
  alone : (run buffer (calls.filter (·.concerns name))).members.get? name = some s

theorem subscribed_run {buffer : Nat} {calls : List (ChannelCall α)}
    (hs : (run buffer calls).members.get? name = some s) : Subscribed buffer calls name s := by
  obtain ⟨log, h⟩ := exists_faithful_run buffer calls
  refine ⟨size_run buffer calls, h.served hs, fun value => ?_, ?_⟩
  · rw [run_concat, h.member_perform, hs]
    rfl
  · rw [member_run_filter, hs]

end Audience

end Overseer
