import Overseer.Http.Feed
import Overseer.Proofs.Event.Audience

/-! # Streams of events

The feed is a channel whose subscribers get frames. Each thing that is done with the feed is some calls on its channel
(`Shows.perform`): what is published is sent, and a stream that is drained receives until there is nothing left. So its
frames are one that greets and one for each message that its subscription has received.
-/

namespace Overseer.Http

open Subscription

/-- What can be done with a feed. -/
inductive FeedCall
  | publish (events : List Event)
  | subscribe (name : String)
  | drain (name : String)

/-- A feed, all that has been published, and the frames of each stream. -/
structure Screening where
  feed : Feed
  log : List Event
  streams : Table String (List Frame)

namespace Screening

def opened (buffer : Nat) : Screening := ⟨.new buffer, [], []⟩

def perform (v : Screening) : FeedCall → Screening
  | .publish events =>
      { v with feed := v.feed.publish (v.log ++ events), log := v.log ++ events }
  | .subscribe name => { v with feed := v.feed.subscribe name, streams := v.streams.set name [] }
  | .drain name =>
      { v with
        feed := (v.feed.drain name).2
        streams := v.streams.modify name (· ++ (v.feed.drain name).1) }

def run (buffer : Nat) (calls : List FeedCall) : Screening := calls.foldl perform (opened buffer)

end Screening

/-! ## Receiving until there is nothing left -/

section Receiving

variable {a : Audience Event} {log : List Event} {name : String} {s : Subscription Event}

def getAll (receipts : List (Receipt Event)) (s : Subscription Event) : Subscription Event :=
  { s with receipts := s.receipts ++ receipts }

theorem received_getAll (receipts : List (Receipt Event)) (s : Subscription Event) :
    (getAll receipts s).received = s.received ++ receipts.filterMap Receipt.value? :=
  List.filterMap_append

theorem getAll_cons (receipt : Receipt Event) (receipts : List (Receipt Event)) (s : Subscription Event) :
    getAll (receipt :: receipts) s = getAll receipts (s.get receipt) := by
  have happend : s.receipts ++ receipt :: receipts = (s.receipts ++ [receipt]) ++ receipts := List.append_cons _ _ _
  unfold getAll
  rw [happend]
  rfl

/-- How many calls it takes to read all: one more when messages are missing. -/
def toCome (size : Nat) (s : Subscription Event) : Nat :=
  if size < s.unread.length then size + 1 else s.unread.length

theorem toCome_get_next {size : Nat} (h : Feed.isEnd (s.next size) = false) :
    toCome size (s.get (s.next size)) < toCome size s := by
  have hunread := unread_get (s.next size) s
  rcases next_cases size s with ⟨-, hnext⟩ | ⟨value, later, hcons, hlater, hnext⟩ | ⟨hlt, hnext⟩
  · rw [hnext] at h
    cases h
  · rw [hnext, hcons] at hunread
    have hunread : (s.get (s.next size)).unread = later := by rw [hnext]; exact hunread
    rw [toCome, toCome, hunread, hcons, List.length_cons, if_neg (by omega), if_neg (by omega)]
    exact Nat.lt_succ_self _
  · rw [hnext] at hunread
    have hlength : (s.get (s.next size)).unread.length = size := by
      rw [hnext, hunread, List.length_drop]
      exact Nat.sub_sub_self (Nat.le_of_lt hlt)
    rw [toCome, toCome, hlength, if_neg (Nat.lt_irrefl _), if_pos hlt]
    exact Nat.lt_succ_self _

/-- The answer that ends a stream brings nothing, and nothing is left then. -/
theorem value?_of_isEnd {receipt : Receipt Event} (h : Feed.isEnd receipt = true) : receipt.value? = none := by
  cases receipt with
  | message value => cases h
  | lagged missed => cases h
  | empty | noSubscriber => rfl

theorem unread_get_of_isEnd {size : Nat} (h : Feed.isEnd (s.next size) = true) :
    (s.get (s.next size)).unread = [] := by
  rw [unread_get]
  rcases next_cases size s with ⟨hnil, -⟩ | ⟨_, _, -, -, hmessage⟩ | ⟨-, hlag⟩
  · rw [hnil, List.drop_nil]
  · rw [hmessage] at h
    cases h
  · rw [hlag] at h
    cases h

/-- The audience after some calls of one receiver. -/
structure Drained (a b : Audience Event) (name : String) (receipts : List (Receipt Event)) : Prop where
  own : b.members.get? name = (a.members.get? name).map (getAll receipts)
  others : ∀ other, other ≠ name → b.members.get? other = a.members.get? other

theorem drained_nil (a : Audience Event) (name : String) : Drained a a name [] where
  own := by
    have hid : getAll [] = id := funext fun s => by simp [getAll]
    rw [hid, Option.map_id]
    rfl
  others _ _ := rfl

theorem get?_receive (a : Audience Event) (name : String) :
    (a.perform (.receive name)).members.get? name
      = (a.members.get? name).map (·.get (a.channel.receive name).1) :=
  Table.get?_modify _ _ _

theorem Drained.cons {b : Audience Event} {receipts : List (Receipt Event)}
    (h : Drained (a.perform (.receive name)) b name receipts) :
    Drained a b name ((a.channel.receive name).1 :: receipts) where
  own := by
    rw [h.own, get?_receive, Option.map_map]
    exact congrArg (Option.map · _) (funext fun s => (getAll_cons _ _ s).symm)
  others other hne := (h.others other hne).trans (Table.get?_modify_of_ne hne _ _)

/-- Whatever ends it, a stream that is drained has made some calls on the channel. -/
theorem exists_drained (name : String) (n : Nat) (a : Audience Event) :
    ∃ (k : Nat) (receipts : List (Receipt Event)),
      let b := (List.replicate k (.receive name)).foldl Audience.perform a
      b.channel = (Feed.receipts name n a.channel).2 ∧ Drained a b name receipts ∧
      receipts.filterMap Receipt.value? = (Feed.receipts name n a.channel).1.filterMap Receipt.value? ∧
      ∀ log s, a.Faithful log → a.members.get? name = some s → toCome a.channel.size s < n →
        (getAll receipts s).unread = [] := by
  induction n generalizing a with
  | zero => exact ⟨0, [], rfl, drained_nil a name, rfl, fun _ _ _ _ hlt => absurd hlt (Nat.not_lt_zero _)⟩
  | succ n ih =>
    have hreceipts : Feed.receipts name (n + 1) a.channel =
        if Feed.isEnd (a.channel.receive name).1 then ([], (a.perform (.receive name)).channel)
        else ((a.channel.receive name).1 :: (Feed.receipts name n (a.perform (.receive name)).channel).1,
          (Feed.receipts name n (a.perform (.receive name)).channel).2) := rfl
    rw [hreceipts]
    split
    · rename_i hend
      refine ⟨1, _, rfl, (drained_nil _ name).cons, ?_, fun log s hfaithful hs _ => ?_⟩
      · rw [List.filterMap_cons, value?_of_isEnd hend]
      · rw [hfaithful.receive_eq_next hs] at hend ⊢
        exact unread_get_of_isEnd hend
    · rename_i hgoes
      obtain ⟨k, receipts, hchannel, hdrained, hvalues, hall⟩ := ih (a.perform (.receive name))
      refine ⟨k + 1, _, hchannel, hdrained.cons, ?_, fun log s hfaithful hs hlt => ?_⟩
      · rw [List.filterMap_cons, List.filterMap_cons, hvalues]
      · have hnext := hfaithful.receive_eq_next hs
        rw [Bool.not_eq_true, hnext] at hgoes
        have hrest := toCome_get_next hgoes
        rw [getAll_cons]
        apply hall log _ (hfaithful.receive name)
        · rw [get?_receive, hs, Option.map_some]
        · rw [Audience.size_perform, hnext]
          omega

end Receiving

namespace Screening

/-! ## A feed shows its channel -/

variable {v : Screening} {a : Audience Event}

/-- The frames of a stream: none before it is greeted, then the greeting and one for each message received. -/
def framesOf (greeted : Bool) (s : Subscription Event) : List Frame :=
  if greeted then Frame.connected :: s.received.map Frame.ofEvent else []

/-- The stream of a subscription shows what it has received. -/
structure Streams (ungreeted : List String) (name : String) (frames : List Frame) (s : Subscription Event) :
    Prop where
  frames : frames = framesOf (!ungreeted.contains name) s
  waits : name ∈ ungreeted → s.receipts = []

/-- The feed and the audience have the same channel, and each stream is that of a member. -/
structure Shows (v : Screening) (a : Audience Event) : Prop where
  channel : v.feed.channel = a.channel
  published : v.feed.published = v.log.length
  nodup : v.feed.ungreeted.Nodup
  streams : ∀ name, Option.Rel (Streams v.feed.ungreeted name) (v.streams.get? name) (a.members.get? name)

theorem Shows.exists_member (h : v.Shows a) {name : String} {frames : List Frame}
    (hframes : v.streams.get? name = some frames) :
    ∃ s, a.members.get? name = some s ∧ Streams v.feed.ungreeted name frames s := by
  have hrel := h.streams name
  rw [hframes] at hrel
  cases hmember : a.members.get? name with
  | none => rw [hmember] at hrel; cases hrel
  | some s =>
    rw [hmember] at hrel
    cases hrel with
    | some hstream => exact ⟨s, rfl, hstream⟩

theorem shows_opened (buffer : Nat) : (opened buffer).Shows (.gathered buffer) :=
  ⟨rfl, rfl, List.nodup_nil, fun _ => .none⟩

theorem channel_sends (events : List Event) (a : Audience Event) :
    ((events.map ChannelCall.send).foldl Audience.perform a).channel = events.foldl Channel.send a.channel := by
  induction events generalizing a with
  | nil => rfl
  | cons event events ih => exact ih (a.perform (.send event))

/-- Sending adds to what is to be read, and nobody gets anything by it. -/
theorem get?_sends (events : List Event) (a : Audience Event) (name : String) :
    ((events.map ChannelCall.send).foldl Audience.perform a).members.get? name
      = (a.members.get? name).map fun s => { s with sent := s.sent ++ events } := by
  induction events generalizing a with
  | nil => simp
  | cons event events ih =>
    have hget : (a.perform (.send event)).members.get? name = (a.members.get? name).map (·.send event) :=
      Table.get?_map_values _ _ _
    rw [List.map_cons, List.foldl_cons, ih, hget, Option.map_map]
    refine congrArg (Option.map · _) (funext fun s => ?_)
    show (⟨(s.sent ++ [event]) ++ events, s.receipts⟩ : Subscription Event) = ⟨s.sent ++ event :: events, s.receipts⟩
    rw [List.append_assoc]
    rfl

theorem Shows.publish (h : v.Shows a) (events : List Event) :
    (v.perform (.publish events)).Shows ((events.map ChannelCall.send).foldl Audience.perform a) := by
  refine ⟨?_, rfl, h.nodup, fun name => ?_⟩
  · rw [channel_sends, ← h.channel]
    show ((v.log ++ events).drop v.feed.published).foldl Channel.send v.feed.channel = _
    rw [h.published, List.drop_left]
  · have hrel := h.streams name
    rw [get?_sends]
    show Option.Rel (Streams v.feed.ungreeted name) (v.streams.get? name) _
    revert hrel
    generalize v.streams.get? name = stream
    generalize a.members.get? name = member
    intro hrel
    cases hrel with
    | none => exact .none
    | some hstream => exact .some ⟨hstream.frames, hstream.waits⟩

theorem streams_of_iff {other : String} {ungreeted next : List String} (hnext : other ∈ next ↔ other ∈ ungreeted)
    {stream : Option (List Frame)} {member : Option (Subscription Event)}
    (h : Option.Rel (Streams ungreeted other) stream member) : Option.Rel (Streams next other) stream member := by
  cases h with
  | none => exact .none
  | some hstream =>
    have hcontains : next.contains other = ungreeted.contains other := by
      rw [Bool.eq_iff_iff, List.contains_iff_mem, List.contains_iff_mem]
      exact hnext
    exact .some ⟨hcontains ▸ hstream.frames, fun hmem => hstream.waits (hnext.mp hmem)⟩

theorem Shows.subscribe (h : v.Shows a) (name : String) :
    (v.perform (.subscribe name)).Shows (a.perform (.subscribe name)) := by
  have hungreeted : (v.perform (.subscribe name)).feed.ungreeted = name :: v.feed.ungreeted.erase name := rfl
  refine ⟨?_, h.published, ?_, fun other => ?_⟩
  · show v.feed.channel.subscribe name = a.channel.subscribe name
    rw [h.channel]
  · rw [hungreeted]
    exact List.nodup_cons.mpr ⟨h.nodup.not_mem_erase, h.nodup.erase name⟩
  · show Option.Rel _ ((v.streams.set name []).get? other) ((a.members.set name .begun).get? other)
    rw [hungreeted]
    by_cases heq : other = name
    · subst heq
      rw [Table.get?_set, Table.get?_set]
      exact .some ⟨by simp [framesOf], fun _ => rfl⟩
    · rw [Table.get?_set_of_ne heq, Table.get?_set_of_ne heq]
      refine streams_of_iff ?_ (h.streams other)
      rw [List.mem_cons, List.mem_erase_of_ne heq]
      exact or_iff_right heq

/-- The greeting comes first and once. -/
theorem Streams.drain {ungreeted : List String} {name : String} {frames : List Frame} {s : Subscription Event}
    (h : Streams ungreeted name frames s) (hnodup : ungreeted.Nodup) {receipts : List (Receipt Event)}
    {got : List (Receipt Event)} (hvalues : receipts.filterMap Receipt.value? = got.filterMap Receipt.value?) :
    Streams (ungreeted.erase name) name
      (frames ++ ((if ungreeted.contains name then [Frame.connected] else []) ++ got.filterMap Frame.ofReceipt?))
      (getAll receipts s) := by
  have hgone : name ∉ ungreeted.erase name := hnodup.not_mem_erase
  have hgot : got.filterMap Frame.ofReceipt? = (receipts.filterMap Receipt.value?).map Frame.ofEvent := by
    rw [hvalues, List.map_filterMap]
    refine List.filterMap_congr fun receipt _ => ?_
    cases receipt with
    | message value => rfl
    | lagged missed => rfl
    | empty | noSubscriber => rfl
  have hgreeted : (ungreeted.erase name).contains name = false :=
    Bool.eq_false_iff.mpr fun hc => hgone (List.contains_iff_mem.mp hc)
  refine ⟨?_, fun hmem => absurd hmem hgone⟩
  rw [h.frames, hgot, framesOf, framesOf, received_getAll, List.map_append, hgreeted]
  by_cases hwaits : name ∈ ungreeted
  · have hnone : s.received = [] := by
      rw [Subscription.received, h.waits hwaits]
      rfl
    rw [List.contains_iff_mem.mpr hwaits, hnone]
    rfl
  · have hcontains : ungreeted.contains name = false :=
      Bool.eq_false_iff.mpr fun hc => hwaits (List.contains_iff_mem.mp hc)
    rw [hcontains]
    rfl

/-- A stream that is drained leaves nothing to be read: what the ring holds, a report of what it does not hold any more
and the look that finds nothing are as many calls as it makes at most. -/
theorem Shows.drain (h : v.Shows a) {log : List Event} (hfaithful : a.Faithful log) (name : String) : ∃ k : Nat,
    let b := (List.replicate k (.receive name)).foldl Audience.perform a
    (v.perform (.drain name)).Shows b ∧ ∀ s, b.members.get? name = some s → s.unread = [] := by
  obtain ⟨k, receipts, hchannel, hdrained, hvalues, hall⟩ := exists_drained name (v.feed.channel.size + 2) a
  have hframes : (v.feed.drain name).1 = (if v.feed.ungreeted.contains name then [Frame.connected] else []) ++
      (Feed.receipts name (v.feed.channel.size + 2) v.feed.channel).1.filterMap Frame.ofReceipt? := rfl
  refine ⟨k, ⟨?_, h.published, h.nodup.erase name, fun other => ?_⟩, fun s hs => ?_⟩
  · rw [hchannel, ← h.channel]
    rfl
  · show Option.Rel (Streams (v.feed.ungreeted.erase name) other)
      ((v.streams.modify name (· ++ (v.feed.drain name).1)).get? other) _
    have hrel := h.streams other
    by_cases heq : other = name
    · subst heq
      rw [Table.get?_modify, hdrained.own]
      revert hrel
      generalize v.streams.get? other = stream
      generalize a.members.get? other = member
      intro hrel
      cases hrel with
      | none => exact .none
      | some hstream =>
        rw [← h.channel] at hvalues
        rw [hframes]
        exact .some (hstream.drain h.nodup hvalues)
    · rw [Table.get?_modify_of_ne heq, hdrained.others other heq]
      exact streams_of_iff (List.mem_erase_of_ne heq) hrel
  · rw [hdrained.own] at hs
    obtain ⟨s, hmember, rfl⟩ := Option.map_eq_some_iff.mp hs
    refine hall log s hfaithful hmember ?_
    rw [toCome, h.channel]
    split
    · omega
    · omega

/-! ## Runs -/

/-- What some calls have sent. -/
def sentIn (calls : List (ChannelCall Event)) : List Event :=
  calls.filterMap fun
    | .send value => some value
    | _ => none

theorem sentIn_append (calls more : List (ChannelCall Event)) :
    sentIn (calls ++ more) = sentIn calls ++ sentIn more := List.filterMap_append

theorem sentIn_sends (events : List Event) : sentIn (events.map .send) = events := by
  rw [sentIn, List.filterMap_map]
  exact List.filterMap_some

theorem sentIn_receives (name : String) (k : Nat) : sentIn (List.replicate k (.receive name)) = [] := by
  rw [sentIn, List.filterMap_replicate_of_none rfl]

theorem run_concat (buffer : Nat) (calls : List FeedCall) (call : FeedCall) :
    run buffer (calls ++ [call]) = (run buffer calls).perform call := by
  rw [run, run, List.foldl_append]
  rfl

/-- A feed is an audience of its channel: the same events are sent, and the frames are those of the members. -/
theorem exists_shows_run (buffer : Nat) (calls : List FeedCall) : ∃ trace : List (ChannelCall Event),
    (run buffer calls).Shows (.run buffer trace) ∧ sentIn trace = (run buffer calls).log := by
  induction calls using List.reverseRecOn with
  | nil => exact ⟨[], shows_opened buffer, rfl⟩
  | append_singleton calls call ih =>
    obtain ⟨trace, hshows, hsent⟩ := ih
    have happend (more : List (ChannelCall Event)) : Audience.run buffer (trace ++ more)
        = more.foldl Audience.perform (.run buffer trace) := List.foldl_append
    rw [run_concat]
    cases call with
    | publish events =>
      refine ⟨trace ++ events.map .send, ?_, ?_⟩
      · rw [happend]
        exact hshows.publish events
      · rw [sentIn_append, sentIn_sends, hsent]
        rfl
    | subscribe name =>
      refine ⟨trace ++ [.subscribe name], ?_, ?_⟩
      · rw [happend]
        exact hshows.subscribe name
      · rw [sentIn_append, hsent]
        exact List.append_nil _
    | drain name =>
      obtain ⟨log, hfaithful⟩ := Audience.exists_faithful_run buffer trace
      obtain ⟨k, hdrain, -⟩ := hshows.drain hfaithful name
      refine ⟨trace ++ List.replicate k (.receive name), ?_, ?_⟩
      · rw [happend]
        exact hdrain
      · rw [sentIn_append, hsent, sentIn_receives]
        exact List.append_nil _

/-- The frames of a stream, by the calls on the channel that come to the same. -/
structure Streamed (buffer : Nat) (calls : List FeedCall) (name : String) (frames : List Frame)
    (trace : List (ChannelCall Event)) (s : Subscription Event) : Prop where
  channel : (run buffer calls).feed.channel = (Audience.run buffer trace).channel
  log : (run buffer calls).log = sentIn trace
  member : (Audience.run buffer trace).members.get? name = some s
  /-- Nothing until it is drained, and then the greeting and a frame for each event received, named by its kind. -/
  frames : frames = [] ∧ s.receipts = [] ∨
    frames = Frame.connected :: s.received.map fun event => ⟨event.kind, event.toJson⟩

theorem exists_streamed {buffer : Nat} {calls : List FeedCall} {name : String} {frames : List Frame}
    (h : (run buffer calls).streams.get? name = some frames) :
    ∃ trace s, Streamed buffer calls name frames trace s := by
  obtain ⟨trace, hshows, hsent⟩ := exists_shows_run buffer calls
  obtain ⟨s, hmember, hstream⟩ := hshows.exists_member h
  refine ⟨trace, s, hshows.channel, hsent.symm, hmember, ?_⟩
  rw [hstream.frames, framesOf]
  cases hwaits : (run buffer calls).feed.ungreeted.contains name with
  | true => exact Or.inl ⟨rfl, hstream.waits (List.contains_iff_mem.mp hwaits)⟩
  | false => exact Or.inr rfl

/-- A stream that has been drained has been greeted, and there is nothing that it has not read. -/
theorem exists_streamed_drained {buffer : Nat} {calls : List FeedCall} {name : String} {frames : List Frame}
    (h : (run buffer (calls ++ [.drain name])).streams.get? name = some frames) :
    ∃ trace s, Streamed buffer (calls ++ [.drain name]) name frames trace s ∧ frames ≠ [] ∧ s.unread = [] := by
  obtain ⟨trace, hshows, hsent⟩ := exists_shows_run buffer calls
  obtain ⟨log, hfaithful⟩ := Audience.exists_faithful_run buffer trace
  obtain ⟨k, hdrain, hall⟩ := hshows.drain hfaithful name
  have hfold : (List.replicate k (.receive name)).foldl Audience.perform (.run buffer trace)
      = Audience.run buffer (trace ++ List.replicate k (.receive name)) := List.foldl_append.symm
  rw [hfold] at hdrain hall
  rw [run_concat] at h
  obtain ⟨s, hmember, hstream⟩ := hdrain.exists_member h
  have hgreeted : ((run buffer calls).perform (.drain name)).feed.ungreeted.contains name = false :=
    Bool.eq_false_iff.mpr fun hc => hshows.nodup.not_mem_erase (List.contains_iff_mem.mp hc)
  have hframes : frames = Frame.connected :: s.received.map fun event => ⟨event.kind, event.toJson⟩ := by
    rw [hstream.frames, framesOf, hgreeted]
    rfl
  refine ⟨trace ++ List.replicate k (.receive name), s, ⟨?_, ?_, hmember, Or.inr hframes⟩, ?_, hall s hmember⟩
  · rw [run_concat]
    exact hdrain.channel
  · rw [run_concat, sentIn_append, sentIn_receives, List.append_nil, hsent]
    rfl
  · rw [hframes]
    exact List.cons_ne_nil _ _

/-- For every size of the buffer. In every run of a channel, with any number of subscribers, a subscriber is told a
beginning of what is sent after it has subscribed, in that order and with the number of what it has missed, and it
misses only what the ring has no room for. In every run of the feed, the stream of a subscriber is that of such a
subscription: one frame that greets, and one frame for each event received; when it has been drained, there is nothing
left to receive. -/
theorem oldest_lost_and_counted (buffer : Nat) :
    (∀ (calls : List (ChannelCall Event)) (name : String) (s : Subscription Event),
      (Audience.run buffer calls).members.get? name = some s → Audience.Subscribed buffer calls name s) ∧
    (∀ (calls : List FeedCall) (name : String) (frames : List Frame),
      (run buffer calls).streams.get? name = some frames → ∃ trace s, Streamed buffer calls name frames trace s) ∧
    ∀ (calls : List FeedCall) (name : String) (frames : List Frame),
      (run buffer (calls ++ [.drain name])).streams.get? name = some frames →
        ∃ trace s, Streamed buffer (calls ++ [.drain name]) name frames trace s ∧ frames ≠ [] ∧ s.unread = [] :=
  ⟨fun _ _ _ hs => Audience.subscribed_run hs, fun _ _ _ h => exists_streamed h,
    fun _ _ _ h => exists_streamed_drained h⟩

/-- Three events and a ring of two: the first is lost, and the one after the report is the oldest in the ring. -/
theorem oldest_lost_and_counted_of_three :
    let first := Event.taskCreated (.ofNat 1)
    let second := Event.taskStarted (.ofNat 1)
    let third := Event.taskLost (.ofNat 1)
    let calls : List (ChannelCall Event) :=
      [.subscribe "slow", .send first, .send second, .send third, .receive "slow", .receive "slow"]
    let feed : List FeedCall := [.subscribe "page", .publish [first, second, third]]
    let told : Subscription Event := ⟨[first, second, third], [.lagged 1, .message second]⟩
    Audience.Subscribed 2 calls "slow" told ∧ told.filled = [first, second] ∧
      ∃ trace s, Streamed 2 (feed ++ [.drain "page"]) "page"
        [.connected, .ofEvent second, .ofEvent third] trace s ∧ s.unread = [] := by
  intro first second third calls feed told
  obtain ⟨hsubscribed, -, hdrained⟩ := oldest_lost_and_counted 2
  have hsize : (max 2 1).nextPowerOfTwo = 2 := by decide +kernel
  have hnew : (Channel.new 2 : Channel Event) = ⟨2, [], 0, []⟩ := by rw [Channel.new, hsize]
  have htold : (Audience.run 2 calls).members.get? "slow" = some told := by
    rw [Audience.run, Audience.gathered, hnew]
    rfl
  have hframes : (run 2 (feed ++ [.drain "page"])).streams.get? "page"
      = some [.connected, .ofEvent second, .ofEvent third] := by
    rw [run, opened, Feed.new, hnew]
    rfl
  obtain ⟨trace, s, hstreamed, -, hunread⟩ := hdrained feed "page" _ hframes
  exact ⟨hsubscribed calls "slow" told htold, rfl, trace, s, hstreamed, hunread⟩

end Screening

end Overseer.Http
