import Overseer.Event.Basic
import Overseer.Event.Channel

/-! # The stream of events

A subscriber of the stream first gets a frame that says it is connected, and then a frame for each event,
named by the kind of the event. Events that a slow subscriber has missed leave no frame.
-/

namespace Overseer.Http

structure Frame where
  event : String
  data : Json
  deriving Repr

namespace Frame

def connected : Frame := ⟨"connected", .obj []⟩

def ofEvent (e : Event) : Frame := ⟨e.kind, e.toJson⟩

def ofReceipt? : Receipt Event → Option Frame
  | .message e => some (ofEvent e)
  | _ => none

def toJson (f : Frame) : Json := .object [("event", .string f.event), ("data", f.data)]

end Frame

structure Feed where
  channel : Channel Event
  /-- How many events have been passed on to the channel. -/
  published : Nat
  /-- The subscribers that have not got their first frame. -/
  ungreeted : List String
  deriving Repr

namespace Feed

def new (buffer : Nat) : Feed := ⟨.new buffer, 0, []⟩

/-- Passes on what has happened since the last time. -/
def publish (f : Feed) (events : List Event) : Feed :=
  { f with
    channel := (events.drop f.published).foldl Channel.send f.channel
    published := events.length }

def subscribe (f : Feed) (name : String) : Feed :=
  { f with
    channel := f.channel.subscribe name
    ungreeted := name :: f.ungreeted.erase name }

def isEnd : Receipt Event → Bool
  | .empty | .noSubscriber => true
  | _ => false

/-- All that a subscriber can receive without waiting. -/
def receipts (name : String) : Nat → Channel Event → List (Receipt Event) × Channel Event
  | 0, c => ([], c)
  | n + 1, c =>
      let (receipt, c) := c.receive name
      if isEnd receipt then ([], c)
      else
        let (rest, c) := receipts name n c
        (receipt :: rest, c)

def drain (f : Feed) (name : String) : List Frame × Feed :=
  let (received, channel) := receipts name (f.channel.size + 2) f.channel
  let greeting := if f.ungreeted.contains name then [Frame.connected] else []
  (greeting ++ received.filterMap Frame.ofReceipt?,
    { f with channel := channel, ungreeted := f.ungreeted.erase name })

end Feed

end Overseer.Http
