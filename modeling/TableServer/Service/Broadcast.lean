/-! A channel that tells every subscriber of each message sent after it has subscribed. The latest
messages are kept, as many as there is room for. A subscriber that has fallen further behind learns
how many it has lost, and goes on with the oldest that is kept. Messages carry nothing, so they are
only counted. -/

namespace TableServer

inductive Reception where
  | received
  /-- There is nothing to receive, and a subscriber that wants a message waits. -/
  | empty
  | lagged (lost : Nat)
  | dropped
deriving DecidableEq

/-- The number of messages sent, and for each subscriber the number it has passed; a subscriber that
is gone has none. -/
structure Broadcast where
  capacity : Nat
  sent : Nat
  subscribers : List (Option Nat)
deriving DecidableEq

namespace Broadcast

def new (capacity : Nat) : Broadcast := ⟨capacity, 0, []⟩

def subscribe (channel : Broadcast) : Nat × Broadcast :=
  (channel.subscribers.length,
    { channel with subscribers := channel.subscribers ++ [some channel.sent] })

def receiverCount (channel : Broadcast) : Nat :=
  channel.subscribers.countP Option.isSome

/-- The number of subscribers to be told. Without any the message is refused. -/
def send (channel : Broadcast) : Option Nat × Broadcast :=
  if channel.receiverCount = 0 then (none, channel)
  else (some channel.receiverCount, { channel with sent := channel.sent + 1 })

def drop (channel : Broadcast) (id : Nat) : Broadcast :=
  { channel with subscribers := channel.subscribers.set id none }

def moveTo (channel : Broadcast) (id position : Nat) : Broadcast :=
  { channel with subscribers := channel.subscribers.set id (some position) }

/-- The number of messages that are kept. -/
def kept (channel : Broadcast) : Nat :=
  min channel.capacity channel.sent

def receive (channel : Broadcast) (id : Nat) : Reception × Broadcast :=
  match channel.subscribers[id]?.join with
  | none => (.dropped, channel)
  | some passed =>
    let behind := channel.sent - passed
    if behind = 0 then (.empty, channel)
    else if behind ≤ channel.kept then (.received, channel.moveTo id (passed + 1))
    else (.lagged (behind - channel.kept), channel.moveTo id (channel.sent - channel.kept))

end Broadcast

end TableServer
