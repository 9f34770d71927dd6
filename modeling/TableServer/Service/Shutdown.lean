import TableServer.Service.Broadcast

/-! Telling every subscriber that the service stops. All handles share one channel, which keeps the
latest trigger only. -/

namespace TableServer

inductive ShutdownEvent where
  | clone
  | subscribe
  | trigger
  | drop (id : Nat)
  | receive (id : Nat)
deriving DecidableEq

inductive ShutdownAnswer where
  /-- The number of a new handle or a new subscriber. -/
  | number (value : Nat)
  | done
  | reception (found : Reception)
deriving DecidableEq

structure Shutdown where
  handles : Nat
  channel : Broadcast
deriving DecidableEq

namespace Shutdown

def new : Shutdown := ⟨1, .new 1⟩

def clone (shutdown : Shutdown) : Nat × Shutdown :=
  (shutdown.handles, { shutdown with handles := shutdown.handles + 1 })

def subscribe (shutdown : Shutdown) : Nat × Shutdown :=
  let (id, channel) := shutdown.channel.subscribe
  (id, { shutdown with channel := channel })

def receiverCount (shutdown : Shutdown) : Nat :=
  shutdown.channel.receiverCount

/-- The number of subscribers that are told. That the channel refuses is no failure: there is nobody
to tell. -/
def trigger (shutdown : Shutdown) : Nat × Shutdown :=
  let (told, channel) := shutdown.channel.send
  (told.getD 0, { shutdown with channel := channel })

def drop (shutdown : Shutdown) (id : Nat) : Shutdown :=
  { shutdown with channel := shutdown.channel.drop id }

def receive (shutdown : Shutdown) (id : Nat) : Reception × Shutdown :=
  let (reception, channel) := shutdown.channel.receive id
  (reception, { shutdown with channel := channel })

def happen (shutdown : Shutdown) : ShutdownEvent → ShutdownAnswer × Shutdown
  | .clone => (.number shutdown.clone.1, shutdown.clone.2)
  | .subscribe => (.number shutdown.subscribe.1, shutdown.subscribe.2)
  | .trigger => (.done, shutdown.trigger.2)
  | .drop id => (.done, shutdown.drop id)
  | .receive id => (.reception (shutdown.receive id).1, (shutdown.receive id).2)

end Shutdown

end TableServer
