import TableServer.Service.Shutdown

/-! How long a server serves: until the shutdown that it has subscribed to is triggered. -/

namespace TableServer

inductive Serving where
  | listening (subscriber : Nat)
  | stopped
deriving DecidableEq

inductive ServingEvent where
  /-- The server looks whether it is to stop. -/
  | poll
  /-- Somebody else uses the shutdown. -/
  | outside (event : ShutdownEvent)
deriving DecidableEq

namespace Serving

/-- Whatever is received stops the server, also that triggers were lost. Its subscription ends
then. -/
def poll (shutdown : Shutdown) : Serving → Serving × Shutdown
  | stopped => (stopped, shutdown)
  | listening subscriber =>
    match shutdown.receive subscriber with
    | (.empty, shutdown) => (listening subscriber, shutdown)
    | (_, shutdown) => (stopped, shutdown.drop subscriber)

def happen (state : Serving × Shutdown) : ServingEvent → Serving × Shutdown
  | .poll => state.1.poll state.2
  | .outside event => (state.1, (state.2.happen event).2)

end Serving

end TableServer
