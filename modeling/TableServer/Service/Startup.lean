import TableServer.Config.Loading
import TableServer.Http.Server
import TableServer.Net.Listener
import TableServer.Users.Api

/-! Starting the service: the store is opened, the routes are set up, and the listener is bound last,
so that requests arrive only when all else is ready. The first failure ends the start. -/

namespace TableServer

inductive StartupError where
  | store (cause : StoreError)
  | bind (address : String) (cause : BindError)
deriving DecidableEq

def StartupError.message : StartupError → String
  | store cause => "Failed to open store: " ++ cause.message
  | bind address cause => "Failed to bind " ++ address ++ ": " ++ cause.message

structure Application where
  store : Store
  server : Server UserBase
  address : SocketAddress

namespace Application

def serverOf (config : Config) : Server UserBase :=
  ⟨Users.router.withBodyLimit config.limits.maxBodySize, config.limits.maxBodySize⟩

abbrev Binding := String → Except BindError SocketAddress

def openStore (config : Config) (slot : Slot) : Except StoreError Store :=
  Store.openAt config.storage.path config.storage.insertPersistence slot

def start (bind : Binding) (config : Config) (slot : Slot) : Except StartupError Application :=
  match openStore config slot with
  | .error cause => .error (.store cause)
  | .ok store =>
    match bind config.listener.bindAddress with
    | .error cause => .error (.bind config.listener.bindAddress cause)
    | .ok address => .ok ⟨store, serverOf config, address⟩

/-- The storage file after a start, which a store may have written though the start failed later. -/
def slotAfterStart (config : Config) (slot : Slot) : Slot :=
  match openStore config slot with
  | .error _ => slot
  | .ok store => store.slot

end Application

end TableServer
