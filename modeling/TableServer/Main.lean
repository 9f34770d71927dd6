import TableServer.Client.CommandLine
import TableServer.Http.Wire
import TableServer.Service.Metrics
import TableServer.Service.Run
import TableServer.Service.Serving
import TableServer.Text.Uuid
import Std.Async.DNS
import Std.Async.Signal
import Std.Async.TCP
import Std.Sync.Mutex

/-! The programs: the service, and under the name of the client, the client. Files and connections
are handled here; what is done with them is decided elsewhere. -/

namespace TableServer.Program

open Std.Async

def fileErrorOf : IO.Error → FileError
  | .noFileOrDirectory .. => .notFound
  | .inappropriateType .. => .isDirectory
  | other => .other (toString other)

def readSlot (path : String) : IO Slot := do
  try
    return .file (← IO.FS.readBinFile path)
  catch error =>
    match fileErrorOf error with
    | .notFound => return .absent
    | cause => return ⟨none, ⟨some cause, none⟩⟩

/-- Does what an action does to a slot to the file itself. Where the file cannot be written, the
action is done as it goes in that case. -/
def onDisk {α : Type} (path : String) (slot : Slot) (action : Slot → α × Slot) : IO (α × Slot) := do
  let (result, after) := action slot
  match after.content? with
  | none => return (result, after)
  | some content =>
    if slot.content? == some content then return (result, after)
    try
      IO.FS.writeBinFile path content
      return (result, after)
    catch error =>
      return action (slot.permit ⟨slot.access.readError?, some (fileErrorOf error)⟩)

def answer (server : Server UserBase) (message : Message) (base : UserBase) :
    IO (Response × UserBase) := do
  let fresh := uuidOf (← IO.getRandomBytes 16).toList
  let id := uuidOf (← IO.getRandomBytes 16).toList
  let act (slot : Slot) : (Response × UserBase) × Slot :=
    let store := { base.store with slot := slot }
    let outcome := server.respond fresh message { base with store := store, ids := fun _ => id }
    (outcome, outcome.2.store.slot)
  return (← onDisk base.store.path .absent act).1

partial def receive {α : Type} (socket : TCP.Socket.Client) (read : List UInt8 → Arrival α)
    (buffer : ByteArray) : Async (Option α) := do
  match read buffer.toList with
  | .complete value => return some value
  | .malformed => return none
  | .incomplete =>
    match ← socket.recv? 65536 with
    | some bytes => receive socket read (buffer ++ bytes)
    | none => return none

structure Shared where
  base : UserBase
  metrics : Metrics

def serveConnection (server : Server UserBase) (shared : Std.Mutex Shared)
    (socket : TCP.Socket.Client) : Async Unit := do
  let response ← match ← receive socket (Wire.messageOf server.maxBodySize) ByteArray.empty with
    | none => pure (Response.empty 400)
    | some message =>
      shared.atomically do
        let before ← get
        let (response, base) ← answer server message before.base
        set (⟨base, before.metrics.record message.method response.status⟩ : Shared)
        return response
  socket.send (Wire.writeResponse response)
  socket.shutdown

def serveMetrics (shared : Std.Mutex Shared) (socket : TCP.Socket.Client) : Async Unit := do
  let _ ← receive socket (Wire.messageOf 0) ByteArray.empty
  let metrics ← shared.atomically do return (← get).metrics
  socket.send (Wire.writeResponse (.plain 200 metrics.render))
  socket.shutdown

/-- Takes one connection after the other, and does not wait for any of them. -/
partial def acceptAll (listener : TCP.Socket.Server) (handle : TCP.Socket.Client → Async Unit) :
    Async Unit := do
  let socket ← listener.accept
  background (do
    try handle socket
    catch error => IO.eprintln error)
  acceptAll listener handle

def waitForSignal : IO Unit := do
  let terminate ← (← Signal.Waiter.mk .sigterm false).wait
  let interrupt ← (← Signal.Waiter.mk .sigint false).wait
  discard (IO.waitAny [terminate, interrupt])

/-- A signal triggers the shutdown. -/
partial def waitForStop (serving : Serving) (shutdown : Shutdown) : IO Unit := do
  match serving.poll shutdown with
  | (.stopped, _) => return
  | (.listening subscriber, shutdown) =>
    waitForSignal
    waitForStop (.listening subscriber) shutdown.trigger.2

def socketAddressOf (address : SocketAddress) : Std.Net.SocketAddress :=
  match address.ip with
  | .v4 octets => .v4 ⟨⟨octets⟩, address.port⟩
  | .v6 groups _ => .v6 ⟨⟨groups⟩, address.port⟩

def failed (cause : RunError) : IO UInt32 := do
  IO.eprintln ("Error: " ++ cause.message)
  return 1

def listenOn (address : SocketAddress) : IO TCP.Socket.Server := do
  let listener ← TCP.Socket.Server.mk
  listener.bind (socketAddressOf address)
  listener.listen 1024
  return listener

def serve (application : Application) (listener : TCP.Socket.Server)
    (metricsListener : Option TCP.Socket.Server) : IO UInt32 := do
  let shared ← Std.Mutex.new (⟨⟨application.store, fun _ => "", 0⟩, .none⟩ : Shared)
  IO.println ("Listening on " ++ toString (← listener.getSockName))
  discard (acceptAll listener (serveConnection application.server shared)).toIO
  for listener in metricsListener do
    discard (acceptAll listener (serveMetrics shared)).toIO
  let (subscriber, shutdown) := Shutdown.new.subscribe
  waitForStop (.listening subscriber) shutdown
  shared.atomically do
    let store := (← get).base.store
    let flushed (slot : Slot) : Except StoreError Unit × Slot :=
      let (result, after) := { store with slot := slot : Store }.flush
      (result, after.slot)
    match (← onDisk store.path .absent flushed).1 with
    | .ok () => return 0
    | .error cause => failed (.flush cause)

def bindErrorOf (error : IO.Error) : BindError := .other (toString error)

def listenAt (text : String) : IO (Except BindError TCP.Socket.Server) := do
  match Listener.resolve text with
  | .error cause => return .error cause
  | .ok address =>
    try return .ok (← listenOn address)
    catch error => return .error (bindErrorOf error)

def startService (config : Config) (metricsListener : Option TCP.Socket.Server) : IO UInt32 := do
  let path := config.storage.path
  let start (slot : Slot) : Except StartupError Application × Slot :=
    (Application.start Listener.resolve config slot, Application.slotAfterStart config slot)
  match (← onDisk path (← readSlot path) start).1 with
  | .error cause => failed (.startup cause)
  | .ok application =>
    match ← listenAt config.listener.bindAddress with
    | .error cause => failed (.startup (.bind config.listener.bindAddress cause))
    | .ok listener => serve application listener metricsListener

def startConfigured (config : Config) : IO UInt32 := do
  let observability := config.observability
  if observability.metricsEnabled then
    match ← listenAt observability.metricsAddress with
    | .error cause => failed (.metrics observability.metricsAddress cause)
    | .ok listener => startService config (some listener)
  else startService config none

def runService (arguments : List String) : IO UInt32 := do
  match Service.spec.read arguments with
  | .help => IO.print Service.helpText; return 0
  | .version => IO.println (Service.name ++ " " ++ Service.version); return 0
  | .complete read =>
    let wanted := Service.argumentsOf read
    let file ← wanted.configFile.mapM readSlot
    match Service.configure file wanted.overrides with
    | .error cause => failed cause
    | .ok config => startConfigured config
  | _ => IO.eprint Service.helpText; return 2

/-- Sends a message to the host it names, and waits for the whole answer. -/
def exchange (message : Message) : Async (Option Response) := do
  let host := (message.headers.first? "host").getD ""
  let reversed := host.toList.reverse
  let (name, port) := match reversed.dropWhile (· != ':') with
    | _ :: name => (name.reverse, (reversed.takeWhile (· != ':')).reverse)
    | [] => (host.toList, "80".toList)
  let number := UInt16.ofNat (valueInBase 10 port)
  let addresses ← DNS.getAddrInfo (String.ofList name) (String.ofList port)
  match addresses.toList with
  | [] => return none
  | first :: _ =>
    let socket ← TCP.Socket.Client.mk
    let address : Std.Net.SocketAddress := match first with
      | .v4 address => .v4 ⟨address, number⟩
      | .v6 address => .v6 ⟨address, number⟩
    socket.connect address
    socket.send (Wire.writeMessage message)
    receiveAll socket ByteArray.empty
where
  receiveAll (socket : TCP.Socket.Client) (buffer : ByteArray) : Async (Option Response) := do
    let mut bytes := buffer
    repeat
      match ← socket.recv? 65536 with
      | some more => bytes := bytes ++ more
      | none => break
    return Wire.responseOf? bytes.toList

def runClient (arguments : List String) : IO UInt32 := do
  let transport : Transport (Option Message) := fun message _ => (none, some message)
  let (offline, message) := Client.run transport arguments none
  let output ← match message with
    | none => pure offline
    | some message =>
      let response ← try (exchange message).block catch _ => pure none
      let online : Transport (Option Message) := fun _ state => (response, state)
      pure (Client.run online arguments (some message)).1
  IO.print output.out
  IO.eprint output.err
  return UInt32.ofNat output.exit

end TableServer.Program

open TableServer.Program in
def main (arguments : List String) : IO UInt32 := do
  if (← IO.appPath).fileName == some "jsontable-cli" then runClient arguments
  else runService arguments
