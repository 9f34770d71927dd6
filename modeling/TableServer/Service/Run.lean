import TableServer.CommandLine.Options
import TableServer.Service.Startup

/-! A run of the service from its command line to its end: the configuration is put together, the
service is started, it serves until it is told to stop, and the store is written once more. -/

namespace TableServer

structure ServiceArguments where
  configFile : Option String
  overrides : Overrides
deriving DecidableEq

inductive RunError where
  | config (cause : ConfigError)
  | metrics (address : String) (cause : BindError)
  | startup (cause : StartupError)
  | flush (cause : StoreError)
deriving DecidableEq

def RunError.message : RunError → String
  | config cause => cause.message
  | metrics address cause => "Failed to serve metrics on " ++ address ++ ": " ++ cause.message
  | startup cause => cause.message
  | flush cause => cause.message

namespace Service

def name : String := "jsontable"

def version : String := "0.1.0"

def spec : CommandSpec where
  options := [⟨"config", some 'c', false⟩, ⟨"bind", some 'b', true⟩, ⟨"storage", some 's', false⟩]
  operands := 0
  hasVersion := true
  hasCommands := false

def argumentsOf (arguments : Arguments) : ServiceArguments :=
  ⟨arguments.value? "config", ⟨arguments.value? "bind", arguments.value? "storage"⟩⟩

def helpText : String :=
  "JSON-file table store with an HTTP API\n\nUsage: " ++ name ++ " [OPTIONS]\n\nOptions:\n" ++
    "  -c, --config <CONFIG>    TOML configuration file\n" ++
    "  -b, --bind <BIND>        Listen address (host:port), overrides the config file\n" ++
    "  -s, --storage <STORAGE>  Storage file, overrides the config file\n" ++
    "  -h, --help               Print help\n" ++
    "  -V, --version            Print version\n"

def configure (file : Option Slot) (overrides : Overrides) : Except RunError Config :=
  match Config.assemble file overrides with
  | .ok config => .ok config
  | .error cause => .error (.config cause)

def serveMetrics (bind : Application.Binding) (config : Config) : Except RunError Unit :=
  if config.observability.metricsEnabled then
    match bind config.observability.metricsAddress with
    | .ok _ => .ok ()
    | .error cause => .error (.metrics config.observability.metricsAddress cause)
  else .ok ()

inductive Ending where
  | usageError
  | information
  | failed (cause : RunError)
  | stopped (flushed : Except StoreError Unit)

structure Run where
  ending : Ending
  storage : Option (String × Slot)

def runConfigured (bind : Application.Binding) (files : String → Slot) (config : Config) : Run :=
  let path := config.storage.path
  match serveMetrics bind config with
  | .error cause => ⟨.failed cause, none⟩
  | .ok () =>
    match Application.start bind config (files path) with
    | .error cause =>
      ⟨.failed (.startup cause), some (path, Application.slotAfterStart config (files path))⟩
    | .ok application =>
      let (flushed, store) := application.store.flush
      ⟨.stopped flushed, some (path, store.slot)⟩

def runWith (bind : Application.Binding) (files : String → Slot) (arguments : ServiceArguments) :
    Run :=
  match configure (arguments.configFile.map files) arguments.overrides with
  | .error cause => ⟨.failed cause, none⟩
  | .ok config => runConfigured bind files config

def run (bind : Application.Binding) (files : String → Slot) (arguments : List String) : Run :=
  match spec.read arguments with
  | .complete read => runWith bind files (argumentsOf read)
  | .help => ⟨.information, none⟩
  | .version => ⟨.information, none⟩
  | _ => ⟨.usageError, none⟩

def Ending.exitCode : Ending → Nat
  | usageError => 2
  | information => 0
  | failed _ => 1
  | stopped (.error _) => 1
  | stopped (.ok _) => 0

def Ending.hasListened : Ending → Bool
  | stopped _ => true
  | _ => false

end Service

end TableServer
