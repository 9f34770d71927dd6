import TableServer.Config.Setting
import TableServer.Store.Basic

/-! The configuration of the server. Every section and every field has a default. -/

namespace TableServer

structure ListenerConfig where
  bindAddress : String := "0.0.0.0:3000"
deriving DecidableEq

structure StorageConfig where
  path : String := "storage.json"
  insertPersistence : InsertPersistence := .awaited
deriving DecidableEq

structure TimeoutConfig where
  requestSeconds : Nat := 30
deriving DecidableEq

structure LimitsConfig where
  maxBodySize : Nat := 2 * 1024 * 1024
deriving DecidableEq

structure ObservabilityConfig where
  logFilter : String := "jsontable=debug,tower_http=debug"
  jsonLogs : Bool := false
  metricsEnabled : Bool := false
  metricsAddress : String := "0.0.0.0:9090"
deriving DecidableEq

structure Config where
  listener : ListenerConfig := {}
  storage : StorageConfig := {}
  timeouts : TimeoutConfig := {}
  limits : LimitsConfig := {}
  observability : ObservabilityConfig := {}
deriving DecidableEq

def InsertPersistence.name : InsertPersistence → String
  | awaited => "awaited"
  | detached => "detached"

def InsertPersistence.ofName? (name : String) : Option InsertPersistence :=
  if name = "awaited" then some .awaited
  else if name = "detached" then some .detached
  else none

namespace Config

def default : Config := {}

section Reading

variable (rules : SettingRules)

def listenerOf? (setting : Setting) : Option ListenerConfig := do
  let fields ← setting.fields? rules ["bind_address"]
  pure ⟨← Setting.field? fields "bind_address" Setting.text? default.listener.bindAddress⟩

def storageOf? (setting : Setting) : Option StorageConfig := do
  let fields ← setting.fields? rules ["path", "insert_persistence"]
  let mode (setting : Setting) : Option InsertPersistence :=
    (setting.choice? rules).bind InsertPersistence.ofName?
  pure ⟨← Setting.field? fields "path" Setting.text? default.storage.path,
    ← Setting.field? fields "insert_persistence" mode default.storage.insertPersistence⟩

def timeoutsOf? (setting : Setting) : Option TimeoutConfig := do
  let fields ← setting.fields? rules ["request_secs"]
  pure ⟨← Setting.field? fields "request_secs" Setting.natural? default.timeouts.requestSeconds⟩

def limitsOf? (setting : Setting) : Option LimitsConfig := do
  let fields ← setting.fields? rules ["max_body_size"]
  pure ⟨← Setting.field? fields "max_body_size" Setting.natural? default.limits.maxBodySize⟩

def observabilityOf? (setting : Setting) : Option ObservabilityConfig := do
  let fields ← setting.fields? rules
    ["log_filter", "json_logs", "metrics_enabled", "metrics_address"]
  let standard := default.observability
  pure ⟨← Setting.field? fields "log_filter" Setting.text? standard.logFilter,
    ← Setting.field? fields "json_logs" Setting.flag? standard.jsonLogs,
    ← Setting.field? fields "metrics_enabled" Setting.flag? standard.metricsEnabled,
    ← Setting.field? fields "metrics_address" Setting.text? standard.metricsAddress⟩

/-- The configuration that a document gives; keys that name nothing are passed over. -/
def ofSetting? (setting : Setting) : Option Config := do
  let sections ← setting.fields? rules
    ["listener", "storage", "timeouts", "limits", "observability"]
  pure ⟨← Setting.field? sections "listener" (listenerOf? rules) default.listener,
    ← Setting.field? sections "storage" (storageOf? rules) default.storage,
    ← Setting.field? sections "timeouts" (timeoutsOf? rules) default.timeouts,
    ← Setting.field? sections "limits" (limitsOf? rules) default.limits,
    ← Setting.field? sections "observability" (observabilityOf? rules) default.observability⟩

end Reading

def ofJson? (document : Json) : Option Config :=
  ofSetting? .json (.ofJson document)

def toJson (config : Config) : Json :=
  .object [
    ("listener", .object [("bind_address", .string config.listener.bindAddress)]),
    ("storage", .object [("path", .string config.storage.path),
      ("insert_persistence", .string config.storage.insertPersistence.name)]),
    ("timeouts", .object [("request_secs", .ofNat config.timeouts.requestSeconds)]),
    ("limits", .object [("max_body_size", .ofNat config.limits.maxBodySize)]),
    ("observability", .object [("log_filter", .string config.observability.logFilter),
      ("json_logs", .bool config.observability.jsonLogs),
      ("metrics_enabled", .bool config.observability.metricsEnabled),
      ("metrics_address", .string config.observability.metricsAddress)])]

end Config

end TableServer
