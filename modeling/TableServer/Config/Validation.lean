import TableServer.Config.Basic
import TableServer.Net.SocketAddress

/-! What a configuration must satisfy, rule by rule. All violations are reported, in the order of
the rules. -/

namespace TableServer

inductive Violation where
  | invalidAddress (field value : String)
  | empty (field : String)
  | zero (field : String)
deriving DecidableEq

def Violation.message : Violation → String
  | invalidAddress field value => field ++ ": '" ++ value ++ "' is not a valid socket address"
  | empty field => field ++ " must not be empty"
  | zero field => field ++ " must be greater than zero"

namespace Config

def addressViolations (field value : String) : List Violation :=
  if (SocketAddress.ofText? value).isSome then [] else [.invalidAddress field value]

def listenerViolations (config : Config) : List Violation :=
  addressViolations "listener.bind_address" config.listener.bindAddress

def storageViolations (config : Config) : List Violation :=
  if config.storage.path.isEmpty then [.empty "storage.path"] else []

def timeoutViolations (config : Config) : List Violation :=
  if config.timeouts.requestSeconds = 0 then [.zero "timeouts.request_secs"] else []

def limitViolations (config : Config) : List Violation :=
  if config.limits.maxBodySize = 0 then [.zero "limits.max_body_size"] else []

/-- The address of the metrics matters only where metrics are served. -/
def metricsViolations (config : Config) : List Violation :=
  if config.observability.metricsEnabled then
    addressViolations "observability.metrics_address" config.observability.metricsAddress
  else []

def violations (config : Config) : List Violation :=
  config.listenerViolations ++ config.storageViolations ++ config.timeoutViolations ++
    config.limitViolations ++ config.metricsViolations

end Config

end TableServer
