import TableServer.Config.Validation
import TableServer.Toml.Reader

/-! Where the configuration of a run comes from: the defaults or a file, and then the command line.
A file is validated as it is loaded, and the whole once more when the overrides are in. -/

namespace TableServer

inductive ConfigError where
  | unreadable (message : String)
  | unparsable
  | invalid (violations : List Violation)
deriving DecidableEq

def ConfigError.message : ConfigError → String
  | unreadable message => "IO error: " ++ message
  | unparsable => "Parse error: the document does not describe a configuration"
  | invalid violations => "Validation failed: " ++ ", ".intercalate (violations.map Violation.message)

structure Overrides where
  bindAddress : Option String
  storagePath : Option String
deriving DecidableEq

namespace Config

def parse (text : String) : Except ConfigError Config :=
  match (Toml.read? text).bind (ofSetting? .toml) with
  | some config => .ok config
  | none => .error .unparsable

def validated (config : Config) : Except ConfigError Config :=
  match config.violations with
  | [] => .ok config
  | violations => .error (.invalid violations)

def readText (slot : Slot) : Except ConfigError String :=
  match slot.read with
  | .error cause => .error (.unreadable cause.message)
  | .ok content =>
    match String.fromUTF8? content with
    | some text => .ok text
    | none => .error (.unreadable "stream did not contain valid UTF-8")

def load (slot : Slot) : Except ConfigError Config :=
  match readText slot with
  | .error error => .error error
  | .ok text =>
    match parse text with
    | .error error => .error error
    | .ok config => config.validated

def overridden (config : Config) (overrides : Overrides) : Config :=
  { config with
    listener := ⟨overrides.bindAddress.getD config.listener.bindAddress⟩
    storage := { config.storage with path := overrides.storagePath.getD config.storage.path } }

/-- The configuration of a run; without a file it starts from the defaults. -/
def assemble (file : Option Slot) (overrides : Overrides) : Except ConfigError Config :=
  let loaded := match file with
    | some slot => load slot
    | none => .ok default
  match loaded with
  | .error error => .error error
  | .ok config => (config.overridden overrides).validated

end Config

end TableServer
