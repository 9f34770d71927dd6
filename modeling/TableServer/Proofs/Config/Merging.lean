import TableServer.Proofs.Store.RoundTrip
import TableServer.Service.Run

/-! Which configurations a run of the service accepts. The rules are a list, and what is reported is
all that is broken, in its order. A file has to satisfy the rules as it stands, and once more with
the overrides of the command line in it, so a value may be refused that is overridden. -/

namespace TableServer

namespace Config

/-- A rule, and what is reported of a configuration that breaks it. -/
structure Rule where
  isSatisfied : Config → Bool
  violation : Config → Violation

def addressRule (field : String) (applies : Config → Bool) (value : Config → String) : Rule where
  isSatisfied config := !applies config || (SocketAddress.ofText? (value config)).isSome
  violation config := .invalidAddress field (value config)

def filledRule (field : String) (value : Config → String) : Rule where
  isSatisfied config := !(value config).isEmpty
  violation _ := .empty field

def positiveRule (field : String) (value : Config → Nat) : Rule where
  isSatisfied config := decide (0 < value config)
  violation _ := .zero field

def rules : List Rule :=
  [addressRule "listener.bind_address" (fun _ => true) (·.listener.bindAddress),
    filledRule "storage.path" (·.storage.path),
    positiveRule "timeouts.request_secs" (·.timeouts.requestSeconds),
    positiveRule "limits.max_body_size" (·.limits.maxBodySize),
    addressRule "observability.metrics_address" (·.observability.metricsEnabled)
      (·.observability.metricsAddress)]

def Satisfactory (config : Config) : Prop :=
  ∀ rule ∈ rules, rule.isSatisfied config = true

instance (config : Config) : Decidable config.Satisfactory :=
  inferInstanceAs (Decidable (∀ rule ∈ rules, rule.isSatisfied config = true))

def Rule.reports (rule : Rule) (config : Config) : List Violation :=
  if rule.isSatisfied config then [] else [rule.violation config]

def reported (config : Config) : List Violation :=
  rules.flatMap fun rule => rule.reports config

theorem reports_addressRule (field : String) (applies : Config → Bool) (value : Config → String)
    (config : Config) :
    (addressRule field applies value).reports config =
      if applies config then addressViolations field (value config) else [] := by
  cases applied : applies config <;> simp [Rule.reports, addressRule, addressViolations, applied]

theorem reports_filledRule (field : String) (value : Config → String) (config : Config) :
    (filledRule field value).reports config =
      if (value config).isEmpty then [.empty field] else [] := by
  cases empty : (value config).isEmpty <;> simp [Rule.reports, filledRule, empty]

theorem reports_positiveRule (field : String) (value : Config → Nat) (config : Config) :
    (positiveRule field value).reports config = if value config = 0 then [.zero field] else [] := by
  by_cases zero : value config = 0 <;>
    simp [Rule.reports, positiveRule, zero, Nat.pos_iff_ne_zero]

theorem violations_eq_reported (config : Config) : config.violations = config.reported := by
  simp only [reported, rules, List.flatMap_cons, List.flatMap_nil, reports_addressRule,
    reports_filledRule, reports_positiveRule, List.append_nil, ← List.append_assoc]
  rfl

theorem reported_eq_nil_iff (config : Config) : config.reported = [] ↔ config.Satisfactory := by
  have silent (rule : Rule) : rule.reports config = [] ↔ rule.isSatisfied config = true := by
    rw [Rule.reports]
    split <;> simp [*]
  rw [reported, List.flatMap_eq_nil_iff]
  exact forall₂_congr fun rule _ => silent rule

theorem validated_eq (config : Config) :
    config.validated =
      if config.Satisfactory then .ok config else .error (.invalid config.reported) := by
  unfold validated
  rw [violations_eq_reported]
  split
  · rename_i nothing
    rw [if_pos ((reported_eq_nil_iff config).mp nothing)]
  · rename_i something
    rw [if_neg (mt (reported_eq_nil_iff config).mpr something)]

theorem load_eq {slot : Slot} {text : String} {config : Config}
    (readable : readText slot = .ok text) (parsed : parse text = .ok config) :
    load slot = config.validated := by
  simp only [load, readable, parsed]

/-- The file is judged before the overrides are in. -/
theorem assemble_eq {slot : Slot} {text : String} {config : Config}
    (readable : readText slot = .ok text) (parsed : parse text = .ok config)
    (overrides : Overrides) :
    assemble (some slot) overrides =
      if config.Satisfactory then (config.overridden overrides).validated
      else .error (.invalid config.reported) := by
  by_cases satisfactory : config.Satisfactory
  · simp only [assemble, load_eq readable parsed, validated_eq config, if_pos satisfactory]
  · simp only [assemble, load_eq readable parsed, validated_eq config, if_neg satisfactory]

end Config

namespace Service

def stopped (violations : List Violation) : Run :=
  ⟨.failed (.config (.invalid violations)), none⟩

/-- The run that a configuration leads to by itself. -/
def runAlone (bind : Application.Binding) (files : String → Slot) (config : Config) : Run :=
  if config.Satisfactory then runConfigured bind files config else stopped config.reported

theorem runConfigured_ne_stopped (bind : Application.Binding) (files : String → Slot)
    (config : Config) (violations : List Violation) :
    runConfigured bind files config ≠ stopped violations := by
  intro same
  have ending := congrArg Run.ending same
  simp only [runConfigured, stopped] at ending
  split at ending
  · rename_i cause failed
    rw [serveMetrics] at failed
    split at failed
    · split at failed
      · cases failed
      · cases failed
        cases ending
    · cases failed
  · split at ending
    · cases ending
    · cases ending

theorem runWith_of_assembled {files : String → Slot} {path : String} {overrides : Overrides}
    {merged : Config}
    (assembled : Config.assemble (some (files path)) overrides = merged.validated)
    (bind : Application.Binding) :
    runWith bind files ⟨some path, overrides⟩ = runAlone bind files merged := by
  rw [Config.validated_eq] at assembled
  by_cases satisfactory : merged.Satisfactory
  · rw [if_pos satisfactory] at assembled
    simp only [runWith, configure, Option.map_some, assembled, runAlone, if_pos satisfactory]
  · rw [if_neg satisfactory] at assembled
    simp only [runWith, configure, Option.map_some, assembled, runAlone, if_neg satisfactory, stopped]

theorem stopped_eq_runAlone_iff {bind : Application.Binding} {files : String → Slot}
    {broken : Config} (isBroken : ¬broken.Satisfactory) (config : Config) :
    stopped broken.reported = runAlone bind files config ↔ broken.reported = config.reported := by
  rw [runAlone]
  split
  · rename_i satisfactory
    have nothing := (Config.reported_eq_nil_iff config).mpr satisfactory
    have something := mt (Config.reported_eq_nil_iff broken).mp isBroken
    constructor
    · intro same
      exact absurd same.symm (runConfigured_ne_stopped bind files config _)
    · intro same
      exact absurd (same.trans nothing) something
  · simp [stopped]

theorem run_of_complete {arguments : List String} {given : Arguments}
    (complete : spec.read arguments = .complete given) (bind : Application.Binding)
    (files : String → Slot) : run bind files arguments = runWith bind files (argumentsOf given) := by
  rw [run, complete]

/-- With a file that describes a configuration, a run is that of the configuration with the
overrides in it, provided that the file satisfies the rules without them. A file that does not is
refused for what it breaks itself, so the run is another one unless the overrides change nothing
about that. -/
theorem run_outcome (bind : Application.Binding) {files : String → Slot} {path text : String}
    {config : Config} (readable : Config.readText (files path) = .ok text)
    (parsed : Config.parse text = .ok config) {arguments : List String} {given : Arguments}
    (complete : spec.read arguments = .complete given) {overrides : Overrides}
    (asked : argumentsOf given = ⟨some path, overrides⟩) :
    let merged := config.overridden overrides
    let outcome := run bind files arguments
    (config.Satisfactory → outcome = runAlone bind files merged) ∧
    (¬config.Satisfactory → outcome = stopped config.reported) ∧
    (outcome = runAlone bind files merged ↔
      config.Satisfactory ∨ config.reported = merged.reported) := by
  intro merged outcome
  have assembled := Config.assemble_eq readable parsed overrides
  have entry : outcome = runWith bind files ⟨some path, overrides⟩ :=
    asked ▸ run_of_complete complete bind files
  have accepted (satisfactory : config.Satisfactory) : outcome = runAlone bind files merged := by
    rw [if_pos satisfactory] at assembled
    exact entry.trans (runWith_of_assembled assembled bind)
  have refused (broken : ¬config.Satisfactory) : outcome = stopped config.reported := by
    rw [if_neg broken] at assembled
    simp only [entry, runWith, configure, Option.map_some, assembled, stopped]
  refine ⟨accepted, refused, ?_⟩
  by_cases satisfactory : config.Satisfactory
  · simp [satisfactory, accepted satisfactory]
  · rw [refused satisfactory, stopped_eq_runAlone_iff satisfactory]
    simp [satisfactory]

def nowhere : Config :=
  { Config.default with listener := ⟨"nope"⟩ }

def nowhereText : String :=
  "[listener]\nbind_address = \"nope\"\n"

def nowhereFiles : String → Slot :=
  fun _ => .file nowhereText.toUTF8

theorem run_outcome_of_nowhere :
    let arguments := ["--config", "config.toml", "--bind", "127.0.0.1:0"]
    let somewhere : Overrides := ⟨some "127.0.0.1:0", none⟩
    let given : Arguments := ⟨[("config", "config.toml"), ("bind", "127.0.0.1:0")], []⟩
    let outcome := run Listener.bind nowhereFiles arguments
    spec.read arguments = .complete given ∧ argumentsOf given = ⟨some "config.toml", somewhere⟩ ∧
      Config.readText (nowhereFiles "config.toml") = .ok nowhereText ∧
      Config.parse nowhereText = .ok nowhere ∧ ¬nowhere.Satisfactory ∧
      (nowhere.overridden somewhere).Satisfactory ∧
      outcome = stopped [.invalidAddress "listener.bind_address" "nope"] ∧
      outcome ≠ runAlone Listener.bind nowhereFiles (nowhere.overridden somewhere) := by
  intro arguments somewhere given outcome
  have complete : spec.read arguments = .complete given := rfl
  have asked : argumentsOf given = ⟨some "config.toml", somewhere⟩ := rfl
  have readable : Config.readText (nowhereFiles "config.toml") = .ok nowhereText := by
    simp only [Config.readText, nowhereFiles, Slot.file, Slot.read, Access.free, fromUTF8?_toUTF8]
  have described : (Toml.read? nowhereText).bind (Config.ofSetting? .toml) = some nowhere := by
    decide +kernel
  have parsed : Config.parse nowhereText = .ok nowhere := by
    simp only [Config.parse, described]
  have broken : ¬nowhere.Satisfactory := by decide +kernel
  have merged : (nowhere.overridden somewhere).Satisfactory := by decide +kernel
  have reported :
      nowhere.reported = [.invalidAddress "listener.bind_address" "nope"] := by decide +kernel
  obtain ⟨-, refused, alike⟩ := run_outcome Listener.bind readable parsed complete asked
  refine ⟨complete, asked, readable, parsed, broken, merged, reported ▸ refused broken, fun same => ?_⟩
  rcases alike.mp same with satisfactory | sameReport
  · exact broken satisfactory
  · have nothing := (Config.reported_eq_nil_iff _).mpr merged
    cases reported.symm.trans (sameReport.trans nothing)

end Service

end TableServer
