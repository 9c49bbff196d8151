/-
**The commands.**

The binary has three commands: `validate`, `client` and `server`.  All of them load a configuration
and validate it; `validate` then tells the outcome, as a line of text or as a report in JSON, and the
other two start.

An operator relies on `validate` before a server is started, and on its report to know which
environment variables the server needs.  So the two formats have to agree, the report must not find
fault with a server that runs, and nothing else of the environment may matter.

Main definitions:

* `load`, `detectMode` — a configuration file, and the mode it is for;
* `Report`, `validationReportJson`, `requiredEnvReport` — the report;
* `runValidate`, `run` — the command `validate`, and all commands;
* `Tells` — a report that says the same as the text format;
* `Environment`, `Host.within` — the environment variables, and a host with others.

Main results:

* `validate_formats` — **the two formats of `validate` agree**;
* `validate_of_running` — **a configuration from which a server starts passes validation**, with
  every flag but the one for the other mode, and lacks none of its variables;
* `requiredEnv_complete` — **no variable matters but those of the report**, neither for validation
  nor for a server in use.
-/

import TrustConnector.ServerHeaders
import TrustConnector.ServerPool
import TrustConnector.Startup

set_option relaxedAutoImplicit false
set_option autoImplicit false

namespace TrustConnector

open Text Fallible Http

/-! ### Loading a configuration -/

/-- The errors of loading a configuration. -/
inductive LoadError where
  | io (message : Str)
  | yaml (message : Str)
  deriving DecidableEq, Repr

/-- The errors of a command. -/
inductive CommandError where
  | load (error : LoadError)
  | connector (error : ConnectorError)
  | panicked
  deriving DecidableEq, Repr

def StartError.toCommand : StartError → CommandError
  | .error err => .connector err
  | .panicked => .panicked

def LoadError.display : LoadError → Str
  | .io message => str "io error: " ++ message
  | .yaml message => str "yaml error: " ++ message

structure LoadedConfig where
  config : ConnectorConfig
  path : Str

/-! ### The report -/

inductive Severity where
  | info
  | warning
  | error
  deriving DecidableEq, Repr

structure Diagnostic where
  code : Str
  severity : Severity
  message : Str
  deriving DecidableEq, Repr

inductive ReportStatus where
  | ok
  | warning
  | error
  deriving DecidableEq, Repr

inductive RequiredEnvStatus where
  | present
  | missing
  deriving DecidableEq, Repr

inductive ConfigValueClassification where
  | secret
  deriving DecidableEq, Repr

/-- What the report says about one environment variable. -/
structure RequiredEnv where
  name : Str
  classification : ConfigValueClassification
  status : RequiredEnvStatus
  deriving DecidableEq, Repr

structure Summary where
  errorCount : ℕ
  warningCount : ℕ
  deriving DecidableEq, Repr

structure Report where
  schemaVersion : Str := str "registry.config.diagnostic_report.v1"
  product : Str := str "registry-trust-connector"
  configSchemaVersion : Str := str "registry.trust_connector.config.v1"
  sourceKind : Str := str "local_file"
  sourcePath : Str
  status : ReportStatus
  summary : Summary
  diagnostics : List Diagnostic
  requiredEnv : List RequiredEnv
  generatedAt : Str
  /-- The hash of the file, if it could be read. -/
  internalConfigHash : Option Str
  deriving DecidableEq, Repr

/-- What the commands need from outside, beside the files. -/
structure Shell where
  /-- The YAML parser, with the defaults and checks of the fields. -/
  fromStr : Str → Except Str ConnectorConfig
  /-- Whether a variable is set, be it text or not. -/
  varOs : Str → Bool
  toStringPretty : Report → Except Str Str
  nowRfc3339 : Str

variable (P : Pki) (H : Host) (S : Shell)

def readToString (path : Str) : Except Str Str := do
  let bytes ← H.openFile path
  ensure (isUtf8 bytes) (str "stream did not contain valid UTF-8")
  return bytes

def load (path : Str) : Except LoadError LoadedConfig := do
  let raw ← (readToString H path).mapError .io
  let config ← (S.fromStr raw).mapError .yaml
  return { config, path }

/-- The variables that a configuration names. -/
def requiredEnvNames (config : ConnectorConfig) : List Str :=
  orderedSet (config.audit.hashSecretEnv.toList ++
    (config.upstream.bind (·.defaultAuthHeaderEnv)).toList ++
    config.routes.flatMap fun route => route.upstreamAuthHeaderEnv.toList)

def requiredEnvReport (config : ConnectorConfig) : List RequiredEnv :=
  (requiredEnvNames config).map fun name =>
    { name, classification := .secret
      status := if S.varOs name then .present else .missing }

def sha256Hash (bytes : Str) : Str := str "sha256:" ++ sha256Hex P bytes

def validationReportJson (configPath : Str) (rawConfig : Option Str)
    (config : Option ConnectorConfig) (diagnostics : List Diagnostic) : Report :=
  let errorCount := diagnostics.countP (·.severity = .error)
  let warningCount := diagnostics.countP (·.severity = .warning)
  { sourcePath := configPath
    status := if 0 < errorCount then .error else if 0 < warningCount then .warning else .ok
    summary := { errorCount, warningCount }
    diagnostics
    requiredEnv := (config.map (requiredEnvReport S)).getD []
    generatedAt := S.nowRfc3339
    internalConfigHash := rawConfig.map (sha256Hash P) }

/-! ### The command `validate` -/

inductive CliMode where
  | client
  | server
  deriving DecidableEq, Repr

def CliMode.toMode : CliMode → Mode
  | .client => .client
  | .server => .server

inductive ValidationOutputFormat where
  | text
  | json
  deriving DecidableEq, Repr

def Mode.debug : Mode → Str
  | .client => str "Client"
  | .server => str "Server"

/-- The mode that a configuration is for: any section of a server makes it one for a server. -/
def detectMode (config : ConnectorConfig) : Mode :=
  if config.serverIdentity.isSome || config.clientTrust.isSome || config.upstream.isSome then
    .server
  else .client

/-- The mode to validate for: the one of the command line, if it has one. -/
def chosenMode (mode : Option CliMode) (config : ConnectorConfig) : Mode :=
  (mode.map CliMode.toMode).getD (detectMode config)

/-- What a command prints, and how it ends. -/
structure Ran (α : Type) where
  printed : List Str
  result : Except CommandError α

def runValidateText (configPath : Str) (requireEnv : Bool) (mode : Option CliMode) : Ran Unit :=
  match load H S configPath with
  | .error err => ⟨[], .error (.load err)⟩
  | .ok loaded =>
      let mode := chosenMode mode loaded.config
      match validateOrError P H loaded.path loaded.config mode requireEnv with
      | .error err => ⟨[], .error (.connector err)⟩
      | .ok () =>
          ⟨[str "registry-trust-connector config valid for " ++ mode.debug ++ str " mode"], .ok ()⟩

/-- A report is printed before the command ends, whatever the end is. -/
def printReport (report : Report) (result : Except CommandError Unit) : Ran Unit :=
  match S.toStringPretty report with
  | .error err =>
      ⟨[], .error (.connector (.invalidConfig (str "failed to render JSON report: " ++ err)))⟩
  | .ok text => ⟨[text], result⟩

def loadFailed (err : LoadError) : Diagnostic :=
  { code := str "connector.config.load_failed", severity := .error, message := err.display }

/-- The verdict of the validation, as diagnostics. -/
def diagnosticsOf (mode : Mode) : Except (List Str) Unit → List Diagnostic
  | .ok () => [{ code := str "connector.config.valid", severity := .info
                 message := str "config valid for " ++ mode.debug ++ str " mode" }]
  | .error errors => errors.map fun error =>
      { code := str "connector.config.validation_error", severity := .error, message := error }

/-- The report that is printed, and how the command ends. -/
def validateJson (rawConfig : Option Str) (configPath : Str) (requireEnv : Bool)
    (mode : Option CliMode) : Report × Except CommandError Unit :=
  match load H S configPath with
  | .error err =>
      (validationReportJson P S configPath rawConfig none [loadFailed err], .error (.load err))
  | .ok loaded =>
      let mode := chosenMode mode loaded.config
      let report := validationReportJson P S configPath rawConfig (some loaded.config)
        (diagnosticsOf mode (validateConfig P H loaded.config mode requireEnv))
      (report,
        if 0 < report.summary.errorCount then
          .error (.connector (.invalidConfig (loaded.path ++ str " config failed validation")))
        else .ok ())

/-- The file is read twice: for its hash, as `before` has it, and for the configuration. -/
def runValidateJson (before : Host) (configPath : Str) (requireEnv : Bool)
    (mode : Option CliMode) : Ran Unit :=
  let rawConfig := (readToString before configPath).toOption
  let (report, result) := validateJson P H S rawConfig configPath requireEnv mode
  printReport S report result

def runValidate (before : Host) (configPath : Str) (requireEnv : Bool) (mode : Option CliMode) :
    ValidationOutputFormat → Ran Unit
  | .text => runValidateText P H S configPath requireEnv mode
  | .json => runValidateJson P H S before configPath requireEnv mode

/-! ### All commands -/

inductive Command where
  | validate (config : Str) (requireEnv : Bool) (mode : Option CliMode)
      (format : ValidationOutputFormat)
  | client (config : Str)
  | server (config : Str)

/-- What a command that has not failed has led to. -/
inductive Outcome where
  | validated
  | client (started : StartedClient)
  | server (started : StartedServer)

/-- **The commands**, until they accept connections. -/
def run (R : Reqwest) (M : Machine) (before : Host) : Command → Ran Outcome
  | .validate config requireEnv mode format =>
      let ran := runValidate P H S before config requireEnv mode format
      ⟨ran.printed, ran.result.map fun () => .validated⟩
  | .client config => ⟨[], do
      let loaded ← (load H S config).mapError .load
      let started ← (startClient P H R M loaded.path loaded.config).mapError StartError.toCommand
      return .client started⟩
  | .server config => ⟨[], do
      let loaded ← (load H S config).mapError .load
      let started ← (startServer P H M loaded.path loaded.config).mapError StartError.toCommand
      return .server started⟩

variable {P H S} {config : ConnectorConfig}

/-! ### The two formats -/

/-- The messages of the errors that a report lists. -/
def Report.errors (report : Report) : List Str :=
  (report.diagnostics.filter (·.severity = .error)).map (·.message)

/-- The lines of an error, as the text format lists them. -/
def bullets (errors : List Str) : Str := (str "\n").intercalate (errors.map (str "- " ++ ·))

/-- **A report that says the same as the text format**, which has ended in a result. -/
inductive Tells (path : Str) (report : Report) : Except CommandError Unit → Prop where
  | valid (hstatus : report.status = .ok) (herrors : report.errors = []) : Tells path report (.ok ())
  | unreadable (err : LoadError) (hstatus : report.status = .error)
      (herrors : report.errors = [err.display]) : Tells path report (.error (.load err))
  | refused (hstatus : report.status = .error) (herrors : report.errors ≠ []) :
      Tells path report (.error (.connector (.invalidConfig
        (path ++ str " config failed validation:\n" ++ bullets report.errors))))

theorem validateConfig_eq_error {mode : Mode} {requireEnv : Bool} {errors : List Str}
    (h : validateConfig P H config mode requireEnv = .error errors) :
    errors ≠ [] ∧ errors = configErrors P H config mode requireEnv := by
  unfold validateConfig at h
  split_ifs at h with hempty
  obtain rfl := Except.error.inj h
  exact ⟨by simpa using hempty, rfl⟩

theorem load_path {path : Str} {loaded : LoadedConfig} (h : load H S path = .ok loaded) :
    loaded.path = path := by
  simp only [load, chain_eq_ok] at h
  obtain ⟨raw, -, config, -, h⟩ := h
  rw [← Except.ok.inj h]

theorem errors_validationReportJson (path : Str) (rawConfig : Option Str)
    (config : Option ConnectorConfig) (diagnostics : List Diagnostic) :
    (validationReportJson P S path rawConfig config diagnostics).errors =
      (diagnostics.filter (·.severity = .error)).map (·.message) := rfl

/-- The errors of a validation are all in the report. -/
theorem filter_diagnosticsOf_error (mode : Mode) (errors : List Str) :
    ((diagnosticsOf mode (.error errors)).filter (·.severity = .error)).map (·.message) =
      errors := by
  rw [diagnosticsOf, List.filter_map, List.map_map]
  simp [Function.comp_def]

theorem severity_diagnosticsOf (mode : Mode) (verdict : Except (List Str) Unit) :
    ∀ d ∈ diagnosticsOf mode verdict, d.severity ≠ .warning := by
  cases verdict with
  | ok u => simp [diagnosticsOf]
  | error errors => simp [diagnosticsOf]

/-- **A report that agrees with itself**: the errors are counted as they are listed, and decide on
the status. -/
structure Report.Consistent (report : Report) : Prop where
  summary : report.summary = ⟨report.errors.length, 0⟩
  status : report.status = if report.errors.isEmpty then .ok else .error

theorem consistent_validationReportJson (path : Str) (rawConfig : Option Str)
    (config : Option ConnectorConfig) (diagnostics : List Diagnostic)
    (hwarning : ∀ d ∈ diagnostics, d.severity ≠ .warning) :
    (validationReportJson P S path rawConfig config diagnostics).Consistent := by
  have hnone : diagnostics.countP (·.severity = .warning) = 0 := by
    rw [List.countP_eq_zero]
    simpa using hwarning
  have hcount : diagnostics.countP (·.severity = .error) =
      (validationReportJson P S path rawConfig config diagnostics).errors.length := by
    rw [errors_validationReportJson, List.length_map, List.countP_eq_length_filter]
  constructor
  · show Summary.mk (diagnostics.countP _) (diagnostics.countP _) = _
    rw [hcount, hnone]
  · show (if 0 < diagnostics.countP _ then ReportStatus.error
      else if 0 < diagnostics.countP _ then .warning else .ok) = _
    rw [hcount, hnone]
    cases (validationReportJson P S path rawConfig config diagnostics).errors with
    | nil => rfl
    | cons error rest => rfl

/-- **What the report says, and how the two formats end.** -/
theorem validateJson_tells (rawConfig : Option Str) (path : Str) (requireEnv : Bool)
    (mode : Option CliMode) :
    (validateJson P H S rawConfig path requireEnv mode).1.Consistent ∧
      Tells path (validateJson P H S rawConfig path requireEnv mode).1
        (runValidateText P H S path requireEnv mode).result ∧
      ((validateJson P H S rawConfig path requireEnv mode).2 = .ok () ↔
        (runValidateText P H S path requireEnv mode).result = .ok ()) := by
  unfold validateJson runValidateText
  cases hload : load H S path with
  | error err =>
      have hconsistent := consistent_validationReportJson (P := P) (S := S) path rawConfig none
        [loadFailed err] (by simp [loadFailed])
      exact ⟨hconsistent, .unreadable err rfl rfl, by simp⟩
  | ok loaded =>
      have hconsistent := consistent_validationReportJson (P := P) (S := S) path rawConfig
        (some loaded.config) _ (severity_diagnosticsOf (chosenMode mode loaded.config)
          (validateConfig P H loaded.config (chosenMode mode loaded.config) requireEnv))
      refine ⟨hconsistent, ?_⟩
      cases hvalid : validateConfig P H loaded.config (chosenMode mode loaded.config) requireEnv with
      | ok u =>
          simp only [validateOrError, hvalid, Except.mapError]
          exact ⟨.valid rfl rfl, by simp [validationReportJson, diagnosticsOf]⟩
      | error errors =>
          obtain ⟨hne, -⟩ := validateConfig_eq_error hvalid
          rw [hvalid] at hconsistent
          simp only [validateOrError, hvalid, Except.mapError]
          have herrors := filter_diagnosticsOf_error (chosenMode mode loaded.config) errors
          rw [← errors_validationReportJson (P := P) (S := S) path rawConfig (some loaded.config)]
            at herrors
          generalize validationReportJson P S path rawConfig (some loaded.config)
            (diagnosticsOf (chosenMode mode loaded.config) (.error errors)) = report at *
          have hstatus : report.status = .error := by
            rw [hconsistent.status, herrors, if_neg (by simpa using hne)]
          have hcount : 0 < report.summary.errorCount := by
            rw [hconsistent.summary, herrors]
            exact List.length_pos_iff.2 hne
          constructor
          · have hrefused : Tells path report _ := .refused hstatus (by rwa [herrors])
            rw [herrors] at hrefused
            rw [load_path hload]
            exact hrefused
          · simp [hcount]

/-- **The two formats of `validate` agree**, if reports can be rendered.  The JSON format prints one
report, whatever happens.  Its status is not `warning`; it lists the errors that the text format
shows, counts them, and lets the command end as the text format does.  It does not matter whether the
file changes between the two times that it is read. -/
theorem validate_formats (hrender : ∀ report, ∃ text, S.toStringPretty report = .ok text)
    (before : Host) (path : Str) (requireEnv : Bool) (mode : Option CliMode) :
    ∃ report text, S.toStringPretty report = .ok text ∧
      (runValidate P H S before path requireEnv mode .json).printed = [text] ∧
      report.Consistent ∧
      Tells path report (runValidate P H S before path requireEnv mode .text).result ∧
      ((runValidate P H S before path requireEnv mode .json).result = .ok () ↔
        (runValidate P H S before path requireEnv mode .text).result = .ok ()) := by
  obtain ⟨hconsistent, htells, hresult⟩ := validateJson_tells (P := P) (H := H) (S := S)
    (readToString before path).toOption path requireEnv mode
  obtain ⟨text, htext⟩ := hrender
    (validateJson P H S (readToString before path).toOption path requireEnv mode).1
  refine ⟨_, text, htext, ?_, hconsistent, htells, ?_⟩
  · simp only [runValidate, runValidateJson, printReport, htext]
  · simpa only [runValidate, runValidateJson, printReport, htext] using hresult

section

open Sample

/-- A shell for the sample server, which finds its configuration in every file. -/
def Sample.shell : Shell where
  fromStr := fun _ => .ok tcpConfig
  varOs := fun _ => true
  toStringPretty := fun report => .ok (str "report on " ++ report.sourcePath)
  nowRfc3339 := str "2027-01-15T08:00:00Z"

/-- The sample host, without its variables. -/
def Sample.bareHost : Host := { host with envVar := fun _ => none }

/-- Without its variable the sample configuration is refused, and the report is one of an error. -/
theorem validate_formats_bare :
    ∃ (report : Report) (text : Str), shell.toStringPretty report = .ok text ∧
      (runValidate uriPki bareHost shell host (str "connector.yaml") true none .json).printed =
        [text] ∧
      report.status = .error := by
  obtain ⟨report, text, hrender, hprinted, -, htells, -⟩ := validate_formats (P := uriPki)
    (H := bareHost) (S := shell) (fun _ => ⟨_, rfl⟩) host (str "connector.yaml") true none
  have hrefused : (runValidate uriPki bareHost shell host (str "connector.yaml") true none
      .text).result = .error (.connector (.invalidConfig (str ("connector.yaml config failed " ++
        "validation:\n- required upstream auth env var 'UPSTREAM_TOKEN' is missing")))) := by
    rfl
  refine ⟨report, text, hrender, hprinted, ?_⟩
  generalize (runValidate uriPki bareHost shell host (str "connector.yaml") true none
    .text).result = result at htells hrefused
  cases htells with
  | valid => cases hrefused
  | unreadable err hstatus => exact hstatus
  | refused hstatus => exact hstatus

end

/-! ### A server that runs -/

/-- The check of the environment only adds errors. -/
theorem configErrors_sublist (mode : Mode) (requireEnv : Bool) :
    (configErrors P H config mode requireEnv).Sublist (configErrors P H config mode true) := by
  have hoptional : ∀ errors : List Str, (if requireEnv then errors else []).Sublist errors := by
    intro errors
    cases requireEnv with
    | false => exact List.nil_sublist errors
    | true => exact List.Sublist.refl errors
  cases mode with
  | client =>
      refine List.Sublist.append ?_ (List.Sublist.refl _)
      unfold validateClient
      refine List.Sublist.append (List.Sublist.refl _) ?_
      cases config.server with
      | none => exact List.Sublist.refl _
      | some server =>
          refine List.Sublist.append (List.Sublist.refl _) ?_
          cases config.clientIdentity with
          | none => exact List.Sublist.refl _
          | some identity => exact List.Sublist.append (List.Sublist.refl _) (hoptional _)
  | server =>
      refine List.Sublist.append ?_ (List.Sublist.refl _)
      unfold validateServer
      cases config.serverIdentity with
      | none => exact List.Sublist.refl _
      | some identity =>
          refine List.Sublist.append (List.Sublist.refl _) ?_
          cases config.clientTrust with
          | none => exact List.Sublist.refl _
          | some clientTrust =>
              refine List.Sublist.append (List.Sublist.refl _) ?_
              cases config.upstream with
              | none => exact List.Sublist.refl _
              | some upstream =>
                  exact List.Sublist.append
                    (List.Sublist.append (List.Sublist.refl _) (hoptional _)) (List.Sublist.refl _)

/-- What passes with the check of the environment passes without it. -/
theorem validateConfig_of_requireEnv {mode : Mode}
    (h : validateConfig P H config mode true = .ok ()) (requireEnv : Bool) :
    validateConfig P H config mode requireEnv = .ok () := by
  rw [validateConfig_eq_ok] at h ⊢
  exact List.sublist_nil.1 (h ▸ configErrors_sublist mode requireEnv)

/-- A valid server configuration is taken for one, unless the command line says otherwise. -/
theorem chosenMode_of_valid {requireEnv : Bool} {mode : Option CliMode}
    (h : validateConfig P H config .server requireEnv = .ok ()) (hmode : mode ≠ some .client) :
    chosenMode mode config = .server := by
  obtain ⟨clientTrust, -, htrust, -⟩ := validateConfig_server h
  match mode with
  | none => simp [chosenMode, detectMode, htrust]
  | some .server => rfl
  | some .client => exact absurd rfl hmode

theorem mem_requiredEnvNames {name : Str} :
    name ∈ requiredEnvNames config ↔ config.audit.hashSecretEnv = some name ∨
      (∃ upstream, config.upstream = some upstream ∧
        upstream.defaultAuthHeaderEnv = some name) ∨
      ∃ route ∈ config.routes, route.upstreamAuthHeaderEnv = some name := by
  simp only [requiredEnvNames, mem_orderedSet, List.mem_append, Option.mem_toList,
    List.mem_flatMap, Option.bind_eq_some_iff, or_assoc]

/-- The variables of the credentials are in the report. -/
theorem mem_requiredEnvNames_of_upstream {upstream : UpstreamConfig} {var : Str}
    (hupstream : config.upstream = some upstream)
    (hvar : var ∈ upstreamAuthEnvVars config upstream) : var ∈ requiredEnvNames config := by
  simp only [upstreamAuthEnvVars, mem_orderedSet, List.mem_append, Option.mem_toList,
    List.mem_flatMap] at hvar
  rw [mem_requiredEnvNames]
  rcases hvar with hdefault | hroute
  · exact Or.inr (Or.inl ⟨upstream, hupstream, hdefault⟩)
  · exact Or.inr (Or.inr hroute)

/-- A variable that can be read is set. -/
structure Shell.Sees (S : Shell) (H : Host) : Prop where
  envVar : ∀ var value, H.envVar var = some value → S.varOs var = true
  auditKey : ∀ var, H.auditKeyHasherFromEnv var = .ok () → S.varOs var = true

/-- The report lacks no variable of a configuration that passes with the check of the
environment. -/
theorem present_of_valid (hsees : S.Sees H)
    (h : validateConfig P H config .server true = .ok ()) :
    ∀ entry ∈ requiredEnvReport S config, entry.status = .present := by
  obtain ⟨clientTrust, upstream, -, hupstream, -, hchecks, -⟩ := validateConfig_server h
  simp only [validateUpstream, List.append_eq_nil_iff, if_true, List.flatMap_eq_nil_iff] at hchecks
  obtain ⟨⟨-, haudit, henv⟩, -⟩ := hchecks
  have hcredential : ∀ var ∈ upstreamAuthEnvVars config upstream, S.varOs var = true := by
    intro var hvar
    obtain ⟨secret, hsecret, -⟩ := requireUpstreamAuthEnv_eq_nil.1 (henv var hvar)
    exact hsees.envVar var secret hsecret
  intro entry hentry
  obtain ⟨name, hname, rfl⟩ := List.mem_map.1 hentry
  have hset : S.varOs name = true := by
    rcases mem_requiredEnvNames.1 hname with hkey | ⟨upstream', hupstream', hdefault⟩ | hroute
    · simp only [requireAuditHashEnv, hkey, Option.toList_some, List.flatMap_singleton,
        reportError_eq_nil] at haudit
      obtain ⟨⟨⟩, hhasher⟩ := haudit
      exact hsees.auditKey name hhasher
    · obtain rfl : upstream = upstream' := Option.some.inj (hupstream.symm.trans hupstream')
      exact hcredential name (by simp [upstreamAuthEnvVars, hdefault])
    · obtain ⟨route, hroute, hown⟩ := hroute
      exact hcredential name
        (mem_upstreamAuthEnvVars hroute (by simp [upstreamAuthEnv, hown]))
  simp [hset]

/-- **A configuration from which a server starts passes validation**, with any flags but
`--mode client` and in both formats; the JSON report has no errors and lacks no variable. -/
theorem validate_of_running {R : Reqwest} {M : Machine}
    (hrender : ∀ report, ∃ text, S.toStringPretty report = .ok text) (hsees : S.Sees H)
    {before : Host} {path : Str} {started : StartedServer}
    (hrun : (run P H S R M before (.server path)).result = .ok (.server started))
    (requireEnv : Bool) {mode : Option CliMode} (hmode : mode ≠ some .client) :
    (∀ format, (run P H S R M before (.validate path requireEnv mode format)).result =
        .ok .validated) ∧
      ∃ report text, S.toStringPretty report = .ok text ∧
        (run P H S R M before (.validate path requireEnv mode .json)).printed = [text] ∧
        report.status = .ok ∧ report.errors = [] ∧
        ∀ entry ∈ report.requiredEnv, entry.status = .present := by
  simp only [run, chain_eq_ok, mapError_ok_iff] at hrun
  obtain ⟨loaded, hload, started', hstart, -⟩ := hrun
  have hvalid := (startServer_eq_ok_iff.1 hstart).valid
  have hmode' := chosenMode_of_valid hvalid hmode
  have hpasses := validateConfig_of_requireEnv hvalid requireEnv
  have htext : (runValidateText P H S path requireEnv mode).result = .ok () := by
    simp only [runValidateText, hload, hmode', validateOrError, hpasses, Except.mapError]
  obtain ⟨-, htells, hresult⟩ := validateJson_tells (P := P) (H := H) (S := S)
    (readToString before path).toOption path requireEnv mode
  have hjson := hresult.2 htext
  obtain ⟨text, hrendered⟩ := hrender
    (validateJson P H S (readToString before path).toOption path requireEnv mode).1
  refine ⟨?_, _, text, hrendered, ?_, ?_⟩
  · intro format
    cases format with
    | text => simp only [run, runValidate, htext, Except.map]
    | json =>
        simp only [run, runValidate, runValidateJson, printReport, hrendered, hjson, Except.map]
  · simp only [run, runValidate, runValidateJson, printReport, hrendered]
  · rw [htext] at htells
    cases htells with
    | valid hstatus herrors =>
        refine ⟨hstatus, herrors, ?_⟩
        have henv : (validateJson P H S (readToString before path).toOption path requireEnv
            mode).1.requiredEnv = requiredEnvReport S loaded.config := by
          simp only [validateJson, hload, validationReportJson, Option.map_some, Option.getD_some]
        rw [henv]
        exact present_of_valid hsees hvalid

section

open Sample

/-- A TLS client library that takes everything. -/
def Sample.reqwest : Reqwest where
  identityFromPem := fun _ => .ok ()
  certificatesFromPemBundle := fun _ => .ok []
  build := fun _ _ => .ok ()

/-- The sample server runs, so its configuration is reported to be in order. -/
theorem validate_of_running_sample :
    ∃ report : Report, report.status = .ok ∧
      (run uriPki host shell reqwest machine host
        (.validate (str "connector.yaml") false none .json)).printed =
          [str "report on " ++ report.sourcePath] ∧
      ∀ entry ∈ report.requiredEnv, entry.status = .present := by
  have hrun : (run uriPki host shell reqwest machine host (.server (str "connector.yaml"))).result =
      .ok (.server startedServer) := by
    have hload : load host shell (str "connector.yaml") =
        .ok ⟨tcpConfig, str "connector.yaml"⟩ := rfl
    simp only [run, hload, startServer_tcpConfig, Except.mapError, ok_bind]
    rfl
  have hsees : shell.Sees host := ⟨fun _ _ _ => rfl, fun _ _ => rfl⟩
  have hmode : (none : Option CliMode) ≠ some .client := by decide
  obtain ⟨-, report, text, hrender, hprinted, hstatus, -, hpresent⟩ :=
    validate_of_running (fun _ => ⟨_, rfl⟩) hsees hrun false hmode
  obtain rfl := Except.ok.inj hrender
  exact ⟨report, hstatus, hprinted, hpresent⟩

end

/-! ### The environment -/

/-- The environment variables, as they are read. -/
structure Environment where
  envVar : Str → Option Str
  auditKeyHasherFromEnv : Str → Except Str Unit

/-- The host with another environment. -/
def Host.within (H : Host) (E : Environment) : Host :=
  { H with envVar := E.envVar, auditKeyHasherFromEnv := E.auditKeyHasherFromEnv }

def Arrival.within (a : Arrival) (E : Environment) : Arrival := { a with host := a.host.within E }

/-- Two environments with the same value of a variable. -/
structure Environment.AgreeAt (E E' : Environment) (var : Str) : Prop where
  value : E.envVar var = E'.envVar var
  auditKey : E.auditKeyHasherFromEnv var = E'.auditKeyHasherFromEnv var

section

variable {N : Platform} {D : Pdp} {E E' : Environment} {state : ProxyState}

theorem requireAuditHashEnv_within
    (hagree : ∀ name ∈ requiredEnvNames config, E.AgreeAt E' name) :
    requireAuditHashEnv (H.within E) config = requireAuditHashEnv (H.within E') config := by
  unfold requireAuditHashEnv
  cases hkey : config.audit.hashSecretEnv with
  | none => rfl
  | some var =>
      have hvar := (hagree var (mem_requiredEnvNames.2 (Or.inl hkey))).auditKey
      simp only [Option.toList_some, List.flatMap_singleton, Host.within, hvar]

theorem upstreamAuthEnv_within {upstream : UpstreamConfig}
    (hupstream : config.upstream = some upstream)
    (hagree : ∀ name ∈ requiredEnvNames config, E.AgreeAt E' name) :
    (upstreamAuthEnvVars config upstream).flatMap (requireUpstreamAuthEnv (H.within E)) =
      (upstreamAuthEnvVars config upstream).flatMap (requireUpstreamAuthEnv (H.within E')) := by
  refine List.flatMap_congr fun var hvar => ?_
  have hvalue := (hagree var (mem_requiredEnvNames_of_upstream hupstream hvar)).value
  simp only [requireUpstreamAuthEnv, Host.within, hvalue]

/-- Validation reads no other variables. -/
theorem configErrors_within (hagree : ∀ name ∈ requiredEnvNames config, E.AgreeAt E' name)
    (mode : Mode) (requireEnv : Bool) :
    configErrors P (H.within E) config mode requireEnv =
      configErrors P (H.within E') config mode requireEnv := by
  have haudit := requireAuditHashEnv_within (H := H) hagree
  cases mode with
  | client =>
      simp only [configErrors, validateClient, haudit]
      rfl
  | server =>
      have hupstream : ∀ clientTrust upstream, config.upstream = some upstream →
          validateUpstream (H.within E) config clientTrust upstream requireEnv =
            validateUpstream (H.within E') config clientTrust upstream requireEnv := by
        intro clientTrust upstream hsome
        simp only [validateUpstream, haudit, upstreamAuthEnv_within hsome hagree]
      simp only [configErrors, validateServer]
      cases hsome : config.upstream with
      | none => rfl
      | some upstream =>
          simp only [hupstream _ _ hsome]
          rfl

theorem validateConfig_within (hagree : ∀ name ∈ requiredEnvNames config, E.AgreeAt E' name)
    (mode : Mode) (requireEnv : Bool) :
    validateConfig P (H.within E) config mode requireEnv =
      validateConfig P (H.within E') config mode requireEnv := by
  simp only [validateConfig, configErrors_within hagree mode requireEnv]

theorem auditKeyHasher_within (hagree : ∀ name ∈ requiredEnvNames config, E.AgreeAt E' name) :
    auditKeyHasher (H.within E) config = auditKeyHasher (H.within E') config := by
  unfold auditKeyHasher
  cases hkey : config.audit.hashSecretEnv with
  | none => rfl
  | some var =>
      have hvar := (hagree var (mem_requiredEnvNames.2 (Or.inl hkey))).auditKey
      simp only [Host.within, hvar]

/-- The root stores are made from files. -/
theorem rootStoreFromPaths_within :
    rootStoreFromPaths P (H.within E) = rootStoreFromPaths P H := by
  have hadd : ∀ paths roots, addRoots P (H.within E) roots paths = addRoots P H roots paths := by
    intro paths
    induction paths with
    | nil => exact fun roots => rfl
    | cons path paths ih =>
        intro roots
        have hload : loadSingleCaCert P (H.within E) path = loadSingleCaCert P H path := rfl
        simp only [addRoots, hload, ih]
  funext paths
  exact hadd paths []

/-- A server starts with the same state. -/
theorem startServer_within (hagree : ∀ name ∈ requiredEnvNames config, E.AgreeAt E' name)
    (M : Machine) (path : Str) :
    startServer P (H.within E) M path config = startServer P (H.within E') M path config := by
  have hwarned : ∀ E, warnCertificateExpiry P (H.within E) M.rfc3339 M.build config .server =
      warnCertificateExpiry P H M.rfc3339 M.build config .server := fun _ => rfl
  simp only [startServer, hwarned, validateOrError, validateConfig_within hagree, serverConfig,
    ProxyState.server, ServerTrustPolicy.fromConfig, rootStoreFromPaths_within,
    auditKeyHasher_within hagree]
  rfl

/-- The credential of a route is the same. -/
theorem upstreamAuthHeader_within (hagree : ∀ name ∈ requiredEnvNames config, E.AgreeAt E' name)
    {m : RouteMatch} (hroute : m.route ∈ config.routes) :
    upstreamAuthHeader (H.within E) config m = upstreamAuthHeader (H.within E') config m := by
  unfold upstreamAuthHeader
  cases hupstream : config.upstream with
  | none => rfl
  | some upstream =>
      simp only [okOr, ok_bind]
      cases hvar : upstreamAuthEnv upstream m.route with
      | none => rfl
      | some var =>
          have hvalue := (hagree var (mem_requiredEnvNames_of_upstream hupstream
            (mem_upstreamAuthEnvVars hroute hvar))).value
          simp only [ok_bind, Host.within, hvalue]

/-- **One request** is handled alike. -/
theorem serve_within (hagree : ∀ name ∈ requiredEnvNames state.config, E.AgreeAt E' name)
    (memory : Memory) (a : Arrival) :
    serve N P D state memory (a.within E) = serve N P D state memory (a.within E') := by
  simp only [serve, handleServer, Arrival.within]
  -- the first gates ask the clock only
  have hgates : serverAdmission P (a.host.within E) state a.request a.path =
      serverAdmission P (a.host.within E') state a.request a.path := rfl
  rw [hgates]
  cases hadmitted : serverAdmission P (a.host.within E') state a.request a.path with
  | error problem => rfl
  | ok admitted =>
      obtain ⟨identity, m⟩ := admitted
      obtain ⟨-, -, hfound⟩ := serverAdmission_eq_ok hadmitted
      obtain ⟨-, hroute, -⟩ := findServerRoute_eq_ok hfound
      simp only [serverRequest, upstreamAuthHeader_within hagree hroute]
      rfl

/-- **Any number of requests** leave the same memory. -/
theorem serveAll_within (hagree : ∀ name ∈ requiredEnvNames state.config, E.AgreeAt E' name)
    (arrivals : List Arrival) :
    serveAll N P D state (arrivals.map (·.within E)) =
      serveAll N P D state (arrivals.map (·.within E')) := by
  -- from the last request to the first: it meets the memory that the others leave
  induction arrivals using List.reverseRecOn with
  | nil => rfl
  | append_singleton arrivals a ih =>
      simp only [List.map_append, List.map_singleton, serveAll_append, ih, serve_within hagree]

end

/-- **No variable matters but those of the report.**  In two environments that agree on the variables
that the report lists, validation has the same verdict, a server starts or fails to start alike, and
once started it handles whatever is asked of it alike. -/
theorem requiredEnv_complete {N : Platform} {D : Pdp} {E E' : Environment}
    (hagree : ∀ entry ∈ requiredEnvReport S config, E.AgreeAt E' entry.name) (M : Machine)
    (path : Str) :
    (∀ mode requireEnv, validateConfig P (H.within E) config mode requireEnv =
        validateConfig P (H.within E') config mode requireEnv) ∧
      startServer P (H.within E) M path config = startServer P (H.within E') M path config ∧
      ∀ started, startServer P (H.within E) M path config = .ok started →
        ∀ (arrivals : List Arrival) (a : Arrival),
          serve N P D started.state
              (serveAll N P D started.state (arrivals.map (·.within E))) (a.within E) =
            serve N P D started.state
              (serveAll N P D started.state (arrivals.map (·.within E'))) (a.within E') := by
  have hnames : ∀ name ∈ requiredEnvNames config, E.AgreeAt E' name := by
    intro name hname
    exact hagree _ (List.mem_map_of_mem hname)
  refine ⟨validateConfig_within hnames, startServer_within hnames M path, ?_⟩
  intro started hstart arrivals a
  obtain ⟨policy, -, hstarted⟩ := ProxyState.server_eq_ok (startServer_eq_ok_iff.1 hstart).state
  have hconfig : ∀ name ∈ requiredEnvNames started.state.config, E.AgreeAt E' name := by
    rw [hstarted]
    exact hnames
  rw [serveAll_within hconfig, serve_within hconfig]

section

open Sample

/-- The environment of the sample host. -/
def Sample.fullEnvironment : Environment := ⟨fun _ => some (str "secret"), fun _ => .ok ()⟩

/-- An environment with the variable of the sample configuration, and no other. -/
def Sample.oneVariable : Environment where
  envVar := fun var => if var = str "UPSTREAM_TOKEN" then some (str "secret") else none
  auditKeyHasherFromEnv := fun var =>
    if var = str "UPSTREAM_TOKEN" then .ok () else .error (str "not set")

/-- The sample server needs one variable. -/
theorem requiredEnv_complete_one :
    startServer uriPki (host.within oneVariable) machine (str "connector.yaml") tcpConfig =
        .ok startedServer ∧
      serve platform uriPki pdp startedServer.state
          (serveAll platform uriPki pdp startedServer.state [arrival.within fullEnvironment])
          (arrival.within fullEnvironment) =
        serve platform uriPki pdp startedServer.state
          (serveAll platform uriPki pdp startedServer.state [arrival.within oneVariable])
          (arrival.within oneVariable) := by
  have hreport : requiredEnvReport shell tcpConfig =
      [⟨str "UPSTREAM_TOKEN", .secret, .present⟩] := rfl
  have hagree : ∀ entry ∈ requiredEnvReport shell tcpConfig,
      fullEnvironment.AgreeAt oneVariable entry.name := by
    rw [hreport]
    intro entry hentry
    obtain rfl := List.mem_singleton.1 hentry
    exact ⟨rfl, rfl⟩
  obtain ⟨-, hstart, hserve⟩ := requiredEnv_complete (P := uriPki) (H := host) (N := platform)
    (D := pdp) hagree machine (str "connector.yaml")
  have hfull : startServer uriPki (host.within fullEnvironment) machine (str "connector.yaml")
      tcpConfig = .ok startedServer := startServer_tcpConfig
  exact ⟨hstart.symm.trans hfull, hserve startedServer hfull [arrival] arrival⟩

end

end TrustConnector
