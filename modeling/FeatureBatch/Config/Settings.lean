import FeatureBatch.Config.Dictionary
import FeatureBatch.Json.Parser
import FeatureBatch.Reports.FileReports
import FeatureBatch.Yaml.Decode
import FeatureBatch.Yaml.Printer

/-!
The settings of a run as a file holds them, in YAML or in JSON by the extension of the file. Fields
that a file leaves out are absent; those that it has beyond these do not count.
-/

namespace FeatureBatch

/-- What a settings file can say. -/
structure Settings where
  /-- The environment, which chooses a script of its own. -/
  env : Option String
  /-- Tag expressions, all of which a scenario has to satisfy. -/
  tags : List String
  threads : Option UInt64
  dryRun : Option Bool
  outputs : Option OutputFormats
  workingDir : Option Path
  buildDir : Option Path
  reportDir : Option Path
  configDir : Option Path
  systemProperties : Dictionary
  deriving DecidableEq

/-- Why settings could not be read from a file or written to one. -/
inductive SettingsError where
  | readFile
  | parseYaml
  | parseJson
  | serialize
  | writeFile
  deriving DecidableEq, Repr

def SettingsError.message : SettingsError → String
  | .readFile => "Failed to read settings file"
  | .parseYaml => "Failed to parse YAML settings"
  | .parseJson => "Failed to parse JSON settings"
  | .serialize => "Failed to serialize settings"
  | .writeFile => "Failed to write settings file"

namespace Settings

def empty : Settings := ⟨none, [], none, none, none, none, none, none, none, .empty⟩

def fieldNames : List String :=
  ["env", "tags", "threads", "dry_run", "outputs", "working_dir", "build_dir", "report_dir",
    "config_dir", "system_properties"]

/-- A directory as a text, if it is one; a directory that is absent stays so. -/
def directoryText? : Option Path → Option (Option String)
  | none => some none
  | some p => p.text?.map some

/-- The directories as texts, in their order, if they are texts. -/
def directories? (s : Settings) : Option (List (Option String)) :=
  [s.workingDir, s.buildDir, s.reportDir, s.configDir].mapM directoryText?

/-! ### JSON -/

def toJson? (s : Settings) : Option Json := do
  match ← s.directories? with
  | [working, build, report, config] =>
    some (.record [
      ("env", .orNull .text s.env), ("tags", .texts s.tags), ("threads", .orNull .word s.threads),
      ("dry_run", .orNull .bool s.dryRun), ("outputs", .orNull OutputFormats.toJson s.outputs),
      ("working_dir", .orNull .text working), ("build_dir", .orNull .text build),
      ("report_dir", .orNull .text report), ("config_dir", .orNull .text config),
      ("system_properties", .record (s.systemProperties.toList.map fun (k, v) => (k, .text v)))])
  | _ => none

def pathOfJson? (v : Json) : Option Path := v.asText?.map .ofText

def dictionaryOfJson? : Json → Option Dictionary
  | .object fields => do
    some (.ofList (← fields.mapM fun (k, v) => do some (← k, ← v.asText?)))
  | _ => none

/-- The values of the fields; an array may leave out the last ones. -/
def jsonFields? : Json → Option (List (Option Json))
  | .array vs =>
    if vs.length ≤ fieldNames.length then
      some (vs.map some ++ List.replicate (fieldNames.length - vs.length) none)
    else none
  | v => v.fieldValues? fieldNames

def ofJson? (v : Json) : Option Settings := do
  match ← jsonFields? v with
  | [env, tags, threads, dryRun, outputs, working, build, report, config, properties] =>
    some {
      env := ← Json.optional? Json.asText? env
      tags := ← (tags.map (Json.asList? Json.asText?)).getD (some [])
      threads := ← Json.optional? Json.asWord? threads
      dryRun := ← Json.optional? Json.asBool? dryRun
      outputs := ← Json.optional? OutputFormats.ofJson? outputs
      workingDir := ← Json.optional? pathOfJson? working
      buildDir := ← Json.optional? pathOfJson? build
      reportDir := ← Json.optional? pathOfJson? report
      configDir := ← Json.optional? pathOfJson? config
      systemProperties := ← (properties.map dictionaryOfJson?).getD (some .empty) }
  | _ => none

/-! ### YAML -/

/-- A scalar, or null where there is no value. -/
def scalarOrNull {α : Type} (f : α → Yaml.Scalar) : Option α → Yaml.Value
  | none => .scalar .null
  | some a => .scalar (f a)

def outputsToYaml : Option OutputFormats → Yaml.Value
  | none => .scalar .null
  | some o =>
    .mapping [("html", .bool o.html), ("cucumber_json", .bool o.cucumberJson),
      ("junit_xml", .bool o.junitXml)]

def toYaml? (s : Settings) : Option (List (String × Yaml.Value)) := do
  match ← s.directories? with
  | [working, build, report, config] =>
    some [
      ("env", scalarOrNull .text s.env), ("tags", .sequence (s.tags.map .text)),
      ("threads", scalarOrNull .word s.threads), ("dry_run", scalarOrNull .bool s.dryRun),
      ("outputs", outputsToYaml s.outputs), ("working_dir", scalarOrNull .text working),
      ("build_dir", scalarOrNull .text build), ("report_dir", scalarOrNull .text report),
      ("config_dir", scalarOrNull .text config),
      ("system_properties", .mapping (s.systemProperties.toList.map fun (k, v) => (k, .text v)))]
  | _ => none

def outputsOfYaml? (d : Yaml.Document) (n : Yaml.Node) : Option OutputFormats := do
  match ← d.fieldValues? ["html", "cucumber_json", "junit_xml"] n with
  | [html, cucumberJson, junitXml] =>
    some { html := ← Yaml.Document.required? d.asBool? html
           cucumberJson := ← Yaml.Document.required? d.asBool? cucumberJson
           junitXml := ← Yaml.Document.required? d.asBool? junitXml }
  | _ => none

/-- A field that may be absent or null. -/
def yamlOption? {α : Type} (d : Yaml.Document) (f : Yaml.Node → Option α) :
    Option Yaml.Node → Option (Option α) :=
  Yaml.Document.orElse? (d.asOption? f) none

def pathOfYaml? (d : Yaml.Document) (n : Yaml.Node) : Option Path := (d.asText? n).map .ofText

/-- The settings that a document holds; all are absent where it holds no value. -/
def ofYaml? (d : Yaml.Document) : Option Settings := do
  match ← d.fieldValues? fieldNames (d.root.getD .absent) with
  | [env, tags, threads, dryRun, outputs, working, build, report, config, properties] =>
    some {
      env := ← yamlOption? d d.asText? env
      tags := ← Yaml.Document.orElse? (d.asList? d.asText?) [] tags
      threads := ← yamlOption? d d.asWord? threads
      dryRun := ← yamlOption? d d.asBool? dryRun
      outputs := ← yamlOption? d (outputsOfYaml? d) outputs
      workingDir := ← yamlOption? d (pathOfYaml? d) working
      buildDir := ← yamlOption? d (pathOfYaml? d) build
      reportDir := ← yamlOption? d (pathOfYaml? d) report
      configDir := ← yamlOption? d (pathOfYaml? d) config
      systemProperties :=
        .ofList (← Yaml.Document.orElse? d.asPairs? [] properties) }
  | _ => none

/-! ### Files -/

/-- A file of which the extension says that it holds YAML. -/
def isYaml (p : Path) : Bool :=
  p.extension = some (Text.utf8 "yaml".toList) || p.extension = some (Text.utf8 "yml".toList)

/-- The settings in a text. -/
def parse (yaml : Bool) (text : String) : Except SettingsError Settings :=
  if yaml then
    match (Yaml.Document.ofText? text.toList).bind ofYaml? with
    | some s => .ok s
    | none => .error .parseYaml
  else
    match (Json.ofText? text).bind ofJson? with
    | some s => .ok s
    | none => .error .parseJson

/-- The text of settings, if their directories are texts. -/
def render (yaml : Bool) (s : Settings) : Except SettingsError String :=
  let text := if yaml then s.toYaml?.map fun v => String.ofList (Yaml.render v)
    else s.toJson?.map Json.prettyText
  match text with
  | some text => .ok text
  | none => .error .serialize

def load (fs : FileSystem) (p : Path) : Except SettingsError Settings :=
  match fs.readText p with
  | .error _ => .error .readFile
  | .ok text => parse (isYaml p) text

/-- Saves settings into a file, and gives the files afterwards. Settings that have no text are not
written, and what the file held before stays. -/
def save (fs : FileSystem) (p : Path) (s : Settings) : Except SettingsError Unit × FileSystem :=
  match s.render (isYaml p) with
  | .error e => (.error e, fs)
  | .ok text =>
    match fs.write p (Text.utf8 text.toList) with
    | .error _ => (.error .writeFile, fs)
    | .ok fs => (.ok (), fs)

end Settings

end FeatureBatch
