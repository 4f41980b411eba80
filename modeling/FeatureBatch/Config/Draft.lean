import FeatureBatch.Config.Environment
import FeatureBatch.Config.RunConfig
import FeatureBatch.Config.Settings
import FeatureBatch.Errors

/-!
Drafts of a configuration. A draft is changed by assignments, of which a later one wins over an
earlier one; building it fills in the directories that were not assigned and reads the scripts.
-/

namespace FeatureBatch

/-- One assignment to a draft. `η` is the type of hooks, and `ρ` that of emitters of reports. -/
inductive Assignment (η ρ : Type) where
  | env (value : String)
  | tags (expressions : List String)
  | threads (n : UInt64)
  | dryRun (value : Bool)
  | outputs (value : OutputFormats)
  | outputHtml (enabled : Bool)
  | outputCucumberJson (enabled : Bool)
  | outputJunitXml (enabled : Bool)
  | workingDir (path : Path)
  | buildDir (path : Path)
  | reportDir (path : Path)
  | configDir (path : Path)
  | feature (f : Feature)
  | features (fs : List Feature)
  | hook (h : η)
  | reports (emitter : ρ)
  | httpClients (value : HttpClients)
  | systemProperty (key value : String)
  | settings (value : Settings)
  | overrides (value : Environment.Overrides)

/-- A configuration in the making. -/
structure Draft (η ρ : Type) where
  env : Option String
  tags : List String
  dryRun : Bool
  threads : UInt64
  outputs : OutputFormats
  workingDir : Option Path
  buildDir : Option Path
  reportDir : Option Path
  configDir : Option Path
  features : List Feature
  hooks : List η
  reports : ρ
  httpClients : HttpClients
  systemProperties : Dictionary

/-- What a draft is built into: the configuration, the emitter of its reports, and what was reported
about its scripts. -/
structure Configured (η ρ : Type) where
  config : RunConfig η
  reports : ρ
  log : Log

namespace Draft

variable {η ρ : Type}

/-- A draft to which nothing has been assigned. Its reports go to the emitter that is given. -/
def start (reports : ρ) : Draft η ρ where
  env := none
  tags := []
  dryRun := false
  threads := 1
  outputs := .all
  workingDir := none
  buildDir := none
  reportDir := none
  configDir := none
  features := []
  hooks := []
  reports
  httpClients := .default
  systemProperties := .empty

/-- Assigns what settings hold. What they leave out stays, and so do the tags if they have none. -/
def applySettings (d : Draft η ρ) (s : Settings) : Draft η ρ :=
  { d with
    env := s.env.or d.env
    tags := if s.tags.isEmpty then d.tags else s.tags
    threads := s.threads.getD d.threads
    dryRun := s.dryRun.getD d.dryRun
    outputs := s.outputs.getD d.outputs
    workingDir := s.workingDir.or d.workingDir
    buildDir := s.buildDir.or d.buildDir
    reportDir := s.reportDir.or d.reportDir
    configDir := s.configDir.or d.configDir
    systemProperties := d.systemProperties.insertAll s.systemProperties.toList }

/-- Assigns what the environment overrides. -/
def applyOverrides (d : Draft η ρ) (o : Environment.Overrides) : Draft η ρ :=
  { d with
    env := o.env.or d.env
    tags := o.tags.getD d.tags
    threads := o.threads.getD d.threads
    dryRun := o.dryRun.getD d.dryRun
    reportDir := o.reportDir.or d.reportDir }

def assign (d : Draft η ρ) : Assignment η ρ → Draft η ρ
  | .env value => { d with env := some value }
  | .tags expressions => { d with tags := expressions }
  | .threads n => { d with threads := n }
  | .dryRun value => { d with dryRun := value }
  | .outputs value => { d with outputs := value }
  | .outputHtml enabled => { d with outputs := { d.outputs with html := enabled } }
  | .outputCucumberJson enabled => { d with outputs := { d.outputs with cucumberJson := enabled } }
  | .outputJunitXml enabled => { d with outputs := { d.outputs with junitXml := enabled } }
  | .workingDir path => { d with workingDir := some path }
  | .buildDir path => { d with buildDir := some path }
  | .reportDir path => { d with reportDir := some path }
  | .configDir path => { d with configDir := some path }
  | .feature f => { d with features := d.features ++ [f] }
  | .features fs => { d with features := d.features ++ fs }
  | .hook h => { d with hooks := d.hooks ++ [h] }
  | .reports emitter => { d with reports := emitter }
  | .httpClients value => { d with httpClients := value }
  | .systemProperty key value => { d with systemProperties := d.systemProperties.insert key value }
  | .settings value => d.applySettings value
  | .overrides value => d.applyOverrides value

/-- Makes assignments one after the other. -/
def assignAll (d : Draft η ρ) (as : List (Assignment η ρ)) : Draft η ρ := as.foldl assign d

/-- A blank environment is none. -/
def knownEnv (env : Option String) : Option String :=
  env.filter fun e => !Text.allBlank e.toList

/-- The directory that a run works in. -/
def resolveWorkingDir (fs : FileSystem) (d : Draft η ρ) : Except SuiteError Path :=
  match d.workingDir with
  | some dir => .ok dir
  | none =>
    match fs.currentDir with
    | .ok dir => .ok dir
    | .error e => .error (.config ("unable to resolve working directory: " ++ e.message))

/-- Fills in what was not assigned, and reads the scripts. -/
def build (fs : FileSystem) (d : Draft η ρ) : Except SuiteError (Configured η ρ) :=
  if pos : 0 < d.threads then do
    let workingDir ← d.resolveWorkingDir fs
    let buildDir := d.buildDir.getD (workingDir.join (.ofText "target"))
    let reportDir := d.reportDir.getD (buildDir.join (.ofText "feature-reports"))
    let env := knownEnv d.env
    let (scripts, log) := Scripts.load fs (d.configDir.getD workingDir) env
    .ok {
      config := {
        env, selector := .parse d.tags, dryRun := d.dryRun, threads := d.threads, threads_pos := pos
        outputs := d.outputs, workingDir, buildDir, reportDir, features := d.features
        hooks := d.hooks, scripts, systemProperties := d.systemProperties
        httpClients := d.httpClients }
      reports := d.reports
      log }
  else .error (.config "threads must be at least 1")

end Draft

end FeatureBatch
