import FeatureBatch.Config.HttpClients
import FeatureBatch.Config.Scripts
import FeatureBatch.Feature
import FeatureBatch.Reports.FileReports
import FeatureBatch.TagSelector
import FeatureBatch.Text.Quoted

/-!
The configuration of one run: resolved, and not changed any more. `η` is the type of its hooks.
-/

namespace FeatureBatch

structure RunConfig (η : Type) where
  env : Option String
  selector : TagSelector
  dryRun : Bool
  threads : UInt64
  threads_pos : 0 < threads
  outputs : OutputFormats
  workingDir : Path
  buildDir : Path
  reportDir : Path
  features : List Feature
  hooks : List η
  scripts : Scripts
  systemProperties : Dictionary
  httpClients : HttpClients

namespace RunConfig

variable {η : Type}

def boolText (b : Bool) : String := if b then "true" else "false"

/-- The outputs as a diagnostic shows them. -/
def outputsText (o : OutputFormats) : String :=
  String.join ["OutputFormats \x7b html: ", boolText o.html, ", cucumber_json: ",
    boolText o.cucumberJson, ", junit_xml: ", boolText o.junitXml, " \x7d"]

def envText : Option String → String
  | none => "None"
  | some env => "Some(" ++ Text.quoted env ++ ")"

/-- The configuration as a diagnostic shows it, without what has no short form. -/
def debugText (c : RunConfig η) : String :=
  String.join ["SuiteConfig \x7b env: ", envText c.env, ", tags: ", Text.quoted c.selector.render,
    ", dry_run: ", boolText c.dryRun, ", threads: ", toString c.threads.toNat, ", outputs: ",
    outputsText c.outputs, ", working_dir: ", Text.quotedBytes c.workingDir.bytes,
    ", report_dir: ", Text.quotedBytes c.reportDir.bytes, ", features: ",
    toString c.features.length, ", hooks: ", toString c.hooks.length, ", .. \x7d"]

end RunConfig

end FeatureBatch
