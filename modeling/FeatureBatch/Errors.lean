import FeatureBatch.Files.FileSystem

/-!
What can go wrong in a run, as causes with one wording each.
-/

namespace FeatureBatch

/-- A report could not be written. -/
inductive ReportError where
  | io (path : Path) (source : IoError)
  | serialize (reason : String)
  | render
  deriving DecidableEq, Repr

def ReportError.message : ReportError → String
  | .io path source => s!"Failed to write {path.display}: " ++ source.message
  | .serialize reason => "Failed to serialize report: " ++ reason
  | .render => "Failed to render report"

/-- What ends a run early. It is the failure reason on the results, and no caller sees it raised. -/
inductive SuiteError where
  | config (reason : String)
  | pool (source : IoError)
  | dispatchLane (source : IoError)
  | dispatcherStopped (feature : String)
  | runtime (feature source : String)
  | report (error : ReportError)
  | hook (name source : String)
  | panic (reason : String)
  deriving DecidableEq, Repr

namespace SuiteError

def message : SuiteError → String
  | config reason => "Invalid configuration: " ++ reason
  | pool source => "Failed to build execution pool: " ++ source.message
  | dispatchLane source => "Failed to start dispatch lane: " ++ source.message
  | dispatcherStopped feature => s!"Dispatcher is stopped, feature {feature} was not submitted"
  | runtime feature source => s!"Failed to create runtime for feature {feature}: {source}"
  | report error => "Report failed: " ++ error.message
  | hook name source => s!"Hook \x27{name}\x27 failed: {source}"
  | panic reason => "Panicked: " ++ reason

/-- The name of the kind of error. -/
def kind : SuiteError → String
  | config _ => "Config"
  | pool _ => "Pool"
  | dispatchLane _ => "DispatchLane"
  | dispatcherStopped _ => "DispatcherStopped"
  | runtime _ _ => "Runtime"
  | report _ => "Report"
  | hook _ _ => "Hook"
  | panic _ => "Panic"

end SuiteError

/-- What a piece of code that gave up left behind. -/
inductive PanicPayload where
  | text (message : String)
  /-- Something that is no text. -/
  | noText
  deriving DecidableEq, Repr

def PanicPayload.message : PanicPayload → String
  | .text message => message
  | .noText => "unknown panic payload"

end FeatureBatch
