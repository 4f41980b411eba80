import FeatureBatch.Records.ResultsBook
import FeatureBatch.Reports.FileReports

/-!
Emitters of reports. A call names what is to be reported; it is answered with where the report went
or why there is none, or it gives up. `σ` is what calls leave behind, such as files.
-/

namespace FeatureBatch

inductive ReportCall where
  | featureJson (record : FeatureRecord)
  | featureXml (record : FeatureRecord)
  | featureHtml (record : FeatureRecord)
  | summary (book : ResultsBook)
  | stats (book : ResultsBook)
  | timeline (book : ResultsBook)

inductive CallOutcome where
  | written (path : Path)
  | failed (error : ReportError)
  | panicked (payload : PanicPayload)
  deriving DecidableEq, Repr

namespace ReportCall

/-- The call in short: its kind, and the feature if it is about one. -/
def label : ReportCall → String
  | featureJson r => "feature_json:" ++ r.qualifiedName
  | featureXml r => "feature_xml:" ++ r.qualifiedName
  | featureHtml r => "feature_html:" ++ r.qualifiedName
  | summary _ => "summary"
  | stats _ => "stats"
  | timeline _ => "timeline"

/-- The call is made when a single feature completes. -/
def isPerFeature : ReportCall → Bool
  | featureJson _ => true
  | featureXml _ => true
  | _ => false

end ReportCall

namespace CallOutcome

def ofWritten : Except ReportError Path → CallOutcome
  | .ok path => .written path
  | .error e => .failed e

/-- What a failed call means for whoever made it. -/
def error? : CallOutcome → Option SuiteError
  | .written _ => none
  | .failed e => some (.report e)
  | .panicked payload => some (.panic payload.message)

end CallOutcome

/-- Answers a call for a report directory. -/
structure Emitter (σ : Type) where
  perform : Path → ReportCall → σ → CallOutcome × σ

namespace FileReports

/-- The reports as files in the report directory. -/
def emitter : Emitter FileSystem where
  perform dir call files :=
    let done (w : Except ReportError Path × FileSystem) := (CallOutcome.ofWritten w.1, w.2)
    match call with
    | .featureJson r => done (featureJson files dir r)
    | .featureXml r => done (featureXml files dir r)
    | .featureHtml r => done (featureHtml files dir r)
    | .summary b => done (FileReports.summary files dir b.summary)
    | .stats b => done (FileReports.stats files dir b.summary)
    | .timeline b =>
      match b.timeline with
      | .ok entries => done (FileReports.timeline files dir entries)
      | .error e => (.panicked (.text e.message), files)

end FileReports

end FeatureBatch
