import FeatureBatch.Config.Draft
import FeatureBatch.Exec.CacheCallers
import FeatureBatch.Exec.Completion
import FeatureBatch.Exec.JobBoard
import FeatureBatch.Exec.Pool
import FeatureBatch.Run.Rehearsal
import FeatureBatch.Proofs.Records.Totals
import FeatureBatch.Proofs.Run.Cell
import FeatureBatch.Proofs.Run.Frame
import FeatureBatch.Proofs.Run.Lane
import FeatureBatch.Proofs.Run.Dispatch
import FeatureBatch.Proofs.Run.Reach
import FeatureBatch.Proofs.Run.Course
import FeatureBatch.Proofs.Run.Waiting
import FeatureBatch.Proofs.Run.Writes
import FeatureBatch.Proofs.Run.Counting
import FeatureBatch.Proofs.Run.Samples
import FeatureBatch.Proofs.Run.Totals
import FeatureBatch.Proofs.Run.Early
import FeatureBatch.Proofs.Run.Plays
import FeatureBatch.Proofs.Run.Verdicts
import FeatureBatch.Proofs.Run.Containment
import FeatureBatch.Proofs.Run.Modes
import FeatureBatch.Proofs.Exec.Limiter
import FeatureBatch.Proofs.Exec.Permits
import FeatureBatch.Proofs.Run.Carried
import FeatureBatch.Proofs.Run.Deeds
import FeatureBatch.Proofs.Run.Stories
import FeatureBatch.Proofs.Run.Effort
import FeatureBatch.Proofs.Run.Standstill
import FeatureBatch.Proofs.Run.SuiteCalls
import FeatureBatch.Proofs.Run.Ending
import FeatureBatch.Proofs.Run.Reporting
import FeatureBatch.Proofs.Run.Teardown
import FeatureBatch.Proofs.Run.Alike
import FeatureBatch.Proofs.Run.Orders
import FeatureBatch.Proofs.Run.Emitters
import FeatureBatch.Proofs.Exec.Lane
import FeatureBatch.Proofs.Exec.Barrier
import FeatureBatch.Proofs.Exec.BarrierWait
import FeatureBatch.Proofs.Records.Book
import FeatureBatch.Proofs.Text.Blank
import FeatureBatch.Proofs.TagSelector
import FeatureBatch.Proofs.TagSelectorText
import FeatureBatch.Proofs.Text.Utf8
import FeatureBatch.Proofs.Number.Decimal
import FeatureBatch.Proofs.Time.Calendar
import FeatureBatch.Proofs.Time.Rfc3339
import FeatureBatch.Proofs.Time.Instant
import FeatureBatch.Proofs.Json.Scalars
import FeatureBatch.Proofs.Json.Layout
import FeatureBatch.Proofs.Json.Printed
import FeatureBatch.Proofs.Json.RoundTrip
import FeatureBatch.Proofs.Records.Duration
import FeatureBatch.Proofs.Records.Summary
import FeatureBatch.Proofs.Records.Timeline
import FeatureBatch.Proofs.Path
import FeatureBatch.Proofs.QualifiedName
import FeatureBatch.Proofs.Reports.Files
import FeatureBatch.Proofs.Reports.Reading
import FeatureBatch.Proofs.Reports.Junit
import FeatureBatch.Proofs.Run.ReportFiles
import FeatureBatch.Proofs.Interleaving
import FeatureBatch.Proofs.Exec.Cache
import FeatureBatch.Proofs.Exec.CacheCallers
import FeatureBatch.Proofs.Records.Writers
import FeatureBatch.Proofs.Reports.Outline
import FeatureBatch.Proofs.Reports.Html
import FeatureBatch.Proofs.Files.Writing
import FeatureBatch.Proofs.Config.Dictionary
import FeatureBatch.Proofs.Config.Environment
import FeatureBatch.Proofs.Config.Overrides
import FeatureBatch.Proofs.Config.HttpClients
import FeatureBatch.Proofs.Config.Draft
import FeatureBatch.Proofs.Config.Settings
import FeatureBatch.Proofs.Config.YamlSettings
import FeatureBatch.Proofs.Reports.Xml
import FeatureBatch.Proofs.Reports.WellFormed
