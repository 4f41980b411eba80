import FeatureBatch.Text.Blank

/-!
Log events and their levels. What a part of the program reports is a list of events in order; a
threshold keeps those that are severe enough.
-/

namespace FeatureBatch

inductive LogLevel where
  | trace
  | debug
  | info
  | warn
  | error
  deriving DecidableEq, Repr

namespace LogLevel

def severity : LogLevel → Nat
  | .trace => 0
  | .debug => 1
  | .info => 2
  | .warn => 3
  | .error => 4

/-- The level as it stands before a message. -/
def label : LogLevel → String
  | .trace => "TRACE"
  | .debug => "DEBUG"
  | .info => "INFO"
  | .warn => "WARN"
  | .error => "ERROR"

/-- The level by its own name. -/
def name : LogLevel → String
  | .trace => "Trace"
  | .debug => "Debug"
  | .info => "Info"
  | .warn => "Warn"
  | .error => "Error"

/-- The level that a text names, in letters of any case and with blanks around it. No letter
outside A to Z has a small form that occurs in the names. -/
def ofText? (s : String) : Option LogLevel :=
  match String.ofList (Text.foldAscii (Text.trim s.toList)) with
  | "trace" => some .trace
  | "debug" => some .debug
  | "info" => some .info
  | "warn" => some .warn
  | "warning" => some .warn
  | "error" => some .error
  | _ => none

end LogLevel

/-- One message with its level. -/
structure LogEvent where
  level : LogLevel
  message : String
  deriving DecidableEq, Repr

abbrev Log := List LogEvent

namespace Log

/-- The events that are at least as severe as the threshold. -/
def keep (threshold : LogLevel) (log : Log) : Log :=
  log.filter fun e => threshold.severity ≤ e.level.severity

/-- An event as one line of text. -/
def render (e : LogEvent) : String := e.level.label ++ " " ++ e.message

end Log

/-- Where events go. The first installation wins, and later ones change nothing. -/
structure Logger where
  installed : Option LogLevel
  deriving DecidableEq, Repr

namespace Logger

def fresh : Logger := ⟨none⟩

/-- Installs a threshold, unless one is there; says whether it did. -/
def install (l : Logger) (threshold : LogLevel) : Bool × Logger :=
  match l.installed with
  | none => (true, ⟨some threshold⟩)
  | some _ => (false, l)

/-- The events that get through: none before anything is installed. -/
def passed (l : Logger) (log : Log) : Log :=
  match l.installed with
  | none => []
  | some threshold => log.keep threshold

end Logger

end FeatureBatch
