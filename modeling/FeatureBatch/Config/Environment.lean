import FeatureBatch.Number.Decimal
import FeatureBatch.Path
import FeatureBatch.Text.Blank
import FeatureBatch.Text.Quoted

/-!
Environment variables of the suite: what they override, and how a test sets some of them for a
while. A guard holds the values that the variables had, and gives them back when it is dropped. Names
and values are bytes to the system; one that is not text counts as not set where texts are read.
-/

namespace FeatureBatch

/-- The values of the variables that are set, by their names. -/
@[ext]
structure Environment where
  get? : List UInt8 → Option (List UInt8)

namespace Environment

/-- A name that is text, as the system has it. -/
def key (name : String) : List UInt8 := Text.utf8 name.toList

def empty : Environment := ⟨fun _ => none⟩

def insert (env : Environment) (name value : String) : Environment :=
  ⟨fun k => if k = key name then some (Text.utf8 value.toList) else env.get? k⟩

def erase (env : Environment) (name : String) : Environment :=
  ⟨fun k => if k = key name then none else env.get? k⟩

/-- The value of a variable, if it is set and is text. -/
def text? (env : Environment) (name : String) : Option String :=
  ((env.get? (key name)).bind Text.ofUtf8?).map String.ofList

/-- The full name of a variable of the suite. -/
def fullName (name : String) : String := "FEATURE_SUITE_" ++ name

/-- Why a variable cannot be set. -/
inductive Fault where
  | zeroByte
  | invalidName
  deriving DecidableEq, Repr

def Fault.message : Fault → String
  | .zeroByte => "file name contained an unexpected NUL byte"
  | .invalidName => "Invalid argument (os error 22)"

/-- What is wrong with a name and a value, if anything is. -/
def fault? (name value : String) : Option Fault :=
  if name.toList.contains '\x00' || value.toList.contains '\x00' then some .zeroByte
  else if name.toList.contains '=' then some .invalidName
  else none

/-- A variable that could not be set. -/
structure Refusal where
  name : String
  value : String
  fault : Fault
  deriving DecidableEq, Repr

def Refusal.message (r : Refusal) : String :=
  s!"failed to set environment variable \x60{Text.quoted r.name}\x60 to \x60{Text.quoted r.value}\x60: " ++
    r.fault.message

/-- What variables held before they were set: a value, or nothing. -/
structure Guard where
  previous : List (String × Option String)
  deriving DecidableEq, Repr

/-- Sets variables one after the other, up to the first that cannot be set. -/
def setAll (env : Environment) : List (String × String) → Option Refusal × Environment
  | [] => (none, env)
  | (name, value) :: rest =>
    match fault? name value with
    | some fault => (some ⟨name, value, fault⟩, env)
    | none => setAll (env.insert name value) rest

/-- Sets variables of the suite for as long as the guard lives. -/
def apply (env : Environment) (vars : List (String × String)) :
    Except Refusal Guard × Environment :=
  let vars := vars.map fun (name, value) => (fullName name, value)
  let guard : Guard := ⟨vars.map fun (name, _) => (name, env.text? name)⟩
  match setAll env vars with
  | (none, env) => (.ok guard, env)
  | (some refusal, env) => (.error refusal, env)

/-- Gives a variable back what it held. -/
def restore (env : Environment) : String × Option String → Environment
  | (name, some value) => env.insert name value
  | (name, none) => env.erase name

/-- Gives all variables of a guard back what they held, in order. -/
def drop (env : Environment) (guard : Guard) : Environment := guard.previous.foldl restore env

/-! ### Overrides -/

/-- What the environment overrides. -/
structure Overrides where
  env : Option String
  tags : Option (List String)
  threads : Option UInt64
  dryRun : Option Bool
  reportDir : Option Path
  deriving DecidableEq, Repr

namespace Overrides

def none : Overrides := ⟨.none, .none, .none, .none, .none⟩

def hasAny (o : Overrides) : Bool :=
  o.env.isSome || o.tags.isSome || o.threads.isSome || o.dryRun.isSome || o.reportDir.isSome

end Overrides

/-- The value of a variable of the suite. A blank one counts as not set. -/
def value? (env : Environment) (name : String) : Option String :=
  (env.text? (fullName name)).filter fun v => !Text.allBlank v.toList

/-- The words that stand for yes, in letters of any case; all others stand for no. -/
def isYes (value : String) : Bool :=
  -- Only letters from A to Z have small letters that occur in these words.
  ["1", "true", "yes", "on", "enabled"].contains (String.ofList (Text.foldAscii value.toList))

/-- What the environment overrides. A count of threads that is no number overrides nothing. -/
def overrides (env : Environment) : Overrides where
  env := env.value? "ENV"
  tags := (env.value? "TAGS").map fun v => (Text.words v.toList).map String.ofList
  threads := (env.value? "THREADS").bind fun v => Decimal.word? (Text.trim v.toList)
  dryRun := (env.value? "DRY_RUN").map isYes
  reportDir := (env.value? "REPORT_DIR").map .ofText

end Environment

end FeatureBatch
