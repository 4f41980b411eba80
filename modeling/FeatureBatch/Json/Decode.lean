import FeatureBatch.Json.Basic
import FeatureBatch.Json.Floating
import FeatureBatch.Time.Rfc3339

/-!
Reading typed values from JSON values. A record may be given as an object, whose unknown fields do
not count, or as an array of its fields in order. A field that occurs twice is an error.
-/

namespace FeatureBatch.Json

def asText? : Json → Option String
  | .string s => s
  | _ => none

def asBool? : Json → Option Bool
  | .bool b => some b
  | _ => none

def asWord? : Json → Option UInt64
  | .number n => n.word?
  | _ => none

def asInt? : Json → Option Int
  | .number n => n.int?
  | _ => none

/-- A word as a count. -/
def asCount? (v : Json) : Option Nat := v.asWord?.map UInt64.toNat

def asFloat? : Json → Option Binary64
  | .number n => n.toBinary64?
  | _ => none

def asItems? : Json → Option (List Json)
  | .array vs => some vs
  | _ => none

def asList? {α : Type} (f : Json → Option α) (v : Json) : Option (List α) := do
  (← v.asItems?).mapM f

/-- A value, or nothing for null. -/
def asOption? {α : Type} (f : Json → Option α) : Json → Option (Option α)
  | .null => some none
  | v => (f v).map some

def asInstant? (v : Json) : Option Instant := v.asText?.bind fun s => Rfc3339.read? s.toList

/-- An instant as JSON. -/
def instant (t : Instant) : Json := text (String.ofList (Rfc3339.write t))

/-- The value of the field `name`: one at most. -/
def lookup? (fields : List (Option String × Json)) (name : String) : Option (Option Json) :=
  match fields.filter fun (k, _) => k = some name with
  | [] => some none
  | [(_, v)] => some (some v)
  | _ => none

/-- The values of the fields of a record, in the order of their names. -/
def fieldValues? (names : List String) : Json → Option (List (Option Json))
  | .object fields =>
    if fields.all fun (k, _) => k.isSome then names.mapM (lookup? fields) else none
  | .array vs => if vs.length = names.length then some (vs.map some) else none
  | _ => none

/-- A field that has to be there. -/
def required? {α : Type} (f : Json → Option α) (v : Option Json) : Option α := v.bind f

/-- A field that may be absent or null. -/
def optional? {α : Type} (f : Json → Option α) : Option Json → Option (Option α)
  | none => some none
  | some v => v.asOption? f

end FeatureBatch.Json
