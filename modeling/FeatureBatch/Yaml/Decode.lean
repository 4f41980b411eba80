import FeatureBatch.Yaml.Node
import FeatureBatch.Yaml.Plain

/-!
Reading typed values from a YAML document. An empty plain scalar is an empty sequence, an empty
mapping and a record without fields. A record may be given as a mapping, whose unknown fields do not
count, or as a sequence of its fields in order.
-/

namespace FeatureBatch.Yaml

namespace Document

/-- The text of a scalar, whatever it looks like. -/
def asText? (d : Document) (n : Node) : Option String :=
  match d.follow n with
  | .scalar _ _ text => some (String.ofList text)
  | _ => none

/-- The text of a scalar that is not quoted; one of whole lines only under its tag. -/
def unquoted? (d : Document) (tag : String) (n : Node) : Option (List Char) :=
  match d.follow n with
  | .scalar .plain _ text => some text
  | .scalar .literal (some t) text => if t = tag.toList then some text else none
  | _ => none

def asBool? (d : Document) (n : Node) : Option Bool :=
  (d.unquoted? "tag:yaml.org,2002:bool" n).bind bool?

def asWord? (d : Document) (n : Node) : Option UInt64 :=
  (d.unquoted? "tag:yaml.org,2002:int" n).bind word?

/-- The value is left out. -/
def isEmpty (d : Document) (n : Node) : Bool :=
  match d.follow n with
  | .scalar .plain _ [] => true
  | _ => false

/-- A value, or nothing for null. A scalar that is tagged as null has to be null. -/
def asOption? {α : Type} (d : Document) (f : Node → Option α) (n : Node) : Option (Option α) :=
  match d.follow n with
  | .scalar .plain none text =>
    if text = [] || isNullWord text then some none else (f n).map some
  | .scalar .plain (some t) text =>
    if t = "tag:yaml.org,2002:null".toList then (if isNullWord text then some none else none)
    else (f n).map some
  | _ => (f n).map some

def asList? {α : Type} (d : Document) (f : Node → Option α) (n : Node) : Option (List α) :=
  match d.follow n with
  | .sequence items => items.mapM f
  | _ => if d.isEmpty n then some [] else none

/-- A mapping of texts to texts, in its order. -/
def asPairs? (d : Document) (n : Node) : Option (List (String × String)) :=
  match d.follow n with
  | .mapping fields => fields.mapM fun (k, v) => do some (← d.asText? k, ← d.asText? v)
  | _ => if d.isEmpty n then some [] else none

/-- The value of the field `name`: one at most. -/
def lookup? (fields : List (String × Node)) (name : String) : Option (Option Node) :=
  match fields.filter fun (k, _) => k = name with
  | [] => some none
  | [(_, v)] => some (some v)
  | _ => none

/-- The values of the fields of a record, in the order of their names. -/
def fieldValues? (d : Document) (names : List String) (n : Node) : Option (List (Option Node)) :=
  match d.follow n with
  | .mapping fields => do
    let fields ← fields.mapM fun (k, v) => (d.asText? k).map fun k => (k, v)
    names.mapM (lookup? fields)
  | .sequence items =>
    if items.length ≤ names.length then
      some (items.map some ++ List.replicate (names.length - items.length) none)
    else none
  | _ => if d.isEmpty n then some (names.map fun _ => none) else none

/-- A field that has to be there. -/
def required? {α : Type} (f : Node → Option α) (v : Option Node) : Option α := v.bind f

/-- A field that has a value of its own where it is absent. -/
def orElse? {α : Type} (f : Node → Option α) (default : α) : Option Node → Option α
  | none => some default
  | some v => f v

end Document

end FeatureBatch.Yaml
