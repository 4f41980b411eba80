import FeatureBatch.Json.Decode
import FeatureBatch.Path

/-!
Features, the units of a batch. The scheduler knows where a feature lies, what it is called and its
tags, and never looks inside it.
-/

namespace FeatureBatch

/-- One test definition that can be scheduled on its own. -/
structure Feature where
  path : Path
  name : String
  tags : List String
  deriving DecidableEq, Repr

namespace Feature

def lossyText (bytes : List UInt8) : String := String.ofList (Text.ofUtf8Lossy bytes)

/-- The feature at a path, called by the stem of its file. -/
def ofPath (path : Path) : Feature where
  path
  name := (path.fileStem.map lossyText).getD path.display
  tags := []

def withName (f : Feature) (name : String) : Feature := { f with name }

def withTags (f : Feature) (tags : List String) : Feature := { f with tags := f.tags ++ tags }

def withTag (f : Feature) (tag : String) : Feature := f.withTags [tag]

/-- The feature is shown as its path. -/
def display (f : Feature) : String := f.path.display

/-- The names among the components of a path. -/
def namesOf (path : Path) : List (List Char) :=
  path.components.filterMap fun
    | .normal name => some (Text.ofUtf8Lossy name)
    | _ => none

/-- The name that reports go by: the names of the path without its extension, with dots between
them, or the feature's own name where there are none. -/
def qualifiedName (f : Feature) : String :=
  match namesOf f.path.withoutExtension with
  | [] => f.name
  | names => String.ofList (List.intercalate ['.'] names)

/-- The feature as JSON; there is none for a path that is not text. -/
def toJson? (f : Feature) : Option Json :=
  f.path.text?.map fun path =>
    .record [("path", .text path), ("name", .text f.name), ("tags", .texts f.tags)]

def ofJson? (v : Json) : Option Feature := do
  match ← v.fieldValues? ["path", "name", "tags"] with
  | [path, name, tags] => do
    some { path := .ofText (← Json.required? Json.asText? path)
           name := ← Json.required? Json.asText? name
           tags := ← Json.required? (Json.asList? Json.asText?) tags }
  | _ => none

end Feature

end FeatureBatch
