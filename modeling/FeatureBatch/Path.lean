import FeatureBatch.Text.Utf8

/-!
Paths are byte strings with `/` between their parts. A path is read as its parts, and a reading
skips empty parts and single dots, except that a dot which begins a relative path counts. Taking
the parent or the extension off a path leaves the spelling of what remains as it was.
-/

namespace FeatureBatch

/-- A path, as the bytes that spell it. -/
structure Path where
  bytes : List UInt8
  deriving DecidableEq, Repr

/-- A part of a path, as it is read. -/
inductive Component where
  | root
  | current
  | parent
  | normal (name : List UInt8)
  deriving DecidableEq, Repr

namespace Path

abbrev slash : UInt8 := 47
abbrev dot : UInt8 := 46

def ofText (s : String) : Path := ⟨Text.utf8 s.toList⟩

/-- The path as text, with the replacement character where it is none. -/
def display (p : Path) : String := String.ofList (Text.ofUtf8Lossy p.bytes)

/-- The path as text, if it is text. -/
def text? (p : Path) : Option String := (Text.ofUtf8? p.bytes).map String.ofList

def isAbsolute (p : Path) : Bool := p.bytes.head? = some slash

/-- What stands between the separators, after the one that makes a path absolute. -/
def segments (p : Path) : List (List UInt8) :=
  (if p.isAbsolute then p.bytes.drop 1 else p.bytes).splitOn slash

/-- The path with the same root as `p` and other parts. -/
def withSegments (p : Path) (segs : List (List UInt8)) : Path :=
  let body := List.intercalate [slash] segs
  ⟨if p.isAbsolute then slash :: body else body⟩

/-- A part that a reading skips. -/
def skipped (seg : List UInt8) : Bool := seg = [] || seg = [dot]

/-- The component that a part which is not skipped spells. -/
def componentOf (seg : List UInt8) : Component :=
  if seg = [dot, dot] then .parent else .normal seg

def components (p : Path) : List Component :=
  let body := (p.segments.filter fun seg => !skipped seg).map componentOf
  if p.isAbsolute then .root :: body
  else if p.segments.head? = some [dot] then .current :: body
  else body

/-- The parts up to the last one that counts: what is skipped at the end is gone. -/
def trimmedSegments (p : Path) : List (List UInt8) :=
  match p.isAbsolute, p.segments with
  | false, first :: rest =>
    if first = [dot] then first :: (rest.reverse.dropWhile skipped).reverse
    else ((first :: rest).reverse.dropWhile skipped).reverse
  | _, segs => (segs.reverse.dropWhile skipped).reverse

/-- The last part, if the path ends in a name. -/
def fileName (p : Path) : Option (List UInt8) :=
  match p.components.getLast? with
  | some (.normal name) => some name
  | _ => none

/-- The path without its last component, in its own spelling. -/
def parent (p : Path) : Option Path :=
  match p.trimmedSegments with
  | [] => none
  | segs => some (p.withSegments (trimmedSegments (p.withSegments segs.dropLast)))

/-- A name before and after its last dot; a name without a dot, or with none but the first one it
begins with, has only a stem. -/
def splitName (name : List UInt8) : List UInt8 × Option (List UInt8) :=
  let after := (name.reverse.takeWhile (· != dot)).reverse
  let before := name.take (name.length - after.length - 1)
  if name = [dot, dot] || before = [] then (name, none) else (before, some after)

def fileStem (p : Path) : Option (List UInt8) := p.fileName.map fun n => (splitName n).1

def extension (p : Path) : Option (List UInt8) := p.fileName.bind fun n => (splitName n).2

/-- The path with the extension of its last part taken off. -/
def withoutExtension (p : Path) : Path :=
  match p.fileStem with
  | none => p
  | some stem => p.withSegments (p.trimmedSegments.dropLast ++ [stem])

/-- The path `q` seen from the directory `p`; an absolute `q` stands for itself. -/
def join (p q : Path) : Path :=
  if q.isAbsolute then q
  else if p.bytes = [] || p.bytes.getLast? = some slash then ⟨p.bytes ++ q.bytes⟩
  else ⟨p.bytes ++ slash :: q.bytes⟩

end Path

end FeatureBatch
