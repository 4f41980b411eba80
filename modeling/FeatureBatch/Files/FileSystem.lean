import FeatureBatch.Path

/-!
A file system as a value: the entries below the root directory, and the working directory, which
may have been removed. A path is followed part by part, so every part but the last has to name a
directory, even one that a later `..` leaves again.
-/

namespace FeatureBatch

/-- Why an operation on files failed. -/
inductive IoError where
  | notFound
  | isDirectory
  | notDirectory
  | alreadyExists
  | nameTooLong
  /-- The path holds a zero byte. -/
  | zeroByte
  /-- The content is not text. -/
  | notText
  | other (text : String)
  deriving DecidableEq, Repr

def IoError.message : IoError → String
  | .notFound => "No such file or directory (os error 2)"
  | .isDirectory => "Is a directory (os error 21)"
  | .notDirectory => "Not a directory (os error 20)"
  | .alreadyExists => "File exists (os error 17)"
  | .nameTooLong => "File name too long (os error 36)"
  | .zeroByte => "file name contained an unexpected NUL byte"
  | .notText => "stream did not contain valid UTF-8"
  | .other text => text

/-- What a name stands for. -/
inductive FileEntry where
  | file (content : List UInt8)
  | directory
  deriving DecidableEq, Repr

abbrev FileName := List UInt8

/-- A place in the tree: the names from the root. -/
abbrev Place := List FileName

structure FileSystem where
  entries : List (Place × FileEntry)
  workingDir : Option Place
  deriving Repr

namespace FileSystem

def maxName : Nat := 255

def maxPath : Nat := 4096

/-- What is at a place; the root is a directory. -/
def lookup (fs : FileSystem) (place : Place) : Option FileEntry :=
  if place = [] then some .directory else fs.entries.lookup place

def isDirectoryAt (fs : FileSystem) (place : Place) : Bool := fs.lookup place = some .directory

/-- Puts an entry at a place, for whatever was there. -/
def put (fs : FileSystem) (place : Place) (entry : FileEntry) : FileSystem :=
  { fs with entries := (place, entry) :: fs.entries.filter fun (p, _) => p ≠ place }

/-- Fails unless there is a directory at the place. -/
def requireDirectory (fs : FileSystem) (place : Place) : Except IoError Unit :=
  match fs.lookup place with
  | some .directory => .ok ()
  | some (.file _) => .error .notDirectory
  | none => .error .notFound

/-- Follows the parts of a path from a place. The last place need not exist. -/
def walk (fs : FileSystem) (place : Place) : List FileName → Except IoError Place
  | [] => .ok place
  | name :: rest => do
    fs.requireDirectory place
    if Path.skipped name then walk fs place rest
    else if name = [Path.dot, Path.dot] then walk fs place.dropLast rest
    else if maxName < name.length then .error .nameTooLong
    else walk fs (place ++ [name]) rest

/-- The place a path starts from, if the path may be used at all. -/
def start (fs : FileSystem) (p : Path) : Except IoError Place :=
  if p.bytes.contains 0 then .error .zeroByte
  else if p.bytes = [] then .error .notFound
  else if maxPath ≤ p.bytes.length then .error .nameTooLong
  else if p.isAbsolute then .ok []
  else match fs.workingDir with
    | some place => .ok place
    | none => .error .notFound

/-- The place that a path names. -/
def resolve (fs : FileSystem) (p : Path) : Except IoError Place := do
  fs.walk (← fs.start p) p.segments

/-- The last part of a path: the directory before it, its name, and whether a separator follows. -/
structure Target where
  directory : Place
  name : FileName
  separatorFollows : Bool

/-- The target of a path that is to be created; none if the path ends in a dot, two dots or the root. -/
def target (fs : FileSystem) (p : Path) : Except IoError (Option Target) := do
  let place ← fs.start p
  let reversed := p.segments.reverse
  match reversed.dropWhile (· = []) with
  | [] => .ok none
  | name :: before =>
    let directory ← fs.walk place before.reverse
    fs.requireDirectory directory
    if name = [Path.dot] ∨ name = [Path.dot, Path.dot] then .ok none
    else if maxName < name.length then .error .nameTooLong
    else .ok (some ⟨directory, name, reversed.head? = some []⟩)

/-- The content of a file. -/
def read (fs : FileSystem) (p : Path) : Except IoError (List UInt8) := do
  match fs.lookup (← fs.resolve p) with
  | some (.file content) => .ok content
  | some .directory => .error .isDirectory
  | none => .error .notFound

/-- The content of a file that is text. -/
def readText (fs : FileSystem) (p : Path) : Except IoError String := do
  match Text.ofUtf8? (← fs.read p) with
  | some cs => .ok (String.ofList cs)
  | none => .error .notText

/-- Writes a file, a new one or over what an old one held. -/
def write (fs : FileSystem) (p : Path) (content : List UInt8) : Except IoError FileSystem := do
  match ← fs.target p with
  | none => .error .isDirectory
  | some t =>
    let place := t.directory ++ [t.name]
    if t.separatorFollows || fs.isDirectoryAt place then .error .isDirectory
    else .ok (fs.put place (.file content))

/-- Makes one directory, in a directory that exists. -/
def makeDirectory (fs : FileSystem) (p : Path) : Except IoError FileSystem := do
  match ← fs.target p with
  | none => .error .alreadyExists
  | some t =>
    let place := t.directory ++ [t.name]
    if (fs.lookup place).isSome then .error .alreadyExists else .ok (fs.put place .directory)

def isDirectory (fs : FileSystem) (p : Path) : Bool :=
  match fs.resolve p with
  | .ok place => fs.isDirectoryAt place
  | .error _ => false

/-- The path and those above it, up to the one that has none above it. -/
def ancestors : Nat → Path → List Path
  | 0, _ => []
  | fuel + 1, p =>
    match p.parent with
    | none => []
    | some up => p :: ancestors fuel up

/-- Makes the first of these directories, and before it those of the others that are missing. What
was made before a failure stays. -/
def makeChain (fs : FileSystem) : List Path → Except IoError Unit × FileSystem
  | [] => (.ok (), fs)
  | p :: up =>
    match fs.makeDirectory p with
    | .ok fs => (.ok (), fs)
    | .error .notFound =>
      match makeChain fs up with
      | (.error e, fs) => (.error e, fs)
      | (.ok (), fs) => makeLast fs p
    | .error e => (if fs.isDirectory p then .ok () else .error e, fs)
where
  makeLast (fs : FileSystem) (p : Path) : Except IoError Unit × FileSystem :=
    match fs.makeDirectory p with
    | .ok fs => (.ok (), fs)
    | .error e => (if fs.isDirectory p then .ok () else .error e, fs)

/-- Makes a directory and all that are missing above it. -/
def makeDirectories (fs : FileSystem) (p : Path) : Except IoError Unit × FileSystem :=
  fs.makeChain (ancestors (p.bytes.length + 1) p)

/-- The path of a place. -/
def pathOf (place : Place) : Path :=
  if place.isEmpty then ⟨[Path.slash]⟩ else ⟨place.flatMap fun name => Path.slash :: name⟩

/-- The working directory as a path. -/
def currentDir (fs : FileSystem) : Except IoError Path :=
  match fs.workingDir with
  | some place => .ok (pathOf place)
  | none => .error .notFound

/-- The files below a place, by their names from there, in the order of the names. -/
def filesBelow (fs : FileSystem) (place : Place) : List (Place × List UInt8) :=
  let found := fs.entries.filterMap fun
    | (p, .file content) => if place.isPrefixOf p then some (p.drop place.length, content) else none
    | (_, .directory) => none
  found.mergeSort fun a b => decide (a.1 ≤ b.1)

end FileSystem

end FeatureBatch
