import FeatureBatch.Yaml.Scan

/-!
The values of a YAML text. A text holds one document at most. Where a value is left out, an empty
plain scalar stands for it. A name is tied to a value by a number, the count of the names known
before it; of values with one number the last one counts.
-/

namespace FeatureBatch.Yaml

inductive Node where
  | alias (target : Nat)
  | scalar (style : ScalarStyle) (tag : Option (List Char)) (text : List Char)
  | sequence (items : List Node)
  | mapping (fields : List (Node × Node))
  | anchored (number : Nat) (node : Node)
  deriving Repr

namespace Node

mutual

/-- The values that have a number, each before those that are in it. -/
def numbered : Node → List (Nat × Node)
  | .alias _ => []
  | .scalar _ _ _ => []
  | .sequence items => numberedItems items
  | .mapping fields => numberedFields fields
  | .anchored k n => (k, n) :: n.numbered

def numberedItems : List Node → List (Nat × Node)
  | [] => []
  | n :: ns => n.numbered ++ numberedItems ns

def numberedFields : List (Node × Node) → List (Nat × Node)
  | [] => []
  | (k, v) :: fields => k.numbered ++ v.numbered ++ numberedFields fields

end

/-- A value without its number. -/
def bare : Node → Node
  | .anchored _ n => n.bare
  | n => n

end Node

/-- A document: its value, or nothing where the text holds none. -/
structure Document where
  root : Option Node
  deriving Repr

/-- The value that an alias stands for, or the value itself. -/
def Document.follow (d : Document) (n : Node) : Node :=
  match n.bare with
  | .alias k =>
    let known := (d.root.map Node.numbered).getD []
    ((known.reverse.lookup k).map Node.bare).getD (.alias k)
  | n => n

/-- The words that are left, with the names seen so far. -/
structure Reading where
  tokens : List Token
  names : List (List Char × Nat)
  deriving Repr

/-- What stands for a value that is left out. -/
def Node.absent : Node := .scalar .plain none []

/-- What is written before a value: its number and its tag. -/
structure Properties where
  number : Option Nat
  tag : Option (List Char)
  deriving Repr

def Properties.wrap (p : Properties) (n : Node) : Node :=
  match p.number with
  | some k => .anchored k n
  | none => n

namespace Reading

/-- The tags that need no directive. -/
def knownHandles : List (List Char × List Char) :=
  [(['!'], ['!']), (['!', '!'], "tag:yaml.org,2002:".toList)]

/-- Gives a name its number, in place of the one that it had. -/
def bindName (r : Reading) (name : List Char) : Nat × Reading :=
  let number := r.names.length
  (number, { r with names := (name, number) :: r.names.filter fun (n, _) => n ≠ name })

def skip (r : Reading) : Reading := { r with tokens := r.tokens.drop 1 }

/-- The next word is one of these. -/
def atAny (r : Reading) (ts : List Token) : Bool := r.tokens.head?.any ts.contains

/-- A tag with its handle replaced by what the handle stands for. -/
def expandTag (handles : List (List Char × List Char)) (handle suffix : List Char) :
    Option (List Char) :=
  if handle.isEmpty then some suffix else (handles.lookup handle).map (· ++ suffix)

def readAnchor (r : Reading) : Option Nat × Reading :=
  match r.tokens with
  | .anchor name :: _ =>
    let (number, r) := r.skip.bindName name
    (some number, r)
  | _ => (none, r)

def readTag (handles : List (List Char × List Char)) (r : Reading) :
    Option (Option (List Char) × Reading) :=
  match r.tokens with
  | .tag handle suffix :: _ => (expandTag handles handle suffix).map fun t => (some t, r.skip)
  | _ => some (none, r)

/-- An anchor and a tag, in either order, either or both left out. -/
def readProperties (handles : List (List Char × List Char)) (r : Reading) :
    Option (Properties × Reading) :=
  match r.tokens with
  | .anchor _ :: _ => do
    let (number, r) := r.readAnchor
    let (tag, r) ← r.readTag handles
    some (⟨number, tag⟩, r)
  | _ => do
    let (tag, r) ← r.readTag handles
    let (number, r) := if tag.isSome then r.readAnchor else (none, r)
    some (⟨number, tag⟩, r)

/-- A lone exclamation mark is no tag of a scalar that is there. -/
def scalarTag (tag : Option (List Char)) : Option (List Char) :=
  if tag = some ['!'] then none else tag

mutual

/-- Reads a value. `block` says that it may be a block, `flat` that it may be a sequence of which
the dashes stand at the column of the key. -/
def readNode (handles : List (List Char × List Char)) :
    Nat → Bool → Bool → Reading → Option (Node × Reading)
  | 0, _, _, _ => none
  | fuel + 1, block, flat, r =>
    match r.tokens with
    | .alias name :: _ => (r.names.lookup name).map fun k => (.alias k, r.skip)
    | _ => do
      let (p, r) ← r.readProperties handles
      match r.tokens with
      | .scalar style text :: _ => some (p.wrap (.scalar style (scalarTag p.tag) text), r.skip)
      | .openSequence :: _ =>
        let (items, r) ← readFlowItems handles fuel true r.skip
        some (p.wrap (.sequence items), r)
      | .openMapping :: _ =>
        let (fields, r) ← readFlowFields handles fuel true r.skip
        some (p.wrap (.mapping fields), r)
      | t :: _ =>
        if flat && t = .entry then
          let (items, r) ← readFlatItems handles fuel r
          some (p.wrap (.sequence items), r)
        else if block && t = .blockSequence then
          let (items, r) ← readItems handles fuel r.skip
          some (p.wrap (.sequence items), r)
        else if block && t = .blockMapping then
          let (fields, r) ← readFields handles fuel r.skip
          some (p.wrap (.mapping fields), r)
        else if p.number.isSome || p.tag.isSome then some (p.wrap (.scalar .plain p.tag []), r)
        else none
      | [] =>
        if p.number.isSome || p.tag.isSome then some (p.wrap (.scalar .plain p.tag []), r) else none

/-- Reads a value, or takes none to be there before one of the words of `ends`. -/
def readNodeOr (handles : List (List Char × List Char)) :
    Nat → Bool → Bool → List Token → Reading → Option (Node × Reading)
  | 0, _, _, _, _ => none
  | fuel + 1, block, flat, ends, r =>
    if r.atAny ends then some (.absent, r) else readNode handles fuel block flat r

/-- The items of a block. -/
def readItems (handles : List (List Char × List Char)) :
    Nat → Reading → Option (List Node × Reading)
  | 0, _ => none
  | fuel + 1, r =>
    match r.tokens with
    | .entry :: _ => do
      let (item, r) ← readNodeOr handles fuel true false [.entry, .blockEnd] r.skip
      let (items, r) ← readItems handles fuel r
      some (item :: items, r)
    | .blockEnd :: _ => some ([], r.skip)
    | _ => none

/-- The items of a sequence that is not indented. -/
def readFlatItems (handles : List (List Char × List Char)) :
    Nat → Reading → Option (List Node × Reading)
  | 0, _ => none
  | fuel + 1, r =>
    match r.tokens with
    | .entry :: _ => do
      let (item, r) ← readNodeOr handles fuel true false [.entry, .key, .value, .blockEnd] r.skip
      let (items, r) ← readFlatItems handles fuel r
      some (item :: items, r)
    | _ => some ([], r)

/-- The fields of a block. -/
def readFields (handles : List (List Char × List Char)) :
    Nat → Reading → Option (List (Node × Node) × Reading)
  | 0, _ => none
  | fuel + 1, r =>
    match r.tokens with
    | .key :: _ => do
      let (key, r) ← readNodeOr handles fuel true true [.key, .value, .blockEnd] r.skip
      let (value, r) ← readFieldValue handles fuel true [.key, .value, .blockEnd] r
      let (fields, r) ← readFields handles fuel r
      some ((key, value) :: fields, r)
    | .blockEnd :: _ => some ([], r.skip)
    | _ => none

/-- The value of a field, which may be left out with its colon or without. -/
def readFieldValue (handles : List (List Char × List Char)) :
    Nat → Bool → List Token → Reading → Option (Node × Reading)
  | 0, _, _, _ => none
  | fuel + 1, block, ends, r =>
    match r.tokens with
    | .value :: _ => readNodeOr handles fuel block block ends r.skip
    | _ => some (.absent, r)

/-- The items between brackets. An item may be a field of its own. -/
def readFlowItems (handles : List (List Char × List Char)) :
    Nat → Bool → Reading → Option (List Node × Reading)
  | 0, _, _ => none
  | fuel + 1, first, r => do
    if r.atAny [.closeSequence] then return ([], r.skip)
    let r ← if first then some r else if r.atAny [.comma] then some r.skip else none
    match r.tokens with
    | .closeSequence :: _ => some ([], r.skip)
    | .key :: _ =>
      let (field, r) ← readLoneField handles fuel r.skip
      let (items, r) ← readFlowItems handles fuel false r
      some (.mapping [field] :: items, r)
    | _ =>
      let (item, r) ← readNode handles fuel false false r
      let (items, r) ← readFlowItems handles fuel false r
      some (item :: items, r)

/-- A field among the items between brackets. Where its key is left out, so is the word after it. -/
def readLoneField (handles : List (List Char × List Char)) :
    Nat → Reading → Option ((Node × Node) × Reading)
  | 0, _ => none
  | fuel + 1, r => do
    let (key, r) ← if r.atAny [.value, .comma, .closeSequence] then some (Node.absent, r.skip)
      else readNode handles fuel false false r
    let (value, r) ← readFieldValue handles fuel false [.comma, .closeSequence] r
    some ((key, value), r)

/-- The fields between braces. -/
def readFlowFields (handles : List (List Char × List Char)) :
    Nat → Bool → Reading → Option (List (Node × Node) × Reading)
  | 0, _, _ => none
  | fuel + 1, first, r => do
    if r.atAny [.closeMapping] then return ([], r.skip)
    let r ← if first then some r else if r.atAny [.comma] then some r.skip else none
    match r.tokens with
    | .closeMapping :: _ => some ([], r.skip)
    | .key :: _ =>
      let (key, r) ← readNodeOr handles fuel false false [.value, .comma, .closeMapping] r.skip
      let (value, r) ← readFieldValue handles fuel false [.comma, .closeMapping] r
      let (fields, r) ← readFlowFields handles fuel false r
      some ((key, value) :: fields, r)
    | _ =>
      let (key, r) ← readNode handles fuel false false r
      let (fields, r) ← readFlowFields handles fuel false r
      some ((key, .absent) :: fields, r)

end

/-! ### Documents -/

/-- The directives before a document: at most one version, and no handle twice. -/
structure Directives where
  version : Bool
  handles : List (List Char × List Char)

def readDirectives : List Token → Directives → Option (Directives × List Token)
  | .version major minor :: rest, d =>
    if d.version || major ≠ 1 || (minor ≠ 1 && minor ≠ 2) then none
    else readDirectives rest { d with version := true }
  | .tagHandle handle expansion :: rest, d =>
    if (d.handles.lookup handle).isSome then none
    else readDirectives rest { d with handles := (handle, expansion) :: d.handles }
  | rest, d => some (d, rest)

/-- Nothing but ends of documents follows. -/
def isOver (r : Reading) : Bool := r.tokens.all fun t => t = .documentEnd

/-- A document with its value; the rest of the text holds no other. -/
def readRoot (handles : List (List Char × List Char)) (tokens : List Token) (optional : Bool) :
    Option Document := do
  let r : Reading := ⟨tokens, []⟩
  let (root, r) ← if optional && r.isOver then some (Node.absent, r)
    else readNode (handles ++ knownHandles) (3 * tokens.length + 3) true false r
  if r.isOver then some ⟨some root⟩ else none

end Reading

/-- The document that words make up. -/
def Document.ofTokens? (tokens : List Token) : Option Document :=
  match tokens with
  | [] => some ⟨none⟩
  | t :: _ =>
    let explicit := match t with
      | .version _ _ | .tagHandle _ _ | .documentStart => true
      | _ => false
    if explicit then do
      let (d, rest) ← Reading.readDirectives tokens ⟨false, []⟩
      match rest with
      | .documentStart :: rest => Reading.readRoot d.handles rest true
      | _ => none
    else Reading.readRoot [] tokens false

/-- The document that a text holds. -/
def Document.ofText? (text : List Char) : Option Document :=
  (Token.ofText? text).bind Document.ofTokens?

end FeatureBatch.Yaml
