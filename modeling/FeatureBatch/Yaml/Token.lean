import FeatureBatch.Number.Decimal
import FeatureBatch.Yaml.Scalars

/-!
The words of a YAML text: marks of structure, scalars, and the names that tie them to tags and
anchors. What stands at the beginning of a text is read here where it does not depend on its place;
the order of the words is the work of the scan.
-/

namespace FeatureBatch.Yaml

/-- How a scalar is spelled. -/
inductive ScalarStyle where
  | plain
  | single
  | double
  | literal
  | folded
  deriving DecidableEq, Repr

/-- A word of a YAML text. Tags are lists of octets, each given as the character with its number. -/
inductive Token where
  | version (major minor : Nat)
  | tagHandle (handle expansion : List Char)
  | documentStart
  | documentEnd
  | blockSequence
  | blockMapping
  | blockEnd
  | openSequence
  | closeSequence
  | openMapping
  | closeMapping
  | entry
  | comma
  | key
  | value
  | alias (name : List Char)
  | anchor (name : List Char)
  | tag (handle suffix : List Char)
  | scalar (style : ScalarStyle) (text : List Char)
  deriving DecidableEq, Repr

/-! ### Anchors -/

/-- What may follow the name of an anchor at once. -/
def endsName : List Char → Bool
  | [] => true
  | c :: rest =>
    atGap (c :: rest) || c = '?' || c = ':' || c = ',' || c = ']' || c = '}' || c = '%' || c = '@' ||
      c = '\x60'

/-- The name of an anchor, which may not be empty. -/
def readName (cs : List Char) : Option (List Char × List Char) :=
  let name := cs.takeWhile isWord
  let rest := cs.dropWhile isWord
  if name.isEmpty || !endsName rest then none else some (name, rest)

/-! ### Tags -/

/-- The characters of a tag that stand for themselves. Those that structure a text may stand in it
only where it is in angle brackets or in a directive. -/
def isTagChar (bracketed : Bool) (c : Char) : Bool :=
  isWord c || ";/?:@&=+$.!~*\x27()".toList.contains c || (bracketed && ",[]".toList.contains c)

/-- How many octets a character has, by the first of them. -/
def octetCount (n : Nat) : Option Nat :=
  if n < 0x80 then some 1
  else if 0xC0 ≤ n && n < 0xE0 then some 2
  else if 0xE0 ≤ n && n < 0xF0 then some 3
  else if 0xF0 ≤ n && n < 0xF8 then some 4
  else none

/-- An octet as a percent sign and two digits. -/
def readOctet : List Char → Option (Nat × List Char)
  | '%' :: a :: b :: rest => do
    let high ← Hexadecimal.value a
    let low ← Hexadecimal.value b
    some (high * 16 + low, rest)
  | _ => none

/-- The further octets of a character. -/
def readOctets : Nat → List Char → Option (List Char × List Char)
  | 0, cs => some ([], cs)
  | n + 1, cs => do
    let (octet, rest) ← readOctet cs
    if octet < 0x80 || 0xC0 ≤ octet then none
    else
      let (more, rest) ← readOctets n rest
      some (Char.ofNat octet :: more, rest)

/-- Reads on with the octets of a tag. -/
def readTagChars (bracketed : Bool) : Nat → List Char → Option (List Char × List Char)
  | 0, _ => none
  | _ + 1, [] => some ([], [])
  | fuel + 1, c :: cs =>
    if c = '%' then do
      let (first, rest) ← readOctet (c :: cs)
      let count ← octetCount first
      let (octets, rest) ← readOctets (count - 1) rest
      let (more, rest) ← readTagChars bracketed fuel rest
      some (Char.ofNat first :: octets ++ more, rest)
    else if isTagChar bracketed c then do
      let (more, rest) ← readTagChars bracketed fuel cs
      some (c :: more, rest)
    else some ([], c :: cs)

/-- A part of a tag after what is already known to belong to it. The two may not both be empty. -/
def readTagPart (bracketed : Bool) (start cs : List Char) : Option (List Char × List Char) := do
  let (text, rest) ← readTagChars bracketed (cs.length + 1) cs
  if start.isEmpty && text.isEmpty then none else some (start.drop 1 ++ text, rest)

/-- The handle of a tag: an exclamation mark, letters, and a second mark if there is one. -/
def readHandle : List Char → Option (List Char × List Char)
  | '!' :: cs =>
    let name := cs.takeWhile isWord
    match cs.dropWhile isWord with
    | '!' :: rest => some ('!' :: name ++ ['!'], rest)
    | rest => some ('!' :: name, rest)
  | _ => none

/-- A handle that begins and ends with marks of its own. -/
def isClosedHandle (handle : List Char) : Bool := 1 < handle.length && handle.getLast? = some '!'

/-- A tag, from its exclamation mark on, and what follows it. -/
def readTag (cs : List Char) : Option (Token × List Char) :=
  match cs with
  | '!' :: '<' :: rest => do
    let (suffix, rest) ← readTagPart true [] rest
    match rest with
    | '>' :: rest => some (.tag [] suffix, rest)
    | _ => none
  | _ => do
    let (handle, rest) ← readHandle cs
    if isClosedHandle handle then
      let (suffix, rest) ← readTagPart false [] rest
      some (.tag handle suffix, rest)
    else
      let (suffix, rest) ← readTagPart false handle rest
      some (if suffix.isEmpty then .tag [] ['!'] else .tag ['!'] suffix, rest)

/-! ### Directives -/

def skipBlanks (cs : List Char) : List Char := cs.dropWhile isBlank

/-- A number of at most nine digits. -/
def readVersionNumber (cs : List Char) : Option (Nat × List Char) :=
  let digits := cs.takeWhile Char.isDigit
  if digits.isEmpty || 9 < digits.length then none
  else some (Decimal.ofDigits digits, cs.dropWhile Char.isDigit)

def readVersion (cs : List Char) : Option (Token × List Char) := do
  let (major, rest) ← readVersionNumber (skipBlanks cs)
  match rest with
  | '.' :: rest =>
    let (minor, rest) ← readVersionNumber rest
    some (.version major minor, rest)
  | _ => none

def readTagDirective (cs : List Char) : Option (Token × List Char) := do
  let (handle, rest) ← readHandle (skipBlanks cs)
  if handle ≠ ['!'] && !isClosedHandle handle then none
  else if !(rest.head?.any isBlank) then none
  else
    let (expansion, rest) ← readTagPart true [] (skipBlanks rest)
    if atGap rest then some (.tagHandle handle expansion, rest) else none

/-- A directive after its percent sign, up to the end of its value. -/
def readDirective (cs : List Char) : Option (Token × List Char) :=
  let name := cs.takeWhile isWord
  let rest := cs.dropWhile isWord
  if !atGap rest then none
  else if name = "YAML".toList then readVersion rest
  else if name = "TAG".toList then readTagDirective rest
  else none

end FeatureBatch.Yaml
