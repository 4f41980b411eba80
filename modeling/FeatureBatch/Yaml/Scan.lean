import FeatureBatch.Yaml.Token

/-!
The words of a YAML text in order. Indentation becomes words of its own, which open and close
blocks, and a key that has no mark before it gets one once the colon after it has been seen.
-/

namespace FeatureBatch.Yaml

/-- A place at which a key may have begun. -/
structure KeyPlace where
  /-- What stands there has to be a key. -/
  required : Bool
  /-- The count of words before it. -/
  position : Nat
  mark : Mark
  deriving DecidableEq, Repr

/-- A text that has been read in part. -/
structure Scan where
  rest : List Char
  mark : Mark
  tokens : List Token
  /-- The columns of the open blocks, the innermost first. -/
  columns : List Nat
  /-- A key without a mark may begin here. -/
  keyAllowed : Bool
  /-- Where a key may have begun within the innermost brackets. -/
  keyPlace : Option KeyPlace
  /-- The same for what encloses these brackets, outwards. -/
  outerPlaces : List (Option KeyPlace)
  deriving Repr

namespace Scan

def start (text : List Char) : Scan := ⟨text, .start, [], [], true, none, []⟩

/-- The text is within brackets. -/
def inFlow (s : Scan) : Bool := !s.outerPlaces.isEmpty

def push (s : Scan) (t : Token) : Scan := { s with tokens := s.tokens ++ [t] }

/-- Goes on by `n` characters of the line. -/
def advance (s : Scan) (n : Nat) : Scan := { s with rest := s.rest.drop n, mark := s.mark.right n }

/-- Puts a word before those from `position` on. -/
def insert (s : Scan) (position : Nat) (t : Token) : Scan :=
  { s with tokens := s.tokens.take position ++ t :: s.tokens.drop position }

/-! ### Blocks -/

/-- Opens a block at a column that is further to the right than the innermost one. Brackets have no
blocks in them. -/
def openBlock (s : Scan) (column position : Nat) (t : Token) : Scan :=
  if !s.inFlow && (s.columns.head?.all fun c => c < column) then
    { s.insert position t with columns := column :: s.columns }
  else s

/-- Closes the blocks to the right of a column. -/
def closeBlocks (s : Scan) (column : Nat) : Scan :=
  if s.inFlow then s
  else
    let closed := s.columns.takeWhile (column < ·)
    { s with
      tokens := s.tokens ++ List.replicate closed.length .blockEnd
      columns := s.columns.drop closed.length }

def closeAllBlocks (s : Scan) : Scan :=
  if s.inFlow then s
  else { s with tokens := s.tokens ++ List.replicate s.columns.length .blockEnd, columns := [] }

/-! ### Keys without a mark -/

/-- Nothing more can make a key of what began at this place. -/
def isStale (m : Mark) (p : KeyPlace) : Bool := p.mark.line < m.line || p.mark.index + 1024 < m.index

/-- Gives up a place from which a key can no longer be read; an error if it had to be one. -/
def freshPlace (m : Mark) : Option KeyPlace → Option (Option KeyPlace)
  | some p => if isStale m p then (if p.required then none else some none) else some (some p)
  | none => some none

/-- A key is on one line and not longer than 1024 characters. -/
def dropStale (s : Scan) : Option Scan := do
  let place ← freshPlace s.mark s.keyPlace
  let outer ← s.outerPlaces.mapM (freshPlace s.mark)
  some { s with keyPlace := place, outerPlaces := outer }

/-- What began at the last place is no key. -/
def dropPlace (s : Scan) : Option Scan :=
  if s.keyPlace.any KeyPlace.required then none else some { s with keyPlace := none }

/-- What begins here may turn out to be a key. -/
def savePlace (s : Scan) : Option Scan :=
  if s.keyAllowed then do
    let s ← s.dropPlace
    let required := !s.inFlow && s.columns.head? = some s.mark.column
    some { s with keyPlace := some ⟨required, s.tokens.length, s.mark⟩ }
  else some s

/-! ### From word to word -/

/-- A blank that may stand between words. A tab may not where a key could begin outside of
brackets. -/
def skips (s : Scan) (c : Char) : Bool := c = ' ' || ((s.inFlow || !s.keyAllowed) && c = '\t')

/-- Skips blanks, comments and breaks. After a break outside of brackets a key may begin. -/
def skipGap : Nat → Scan → Scan
  | 0, s => s
  | fuel + 1, s =>
    let s := if s.mark.index = 0 && s.rest.head? = some '\uFEFF' then s.advance 1 else s
    let s := s.advance (s.rest.takeWhile s.skips).length
    let s := if s.rest.head? = some '#' then s.advance (s.rest.takeWhile fun c => !isBreak c).length
      else s
    match takeBreak s.rest s.mark with
    | some (_, rest, mark) =>
      skipGap fuel { s with rest := rest, mark := mark, keyAllowed := s.keyAllowed || !s.inFlow }
    | none => s

/-- A directive, with its whole line. -/
def readDirectiveLine (s : Scan) : Option Scan := do
  let s ← s.closeAllBlocks.dropPlace
  let s := s.advance 1
  let (t, rest) ← readDirective s.rest
  let (rest, mark) ← skipLineEnd rest (s.mark.right (s.rest.length - rest.length))
  some { s.push t with rest := rest, mark := mark, keyAllowed := false }

/-- A mark of three characters between documents. -/
def readDocumentMark (s : Scan) (t : Token) : Option Scan := do
  let s ← s.closeAllBlocks.dropPlace
  some { (s.push t).advance 3 with keyAllowed := false }

def openFlow (s : Scan) (t : Token) : Option Scan := do
  let s ← s.savePlace
  some { (s.push t).advance 1 with
    keyAllowed := true, keyPlace := none, outerPlaces := s.keyPlace :: s.outerPlaces }

def closeFlow (s : Scan) (t : Token) : Option Scan := do
  let s ← s.dropPlace
  some { (s.push t).advance 1 with
    keyAllowed := false
    keyPlace := s.outerPlaces.head?.getD none
    outerPlaces := s.outerPlaces.drop 1 }

def readComma (s : Scan) : Option Scan := do
  let s ← s.dropPlace
  some { (s.push .comma).advance 1 with keyAllowed := true }

/-- A dash before an item. -/
def readEntry (s : Scan) : Option Scan :=
  if !s.inFlow && !s.keyAllowed then none
  else do
    let s ← (s.openBlock s.mark.column s.tokens.length .blockSequence).dropPlace
    some { (s.push .entry).advance 1 with keyAllowed := true }

/-- A question mark before a key. -/
def readKey (s : Scan) : Option Scan :=
  if !s.inFlow && !s.keyAllowed then none
  else do
    let s ← (s.openBlock s.mark.column s.tokens.length .blockMapping).dropPlace
    some { (s.push .key).advance 1 with keyAllowed := !s.inFlow }

/-- A colon before a value. Where a key may have begun, it has. -/
def readValue (s : Scan) : Option Scan :=
  match s.keyPlace with
  | some p =>
    let s := (s.insert p.position .key).openBlock p.mark.column p.position .blockMapping
    some { (s.push .value).advance 1 with keyPlace := none, keyAllowed := false }
  | none =>
    if !s.inFlow && !s.keyAllowed then none
    else
      let s := s.openBlock s.mark.column s.tokens.length .blockMapping
      some { (s.push .value).advance 1 with keyAllowed := !s.inFlow }

/-- A word that may be or begin a key. -/
def readKeyWord (s : Scan) (t : Token) (rest : List Char) (mark : Mark) (keyAllowed : Bool) :
    Option Scan := do
  let s ← s.savePlace
  some { s.push t with rest := rest, mark := mark, keyAllowed := keyAllowed }

/-- The name of an anchor after its sign. -/
def readNamed (s : Scan) (t : List Char → Token) : Option Scan := do
  let (name, rest) ← readName (s.rest.drop 1)
  s.readKeyWord (t name) rest (s.mark.right (s.rest.length - rest.length)) false

/-- A tag ends at a blank, or at a comma within brackets. -/
def readTagWord (s : Scan) : Option Scan := do
  let (t, rest) ← readTag s.rest
  if atGap rest || (s.inFlow && rest.head? = some ',') then
    s.readKeyWord t rest (s.mark.right (s.rest.length - rest.length)) false
  else none

/-- A block of lines is no key. -/
def readLines (s : Scan) (style : ScalarStyle) : Option Scan := do
  let s ← s.dropPlace
  let r ← readBlock (style = .literal) s.columns.head? (s.mark.right 1) (s.rest.drop 1)
  some { s.push (.scalar style r.text) with rest := r.rest, mark := r.mark, keyAllowed := true }

def readQuoted (s : Scan) (style : ScalarStyle) : Option Scan := do
  let text := s.rest.drop 1
  let mark := s.mark.right 1
  let r ← if style = .single then readSingle [] .none mark text
    else readDouble (text.length + 1) [] .none mark text
  s.readKeyWord (.scalar style r.text) r.rest r.mark false

def readPlainWord (s : Scan) : Option Scan := do
  let least := match s.columns.head? with
    | some c => c + 1
    | none => 0
  let r ← readPlain s.inFlow least [] .none true s.mark s.rest
  s.readKeyWord (.scalar .plain r.text) r.rest r.mark r.afterBreak

/-- The characters that a plain scalar cannot begin with, or only with more behind them. -/
def isIndicator (c : Char) : Bool := "-?:,[]{}#&*!|>\x27\"%@\x60".toList.contains c

/-- A plain scalar can begin with this. -/
def beginsPlain (inFlow : Bool) (c : Char) (rest : List Char) : Bool :=
  (!isBlank c && !isBreak c && !isIndicator c) ||
    (c = '-' && !(rest.head?.any isBlank)) ||
    (!inFlow && (c = '?' || c = ':') && !atGap rest)

/-- Reads one word, at the beginning of which the text is. -/
def readWord (s : Scan) : Option Scan :=
  match s.rest with
  | [] => none
  | c :: rest =>
    let marks := s.inFlow || atGap rest
    if s.mark.column = 0 && c = '%' then s.readDirectiveLine
    else if s.mark.column = 0 && atMark '-' s.rest then s.readDocumentMark .documentStart
    else if s.mark.column = 0 && atMark '.' s.rest then s.readDocumentMark .documentEnd
    else if c = '[' then s.openFlow .openSequence
    else if c = '{' then s.openFlow .openMapping
    else if c = ']' then s.closeFlow .closeSequence
    else if c = '}' then s.closeFlow .closeMapping
    else if c = ',' then s.readComma
    else if c = '-' && atGap rest then s.readEntry
    else if c = '?' && marks then s.readKey
    else if c = ':' && marks then s.readValue
    else if c = '*' then s.readNamed .alias
    else if c = '&' then s.readNamed .anchor
    else if c = '!' then s.readTagWord
    else if c = '|' && !s.inFlow then s.readLines .literal
    else if c = '>' && !s.inFlow then s.readLines .folded
    else if c = '\x27' then s.readQuoted .single
    else if c = '"' then s.readQuoted .double
    else if beginsPlain s.inFlow c rest then s.readPlainWord
    else none

/-- At the end all blocks are closed, and nothing may be left that has to be a key. -/
def finish (s : Scan) : Option (List Token) := s.closeAllBlocks.dropPlace.map Scan.tokens

/-- Reads word after word. Every one takes one from `fuel`. -/
def readWords : Nat → Scan → Option (List Token)
  | 0, _ => none
  | fuel + 1, s => do
    let s ← (skipGap (s.rest.length + 1) s).dropStale
    let s := s.closeBlocks s.mark.column
    if s.rest.isEmpty then s.finish else readWords fuel (← s.readWord)

end Scan

/-- The words of a text. A byte order mark at its beginning does not count. -/
def Token.ofText? (text : List Char) : Option (List Token) :=
  if text.all isReadable then
    let text := if text.head? = some '\uFEFF' then text.drop 1 else text
    Scan.readWords (text.length + 1) (Scan.start text)
  else none

end FeatureBatch.Yaml
