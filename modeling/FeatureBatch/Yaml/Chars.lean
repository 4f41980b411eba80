/-!
The classes of characters that YAML texts are read and written by.
-/

namespace FeatureBatch.Yaml

/-- The characters that end a line. -/
def isBreak (c : Char) : Bool :=
  c = '\n' || c = '\r' || c = '\u0085' || c = '\u2028' || c = '\u2029'

/-- The characters that stand between words. -/
def isBlank (c : Char) : Bool := c = ' ' || c = '\t'

/-- The text is at a blank, at the end of a line or at its own end. -/
def atGap : List Char → Bool
  | [] => true
  | c :: _ => isBlank c || isBreak c

/-- The characters of names of anchors and directives. -/
def isWord (c : Char) : Bool := c.isAlphanum || c = '_' || c = '-'

/-- The characters that may stand in a YAML text at all. -/
def isReadable (c : Char) : Bool :=
  let n := c.toNat
  n == 0x09 || n == 0x0A || n == 0x0D || (0x20 ≤ n && n ≤ 0x7E) || n == 0x85 ||
    (0xA0 ≤ n && n ≤ 0xFFFD) || 0x10000 ≤ n

/-- The characters that are written as they are. -/
def isPrintable (c : Char) : Bool :=
  let n := c.toNat
  n == 0x0A || (0x20 ≤ n && n ≤ 0x7E) || (0xA0 ≤ n && n ≤ 0xFFFD && n != 0xFEFF) || 0x10000 ≤ n

/-- A line that consists of a mark of three characters, or goes on after it with a blank. -/
def atMark (mark : Char) : List Char → Bool
  | a :: b :: c :: rest => a = mark && b = mark && c = mark && atGap rest
  | _ => false

/-- The text begins a new document or ends one. -/
def atDocumentMark (cs : List Char) : Bool := atMark '-' cs || atMark '.' cs

/-- A place in a text. -/
structure Mark where
  index : Nat
  line : Nat
  column : Nat
  deriving DecidableEq, Repr

namespace Mark

def start : Mark := ⟨0, 0, 0⟩

/-- The place after `n` characters of the same line. -/
def right (m : Mark) (n : Nat) : Mark := { m with index := m.index + n, column := m.column + n }

/-- The place after a break of `n` characters. -/
def down (m : Mark) (n : Nat) : Mark := ⟨m.index + n, m.line + 1, 0⟩

end Mark

/-- What a break reads as: a line separator and a paragraph separator as themselves, any other as
a line feed. -/
def breakChar (c : Char) : Char := if c = '\u2028' || c = '\u2029' then c else '\n'

/-- Takes a break off the beginning of a text. -/
def takeBreak (cs : List Char) (m : Mark) : Option (Char × List Char × Mark) :=
  match cs with
  | '\r' :: '\n' :: rest => some ('\n', rest, m.down 2)
  | c :: rest => if isBreak c then some (breakChar c, rest, m.down 1) else none
  | [] => none

/-- The blanks and breaks between two words of a scalar. The first break stands for a blank unless
more follow, or unless it is a separator of its own. -/
structure Gap where
  blanks : List Char
  first : Option Char
  more : List Char
  /-- A break has been seen. -/
  broken : Bool
  deriving DecidableEq, Repr

namespace Gap

def none : Gap := ⟨[], .none, [], false⟩

/-- A break that does not count, with what follows it. -/
def escaped : Gap := ⟨[], .none, [], true⟩

def addBlank (g : Gap) (c : Char) : Gap :=
  if g.broken then g else { g with blanks := g.blanks ++ [c] }

def addBreak (g : Gap) (c : Char) : Gap :=
  if g.broken then { g with more := g.more ++ [c] } else ⟨[], some c, [], true⟩

/-- What the gap reads as. -/
def text (g : Gap) : List Char :=
  if !g.broken then g.blanks
  else if g.first = some '\n' then (if g.more.isEmpty then [' '] else g.more)
  else g.first.toList ++ g.more

end Gap

end FeatureBatch.Yaml
