import FeatureBatch.Number.Hexadecimal
import FeatureBatch.Yaml.Chars

/-!
Reading the three kinds of scalars: plain ones, quoted ones, and blocks of whole lines. Every
reader gives the text of the scalar and what is left of the input; nothing means that the input is
not YAML.
-/

namespace FeatureBatch.Yaml

/-! ### Plain scalars -/

/-- A plain scalar as read so far, the rest of the input, and whether it ended after a break. -/
structure PlainResult where
  text : List Char
  rest : List Char
  mark : Mark
  afterBreak : Bool

/-- What stands in brackets may not go on with these. -/
def isFlowIndicator (c : Char) : Bool := c = ',' || c = '[' || c = ']' || c = '{' || c = '}'

/-- A colon that ends a plain scalar, or anything that does so in brackets. -/
def endsPlain (inFlow : Bool) (c : Char) (rest : List Char) : Bool :=
  (c = ':' && atGap rest) || (inFlow && isFlowIndicator c)

/-- A colon in brackets before a bracket, a comma or a question mark is an error. -/
def wrongColon (inFlow : Bool) (c : Char) (rest : List Char) : Bool :=
  inFlow && c = ':' && match rest with
    | d :: _ => isFlowIndicator d || d = '?'
    | [] => false

/-- Reads on with a plain scalar. `least` is the column that its later lines have to reach outside
of brackets; `fresh` says that the character before was none of the scalar's own. -/
def readPlain (inFlow : Bool) (least : Nat) (text : List Char) (gap : Gap) (fresh : Bool) (m : Mark) :
    List Char → Option PlainResult
  | [] => some ⟨text, [], m, gap.broken⟩
  | '\r' :: '\n' :: rest => readPlain inFlow least text (gap.addBreak '\n') true (m.down 2) rest
  | c :: rest =>
    if isBreak c then readPlain inFlow least text (gap.addBreak (breakChar c)) true (m.down 1) rest
    else if isBlank c then
      if gap.broken && m.column < least && c = '\t' then none
      else readPlain inFlow least text (gap.addBlank c) true (m.right 1) rest
    else
      let stop := some ⟨text, c :: rest, m, gap.broken⟩
      if fresh && ((gap.broken && !inFlow && m.column < least) ||
          (m.column = 0 && atDocumentMark (c :: rest)) || c = '#') then stop
      else if wrongColon inFlow c rest then none
      else if endsPlain inFlow c rest then stop
      else readPlain inFlow least (text ++ gap.text ++ [c]) .none false (m.right 1) rest

/-! ### Quoted scalars -/

/-- The character that a letter after a backslash stands for. -/
def simpleEscape (c : Char) : Option Char :=
  match c with
  | '0' => some '\x00'
  | 'a' => some '\x07'
  | 'b' => some '\x08'
  | 't' => some '\t'
  | '\t' => some '\t'
  | 'n' => some '\n'
  | 'v' => some '\x0b'
  | 'f' => some '\x0c'
  | 'r' => some '\r'
  | 'e' => some '\x1b'
  | ' ' => some ' '
  | '"' => some '"'
  | '/' => some '/'
  | '\\' => some '\\'
  | 'N' => some '\u0085'
  | '_' => some '\u00a0'
  | 'L' => some '\u2028'
  | 'P' => some '\u2029'
  | _ => none

/-- The count of digits after the letter of a numeric escape. -/
def escapeWidth (c : Char) : Option Nat :=
  match c with
  | 'x' => some 2
  | 'u' => some 4
  | 'U' => some 8
  | _ => none

/-- The character with a number given in base sixteen. -/
def ofHex? (digits : List Char) : Option Char := do
  let n ← Hexadecimal.ofDigits? digits
  if n.isValidChar then some (Char.ofNat n) else none

/-- Reads on with a numeric escape, of which `width` digits are missing. -/
def takeHex (width : Nat) (cs : List Char) : Option (Char × List Char) :=
  if cs.length < width then none else (ofHex? (cs.take width)).map fun c => (c, cs.drop width)

/-- The text of a quoted scalar and the input after its closing quote. -/
structure QuotedResult where
  text : List Char
  rest : List Char
  mark : Mark

/-- Reads on with a scalar in single quotes, in which a quote is written twice. -/
def readSingle (text : List Char) (gap : Gap) (m : Mark) : List Char → Option QuotedResult
  | [] => none
  | '\r' :: '\n' :: rest => readSingle text (gap.addBreak '\n') (m.down 2) rest
  | '\x27' :: '\x27' :: rest => readSingle (text ++ gap.text ++ ['\x27']) .none (m.right 2) rest
  | c :: rest =>
    if isBreak c then readSingle text (gap.addBreak (breakChar c)) (m.down 1) rest
    else if isBlank c then readSingle text (gap.addBlank c) (m.right 1) rest
    else if m.column = 0 && atDocumentMark (c :: rest) then none
    else if c = '\x27' then some ⟨text ++ gap.text, rest, m.right 1⟩
    else readSingle (text ++ gap.text ++ [c]) .none (m.right 1) rest

/-- Reads on with a scalar in double quotes. Every step takes one from `fuel`. -/
def readDouble : Nat → List Char → Gap → Mark → List Char → Option QuotedResult
  | 0, _, _, _, _ => none
  | fuel + 1, text, gap, m, cs =>
    match takeBreak cs m with
    | some (b, rest, m) => readDouble fuel text (gap.addBreak b) m rest
    | none =>
      match cs with
      | [] => none
      | c :: rest =>
        if isBlank c then readDouble fuel text (gap.addBlank c) (m.right 1) rest
        else if m.column = 0 && atDocumentMark cs then none
        else if c = '"' then some ⟨text ++ gap.text, rest, m.right 1⟩
        else if c = '\\' then
          match takeBreak rest (m.right 1) with
          | some (_, rest, m) => readDouble fuel (text ++ gap.text) .escaped m rest
          | none =>
            match rest with
            | [] => none
            | e :: rest =>
              match escapeWidth e with
              | some width => do
                let (c, rest) ← takeHex width rest
                readDouble fuel (text ++ gap.text ++ [c]) .none (m.right (2 + width)) rest
              | none => do
                let c ← simpleEscape e
                readDouble fuel (text ++ gap.text ++ [c]) .none (m.right 2) rest
        else readDouble fuel (text ++ gap.text ++ [c]) .none (m.right 1) rest

/-! ### Blocks -/

/-- What happens to the breaks at the end of a block. -/
inductive Chomping where
  | strip
  | clip
  | keep
  deriving DecidableEq, Repr

/-- The head of a block: what happens at its end, and how much its lines are indented, if that is
said. -/
structure BlockHead where
  chomping : Chomping
  increment : Option Nat
  deriving DecidableEq, Repr

def chompingOf (c : Char) : Option Chomping :=
  if c = '+' then some .keep else if c = '-' then some .strip else none

/-- The marks after the sign of a block, in either order. An indentation of zero is an error. -/
def readBlockHead : List Char → Option (BlockHead × List Char)
  | [] => some (⟨.clip, none⟩, [])
  | c :: rest =>
    match chompingOf c with
    | some chomping =>
      match rest with
      | d :: rest' =>
        if d = '0' then none
        else if d.isDigit then some (⟨chomping, some (d.toNat - 48)⟩, rest')
        else some (⟨chomping, none⟩, rest)
      | [] => some (⟨chomping, none⟩, [])
    | none =>
      if c = '0' then none
      else if c.isDigit then
        match rest with
        | d :: rest' =>
          match chompingOf d with
          | some chomping => some (⟨chomping, some (c.toNat - 48)⟩, rest')
          | none => some (⟨.clip, some (c.toNat - 48)⟩, rest)
        | [] => some (⟨.clip, some (c.toNat - 48)⟩, [])
      else some (⟨.clip, none⟩, c :: rest)

/-- Skips blanks and a comment up to the end of a line, and the break there. -/
def skipLineEnd (cs : List Char) (m : Mark) : Option (List Char × Mark) :=
  let blanks := cs.takeWhile isBlank
  let cs := cs.drop blanks.length
  let m := m.right blanks.length
  let comment := if cs.head? = some '#' then cs.takeWhile fun c => !isBreak c else []
  let cs := cs.drop comment.length
  let m := m.right comment.length
  match takeBreak cs m with
  | some (_, rest, m) => some (rest, m)
  | none => if cs = [] then some ([], m) else none

/-- The empty lines before a line of a block, and the input at that line. -/
structure BlockGap where
  breaks : List Char
  widest : Nat
  rest : List Char
  mark : Mark

/-- Reads indentation and empty lines. Where `indent` is known, no more than it is taken off a line. A
tab in the indentation is an error. -/
def readBlockGap (indent : Option Nat) : Nat → BlockGap → Option BlockGap
  | 0, _ => none
  | fuel + 1, g =>
    let room := match indent with
      | some n => n - g.mark.column
      | none => g.rest.length
    let spaces := ((g.rest.take room).takeWhile (· = ' ')).length
    let rest := g.rest.drop spaces
    let m := g.mark.right spaces
    let widest := max g.widest m.column
    let indenting := match indent with
      | some n => decide (m.column < n)
      | none => true
    if indenting && rest.head? = some '\t' then none
    else match takeBreak rest m with
      | some (b, rest, m) => readBlockGap indent fuel ⟨g.breaks ++ [b], widest, rest, m⟩
      | none => some ⟨g.breaks, widest, rest, m⟩

/-- A block as read so far. -/
structure BlockState where
  text : List Char
  /-- The break after the last line. -/
  last : List Char
  /-- The empty lines after it. -/
  empty : List Char
  /-- The last line began with a blank. -/
  blankBefore : Bool
  rest : List Char
  mark : Mark

/-- Reads the lines of a block that are indented by `indent`. A folded block puts a blank for a
break between two lines that do not begin with one. -/
def readBlockLines (literal : Bool) (indent : Nat) : Nat → BlockState → Option BlockState
  | 0, _ => none
  | fuel + 1, s =>
    if s.mark.column ≠ indent || s.rest = [] then some s
    else
      let blankHere := (s.rest.head?.map isBlank).getD false
      let joint :=
        if !literal && s.last = ['\n'] && !s.blankBefore && !blankHere then
          (if s.empty = [] then [' '] else [])
        else s.last
      let line := s.rest.takeWhile fun c => !isBreak c
      let rest := s.rest.drop line.length
      let m := s.mark.right line.length
      let text := s.text ++ joint ++ s.empty ++ line
      let (last, rest, m) := match takeBreak rest m with
        | some (b, rest, m) => ([b], rest, m)
        | none => ([], rest, m)
      match readBlockGap (some indent) (rest.length + 1) ⟨[], 0, rest, m⟩ with
      | none => none
      | some g => readBlockLines literal indent fuel ⟨text, last, g.breaks, blankHere, g.rest, g.mark⟩

/-- Reads a block after its sign. `outer` is the indentation of what it stands in, if there is any. -/
def readBlock (literal : Bool) (outer : Option Nat) (m : Mark) (cs : List Char) :
    Option QuotedResult := do
  let (head, rest) ← readBlockHead cs
  let m := m.right (cs.length - rest.length)
  let (rest, m) ← skipLineEnd rest m
  let known := head.increment.map fun n => outer.getD 0 + n
  let g ← readBlockGap known (rest.length + 1) ⟨[], 0, rest, m⟩
  let least := match outer with
    | some n => n + 1
    | none => 1
  let indent := known.getD (max g.widest least)
  let s ← readBlockLines literal indent (g.rest.length + 1) ⟨[], [], g.breaks, false, g.rest, g.mark⟩
  let ending := match head.chomping with
    | .strip => []
    | .clip => s.last
    | .keep => s.last ++ s.empty
  some ⟨s.text ++ ending, s.rest, s.mark⟩

end FeatureBatch.Yaml
