import FeatureBatch.Number.Hexadecimal
import FeatureBatch.Text.Utf8
import FeatureBatch.Yaml.Chars
import FeatureBatch.Yaml.Plain
import FeatureBatch.Yaml.Token

/-!
Writing YAML: a mapping of which the values are scalars, sequences of scalars and mappings of
scalars. A text is written without quotes where it reads back as the same text, in single quotes
where these are enough, and in double quotes otherwise; a text of several lines is written as lines.
-/

namespace FeatureBatch.Yaml

inductive Scalar where
  | null
  | bool (b : Bool)
  | word (n : UInt64)
  | text (s : String)
  deriving DecidableEq, Repr

inductive Value where
  | scalar (s : Scalar)
  | sequence (items : List Scalar)
  | mapping (fields : List (String × Scalar))
  deriving DecidableEq, Repr

/-! ### What a text looks like -/

/-- The pairs of neighbours in a text. -/
def neighbours (cs : List Char) : List (Char × Char) := cs.zip cs.tail

def isMultiline (cs : List Char) : Bool := cs.any isBreak

/-- A character that only double quotes can hold, or a blank before the end of a line. -/
def isSpecial (cs : List Char) : Bool :=
  cs.any (fun c => !isPrintable c) || (neighbours cs).any fun (a, b) => a = ' ' && isBreak b

def hasBlankAfterBreak (cs : List Char) : Bool :=
  (neighbours cs).any fun (a, b) => isBreak a && b = ' '

/-- A mark that a text may not begin with. -/
def beginsWithMark : List Char → Bool
  | [] => false
  | c :: rest =>
    "#,[]{}&*!|>\x27\"%@\x60".toList.contains c || ((c = '?' || c = ':' || c = '-') && atGap rest)

/-- A colon before a gap, or a number sign after one. -/
def holdsMark (before : Char) : List Char → Bool
  | [] => false
  | c :: rest =>
    (c = ':' && atGap rest) || (c = '#' && atGap [before]) || holdsMark c rest

/-- The text looks like a mark between documents, or holds a mark of structure. -/
def hasMark (cs : List Char) : Bool :=
  "---".toList.isPrefixOf cs || "...".toList.isPrefixOf cs || beginsWithMark cs ||
    match cs with
    | [] => false
    | c :: rest => holdsMark c rest

/-- The text begins or ends with a blank. -/
def hasOuterBlank (cs : List Char) : Bool := cs.head? = some ' ' || cs.getLast? = some ' '

def plainAllowed (cs : List Char) : Bool :=
  !hasOuterBlank cs && !isSpecial cs && !isMultiline cs && !hasMark cs

def singleAllowed (cs : List Char) : Bool := !isSpecial cs && !hasBlankAfterBreak cs

def blockAllowed (cs : List Char) : Bool := !isSpecial cs && cs.getLast? ≠ some ' '

/-- The style in which a text is written. -/
def styleOf (cs : List Char) : ScalarStyle :=
  if cs.contains '\n' then (if blockAllowed cs then .literal else .double)
  else if !isTyped cs && plainAllowed cs then .plain
  else if singleAllowed cs then .single
  else .double

/-! ### Texts -/

def spaces (n : Nat) : List Char := List.replicate n ' '

/-- The letter after a backslash that stands for a character. -/
def escapeLetter (c : Char) : Option Char :=
  match c with
  | '\x00' => some '0'
  | '\x07' => some 'a'
  | '\x08' => some 'b'
  | '\t' => some 't'
  | '\n' => some 'n'
  | '\x0b' => some 'v'
  | '\x0c' => some 'f'
  | '\r' => some 'r'
  | '\x1b' => some 'e'
  | '"' => some '"'
  | '\\' => some '\\'
  | '\u0085' => some 'N'
  | '\u2028' => some 'L'
  | '\u2029' => some 'P'
  | _ => none

/-- A character as it stands in double quotes. -/
def escapeChar (c : Char) : List Char :=
  match escapeLetter c with
  | some e => ['\\', e]
  | none =>
    if isPrintable c then [c]
    else if c.toNat ≤ 0xFF then '\\' :: 'x' :: Hexadecimal.capitals 2 c.toNat
    else if c.toNat ≤ 0xFFFF then '\\' :: 'u' :: Hexadecimal.capitals 4 c.toNat
    else '\\' :: 'U' :: Hexadecimal.capitals 8 c.toNat

/-- Goes on with a text in lines; what follows a break is indented, and so is what follows the
text itself if `closed`. -/
def indentLines (indent : Nat) (closed afterBreak : Bool) (write : Char → List Char) :
    List Char → List Char
  | [] => if afterBreak && closed then spaces indent else []
  | c :: rest =>
    if isBreak c then
      (if closed && !afterBreak && c = '\n' then ['\n'] else []) ++
        c :: indentLines indent closed true write rest
    else
      (if afterBreak then spaces indent else []) ++ write c ++
        indentLines indent closed false write rest

/-- A quote is written twice in single quotes. -/
def doubleQuote (c : Char) : List Char := if c = '\x27' then [c, c] else [c]

/-- What is said after the sign of a block: how much its lines are indented if the first does not
show it, and what happens to the breaks at its end. -/
def blockHints (cs : List Char) : List Char :=
  let hint := if cs.head?.any fun c => c = ' ' || isBreak c then ['2'] else []
  let ending := match cs.reverse with
    | [] => ['-']
    | c :: before =>
      if !isBreak c then ['-']
      else match before with
        | [] => ['+']
        | d :: _ => if isBreak d then ['+'] else []
  hint ++ ending

/-- A text that stands in something with an indentation two less than `indent`. -/
def renderText (indent : Nat) (cs : List Char) : List Char :=
  match styleOf cs with
  | .plain => cs
  | .single => '\x27' :: indentLines indent true false doubleQuote cs ++ ['\x27']
  | .double => '"' :: cs.flatMap escapeChar ++ ['"']
  | .literal | .folded =>
    '|' :: blockHints cs ++ '\n' :: indentLines indent false true (fun c => [c]) cs

def renderScalar (indent : Nat) : Scalar → List Char
  | .null => "null".toList
  | .bool true => "true".toList
  | .bool false => "false".toList
  | .word n => Decimal.digits n.toNat
  | .text s => renderText indent s.toList

/-! ### Lines -/

/-- Ends a line, unless what it ends with has done so. -/
def endLine (cs : List Char) : List Char :=
  if cs.getLast?.any isBreak then cs else cs ++ ['\n']

/-- A key that is followed by its colon on the same line. -/
def isSimpleKey (cs : List Char) : Bool := !isMultiline cs && (Text.utf8 cs).length ≤ 128

/-- A key with its colon, and a question mark before it if it is not a simple one. -/
def renderKey (indent : Nat) (cs : List Char) : List Char :=
  if isSimpleKey cs then spaces indent ++ renderText (indent + 2) cs ++ [':']
  else
    endLine (spaces indent ++ '?' :: ' ' :: renderText (indent + 2) cs) ++ spaces indent ++ [':']

def renderField (indent : Nat) (key : String) (value : Scalar) : List Char :=
  endLine (renderKey indent key.toList ++ ' ' :: renderScalar (indent + 2) value)

def renderItem (item : Scalar) : List Char := endLine ('-' :: ' ' :: renderScalar 2 item)

/-- A field of the whole mapping, with what is in it. -/
def renderEntry (key : String) : Value → List Char
  | .scalar s => renderField 0 key s
  | .sequence [] => renderKey 0 key.toList ++ " []\n".toList
  | .sequence items => renderKey 0 key.toList ++ '\n' :: items.flatMap renderItem
  | .mapping [] => renderKey 0 key.toList ++ " {}\n".toList
  | .mapping fields =>
    renderKey 0 key.toList ++ '\n' :: fields.flatMap fun (k, v) => renderField 2 k v

/-- A mapping as a document. -/
def render (fields : List (String × Value)) : List Char :=
  fields.flatMap fun (k, v) => renderEntry k v

end FeatureBatch.Yaml
