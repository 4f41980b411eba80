import FeatureBatch.Json.Basic
import FeatureBatch.Number.Hexadecimal

/-!
JSON values as text, in one line without blanks or over several lines with two blanks for each
level. Only quotes, backslashes and control characters are escaped.
-/

namespace FeatureBatch.Json

/-- A character as it stands in a string. -/
def escapeChar (c : Char) : List Char :=
  if c = '"' then ['\\', '"']
  else if c = '\\' then ['\\', '\\']
  else if c = '\n' then ['\\', 'n']
  else if c = '\r' then ['\\', 'r']
  else if c = '\t' then ['\\', 't']
  else if c = '\x08' then ['\\', 'b']
  else if c = '\x0c' then ['\\', 'f']
  else if c.toNat < 32 then
    ['\\', 'u', '0', '0', Hexadecimal.small (c.toNat / 16), Hexadecimal.small (c.toNat % 16)]
  else [c]

def quote (s : String) : List Char := '"' :: s.toList.flatMap escapeChar ++ ['"']

/-- A string; one that stands for no text has no written form of its own. -/
def renderText (s : Option String) : List Char := quote (s.getD "")

def renderNumber (n : JsonNumber) : List Char :=
  (if n.negative then ['-'] else []) ++ n.whole ++
    (if n.fraction.isEmpty then [] else '.' :: n.fraction) ++
    match n.exponent with
    | none => []
    | some (negative, digits) => 'e' :: (if negative then '-' else '+') :: digits

def renderBool (b : Bool) : List Char := if b then "true".toList else "false".toList

mutual

/-- The text in one line. -/
def compact : Json → List Char
  | .null => "null".toList
  | .bool b => renderBool b
  | .number n => renderNumber n
  | .string s => renderText s
  | .array items => '[' :: compactItems items ++ [']']
  | .object fields => '\x7b' :: compactFields fields ++ ['\x7d']

def compactItems : List Json → List Char
  | [] => []
  | [v] => compact v
  | v :: w :: rest => compact v ++ ',' :: compactItems (w :: rest)

def compactFields : List (Option String × Json) → List Char
  | [] => []
  | [(k, v)] => renderText k ++ ':' :: compact v
  | (k, v) :: f :: rest => renderText k ++ ':' :: compact v ++ ',' :: compactFields (f :: rest)

end

/-- The beginning of a line at a level. -/
def newline (level : Nat) : List Char := '\n' :: List.replicate (2 * level) ' '

mutual

/-- The text over several lines, for a value that stands at a level. -/
def pretty (level : Nat) : Json → List Char
  | .null => "null".toList
  | .bool b => renderBool b
  | .number n => renderNumber n
  | .string s => renderText s
  | .array [] => ['[', ']']
  | .array (v :: rest) => '[' :: prettyItems (level + 1) (v :: rest) ++ newline level ++ [']']
  | .object [] => ['\x7b', '\x7d']
  | .object (f :: rest) => '\x7b' :: prettyFields (level + 1) (f :: rest) ++ newline level ++ ['\x7d']

def prettyItems (level : Nat) : List Json → List Char
  | [] => []
  | [v] => newline level ++ pretty level v
  | v :: w :: rest => newline level ++ pretty level v ++ ',' :: prettyItems level (w :: rest)

def prettyFields (level : Nat) : List (Option String × Json) → List Char
  | [] => []
  | [(k, v)] => newline level ++ renderText k ++ ':' :: ' ' :: pretty level v
  | (k, v) :: f :: rest =>
    newline level ++ renderText k ++ ':' :: ' ' :: pretty level v ++ ',' ::
      prettyFields level (f :: rest)

end

def compactText (v : Json) : String := String.ofList (compact v)

def prettyText (v : Json) : String := String.ofList (pretty 0 v)

end FeatureBatch.Json
