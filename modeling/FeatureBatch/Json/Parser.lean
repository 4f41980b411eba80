import FeatureBatch.Json.Basic
import FeatureBatch.Number.Hexadecimal

/-!
Reading JSON text. The reader takes exactly one value, with blanks around every part of it, and
refuses what the grammar does not have: comments, commas at an end, numbers with a leading zero, and
control characters in strings.
-/

namespace FeatureBatch.Json

/-- The characters that may stand between the parts of a value. -/
def isSpace (c : Char) : Bool := c = ' ' || c = '\n' || c = '\t' || c = '\r'

def skipSpace (cs : List Char) : List Char := cs.dropWhile isSpace

/-- What a string is made of: characters, and units that are given by number. -/
inductive Piece where
  | char (c : Char)
  | unit (n : Nat)
  deriving DecidableEq, Repr

/-- The character that a letter after a backslash stands for. -/
def simpleEscape (c : Char) : Option Char :=
  if c = '"' || c = '\\' || c = '/' then some c
  else if c = 'b' then some '\x08'
  else if c = 'f' then some '\x0c'
  else if c = 'n' then some '\n'
  else if c = 'r' then some '\r'
  else if c = 't' then some '\t'
  else none

/-- The pieces up to the closing quote, and the rest after it. -/
def pieces : List Char → Option (List Piece × List Char)
  | [] => none
  | '"' :: rest => some ([], rest)
  | '\\' :: 'u' :: a :: b :: c :: d :: rest => do
    let n := (← Hexadecimal.value a) * 4096 + (← Hexadecimal.value b) * 256 + (← Hexadecimal.value c) * 16 + (← Hexadecimal.value d)
    let (ps, rest) ← pieces rest
    some (.unit n :: ps, rest)
  | '\\' :: e :: rest => do
    let c ← simpleEscape e
    let (ps, rest) ← pieces rest
    some (.char c :: ps, rest)
  | c :: rest =>
    if c.toNat < 32 || c = '\\' then none
    else do
      let (ps, rest) ← pieces rest
      some (.char c :: ps, rest)

/-- The text of the pieces: two surrogates that are a pair are one character, and there is no text
where one is alone. -/
def joinPieces : List Piece → Option (List Char)
  | [] => some []
  | .char c :: rest => (joinPieces rest).map (c :: ·)
  | .unit n :: .unit m :: rest =>
    if n < 0xD800 || 0xE000 ≤ n then (joinPieces (.unit m :: rest)).map (Char.ofNat n :: ·)
    else if n < 0xDC00 && 0xDC00 ≤ m && m < 0xE000 then
      (joinPieces rest).map (Char.ofNat (0x10000 + (n - 0xD800) * 1024 + (m - 0xDC00)) :: ·)
    else none
  | .unit n :: rest =>
    if n < 0xD800 || 0xE000 ≤ n then (joinPieces rest).map (Char.ofNat n :: ·) else none

/-- A string after its opening quote. -/
def readString (cs : List Char) : Option (Option String × List Char) :=
  (pieces cs).map fun (ps, rest) => ((joinPieces ps).map String.ofList, rest)

/-- The digits at the beginning, of which there has to be one. -/
def readDigits (cs : List Char) : Option (List Char × List Char) :=
  match cs.takeWhile Char.isDigit with
  | [] => none
  | d => some (d, cs.dropWhile Char.isDigit)

/-- Digits of which the first is zero only if it is the only one. -/
def readWhole (cs : List Char) : Option (List Char × List Char) := do
  let (d, rest) ← readDigits cs
  if d.head? = some '0' ∧ d.length ≠ 1 then none else some (d, rest)

def readFraction : List Char → Option (List Char × List Char)
  | '.' :: rest => readDigits rest
  | cs => some ([], cs)

def readExponent : List Char → Option (Option (Bool × List Char) × List Char)
  | c :: rest =>
    if c = 'e' || c = 'E' then
      match rest with
      | '-' :: rest => (readDigits rest).map fun (d, rest) => (some (true, d), rest)
      | '+' :: rest => (readDigits rest).map fun (d, rest) => (some (false, d), rest)
      | rest => (readDigits rest).map fun (d, rest) => (some (false, d), rest)
    else some (none, c :: rest)
  | [] => some (none, [])

def readMagnitude (negative : Bool) (cs : List Char) : Option (JsonNumber × List Char) := do
  let (whole, cs) ← readWhole cs
  let (fraction, cs) ← readFraction cs
  let (exponent, cs) ← readExponent cs
  some (⟨negative, whole, fraction, exponent⟩, cs)

def readNumber : List Char → Option (JsonNumber × List Char)
  | '-' :: rest => readMagnitude true rest
  | cs => readMagnitude false cs

/-- Takes the word off the beginning. -/
def readWord (word : String) (cs : List Char) : Option (List Char) :=
  if word.toList.isPrefixOf cs then some (cs.drop word.toList.length) else none

mutual

/-- A value, with blanks before it. Every step takes one from `fuel`. -/
def readValue : Nat → List Char → Option (Json × List Char)
  | 0, _ => none
  | fuel + 1, cs =>
    match skipSpace cs with
    | [] => none
    | c :: rest =>
      if c = 'n' then (readWord "null" (c :: rest)).map (.null, ·)
      else if c = 't' then (readWord "true" (c :: rest)).map (.bool true, ·)
      else if c = 'f' then (readWord "false" (c :: rest)).map (.bool false, ·)
      else if c = '"' then (readString rest).map fun (s, rest) => (.string s, rest)
      else if c = '[' then
        match skipSpace rest with
        | ']' :: rest => some (.array [], rest)
        | rest => (readItems fuel rest).map fun (vs, rest) => (.array vs, rest)
      else if c = '\x7b' then
        match skipSpace rest with
        | '\x7d' :: rest => some (.object [], rest)
        | rest => (readFields fuel rest).map fun (fs, rest) => (.object fs, rest)
      else (readNumber (c :: rest)).map fun (n, rest) => (.number n, rest)

/-- The items of an array after its bracket, to the closing one. -/
def readItems : Nat → List Char → Option (List Json × List Char)
  | 0, _ => none
  | fuel + 1, cs => do
    let (v, rest) ← readValue fuel cs
    match skipSpace rest with
    | ',' :: rest => (readItems fuel rest).map fun (vs, rest) => (v :: vs, rest)
    | ']' :: rest => some ([v], rest)
    | _ => none

/-- The fields of an object after its brace, to the closing one. -/
def readFields : Nat → List Char → Option (List (Option String × Json) × List Char)
  | 0, _ => none
  | fuel + 1, cs =>
    match skipSpace cs with
    | '"' :: rest => do
      let (k, rest) ← readString rest
      match skipSpace rest with
      | ':' :: rest =>
        let (v, rest) ← readValue fuel rest
        match skipSpace rest with
        | ',' :: rest => (readFields fuel rest).map fun (fs, rest) => ((k, v) :: fs, rest)
        | '\x7d' :: rest => some ([(k, v)], rest)
        | _ => none
      | _ => none
    | _ => none

end

/-- The value that the whole text spells. -/
def ofText? (s : String) : Option Json := do
  let cs := s.toList
  let (v, rest) ← readValue (2 * cs.length + 2) cs
  if skipSpace rest = [] then some v else none

end FeatureBatch.Json
