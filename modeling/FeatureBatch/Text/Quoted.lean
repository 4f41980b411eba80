import FeatureBatch.Number.Hexadecimal
import FeatureBatch.Text.Shapeless
import FeatureBatch.Text.Utf8

/-!
Texts and byte strings in double quotes, as diagnostics show them. What could be mistaken for the
end of the text, or could not be seen, is escaped.
-/

namespace FeatureBatch.Text

/-- A character as it stands in double quotes. -/
def escaped (c : Char) : List Char :=
  if c = '\x00' then ['\\', '0']
  else if c = '\t' then ['\\', 't']
  else if c = '\n' then ['\\', 'n']
  else if c = '\r' then ['\\', 'r']
  else if c = '\\' || c = '"' then ['\\', c]
  else if isShapeless c then '\\' :: 'u' :: '\x7b' :: Nat.toDigits 16 c.toNat ++ ['\x7d']
  else [c]

def quoted (s : String) : String := String.ofList ('"' :: s.toList.flatMap escaped ++ ['"'])

/-- A character of a byte string, in which a single quote is escaped too. -/
def escapedPart (c : Char) : List Char := if c = '\x27' then ['\\', c] else escaped c

/-- A byte that is part of no character, as its number. -/
def escapedByte (b : UInt8) : List Char := '\\' :: 'x' :: Hexadecimal.capitals 2 b.toNat

/-- Bytes as they stand in double quotes: characters where they spell any, and else numbers. -/
def escapedBytes : List UInt8 → List Char
  | [] => []
  | b :: rest =>
    let next := readChar b rest
    let here := match next.1 with
      | some c => escapedPart c
      | none => (b :: rest.take (rest.length - next.2.length)).flatMap escapedByte
    here ++ escapedBytes next.2
termination_by bs => bs.length
decreasing_by exact Nat.lt_succ_of_le (readChar_length_le b rest)

def quotedBytes (bytes : List UInt8) : String := String.ofList ('"' :: escapedBytes bytes ++ ['"'])

end FeatureBatch.Text
