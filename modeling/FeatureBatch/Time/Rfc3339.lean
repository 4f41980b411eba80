import FeatureBatch.Number.Decimal
import FeatureBatch.Text.Blank
import FeatureBatch.Time.Instant

/-!
Instants as text in the form of RFC 3339. Writing uses Universal Time and as few digits of a second
as are exact. Reading takes any offset from Universal Time and is more generous: numbers may be
shorter, and blanks may stand before a number and around its separators.
-/

namespace FeatureBatch.Rfc3339

open Text

/-! ### Writing -/

/-- A year from 0 to 9999 in four digits, any other with its sign. -/
def writeYear (year : Int) : List Char :=
  if 0 ≤ year ∧ year ≤ 9999 then Decimal.padded 4 year.toNat
  else (if year < 0 then '-' else '+') :: Decimal.padded 4 year.natAbs

/-- The part of a second, in 0, 3, 6 or 9 digits. -/
def writeFraction (nanos : Nat) : List Char :=
  if nanos = 0 then []
  else if nanos % 1000000 = 0 then '.' :: Decimal.padded 3 (nanos / 1000000)
  else if nanos % 1000 = 0 then '.' :: Decimal.padded 6 (nanos / 1000)
  else '.' :: Decimal.padded 9 nanos

def writeDate (d : Date) : List Char :=
  writeYear d.year ++ '-' :: Decimal.padded 2 d.month ++ '-' :: Decimal.padded 2 d.day

/-- The time of the day; a leap second is the second 60. -/
def writeTime (ofDay nanos : Nat) : List Char :=
  Decimal.padded 2 (ofDay / 3600) ++ ':' :: Decimal.padded 2 (ofDay / 60 % 60) ++
    ':' :: Decimal.padded 2 (ofDay % 60 + nanos / Instant.billion) ++
    writeFraction (nanos % Instant.billion)

def write (t : Instant) : List Char :=
  writeDate (Date.ofDays (t.second / 86400)) ++ 'T' :: writeTime t.ofDay.toNat t.nanos ++ ['Z']

/-! ### Reading

Each reader gives what it read and the rest of the text. -/

/-- At least one digit and at most `most`, if there is a limit. -/
def readDigits (most : Option Nat) (cs : List Char) : Option (Nat × List Char) :=
  let run := match most with
    | some n => (cs.take n).takeWhile Char.isDigit
    | none => cs.takeWhile Char.isDigit
  if run = [] then none else some (Decimal.ofDigits run, cs.drop run.length)

/-- The character `c`, with blanks before it. -/
def readMark (c : Char) (cs : List Char) : Option (List Char) :=
  match trimStart cs with
  | d :: rest => if d = c then some rest else none
  | [] => none

/-- A number of one or two digits between two bounds, with blanks before it. -/
def readField (lo hi : Nat) (cs : List Char) : Option (Nat × List Char) := do
  let (n, rest) ← readDigits (some 2) (trimStart cs)
  if lo ≤ n ∧ n ≤ hi then some (n, rest) else none

/-- A year of up to four digits, or of any number of them behind a sign. -/
def readYear (cs : List Char) : Option (Int × List Char) :=
  match trimStart cs with
  | '-' :: rest => (readDigits none rest).map fun (n, rest) => (-(n : Int), rest)
  | '+' :: rest => (readDigits none rest).map fun (n, rest) => ((n : Int), rest)
  | cs => (readDigits (some 4) cs).map fun (n, rest) => ((n : Int), rest)

/-- The nanoseconds after a point; digits after the ninth do not count. -/
def readFraction (cs : List Char) : Option (Nat × List Char) :=
  match cs with
  | '.' :: rest =>
    let run := rest.takeWhile Char.isDigit
    if run = [] then none
    else
      let places := 9 - (run.take 9).length
      some (Decimal.ofDigits (run.take 9) * Nat.pow 10 places, rest.drop run.length)
  | _ => some (0, cs)

/-- Two digits. -/
def readPair : List Char → Option (Nat × List Char)
  | a :: b :: rest =>
    if a.isDigit && b.isDigit then some (Decimal.ofDigits [a, b], rest) else none
  | _ => none

/-- The minutes that local time is ahead of Universal Time. -/
def readOffset (cs : List Char) : Option (Int × List Char) :=
  match cs with
  | a :: b :: c :: rest =>
    if foldAscii [a, b, c] = ['u', 't', 'c'] then some (0, rest) else signed cs
  | _ => signed cs
where
  signed : List Char → Option (Int × List Char)
    | 'Z' :: rest => some (0, rest)
    | 'z' :: rest => some (0, rest)
    | '+' :: rest => span rest
    | '-' :: rest => (span rest).map fun (m, rest) => (-m, rest)
    | '\u2212' :: rest => (span rest).map fun (m, rest) => (-m, rest)
    | _ => none
  span (cs : List Char) : Option (Int × List Char) := do
    let (hours, rest) ← readPair cs
    let (minutes, rest) ← readPair (rest.dropWhile fun c => c = ':' || isBlank c)
    if minutes ≤ 59 ∧ hours ≤ 23 then some ((hours * 60 + minutes : Nat), rest) else none

/-- The instant at a local time that is some minutes ahead of Universal Time. -/
def instantAt (d : Date) (hour minute second nanos : Nat) (ahead : Int) : Option Instant :=
  let (second, nanos) := if second = 60 then (59, nanos + Instant.billion) else (second, nanos)
  let local' := d.toDays * 86400 + (hour * 3600 + minute * 60 + second : Nat)
  if d.isValid then do
    discard (Instant.ofParts? local' nanos)
    Instant.ofParts? (local' - ahead * 60) nanos
  else none

/-- The instant that the whole text spells. -/
def read? (cs : List Char) : Option Instant := do
  let (year, cs) ← readYear cs
  let cs ← readMark '-' cs
  let (month, cs) ← readField 1 12 cs
  let cs ← readMark '-' cs
  let (day, cs) ← readField 1 31 cs
  let cs ← match cs with
    | c :: rest => if c = 'T' || c = 't' || c = ' ' then some rest else none
    | [] => none
  let (hour, cs) ← readField 0 23 cs
  let cs ← readMark ':' cs
  let (minute, cs) ← readField 0 59 cs
  let cs ← readMark ':' cs
  let (second, cs) ← readField 0 60 cs
  let (nanos, cs) ← readFraction cs
  let (ahead, cs) ← readOffset (trimStart cs)
  if allBlank cs then instantAt ⟨year, month, day⟩ hour minute second nanos ahead else none

end FeatureBatch.Rfc3339
