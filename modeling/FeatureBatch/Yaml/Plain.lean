import FeatureBatch.Number.Decimal
import FeatureBatch.Number.Hexadecimal

/-!
What a plain scalar stands for: null, a truth value, a whole number, a number with a point, or the
text itself.
-/

namespace FeatureBatch.Yaml

def isNullWord (cs : List Char) : Bool :=
  ["~", "null", "Null", "NULL"].any fun w => w.toList = cs

def bool? (cs : List Char) : Option Bool :=
  if ["true", "True", "TRUE"].any fun w => w.toList = cs then some true
  else if ["false", "False", "FALSE"].any fun w => w.toList = cs then some false
  else none

/-- A sign before a number. -/
def isSign (c : Char) : Bool := c = '+' || c = '-'

def dropSign : List Char → List Char
  | c :: rest => if isSign c then rest else c :: rest
  | [] => []

/-- Digits of which a zero is the first and not the only one: a text, and no number. -/
def hasLeadingZero (cs : List Char) : Bool :=
  match dropSign cs with
  | '0' :: d :: rest => (d :: rest).all Char.isDigit
  | _ => false

/-- The number that digits spell in a base, of which there has to be one. -/
def number? (base : Nat) (cs : List Char) : Option Nat :=
  if cs.isEmpty then none
  else cs.foldlM (fun n c =>
    (Hexadecimal.value c).bind fun d => if d < base then some (n * base + d) else none) 0

/-- A number after the mark of its base. -/
def based? : List Char → Option Nat
  | '0' :: 'x' :: rest => number? 16 rest
  | '0' :: 'o' :: rest => number? 8 rest
  | '0' :: 'b' :: rest => number? 2 rest
  | _ => none

/-- The size of a number in any base. -/
def magnitude? (cs : List Char) : Option Nat :=
  match based? cs with
  | some n => some n
  | none => if hasLeadingZero cs then none else number? 10 cs

/-- A whole number without a minus. -/
def unsigned? (cs : List Char) : Option Nat :=
  match cs with
  | '+' :: rest => magnitude? rest
  | _ => magnitude? cs

/-- A whole number after a minus. -/
def negated? (cs : List Char) : Option Nat :=
  match cs with
  | '-' :: rest => magnitude? rest
  | _ => none

/-- A whole number of at most 128 bits. -/
def isWhole (cs : List Char) : Bool :=
  (unsigned? cs).any (· < Nat.pow 2 128) || (negated? cs).any (· ≤ Nat.pow 2 127)

/-- A word of 64 bits. One after a minus is none, also where it is zero. -/
def word? (cs : List Char) : Option UInt64 :=
  (unsigned? cs).bind fun n => if n < Nat.pow 2 64 then some (UInt64.ofNat n) else none

/-! ### Numbers with a point -/

/-- A number in decimal digits: the number that they spell without the point, and the power of ten
that it is to be multiplied by. -/
structure DecimalNumber where
  digits : Nat
  exponent : Int
  deriving DecidableEq, Repr

/-- The power of ten at the end of a number. -/
def decimalExponent? (cs : List Char) : Option Int :=
  match cs with
  | [] => some 0
  | c :: rest =>
    if c = 'e' || c = 'E' then
      match rest with
      | '-' :: ds => (number? 10 ds).map fun n => -(n : Int)
      | '+' :: ds => (number? 10 ds).map Int.ofNat
      | ds => (number? 10 ds).map Int.ofNat
    else none

/-- Digits with a point among them or not, and with a power of ten or not. -/
def decimal? (cs : List Char) : Option DecimalNumber := do
  let whole := cs.takeWhile Char.isDigit
  let rest := cs.dropWhile Char.isDigit
  let (fraction, rest) := match rest with
    | '.' :: rest => (rest.takeWhile Char.isDigit, rest.dropWhile Char.isDigit)
    | _ => ([], rest)
  if whole.isEmpty && fraction.isEmpty then none
  else
    let e ← decimalExponent? rest
    some ⟨Decimal.ofDigits (whole ++ fraction), e - fraction.length⟩

/-- The number is below the first one that floating point rounds to infinity. -/
def DecimalNumber.isFinite (d : DecimalNumber) : Bool :=
  let limit := Nat.pow 2 1024 - Nat.pow 2 970
  let places : Int := (Decimal.digits d.digits).length + d.exponent
  if d.digits = 0 || places < 308 then true
  else if 310 < places then false
  else if 0 ≤ d.exponent then d.digits * Nat.pow 10 d.exponent.toNat < limit
  else d.digits < limit * Nat.pow 10 d.exponent.natAbs

def isInfinityWord (cs : List Char) : Bool :=
  [".inf", ".Inf", ".INF"].any fun w => w.toList = cs

def isNanWord (cs : List Char) : Bool := [".nan", ".NaN", ".NAN"].any fun w => w.toList = cs

/-- A number in floating point. -/
def isFloating (cs : List Char) : Bool :=
  isInfinityWord (dropSign cs) || isNanWord cs || (decimal? (dropSign cs)).any DecimalNumber.isFinite

/-- The scalar stands for something other than its text. -/
def isTyped (cs : List Char) : Bool :=
  cs.isEmpty || isNullWord cs || (bool? cs).isSome || hasLeadingZero cs || isWhole cs || isFloating cs

end FeatureBatch.Yaml
