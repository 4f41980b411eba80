import FeatureBatch.Number.Shortest

/-!
JSON values. A number is kept as it is spelled, since what it means depends on the type that is
read from it. A string whose escapes leave a surrogate unpaired is JSON, but it stands for no text.
-/

namespace FeatureBatch

/-- A number as JSON spells it: digits before the point, digits after it, and an exponent with its
sign. No digits after the point means no point. -/
structure JsonNumber where
  negative : Bool
  whole : List Char
  fraction : List Char
  exponent : Option (Bool × List Char)
  deriving DecidableEq, Repr

inductive Json where
  | null
  | bool (b : Bool)
  | number (n : JsonNumber)
  | string (text : Option String)
  | array (items : List Json)
  | object (fields : List (Option String × Json))
  deriving Repr

namespace JsonNumber

def ofNat (n : Nat) : JsonNumber := ⟨false, Decimal.digits n, [], none⟩

/-- The number is a whole one, without sign, point or exponent. -/
def isWhole (n : JsonNumber) : Bool := !n.negative && n.fraction.isEmpty && n.exponent.isNone

/-- A word of 64 bits, if the number is spelled as a whole one and fits. -/
def word? (n : JsonNumber) : Option UInt64 :=
  let v := Decimal.ofDigits n.whole
  if n.isWhole && v < Nat.pow 2 64 then some (UInt64.ofNat v) else none

/-- A whole number, with a sign or without. -/
def int? (n : JsonNumber) : Option Int :=
  let v : Int := Decimal.ofDigits n.whole
  if n.fraction.isEmpty && n.exponent.isNone then some (if n.negative then -v else v) else none

/-- Digits written with a point where the power of ten of the first one is between -5 and 15, and
with an exponent otherwise. -/
def ofDigits (negative : Bool) (d : Shortest.Digits) : JsonNumber :=
  let cs := Decimal.digits d.digits
  let point := cs.length + d.exponent
  if 0 ≤ d.exponent ∧ point ≤ 16 then
    ⟨negative, cs ++ List.replicate d.exponent.toNat '0', ['0'], none⟩
  else if 0 < point ∧ point ≤ 16 then
    ⟨negative, cs.take point.toNat, cs.drop point.toNat, none⟩
  else if -5 < point ∧ point ≤ 0 then
    ⟨negative, ['0'], List.replicate (-point).toNat '0' ++ cs, none⟩
  else
    ⟨negative, cs.take 1, cs.drop 1, some (point - 1 < 0, Decimal.digits (point - 1).natAbs)⟩

/-- The shortest text of a floating-point number, always with a point or an exponent. -/
def ofBinary64 (x : Binary64) : JsonNumber :=
  if x.isZero then ⟨x.negative, ['0'], ['0'], none⟩
  else ofDigits x.negative (Shortest.ofBinary64 x)

end JsonNumber

namespace Json

def text (s : String) : Json := .string (some s)

def nat (n : Nat) : Json := .number (.ofNat n)

def word (n : UInt64) : Json := nat n.toNat

def float (x : Binary64) : Json := .number (.ofBinary64 x)

def texts (ss : List String) : Json := .array (ss.map text)

/-- A value or null. -/
def orNull {α : Type} (f : α → Json) : Option α → Json
  | none => .null
  | some a => f a

/-- An object with these fields in this order. -/
def record (fields : List (String × Json)) : Json := .object (fields.map fun (k, v) => (some k, v))

end Json

end FeatureBatch
