import FeatureBatch.Number.Decimal

/-!
Floating-point numbers of 64 bits, as a sign, a whole mantissa and a power of two. Every operation
is the exact result rounded to the nearest such number, a half to the one with the even mantissa,
so all of it is arithmetic on whole numbers.
-/

namespace FeatureBatch

/-- A finite floating-point number: `mantissa * 2 ^ exponent`, with its sign. -/
structure Binary64 where
  negative : Bool
  mantissa : Nat
  exponent : Int
  deriving DecidableEq, Repr

namespace Binary64

/-- The smallest exponent, that of zero and of the numbers near it. -/
def minExponent : Int := -1074

def maxExponent : Int := 971

def zero : Binary64 := ⟨false, 0, minExponent⟩

/-- The largest power of two that is no larger than the quotient. -/
def floorLog2 (num den : Nat) : Int :=
  let e := (Nat.log2 num : Int) - Nat.log2 den
  let fits :=
    if 0 ≤ e then den * Nat.pow 2 e.toNat ≤ num else den ≤ num * Nat.pow 2 (-e).toNat
  if fits then e else e - 1

/-- The nearest number to a quotient; none where that is too large. -/
def ofRatio (negative : Bool) (num den : Nat) : Option Binary64 :=
  if num = 0 then some ⟨negative, 0, minExponent⟩
  else
    let q := max (floorLog2 num den - 52) minExponent
    let m := if 0 ≤ q then Decimal.roundDiv num (den * Nat.pow 2 q.toNat)
      else Decimal.roundDiv (num * Nat.pow 2 (-q).toNat) den
    let (m, q) := if m = Nat.pow 2 53 then (Nat.pow 2 52, q + 1) else (m, q)
    if maxExponent < q then none else some ⟨negative, m, q⟩

/-- The number without its sign, as a quotient. -/
def ratio (x : Binary64) : Nat × Nat :=
  if 0 ≤ x.exponent then (x.mantissa * Nat.pow 2 x.exponent.toNat, 1)
  else (x.mantissa, Nat.pow 2 (-x.exponent).toNat)

def isZero (x : Binary64) : Bool := x.mantissa = 0

def neg (x : Binary64) : Binary64 := { x with negative := !x.negative }

/-- The nearest number to a whole number; none where that is too large. -/
def ofNat? (n : Nat) : Option Binary64 := ofRatio false n 1

/-- The nearest number to a whole number below 2 ^ 64. -/
def ofWord (n : UInt64) : Binary64 := (ofNat? n.toNat).getD zero

def mul (x y : Binary64) : Option Binary64 :=
  let (a, b) := x.ratio
  let (c, d) := y.ratio
  ofRatio (x.negative != y.negative) (a * c) (b * d)

/-- The quotient; none where the divisor is zero. -/
def div (x y : Binary64) : Option Binary64 :=
  let (a, b) := x.ratio
  let (c, d) := y.ratio
  if c = 0 then none else ofRatio (x.negative != y.negative) (a * d) (b * c)

/-- The sum of two numbers without their signs. -/
def addAbs (x y : Binary64) : Option Binary64 :=
  let (a, b) := x.ratio
  let (c, d) := y.ratio
  ofRatio false (a * d + c * b) (b * d)

/-- The 64 bits of the number. -/
def bits (x : Binary64) : UInt64 :=
  let sign : Nat := if x.negative then Nat.pow 2 63 else 0
  let body : Nat :=
    if x.mantissa < Nat.pow 2 52 then x.mantissa
    else (x.exponent + 1075).toNat * Nat.pow 2 52 + (x.mantissa - Nat.pow 2 52)
  UInt64.ofNat (sign + body)

/-- The number with a fixed count of places, correctly rounded, a half to the even neighbour. -/
def fixed (places : Nat) (x : Binary64) : List Char :=
  let (num, den) := x.ratio
  let body := Decimal.fixed places num den
  if x.negative then '-' :: body else body

end Binary64

end FeatureBatch
