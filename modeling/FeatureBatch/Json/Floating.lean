import FeatureBatch.Json.Basic

/-!
The floating-point number that a JSON number is read as. The digits that fit into a word are taken
as a whole number, and this is multiplied or divided by a power of ten. Both the whole number and
the result are rounded, so the answer need not be the number nearest to the text.
-/

namespace FeatureBatch.JsonNumber

/-- Goes on with a whole number by digits as long as it fits into a word; says how many went in. -/
def takeFitting (acc : Nat) : List Char → Nat × Nat
  | [] => (acc, 0)
  | c :: rest =>
    let next := acc * 10 + (c.toNat - 48)
    if next < Nat.pow 2 64 then
      let (v, n) := takeFitting next rest
      (v, n + 1)
    else (acc, 0)

/-- The whole number of the digits that fit, and the power of ten it is to be multiplied by. -/
def parts (n : JsonNumber) : Nat × Int :=
  let (v, used) := takeFitting 0 n.whole
  let dropped := n.whole.length - used
  let (v, usedAfter) := takeFitting v n.fraction
  let written : Int := match n.exponent with
    | none => 0
    | some (negative, digits) =>
      if negative then -(Decimal.ofDigits digits : Int) else Decimal.ofDigits digits
  (v, (dropped : Int) - usedAfter + written)

/-- The nearest number to a power of ten of which the exponent is at most 308. -/
def powerOfTen (k : Nat) : Binary64 := (Binary64.ofNat? (Nat.pow 10 k)).getD .zero

/-- Multiplies or divides by a power of ten, by 308 places at a time below the range. Nothing where
the result is too large. -/
def scale : Nat → Binary64 → Int → Option Binary64
  | 0, x, _ => some x
  | fuel + 1, x, e =>
    if e.natAbs ≤ 308 then
      if 0 ≤ e then x.mul (powerOfTen e.toNat) else x.div (powerOfTen e.natAbs)
    else if x.isZero then some x
    else if 0 ≤ e then none
    else (x.div (powerOfTen 308)).bind fun y => scale fuel y (e + 308)

/-- The number as floating point, unless it is too large. -/
def toBinary64? (n : JsonNumber) : Option Binary64 :=
  let (v, e) := n.parts
  let x := (Binary64.ofNat? v).getD .zero
  (scale 4 x e).map fun y => if n.negative then y.neg else y

end FeatureBatch.JsonNumber
