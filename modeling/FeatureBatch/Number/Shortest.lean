import FeatureBatch.Number.Binary64

/-!
The shortest decimal text of a floating-point number: the fewest digits that read back as the
number, and of those the ones nearest to it, a half going to the even digit. A decimal reads back
as a number if it lies in the interval of the reals that round to it.
-/

namespace FeatureBatch.Shortest

/-- Decimal digits and the power of ten of the last one. -/
structure Digits where
  digits : Nat
  exponent : Int
  deriving DecidableEq, Repr

/-- The numerators of the lower end, the value and the upper end of the interval that rounds to
`mantissa * 2 ^ exponent`, over four times the denominator of the value. -/
def bounds (x : Binary64) : Nat × Nat × Nat × Nat :=
  let (num, den) := x.ratio
  let unit := if 0 ≤ x.exponent then Nat.pow 2 x.exponent.toNat else 1
  let below :=
    if x.mantissa = Nat.pow 2 52 && Binary64.minExponent < x.exponent then unit else 2 * unit
  (4 * num - below, 4 * num, 4 * num + 2 * unit, 4 * den)

/-- The decimal exponent of the first digit of a quotient. -/
def leading (num den : Nat) : Int :=
  if den ≤ num then (Decimal.digits (num / den)).length - 1
  else
    let len := (Decimal.digits (den / num)).length
    if den ≤ num * Nat.pow 10 (len - 1) then -((len : Int) - 1) else -(len : Int)

/-- A quotient over a power of ten. -/
def scaled (num den : Nat) (k : Int) : Nat × Nat :=
  if 0 ≤ k then (num, den * Nat.pow 10 k.toNat) else (num * Nat.pow 10 (-k).toNat, den)

/-- On the grid of multiples of `10 ^ k`, the neighbour of the value that reads back and is
nearest to it, if one reads back. -/
def onGrid (x : Binary64) (k : Int) : Option Nat :=
  let (lo, mid, hi, den) := bounds x
  let even := x.mantissa % 2 = 0
  let (lo, d) := scaled lo den k
  let (mid, _) := scaled mid den k
  let (hi, _) := scaled hi den k
  let inside (n : Nat) : Bool :=
    if even then lo ≤ n * d && n * d ≤ hi else lo < n * d && n * d < hi
  let down := mid / d
  let nearest := Decimal.roundDiv mid d
  let other := if nearest = down then down + 1 else down
  if inside nearest then some nearest else if inside other then some other else none

/-- Takes zeros off the end of the digits. -/
def stripZeros : Nat → Digits → Digits
  | 0, d => d
  | fuel + 1, d =>
    if d.digits ≠ 0 && d.digits % 10 = 0 then stripZeros fuel ⟨d.digits / 10, d.exponent + 1⟩ else d

/-- The first grid, from the coarsest, on which a neighbour reads back. -/
def search (x : Binary64) (first : Int) : List Nat → Option Digits
  | [] => none
  | n :: rest =>
    let k := first - n
    match onGrid x k with
    | some d => some (stripZeros 20 ⟨d, k⟩)
    | none => search x first rest

/-- The shortest digits of a number that is not zero. -/
def ofBinary64 (x : Binary64) : Digits :=
  let (num, den) := x.ratio
  (search x (leading num den) (List.range 18)).getD ⟨num, 0⟩

end FeatureBatch.Shortest
