/-!
Whole numbers in decimal digits, and texts padded to a width.
-/

namespace FeatureBatch.Decimal

/-- The digits of a number, without leading zeros. -/
def digits (n : Nat) : List Char := Nat.toDigits 10 n

/-- The number that digits spell. -/
def ofDigits (cs : List Char) : Nat := Nat.ofDigitChars 10 cs 0

theorem ofDigits_digits (n : Nat) : ofDigits (digits n) = n :=
  Nat.ofDigitChars_toDigits (by decide) (by decide)

/-- The number that digits spell, if there is one and all are digits. -/
def ofDigits? (cs : List Char) : Option Nat :=
  if cs.isEmpty || !cs.all Char.isDigit then none else some (ofDigits cs)

/-- A word of 64 bits, with a plus before it or not. -/
def word? (cs : List Char) : Option UInt64 :=
  let digits := match cs with
    | '+' :: rest => rest
    | _ => cs
  (ofDigits? digits).bind fun n => if n < Nat.pow 2 64 then some (UInt64.ofNat n) else none

/-- The text with `c` before it up to the width `w`. -/
def padLeft (w : Nat) (c : Char) (cs : List Char) : List Char :=
  List.replicate (w - cs.length) c ++ cs

/-- The digits of a number with zeros before them up to the width `w`. -/
def padded (w n : Nat) : List Char := padLeft w '0' (digits n)

/-- A quotient rounded to the nearest whole number, a half to the even one. -/
def roundDiv (num den : Nat) : Nat :=
  let q := num / den
  let twice := 2 * (num % den)
  if twice < den then q
  else if twice = den then (if q % 2 = 0 then q else q + 1)
  else q + 1

/-- A number given as a count of units of which 10 to the power `places` make one, with its
point. -/
def withPoint (places n : Nat) : List Char :=
  let cs := padded (places + 1) n
  if places = 0 then cs
  else cs.take (cs.length - places) ++ '.' :: cs.drop (cs.length - places)

/-- The nearest number with the given count of places to the quotient, a half to the even one. -/
def fixed (places num den : Nat) : List Char :=
  withPoint places (roundDiv (num * Nat.pow 10 places) den)

end FeatureBatch.Decimal
