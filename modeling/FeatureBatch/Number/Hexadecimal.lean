/-!
Digits in base sixteen. Both small and capital letters are read.
-/

namespace FeatureBatch.Hexadecimal

/-- The number that a digit stands for. -/
def value (c : Char) : Option Nat :=
  if c.isDigit then some (c.toNat - 48)
  else if 'a' ≤ c ∧ c ≤ 'f' then some (c.toNat - 87)
  else if 'A' ≤ c ∧ c ≤ 'F' then some (c.toNat - 55)
  else none

/-- A digit in small letters. -/
def small (n : Nat) : Char := Nat.digitChar n

/-- A digit in capital letters. -/
def capital (n : Nat) : Char := (small n).toUpper

/-- The last `width` digits of a number, in capital letters. -/
def capitals : Nat → Nat → List Char
  | 0, _ => []
  | width + 1, n => capitals width (n / 16) ++ [capital (n % 16)]

/-- The number that digits spell. -/
def ofDigits? (cs : List Char) : Option Nat :=
  cs.foldlM (fun n c => (value c).map (n * 16 + ·)) 0

/-- The last `width` digits of a number, in small letters. -/
def smalls : Nat → Nat → List Char
  | 0, _ => []
  | width + 1, n => smalls width (n / 16) ++ [small (n % 16)]

/-- The bytes that digits spell, two digits a byte. -/
def bytes? : List Char → Option (List UInt8)
  | [] => some []
  | a :: b :: rest => do some (UInt8.ofNat (← ofDigits? [a, b]) :: (← bytes? rest))
  | [_] => none

end FeatureBatch.Hexadecimal
