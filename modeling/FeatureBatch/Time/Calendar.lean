/-!
The Gregorian calendar without beginning or end, and its days counted from 1970-01-01. The count
goes by eras of 400 years that begin in March, so that a leap day is the last of its year.
-/

namespace FeatureBatch

/-- A day of the calendar. -/
structure Date where
  year : Int
  month : Nat
  day : Nat
  deriving DecidableEq, Repr

namespace Date

def isLeapYear (year : Int) : Bool := year % 4 = 0 && (year % 100 ≠ 0 || year % 400 = 0)

def daysInMonth (year : Int) (month : Nat) : Nat :=
  if month = 2 then (if isLeapYear year then 29 else 28)
  else if month = 4 || month = 6 || month = 9 || month = 11 then 30
  else 31

/-- The month and the day are there in the year. -/
def isValid (d : Date) : Bool :=
  1 ≤ d.month && d.month ≤ 12 && 1 ≤ d.day && d.day ≤ daysInMonth d.year d.month

/-- The days before the month `m`, counted from March as 0. -/
def daysBeforeMonth (m : Nat) : Nat := (153 * m + 2) / 5

/-- The days of an era before its year `y`. -/
def daysBeforeYear (y : Nat) : Nat := 365 * y + y / 4 - y / 100

/-- The number of the day, 1970-01-01 being 0. -/
def toDays (d : Date) : Int :=
  let year := if d.month ≤ 2 then d.year - 1 else d.year
  let month := if d.month ≤ 2 then d.month + 9 else d.month - 3
  let ofEra := (year % 400).toNat
  (year / 400) * 146097 + (daysBeforeYear ofEra + daysBeforeMonth month + (d.day - 1) : Nat) - 719468

/-- The year of the day `n` of an era. -/
def yearOfEra (n : Nat) : Nat := (n - n / 1460 + n / 36524 - n / 146096) / 365

def ofDays (n : Int) : Date :=
  let shifted := n + 719468
  let ofEra := (shifted % 146097).toNat
  let y := yearOfEra ofEra
  let ofYear := ofEra - daysBeforeYear y
  let m := (5 * ofYear + 2) / 153
  let month := if m < 10 then m + 3 else m - 9
  let year := shifted / 146097 * 400 + y
  ⟨if month ≤ 2 then year + 1 else year, month, ofYear - daysBeforeMonth m + 1⟩

end Date

end FeatureBatch
