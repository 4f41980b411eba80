import FeatureBatch.Time.Calendar

/-!
Instants in Universal Time, to the nanosecond. A leap second shares the number of the second before
it and has a billion nanoseconds or more; any second may have one after it, though only at the end
of a minute is it told from the next second when it is written. Years run from -262143 to 262142.
-/

namespace FeatureBatch

/-- A point in time: the seconds since 1970-01-01T00:00:00Z, and the nanoseconds within the second,
or within the leap second after it. -/
structure Instant where
  second : Int
  nanos : Nat
  first_le : -8334601228800 ≤ second
  le_last : second ≤ 8210266876799
  nanos_lt : nanos < 2000000000
  deriving DecidableEq, Repr

namespace Instant

/-- The nanoseconds of a second. -/
abbrev billion : Nat := 1000000000

/-- The instant with these parts, if it is one. -/
def ofParts? (second : Int) (nanos : Nat) : Option Instant :=
  if h : -8334601228800 ≤ second ∧ second ≤ 8210266876799 ∧ nanos < 2000000000 then
    some ⟨second, nanos, h.1, h.2.1, h.2.2⟩
  else none

/-- The instant of a count of milliseconds. -/
def ofMillis? (ms : Int) : Option Instant := ofParts? (ms / 1000) ((ms % 1000).toNat * 1000000)

/-- 1970-01-01T00:00:00Z. -/
def epoch : Instant := ⟨0, 0, by decide, by decide, by decide⟩

/-- The order of instants: a leap second comes after the second before it. -/
def before (a b : Instant) : Bool := a.second < b.second || (a.second = b.second && a.nanos < b.nanos)

/-- The earlier of two instants, the first if they are the same. -/
def earlier (a b : Instant) : Instant := if b.before a then b else a

/-- The seconds since midnight. -/
def ofDay (t : Instant) : Int := t.second % 86400

/-- The nanoseconds from `b` to `a`. Leap seconds count only within the day: one that has begun at
the later time of day, or ended since the earlier one, adds a second. -/
def since (a b : Instant) : Int :=
  let days := a.second / 86400 - b.second / 86400
  let correction : Int :=
    if b.ofDay < a.ofDay && billion ≤ b.nanos then 1
    else if a.ofDay < b.ofDay && billion ≤ a.nanos then -1
    else 0
  (days * 86400 + (a.ofDay - b.ofDay) + correction) * billion + (a.nanos - b.nanos : Int)

/-- Why a span cannot be added to an instant. -/
inductive AddError where
  /-- The span has no opposite, and is no span. -/
  | span
  /-- The sum is no instant. -/
  | range
  deriving DecidableEq, Repr

def AddError.message : AddError → String
  | .span => "TimeDelta::milliseconds out of bounds"
  | .range => "\x60DateTime + TimeDelta\x60 overflowed"

/-- The seconds and nanoseconds of the sum. A leap second that the span does not leave stays one. -/
def shift (t : Instant) (ms : Int) : Int × Int :=
  let seconds := ms.tdiv 1000
  let nanos := ms.tmod 1000 * 1000000
  let leap : Int := billion
  let carry (s n : Int) : Int × Int :=
    if n < 0 then (s - 1, n + leap) else if leap ≤ n then (s + 1, n - leap) else (s, n)
  if leap ≤ t.nanos then
    if 0 < seconds || (0 < nanos && 2 * leap - nanos ≤ t.nanos) then
      carry (t.second + seconds) (t.nanos - leap + nanos)
    else if seconds < 0 then carry (t.second + 1 + seconds) (t.nanos - leap + nanos)
    else (t.second, t.nanos + nanos)
  else carry (t.second + seconds) (t.nanos + nanos)

/-- The instant `ms` milliseconds later, where `ms` is the signed reading of a word. -/
def addMillis (t : Instant) (ms : Int64) : Except AddError Instant :=
  if ms = Int64.minValue then .error .span
  else
    let (s, n) := t.shift ms.toInt
    match ofParts? s n.toNat with
    | some u => .ok u
    | none => .error .range

end Instant

end FeatureBatch
