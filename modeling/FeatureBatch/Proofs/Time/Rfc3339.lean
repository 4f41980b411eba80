import Mathlib.Data.List.TakeWhile
import Mathlib.Tactic.IntervalCases
import FeatureBatch.Time.Rfc3339
import FeatureBatch.Proofs.Number.Decimal
import FeatureBatch.Proofs.Text.Blank
import FeatureBatch.Proofs.Time.Calendar

/-!
The text of an instant is read as this instant, whatever its year and the digits of its second, and
also in a leap second at the end of a minute, which is its second 60. A leap second within a minute
is written like the second after it, and read as that one. Each part of the text is read back on its
own, with any text after it that does not go on with the part.
-/

namespace FeatureBatch

namespace Instant

/-- A leap second, if it is one, stands at the end of a minute. -/
def LeapsOnMinute (t : Instant) : Prop := billion ≤ t.nanos → t.second % 60 = 59

/-- The instant that is written: a leap second within a minute is written like the second after it. -/
def asWritten (t : Instant) : Instant :=
  if within : billion ≤ t.nanos ∧ t.second % 60 ≠ 59 then
    { second := t.second + 1
      nanos := t.nanos - billion
      first_le := by have := t.first_le; omega
      le_last := by have := t.le_last; omega
      nanos_lt := by have := t.nanos_lt; omega }
  else t

lemma asWritten_eq_self {t : Instant} : t.asWritten = t ↔ t.LeapsOnMinute := by
  unfold asWritten LeapsOnMinute
  split
  · rename_i within
    refine ⟨fun same => ?_, fun onMinute => absurd (onMinute within.1) within.2⟩
    have second := congrArg Instant.second same
    dsimp only at second
    omega
  · rename_i onMinute
    exact iff_of_true rfl fun leap => by_contra fun within => onMinute ⟨leap, within⟩

end Instant

namespace Rfc3339

open Text

/-! ### Numbers -/

lemma isBlank_of_isDigit {c : Char} (h : c.isDigit = true) : isBlank c = false := by
  obtain ⟨least, most⟩ : 48 ≤ c.toNat ∧ c.toNat ≤ 57 := Char.isDigit_iff_toNat.mp h
  unfold isBlank
  generalize c.toNat = n at *
  interval_cases n <;> rfl

lemma readDigits_padded {w n : Nat} (h : n < 10 ^ w) (hw : 0 < w) (rest : List Char) :
    readDigits (some w) (Decimal.padded w n ++ rest) = some (n, rest) := by
  have length := Decimal.length_padded h hw
  have digits : (Decimal.padded w n).takeWhile Char.isDigit = Decimal.padded w n :=
    List.takeWhile_eq_self_iff.mpr fun c => Decimal.isDigit_of_mem_padded
  simp [readDigits, List.take_left' length, digits, Decimal.padded_ne_nil, Decimal.ofDigits_padded]

lemma readDigits_padded_none (w n : Nat) {rest : List Char}
    (after : ∀ c ∈ rest.head?, c.isDigit = false) :
    readDigits none (Decimal.padded w n ++ rest) = some (n, rest) := by
  have run := Decimal.takeWhile_isDigit (fun c => Decimal.isDigit_of_mem_padded (w := w) (n := n))
    after
  simp [readDigits, run, Decimal.padded_ne_nil, Decimal.ofDigits_padded]

lemma padded_eq_cons (w n : Nat) : ∃ c cs, Decimal.padded w n = c :: cs ∧ c.isDigit = true := by
  obtain ⟨c, cs, spelled⟩ := List.exists_cons_of_ne_nil (Decimal.padded_ne_nil w n)
  exact ⟨c, cs, spelled, Decimal.isDigit_of_mem_padded (spelled ▸ List.mem_cons_self)⟩

lemma trimStart_padded (w n : Nat) (rest : List Char) :
    trimStart (Decimal.padded w n ++ rest) = Decimal.padded w n ++ rest := by
  obtain ⟨c, cs, spelled, digit⟩ := padded_eq_cons w n
  rw [spelled]
  exact trimStart_cons_of_not_blank (isBlank_of_isDigit digit) _

lemma readField_padded {lo hi n : Nat} (hlo : lo ≤ n) (hn : n ≤ hi) (small : hi < 100)
    (rest : List Char) : readField lo hi (Decimal.padded 2 n ++ rest) = some (n, rest) := by
  have read := readDigits_padded (w := 2) (by omega : n < 10 ^ 2) (by decide) rest
  simp [readField, trimStart_padded, read, hlo, hn]

lemma readMark_cons {c : Char} (hc : isBlank c = false) (rest : List Char) :
    readMark c (c :: rest) = some rest := by
  simp [readMark, trimStart_cons_of_not_blank hc]

lemma readYear_writeYear (y : Int) (rest : List Char) :
    readYear (writeYear y ++ '-' :: rest) = some (y, '-' :: rest) := by
  rw [writeYear]
  split
  · rename_i four
    have read := readDigits_padded (w := 4) (by omega : y.toNat < 10 ^ 4) (by decide) ('-' :: rest)
    obtain ⟨c, cs, spelled, digit⟩ := padded_eq_cons 4 y.toNat
    rw [readYear, trimStart_padded]
    rw [spelled] at read ⊢
    -- the text begins with a digit, and so not with a sign
    split
    · rename_i eq
      cases eq
      simp at digit
    · rename_i eq
      cases eq
      simp at digit
    · simp only [read, Option.map_some, Option.some.injEq, Prod.mk.injEq, and_true]
      omega
  · have mark : ∀ c ∈ ('-' :: rest).head?, c.isDigit = false := by simp
    have read := readDigits_padded_none 4 y.natAbs mark
    split
    all_goals
      rw [List.cons_append, readYear, trimStart_cons_of_not_blank (by decide)]
      simp only [read, Option.map_some, Option.some.injEq, Prod.mk.injEq, and_true]
      omega

lemma readFraction_padded {k n : Nat} (hk : 0 < k) (most : k ≤ 9) (hn : n < 10 ^ k)
    (rest : List Char) : readFraction ('.' :: Decimal.padded k n ++ 'Z' :: rest) =
      some (n * 10 ^ (9 - k), 'Z' :: rest) := by
  have run : (Decimal.padded k n ++ 'Z' :: rest).takeWhile Char.isDigit = Decimal.padded k n :=
    Decimal.takeWhile_isDigit (fun c => Decimal.isDigit_of_mem_padded) (by simp)
  have length := Decimal.length_padded hn hk
  have all : (Decimal.padded k n).take 9 = Decimal.padded k n := List.take_of_length_le (by omega)
  rw [List.cons_append, readFraction]
  simp [run, all, length, Decimal.padded_ne_nil, Decimal.ofDigits_padded]

lemma readFraction_writeFraction {nanos : Nat} (h : nanos < Instant.billion) (rest : List Char) :
    readFraction (writeFraction nanos ++ 'Z' :: rest) = some (nanos, 'Z' :: rest) := by
  rw [Instant.billion] at h
  rw [writeFraction]
  split
  · rename_i zero
    rw [zero]
    rfl
  split
  · rw [readFraction_padded (by decide) (by decide) (by omega)]
    simp
    omega
  split
  · rw [readFraction_padded (by decide) (by decide) (by omega)]
    simp
    omega
  · rw [readFraction_padded (by decide) (by decide) (by omega)]
    simp

/-! ### Instants -/

lemma ofParts?_self (t : Instant) : Instant.ofParts? t.second t.nanos = some t :=
  dif_pos ⟨t.first_le, t.le_last, t.nanos_lt⟩

lemma instantAt_eq {t : Instant} {day : Int} {hour minute second nanos : Nat} (ofMinute : Nat)
    (sixty : (if second = 60 then (59, nanos + Instant.billion) else (second, nanos)) =
      (ofMinute, t.nanos))
    (whole : day * 86400 + (hour * 3600 + minute * 60 + ofMinute : Nat) = t.second) :
    instantAt (Date.ofDays day) hour minute second nanos 0 = some t := by
  rw [instantAt, sixty]
  dsimp only
  rw [if_pos (Date.isValid_ofDays day), Date.toDays_ofDays, whole, zero_mul, sub_zero, ofParts?_self]
  rfl

lemma instantAt_ofDays (t : Instant) :
    instantAt (Date.ofDays (t.second / 86400)) (t.ofDay.toNat / 3600) (t.ofDay.toNat / 60 % 60)
      (t.ofDay.toNat % 60 + t.nanos / Instant.billion) (t.nanos % Instant.billion) 0 =
        some t.asWritten := by
  have small := t.nanos_lt
  have ofDay : t.ofDay = t.second % 86400 := rfl
  unfold Instant.asWritten
  split
  · rename_i within
    obtain ⟨leap, within⟩ := within
    rw [Instant.billion] at leap
    refine instantAt_eq (t.ofDay.toNat % 60 + 1) ?_ ?_ <;> dsimp only
    · rw [Instant.billion, if_neg (by omega), Prod.mk.injEq]
      omega
    · omega
  · rename_i onMinute
    rw [Instant.billion] at onMinute
    refine instantAt_eq (t.ofDay.toNat % 60) ?_ ?_
    · rw [Instant.billion]
      split <;> rw [Prod.mk.injEq] <;> omega
    · omega

lemma read?_of_parts {cs cs₁ cs₂ cs₃ cs₄ cs₅ cs₆ cs₇ cs₈ cs₉ cs₁₀ : List Char} {d : Date}
    {hour minute second nanos : Nat} {t : Instant} (year : readYear cs = some (d.year, cs₁))
    (mark₁ : readMark '-' cs₁ = some cs₂) (month : readField 1 12 cs₂ = some (d.month, cs₃))
    (mark₂ : readMark '-' cs₃ = some cs₄) (day : readField 1 31 cs₄ = some (d.day, 'T' :: cs₅))
    (hours : readField 0 23 cs₅ = some (hour, cs₆)) (mark₃ : readMark ':' cs₆ = some cs₇)
    (minutes : readField 0 59 cs₇ = some (minute, cs₈)) (mark₄ : readMark ':' cs₈ = some cs₉)
    (seconds : readField 0 60 cs₉ = some (second, cs₁₀))
    (fraction : readFraction cs₁₀ = some (nanos, ['Z']))
    (instant : instantAt d hour minute second nanos 0 = some t) : read? cs = some t := by
  have zone : readOffset (trimStart ['Z']) = some (0, []) := by decide
  refine Option.bind_eq_some_iff.mpr ⟨_, year, ?_⟩
  refine Option.bind_eq_some_iff.mpr ⟨_, mark₁, ?_⟩
  refine Option.bind_eq_some_iff.mpr ⟨_, month, ?_⟩
  refine Option.bind_eq_some_iff.mpr ⟨_, mark₂, ?_⟩
  refine Option.bind_eq_some_iff.mpr ⟨_, day, ?_⟩
  refine Option.bind_eq_some_iff.mpr ⟨_, hours, ?_⟩
  refine Option.bind_eq_some_iff.mpr ⟨_, mark₃, ?_⟩
  refine Option.bind_eq_some_iff.mpr ⟨_, minutes, ?_⟩
  refine Option.bind_eq_some_iff.mpr ⟨_, mark₄, ?_⟩
  refine Option.bind_eq_some_iff.mpr ⟨_, seconds, ?_⟩
  refine Option.bind_eq_some_iff.mpr ⟨_, fraction, ?_⟩
  exact Option.bind_eq_some_iff.mpr ⟨_, zone, instant⟩

theorem read?_write (t : Instant) : read? (write t) = some t.asWritten := by
  have ofDay : t.ofDay.toNat < 86400 := by
    unfold Instant.ofDay
    omega
  have dash : isBlank '-' = false := by decide
  have colon : isBlank ':' = false := by decide
  have nanos : t.nanos % Instant.billion < Instant.billion := Nat.mod_lt _ (by decide)
  have second : t.ofDay.toNat % 60 + t.nanos / Instant.billion ≤ 60 := by
    have := t.nanos_lt
    rw [Instant.billion]
    omega
  obtain ⟨month, month', day, day'⟩ :=
    Date.bounds_of_isValid (Date.isValid_ofDays (t.second / 86400))
  rw [write, writeDate, writeTime]
  simp only [List.append_assoc, List.cons_append]
  exact read?_of_parts (readYear_writeYear _ _) (readMark_cons dash _)
    (readField_padded month month' (by decide) _) (readMark_cons dash _)
    (readField_padded day day' (by decide) _)
    (readField_padded (Nat.zero_le _) (by omega) (by decide) _) (readMark_cons colon _)
    (readField_padded (Nat.zero_le _) (by omega) (by decide) _) (readMark_cons colon _)
    (readField_padded (Nat.zero_le _) second (by decide) _) (readFraction_writeFraction nanos [])
    (instantAt_ofDays t)

end Rfc3339

end FeatureBatch
