import Mathlib.Data.List.TakeWhile
import Mathlib.Tactic.Common
import FeatureBatch.Number.Decimal

/-!
What the digits of a number are, with zeros before them or without: digits only, as many as the
width asks for, and they spell the number. A run of digits ends where something else comes after it.
-/

namespace FeatureBatch.Decimal

lemma isDigit_of_mem_digits {n : Nat} {c : Char} (h : c ∈ digits n) : c.isDigit = true :=
  Nat.isDigit_of_mem_toDigits (by decide) (by decide) h

lemma digits_ne_nil (n : Nat) : digits n ≠ [] := Nat.toDigits_ne_nil

lemma length_digits_le {n w : Nat} (h : n < Nat.pow 10 w) (hw : 0 < w) : (digits n).length ≤ w :=
  (Nat.length_toDigits_le_iff (by decide) hw).mpr h

lemma digits_head?_ne_zero {n : Nat} (hn : 0 < n) : (digits n).head? ≠ some '0' := by
  induction n using Nat.strongRecOn with
  | _ n ih =>
    rcases Nat.lt_or_ge n 10 with small | large
    · rw [digits, Nat.toDigits_of_lt_base small]
      simp
      omega
    · have first := ih (n / 10) (by omega) (by omega)
      obtain ⟨c, cs, spelled⟩ := List.exists_cons_of_ne_nil (digits_ne_nil (n / 10))
      rw [digits, Nat.toDigits_of_base_le (by decide) large, ← digits, spelled]
      rwa [spelled] at first

lemma isDigit_of_mem_padded {w n : Nat} {c : Char} (h : c ∈ padded w n) : c.isDigit = true := by
  rcases List.mem_append.mp h with zero | digit
  · rw [List.eq_of_mem_replicate zero]
    decide
  · exact isDigit_of_mem_digits digit

lemma padded_ne_nil (w n : Nat) : padded w n ≠ [] := by
  simp [padded, padLeft, digits_ne_nil]

lemma length_padded {w n : Nat} (h : n < Nat.pow 10 w) (hw : 0 < w) : (padded w n).length = w := by
  have := length_digits_le h hw
  rw [padded, padLeft, List.length_append, List.length_replicate]
  omega

lemma ofDigits_padded (w n : Nat) : ofDigits (padded w n) = n := by
  rw [padded, padLeft, ofDigits, Nat.ofDigitChars_append, Nat.ofDigitChars_replicate_zero,
    Nat.mul_zero, ← ofDigits, ofDigits_digits]

lemma of_mem_fixed {places num den : Nat} {c : Char} (h : c ∈ fixed places num den) :
    c.isDigit = true ∨ c = '.' := by
  unfold fixed withPoint at h
  split_ifs at h with none
  · exact .inl (isDigit_of_mem_padded h)
  · rcases List.mem_append.mp h with before | after
    · exact .inl (isDigit_of_mem_padded (List.mem_of_mem_take before))
    · rcases List.mem_cons.mp after with point | after
      · exact .inr point
      · exact .inl (isDigit_of_mem_padded (List.mem_of_mem_drop after))

/-! ### Runs of digits -/

lemma takeWhile_isDigit {ds rest : List Char} (digits : ∀ c ∈ ds, c.isDigit = true)
    (after : ∀ c ∈ rest.head?, c.isDigit = false) : (ds ++ rest).takeWhile Char.isDigit = ds := by
  rw [List.takeWhile_append_of_pos digits]
  cases rest with
  | nil => simp
  | cons c rest => simp [List.takeWhile_cons_of_neg, after c rfl]

lemma dropWhile_isDigit {ds rest : List Char} (digits : ∀ c ∈ ds, c.isDigit = true)
    (after : ∀ c ∈ rest.head?, c.isDigit = false) : (ds ++ rest).dropWhile Char.isDigit = rest := by
  rw [List.dropWhile_append_of_pos digits]
  cases rest with
  | nil => simp
  | cons c rest => simp [List.dropWhile_cons_of_neg, after c rfl]

end FeatureBatch.Decimal
