import Mathlib.Tactic.Common
import FeatureBatch.Json.Parser
import FeatureBatch.Json.Printer
import FeatureBatch.Proofs.Number.Decimal

/-!
Strings and numbers that are written as JSON are read as they were. A string is read piece by piece,
one for each character that was written; a number is read up to the first character that does not
go on with it.
-/

namespace FeatureBatch.Json

/-! ### Strings -/

lemma value_small {n : Nat} (h : n < 16) : Hexadecimal.value (Hexadecimal.small n) = some n := by
  revert n
  decide

/-- What the written form of a character is read as. -/
def pieceOf (c : Char) : Piece :=
  if c.toNat < 32 ∧ c ∉ ['\n', '\r', '\t', '\x08', '\x0c'] then .unit c.toNat else .char c

/-- The characters whose written form is a backslash and a letter. -/
def hasShortEscape (c : Char) : Prop :=
  c = '"' ∨ c = '\\' ∨ c = '\n' ∨ c = '\r' ∨ c = '\t' ∨ c = '\x08' ∨ c = '\x0c'

lemma pieces_escapeChar (c : Char) (cs : List Char) :
    pieces (escapeChar c ++ cs) = (pieces cs).map fun (ps, rest) => (pieceOf c :: ps, rest) := by
  by_cases short : hasShortEscape c
  · rcases short with rfl | rfl | rfl | rfl | rfl | rfl | rfl
    all_goals cases h : pieces cs <;> simp [escapeChar, pieceOf, pieces, simpleEscape, h]
  simp only [hasShortEscape, not_or] at short
  obtain ⟨quote, backslash, n, r, t, b, f⟩ := short
  by_cases control : c.toNat < 32
  · have high := value_small (by omega : c.toNat / 16 < 16)
    have low := value_small (by omega : c.toNat % 16 < 16)
    have zero : Hexadecimal.value '0' = some 0 := by decide
    have written : escapeChar c = ['\\', 'u', '0', '0', Hexadecimal.small (c.toNat / 16),
        Hexadecimal.small (c.toNat % 16)] := by
      simp [escapeChar, *]
    have piece : pieceOf c = .unit c.toNat := by
      simp [pieceOf, *]
    rw [written, piece]
    cases h : pieces cs <;> simp [pieces, zero, high, low, h]
    omega
  · have written : escapeChar c = [c] := by simp [escapeChar, *]
    have piece : pieceOf c = .char c := by simp [pieceOf, control]
    rw [written, piece, List.singleton_append]
    cases h : pieces cs <;> simp [pieces, backslash, control, h]

lemma joinPieces_unit {n : Nat} (h : n < 0xD800) (ps : List Piece) :
    joinPieces (.unit n :: ps) = (joinPieces ps).map (Char.ofNat n :: ·) := by
  cases ps with
  | nil => simp [joinPieces, h]
  | cons p ps => cases p <;> simp [joinPieces, h]

lemma joinPieces_pieceOf (c : Char) (ps : List Piece) :
    joinPieces (pieceOf c :: ps) = (joinPieces ps).map (c :: ·) := by
  rw [pieceOf]
  split
  · rw [joinPieces_unit (by omega), Char.ofNat_toNat]
  · rw [joinPieces]

lemma readString_quote (s : String) (rest : List Char) :
    readString (s.toList.flatMap escapeChar ++ '"' :: rest) = some (some s, rest) := by
  have read (cs : List Char) : pieces (cs.flatMap escapeChar ++ '"' :: rest) =
      some (cs.map pieceOf, rest) := by
    induction cs with
    | nil => simp [pieces]
    | cons c cs ih =>
      rw [List.flatMap_cons, List.append_assoc, pieces_escapeChar, ih]
      rfl
  have joined (cs : List Char) : joinPieces (cs.map pieceOf) = some cs := by
    induction cs with
    | nil => rfl
    | cons c cs ih => rw [List.map_cons, joinPieces_pieceOf, ih, Option.map_some]
  simp [readString, read, joined]

/-! ### Numbers -/

/-- What comes next does not go on with a number. -/
def EndsNumber (rest : List Char) : Prop :=
  ∀ c ∈ rest.head?, c.isDigit = false ∧ c ≠ '.' ∧ c ≠ 'e' ∧ c ≠ 'E'

lemma endsNumber_nil : EndsNumber [] := by simp [EndsNumber]

lemma endsNumber_cons {c : Char} (h : c.isDigit = false ∧ c ≠ '.' ∧ c ≠ 'e' ∧ c ≠ 'E')
    (rest : List Char) : EndsNumber (c :: rest) := by
  rintro d ⟨⟩
  exact h

/-- A list that consists of digits, of which there is one at least. -/
structure IsDigits (ds : List Char) : Prop where
  digits : ∀ c ∈ ds, c.isDigit = true
  filled : ds ≠ []

/-- The spelling of a number follows the grammar. -/
structure IsSpelled (n : JsonNumber) : Prop where
  whole : IsDigits n.whole
  zero : n.whole.head? = some '0' → n.whole.length = 1
  fraction : ∀ c ∈ n.fraction, c.isDigit = true
  exponent : ∀ e ∈ n.exponent, IsDigits e.2

lemma readDigits_append {ds rest : List Char} (h : IsDigits ds)
    (after : ∀ c ∈ rest.head?, c.isDigit = false) : readDigits (ds ++ rest) = some (ds, rest) := by
  rw [readDigits, Decimal.takeWhile_isDigit h.digits after,
    Decimal.dropWhile_isDigit h.digits after]
  obtain ⟨c, cs, spelled⟩ := List.exists_cons_of_ne_nil h.filled
  rw [spelled]

lemma readWhole_append {n : JsonNumber} (h : IsSpelled n) {rest : List Char}
    (after : ∀ c ∈ rest.head?, c.isDigit = false) :
    readWhole (n.whole ++ rest) = some (n.whole, rest) := by
  have first : ¬ (n.whole.head? = some '0' ∧ n.whole.length ≠ 1) := fun ⟨zero, long⟩ =>
    long (h.zero zero)
  simp only [readWhole, readDigits_append h.whole after, Option.bind_eq_bind, Option.bind_some,
    if_neg first]

/-- The part of a number after its whole part. -/
def renderFraction (n : JsonNumber) : List Char :=
  if n.fraction.isEmpty then [] else '.' :: n.fraction

def renderExponent (n : JsonNumber) : List Char :=
  match n.exponent with
  | none => []
  | some (negative, digits) => 'e' :: (if negative then '-' else '+') :: digits

lemma readExponent_append {n : JsonNumber} (h : IsSpelled n) {rest : List Char}
    (ends : EndsNumber rest) :
    readExponent (renderExponent n ++ rest) = some (n.exponent, rest) := by
  have after : ∀ c ∈ rest.head?, c.isDigit = false := fun c hc => (ends c hc).1
  rw [renderExponent]
  rcases spelled : n.exponent with _ | ⟨negative, digits⟩
  · cases rest with
    | nil => rfl
    | cons c rest =>
      obtain ⟨-, -, small, capital⟩ := ends c rfl
      simp [readExponent, small, capital]
  · have read := readDigits_append (h.exponent _ spelled) after
    cases negative <;> simp [readExponent, read]

lemma readFraction_append {n : JsonNumber} (h : IsSpelled n) {rest : List Char}
    (after : ∀ c ∈ rest.head?, c.isDigit = false ∧ c ≠ '.') :
    readFraction (renderFraction n ++ rest) = some (n.fraction, rest) := by
  rw [renderFraction]
  rcases spelled : n.fraction with _ | ⟨d, ds⟩
  · cases rest with
    | nil => rfl
    | cons c rest =>
      have point := (after c rfl).2
      simp [readFraction, point]
  · have digits : IsDigits (d :: ds) := ⟨spelled ▸ h.fraction, by simp⟩
    simpa [readFraction] using readDigits_append digits fun c hc => (after c hc).1

lemma head?_renderExponent {n : JsonNumber} {rest : List Char} (ends : EndsNumber rest) :
    ∀ c ∈ (renderExponent n ++ rest).head?, c.isDigit = false ∧ c ≠ '.' := by
  rw [renderExponent]
  rcases n.exponent with _ | ⟨negative, digits⟩
  · exact fun c hc => ⟨(ends c hc).1, (ends c hc).2.1⟩
  · rintro c ⟨⟩
    decide

lemma head?_renderFraction {n : JsonNumber} {rest : List Char}
    (after : ∀ c ∈ rest.head?, c.isDigit = false ∧ c ≠ '.') :
    ∀ c ∈ (renderFraction n ++ rest).head?, c.isDigit = false := by
  rw [renderFraction]
  split
  · exact fun c hc => (after c hc).1
  · rintro c ⟨⟩
    decide

lemma readMagnitude_append {n : JsonNumber} (h : IsSpelled n) {rest : List Char}
    (ends : EndsNumber rest) (negative : Bool) :
    readMagnitude negative (n.whole ++ (renderFraction n ++ (renderExponent n ++ rest))) =
      some ({ n with negative }, rest) := by
  have exponent := head?_renderExponent (n := n) ends
  rw [readMagnitude, readWhole_append h (head?_renderFraction exponent)]
  dsimp only [Option.bind_eq_bind, Option.bind_some]
  rw [readFraction_append h exponent]
  dsimp only [Option.bind_some]
  rw [readExponent_append h ends]
  rfl

lemma readNumber_append {ds : List Char} (h : IsDigits ds) (rest : List Char) :
    readNumber (ds ++ rest) = readMagnitude false (ds ++ rest) := by
  obtain ⟨c, cs, rfl⟩ := List.exists_cons_of_ne_nil h.filled
  have digit : c.isDigit = true := h.digits c List.mem_cons_self
  rw [List.cons_append, readNumber]
  rintro cs ⟨⟩
  simp at digit

lemma readNumber_renderNumber {n : JsonNumber} (h : IsSpelled n) {rest : List Char}
    (ends : EndsNumber rest) : readNumber (renderNumber n ++ rest) = some (n, rest) := by
  have written : renderNumber n ++ rest = (if n.negative then ['-'] else []) ++
      (n.whole ++ (renderFraction n ++ (renderExponent n ++ rest))) := by
    simp only [renderNumber, List.append_assoc]
    rfl
  have magnitude := readMagnitude_append h ends n.negative
  rw [written]
  cases sign : n.negative with
  | true =>
    rw [sign] at magnitude
    rw [if_pos rfl, List.singleton_append, readNumber, magnitude, ← sign]
  | false =>
    rw [sign] at magnitude
    rw [if_neg Bool.false_ne_true, List.nil_append, readNumber_append h.whole, magnitude, ← sign]

lemma isSpelled_ofNat (n : Nat) : IsSpelled (.ofNat n) where
  whole := ⟨fun _ => Decimal.isDigit_of_mem_digits, Decimal.digits_ne_nil n⟩
  zero := fun first => by
    rcases Nat.eq_zero_or_pos n with rfl | pos
    · rfl
    · exact absurd first (Decimal.digits_head?_ne_zero pos)
  fraction := by simp [JsonNumber.ofNat]
  exponent := by simp [JsonNumber.ofNat]

lemma word?_ofNat (n : UInt64) : (JsonNumber.ofNat n.toNat).word? = some n := by
  have small : n.toNat < Nat.pow 2 64 := n.toNat_lt
  simp [JsonNumber.word?, JsonNumber.isWhole, JsonNumber.ofNat, Decimal.ofDigits_digits, small]

end FeatureBatch.Json
