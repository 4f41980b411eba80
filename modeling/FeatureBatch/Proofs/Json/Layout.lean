import Mathlib.Data.List.DropRight
import FeatureBatch.Proofs.Json.Scalars

/-!
The ways to lay out a JSON value, with blanks between its parts. Every layout is read as the value
it lays out, and both printed texts are layouts of what they print, so reading undoes printing.
-/

namespace FeatureBatch.Json

/-! ### Layouts -/

/-- What a stretch of text may stand for: a value, or the items or fields after an opening bracket
up to the closing one. -/
inductive Part where
  | value (v : Json)
  | items (vs : List Json)
  | fields (fs : List (Option String × Json))

def AllSpace (b : List Char) : Prop := ∀ c ∈ b, isSpace c = true

/-- A text that lays out a part, with blanks where the grammar has them. -/
inductive Layout : Part → List Char → Prop
  | null : Layout (.value .null) "null".toList
  | bool (b : Bool) : Layout (.value (.bool b)) (renderBool b)
  | number {n : JsonNumber} (spelled : IsSpelled n) : Layout (.value (.number n)) (renderNumber n)
  | text (s : String) : Layout (.value (.text s)) (quote s)
  | noItems {b : List Char} (blank : AllSpace b) :
      Layout (.value (.array [])) ('[' :: (b ++ [']']))
  | array {vs : List Json} {cs : List Char} (items : Layout (.items vs) cs) :
      Layout (.value (.array vs)) ('[' :: cs)
  | noFields {b : List Char} (blank : AllSpace b) :
      Layout (.value (.object [])) ('\x7b' :: (b ++ ['\x7d']))
  | object {fs : List (Option String × Json)} {cs : List Char} (fields : Layout (.fields fs) cs) :
      Layout (.value (.object fs)) ('\x7b' :: cs)
  | space {v : Json} {c : Char} {cs : List Char} (blank : isSpace c = true)
      (value : Layout (.value v) cs) : Layout (.value v) (c :: cs)
  | lastItem {v : Json} {cs b : List Char} (value : Layout (.value v) cs) (blank : AllSpace b) :
      Layout (.items [v]) (cs ++ b ++ [']'])
  | item {v : Json} {vs : List Json} {cs b ds : List Char} (value : Layout (.value v) cs)
      (blank : AllSpace b) (rest : Layout (.items vs) ds) :
      Layout (.items (v :: vs)) (cs ++ b ++ ',' :: ds)
  | lastField {k : String} {v : Json} {b₁ b₂ cs b₃ : List Char} (blank₁ : AllSpace b₁)
      (blank₂ : AllSpace b₂) (value : Layout (.value v) cs) (blank₃ : AllSpace b₃) :
      Layout (.fields [(some k, v)]) (b₁ ++ quote k ++ b₂ ++ ':' :: cs ++ b₃ ++ ['\x7d'])
  | field {k : String} {v : Json} {fs : List (Option String × Json)} {b₁ b₂ cs b₃ ds : List Char}
      (blank₁ : AllSpace b₁) (blank₂ : AllSpace b₂) (value : Layout (.value v) cs)
      (blank₃ : AllSpace b₃) (rest : Layout (.fields fs) ds) :
      Layout (.fields ((some k, v) :: fs)) (b₁ ++ quote k ++ b₂ ++ ':' :: cs ++ b₃ ++ ',' :: ds)

/-! ### Reading -/

lemma skipSpace_append {b : List Char} (blank : AllSpace b) (cs : List Char) :
    skipSpace (b ++ cs) = skipSpace cs :=
  List.dropWhile_append_of_pos blank

lemma skipSpace_cons {c : Char} (solid : isSpace c = false) (cs : List Char) :
    skipSpace (c :: cs) = c :: cs :=
  List.dropWhile_cons_of_neg (by simp [solid])

lemma skipSpace_cons_of_space {c : Char} (space : isSpace c = true) (cs : List Char) :
    skipSpace (c :: cs) = skipSpace cs :=
  List.dropWhile_cons_of_pos space

lemma skipSpace_append_cons {b : List Char} (blank : AllSpace b) {c : Char}
    (solid : isSpace c = false) (cs : List Char) : skipSpace (b ++ c :: cs) = c :: cs := by
  rw [skipSpace_append blank, skipSpace_cons solid]

lemma skipSpace_skipSpace (cs : List Char) : skipSpace (skipSpace cs) = skipSpace cs :=
  List.dropWhile_idempotent _ _

lemma readValue_skipSpace (fuel : Nat) (cs : List Char) :
    readValue fuel (skipSpace cs) = readValue fuel cs := by
  cases fuel with
  | zero => rfl
  | succ fuel => rw [readValue, readValue, skipSpace_skipSpace]

lemma readItems_skipSpace (fuel : Nat) (cs : List Char) :
    readItems fuel (skipSpace cs) = readItems fuel cs := by
  cases fuel with
  | zero => rfl
  | succ fuel => rw [readItems, readItems, readValue_skipSpace]

lemma readFields_skipSpace (fuel : Nat) (cs : List Char) :
    readFields fuel (skipSpace cs) = readFields fuel cs := by
  cases fuel with
  | zero => rfl
  | succ fuel => rw [readFields, readFields, skipSpace_skipSpace]

lemma readValue_null (fuel : Nat) (rest : List Char) :
    readValue (fuel + 1) ("null".toList ++ rest) = some (.null, rest) := by
  change readValue (fuel + 1) ('n' :: 'u' :: 'l' :: 'l' :: rest) = _
  rw [readValue, skipSpace_cons (by decide)]
  simp [readWord]

lemma readValue_bool (fuel : Nat) (b : Bool) (rest : List Char) :
    readValue (fuel + 1) (renderBool b ++ rest) = some (.bool b, rest) := by
  cases b with
  | true =>
    change readValue (fuel + 1) ('t' :: 'r' :: 'u' :: 'e' :: rest) = _
    rw [readValue, skipSpace_cons (by decide)]
    simp [readWord]
  | false =>
    change readValue (fuel + 1) ('f' :: 'a' :: 'l' :: 's' :: 'e' :: rest) = _
    rw [readValue, skipSpace_cons (by decide)]
    simp [readWord]

lemma quote_append (s : String) (rest : List Char) :
    quote s ++ rest = '"' :: (s.toList.flatMap escapeChar ++ '"' :: rest) := by
  simp [quote]

lemma readValue_text (fuel : Nat) (s : String) (rest : List Char) :
    readValue (fuel + 1) (quote s ++ rest) = some (.text s, rest) := by
  rw [quote_append, readValue, skipSpace_cons (by decide)]
  simp [readString_quote, text]

lemma renderNumber_eq_cons {n : JsonNumber} (spelled : IsSpelled n) :
    ∃ c cs, renderNumber n = c :: cs ∧ (c = '-' ∨ c.isDigit = true) := by
  obtain ⟨c, cs, whole⟩ := List.exists_cons_of_ne_nil spelled.whole.filled
  have digit : c.isDigit = true := spelled.whole.digits c (whole ▸ List.mem_cons_self)
  unfold renderNumber
  cases n.negative with
  | true => exact ⟨'-', _, rfl, .inl rfl⟩
  | false => exact ⟨c, _, by rw [whole]; rfl, .inr digit⟩

lemma readValue_number (fuel : Nat) {n : JsonNumber} (spelled : IsSpelled n) {rest : List Char}
    (ends : EndsNumber rest) :
    readValue (fuel + 1) (renderNumber n ++ rest) = some (.number n, rest) := by
  have read := readNumber_renderNumber spelled ends
  obtain ⟨c, cs, written, first⟩ := renderNumber_eq_cons spelled
  have other (d : Char) (hd : d ≠ '-' ∧ d.isDigit = false) : c ≠ d := by
    rintro rfl
    rcases first with sign | digit
    · exact hd.1 sign
    · simp [digit] at hd
  have solid : isSpace c = false := by simp [isSpace, other]
  rw [written, List.cons_append] at read ⊢
  rw [readValue, skipSpace_cons solid]
  simp [other, read]

lemma readValue_noItems (fuel : Nat) {cs rest : List Char} (close : skipSpace cs = ']' :: rest) :
    readValue (fuel + 1) ('[' :: cs) = some (.array [], rest) := by
  rw [readValue, skipSpace_cons (by decide)]
  simp [close]

lemma readValue_noFields (fuel : Nat) {cs rest : List Char}
    (close : skipSpace cs = '\x7d' :: rest) :
    readValue (fuel + 1) ('\x7b' :: cs) = some (.object [], rest) := by
  rw [readValue, skipSpace_cons (by decide)]
  simp [close]

lemma readItems_close (fuel : Nat) (cs : List Char) : readItems fuel (']' :: cs) = none := by
  rcases fuel with _ | _ | fuel
  · rfl
  · rfl
  · rw [readItems, readValue, skipSpace_cons (by decide)]
    simp [readNumber, readMagnitude, readWhole, readDigits]

lemma readFields_close (fuel : Nat) (cs : List Char) : readFields fuel ('\x7d' :: cs) = none := by
  cases fuel with
  | zero => rfl
  | succ fuel =>
    rw [readFields, skipSpace_cons (by decide)]
    simp

lemma readValue_array {fuel : Nat} {vs : List Json} {cs rest : List Char}
    (items : readItems fuel cs = some (vs, rest)) :
    readValue (fuel + 1) ('[' :: cs) = some (.array vs, rest) := by
  rw [← readItems_skipSpace] at items
  rw [readValue, skipSpace_cons (by decide)]
  simp only [↓Char.isValue, Char.reduceEq, ↓reduceIte]
  split
  · rename_i close
    rw [close, readItems_close] at items
    cases items
  · simp [items]

lemma readValue_object {fuel : Nat} {fs : List (Option String × Json)} {cs rest : List Char}
    (fields : readFields fuel cs = some (fs, rest)) :
    readValue (fuel + 1) ('\x7b' :: cs) = some (.object fs, rest) := by
  rw [← readFields_skipSpace] at fields
  rw [readValue, skipSpace_cons (by decide)]
  simp only [↓Char.isValue, Char.reduceEq, ↓reduceIte]
  split
  · rename_i close
    rw [close, readFields_close] at fields
    cases fields
  · simp [fields]

section
variable {fuel : Nat} {v : Json} {cs ds es rest : List Char}
  (value : readValue fuel cs = some (v, ds))

include value

lemma readItems_last (close : skipSpace ds = ']' :: rest) :
    readItems (fuel + 1) cs = some ([v], rest) := by
  simp [readItems, value, close]

lemma readItems_more {vs : List Json} (comma : skipSpace ds = ',' :: es)
    (items : readItems fuel es = some (vs, rest)) :
    readItems (fuel + 1) cs = some (v :: vs, rest) := by
  simp [readItems, value, comma, items]

variable {k : String} {b₁ b₂ : List Char} (blank₁ : AllSpace b₁) (blank₂ : AllSpace b₂)

include blank₁ blank₂

lemma readFields_last (close : skipSpace ds = '\x7d' :: rest) :
    readFields (fuel + 1) (b₁ ++ quote k ++ b₂ ++ ':' :: cs) = some ([(some k, v)], rest) := by
  have colon : skipSpace (b₂ ++ ':' :: cs) = ':' :: cs :=
    skipSpace_append_cons blank₂ (by decide) cs
  rw [List.append_assoc, List.append_assoc, quote_append, readFields,
    skipSpace_append_cons blank₁ (by decide)]
  simp [readString_quote, colon, value, close]

lemma readFields_more {fs : List (Option String × Json)} (comma : skipSpace ds = ',' :: es)
    (fields : readFields fuel es = some (fs, rest)) :
    readFields (fuel + 1) (b₁ ++ quote k ++ b₂ ++ ':' :: cs) =
      some ((some k, v) :: fs, rest) := by
  have colon : skipSpace (b₂ ++ ':' :: cs) = ':' :: cs :=
    skipSpace_append_cons blank₂ (by decide) cs
  rw [List.append_assoc, List.append_assoc, quote_append, readFields,
    skipSpace_append_cons blank₁ (by decide)]
  simp [readString_quote, colon, value, comma, fields]

end

/-- What is read where a layout of the part stands. -/
def Reads (fuel : Nat) (cs rest : List Char) : Part → Prop
  | .value v => readValue fuel cs = some (v, rest)
  | .items vs => readItems fuel cs = some (vs, rest)
  | .fields fs => readFields fuel cs = some (fs, rest)

lemma endsNumber_mark {b : List Char} (blank : AllSpace b) {c : Char}
    (mark : c = ',' ∨ c = ']' ∨ c = '\x7d') (rest : List Char) : EndsNumber (b ++ c :: rest) := by
  cases b with
  | nil => rcases mark with rfl | rfl | rfl <;> exact endsNumber_cons (by decide) rest
  | cons d b =>
    have space : ((d = ' ' ∨ d = '\n') ∨ d = '\t') ∨ d = '\r' := by
      simpa [isSpace] using blank d List.mem_cons_self
    rcases space with ((rfl | rfl) | rfl) | rfl <;> exact endsNumber_cons (by decide) _

/-- **A layout of a part is read as the part**, with two steps for each character of the text. The
induction follows the layout. -/
theorem Layout.reads {part : Part} {cs : List Char} (h : Layout part cs) {fuel : Nat}
    (enough : 2 * cs.length ≤ fuel) {rest : List Char} (ends : EndsNumber rest) :
    Reads (fuel + 1) (cs ++ rest) rest part := by
  induction h generalizing fuel rest with
  | null => exact readValue_null fuel rest
  | bool b => exact readValue_bool fuel b rest
  | number spelled => exact readValue_number fuel spelled ends
  | text s => exact readValue_text fuel s rest
  | noItems blank =>
    rw [List.cons_append, List.append_assoc]
    exact readValue_noItems fuel (skipSpace_append_cons blank (by decide) rest)
  | noFields blank =>
    rw [List.cons_append, List.append_assoc]
    exact readValue_noFields fuel (skipSpace_append_cons blank (by decide) rest)
  | space blank value ih =>
    rw [List.length_cons] at enough
    have read : Reads (fuel + 1) _ rest (.value _) := ih (by omega) ends
    rw [Reads, ← readValue_skipSpace] at read ⊢
    rwa [List.cons_append, skipSpace_cons_of_space blank]
  | array items ih =>
    rw [List.length_cons] at enough
    obtain ⟨fuel, rfl⟩ : ∃ f, fuel = f + 1 := ⟨fuel - 1, by omega⟩
    exact readValue_array (ih (by omega) ends)
  | object fields ih =>
    rw [List.length_cons] at enough
    obtain ⟨fuel, rfl⟩ : ∃ f, fuel = f + 1 := ⟨fuel - 1, by omega⟩
    exact readValue_object (ih (by omega) ends)
  | lastItem value blank ih =>
    simp only [List.length_append, List.length_cons] at enough
    obtain ⟨fuel, rfl⟩ : ∃ f, fuel = f + 1 := ⟨fuel - 1, by omega⟩
    rw [List.append_assoc, List.append_assoc]
    exact readItems_last (ih (by omega) (endsNumber_mark blank (by simp) rest))
      (skipSpace_append_cons blank (by decide) rest)
  | item value blank items ih ih' =>
    simp only [List.length_append, List.length_cons] at enough
    obtain ⟨fuel, rfl⟩ : ∃ f, fuel = f + 1 := ⟨fuel - 1, by omega⟩
    rw [List.append_assoc, List.append_assoc]
    exact readItems_more (ih (by omega) (endsNumber_mark blank (by simp) _))
      (skipSpace_append_cons blank (by decide) _) (ih' (by omega) ends)
  | lastField blank₁ blank₂ value blank₃ ih =>
    simp only [List.length_append, List.length_cons] at enough
    obtain ⟨fuel, rfl⟩ : ∃ f, fuel = f + 1 := ⟨fuel - 1, by omega⟩
    rw [List.append_assoc, List.append_assoc, List.append_assoc]
    exact readFields_last (ih (by omega) (endsNumber_mark blank₃ (by simp) rest)) blank₁ blank₂
      (skipSpace_append_cons blank₃ (by decide) rest)
  | field blank₁ blank₂ value blank₃ fields ih ih' =>
    simp only [List.length_append, List.length_cons] at enough
    obtain ⟨fuel, rfl⟩ : ∃ f, fuel = f + 1 := ⟨fuel - 1, by omega⟩
    rw [List.append_assoc, List.append_assoc, List.append_assoc]
    exact readFields_more (ih (by omega) (endsNumber_mark blank₃ (by simp) _)) blank₁ blank₂
      (skipSpace_append_cons blank₃ (by decide) _) (ih' (by omega) ends)

end FeatureBatch.Json
