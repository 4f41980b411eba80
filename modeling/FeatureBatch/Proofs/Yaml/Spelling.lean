import FeatureBatch.Proofs.Number.Decimal
import FeatureBatch.Proofs.Yaml.Block
import FeatureBatch.Proofs.Yaml.Quoted

/-!
How scalars are spelled. Every scalar that is written has one of four spellings, of which plain ones
and quoted ones end with no break; all that is written is printable, and a key that is followed by
its colon is short.
-/

namespace FeatureBatch.Yaml

/-- The spellings of a text in something that is indented by two less than `indent`. -/
inductive Spelling (indent : Nat) (cs : List Char) : ScalarStyle → List Char → Prop
  | plain (h : IsPlain cs) : Spelling indent cs .plain cs
  | single (special : isSpecial cs = false) (blank : hasBlankAfterBreak cs = false)
      (line : '\n' ∉ cs) :
      Spelling indent cs .single
        ('\x27' :: (indentLines indent true false doubleQuote cs ++ ['\x27']))
  | double : Spelling indent cs .double ('"' :: (cs.flatMap escapeChar ++ ['"']))
  | literal (filled : cs ≠ []) (special : isSpecial cs = false) :
      Spelling indent cs .literal ('|' :: (blockHints cs ++ '\n' :: blockLines indent true cs))

/-! ### What is written -/

/-- How a scalar is spelled, and its text. -/
def Scalar.style : Scalar → ScalarStyle
  | .text s => styleOf s.toList
  | _ => .plain

def Scalar.chars : Scalar → List Char
  | .null => "null".toList
  | .bool true => "true".toList
  | .bool false => "false".toList
  | .word n => Decimal.digits n.toNat
  | .text s => s.toList

lemma styleOf_eq_plain {cs : List Char} (h : styleOf cs = .plain) :
    isTyped cs = false ∧ plainAllowed cs = true := by
  unfold styleOf at h
  split_ifs at h with feed block plain
  simpa using plain

lemma spelling_renderText (indent : Nat) (cs : List Char) :
    Spelling indent cs (styleOf cs) (renderText indent cs) := by
  have plain (h : styleOf cs = .plain) : Spelling indent cs .plain cs := by
    obtain ⟨untyped, allowed⟩ := styleOf_eq_plain h
    refine .plain (isPlain_of_plainAllowed ?_ allowed)
    rintro rfl
    exact absurd untyped (by decide)
  unfold renderText
  cases style : styleOf cs with
  | plain => exact plain style
  | single =>
    unfold styleOf at style
    split_ifs at style with feed block plain single
    simp only [singleAllowed, Bool.and_eq_true, Bool.not_eq_true'] at single
    exact .single single.1 single.2 (by simpa using feed)
  | double => exact .double
  | literal =>
    unfold styleOf at style
    split_ifs at style with feed block
    simp only [blockAllowed, Bool.and_eq_true, Bool.not_eq_true'] at block
    refine .literal ?_ block.1
    rintro rfl
    simp at feed
  | folded =>
    unfold styleOf at style
    split_ifs at style

lemma spelling_renderScalar (indent : Nat) (v : Scalar) :
    Spelling indent v.chars v.style (renderScalar indent v) := by
  cases v with
  | null => exact .plain (isPlain_of_plainAllowed (by decide) (by decide))
  | bool b => cases b <;> exact .plain (isPlain_of_plainAllowed (by decide) (by decide))
  | word n =>
    exact .plain (isPlain_of_isDigit (Decimal.digits_ne_nil _) fun _ =>
      Decimal.isDigit_of_mem_digits)
  | text s => exact spelling_renderText indent s.toList

/-! ### Ends of lines -/

lemma endLine_append {ds : List Char} (filled : ds ≠ []) (cs : List Char) :
    endLine (cs ++ ds) = cs ++ endLine ds := by
  rw [endLine, endLine, List.getLast?_append_of_ne_nil _ filled]
  split_ifs <;> simp

lemma endLine_solid {cs : List Char} {c : Char} (last : cs.getLast? = some c)
    (solid : isBreak c = false) : endLine cs = cs ++ ['\n'] := by
  simp [endLine, last, solid]

lemma getLast?_blockLines {indent : Nat} {afterBreak : Bool} {cs : List Char} (filled : cs ≠ []) :
    (blockLines indent afterBreak cs).getLast? = cs.getLast? := by
  induction cs generalizing afterBreak with
  | nil => contradiction
  | cons c cs ih =>
    by_cases more : cs = []
    · subst more
      unfold blockLines
      rw [indentLines]
      split <;> simp [indentLines]
    · have nonempty (b : Bool) : blockLines indent b cs ≠ [] := by
        refine List.ne_nil_of_length_pos ?_
        exact Nat.lt_of_lt_of_le (List.length_pos_of_ne_nil more) (length_le_blockLines _ cs)
      have step : ∃ lead b, blockLines indent afterBreak (c :: cs) =
          lead ++ blockLines indent b cs := by
        unfold blockLines
        rw [indentLines]
        split
        · exact ⟨[c], true, by simp⟩
        · exact ⟨(if afterBreak then spaces indent else []) ++ [c], false, rfl⟩
      obtain ⟨lead, b, written⟩ := step
      rw [written, List.getLast?_append_of_ne_nil _ (nonempty b), ih more,
        List.getLast?_cons_of_ne_nil more]

/-- The break after a scalar, which a block may have itself. -/
def lineEnd (cs : List Char) : ScalarStyle → List Char
  | .literal => closing cs
  | _ => ['\n']

namespace Spelling

variable {indent : Nat} {cs written : List Char} {style : ScalarStyle}

lemma ne_nil (h : Spelling indent cs style written) : written ≠ [] := by
  cases h with
  | plain h => exact h.filled
  | _ => exact List.cons_ne_nil _ _

lemma endLine_eq (h : Spelling indent cs style written) :
    endLine written = written ++ lineEnd cs style := by
  have quoted (first quote : Char) (solid : isBreak quote = false) (ds : List Char) :
      endLine (first :: (ds ++ [quote])) = (first :: (ds ++ [quote])) ++ ['\n'] :=
    endLine_solid (by rw [← List.cons_append, List.getLast?_concat]) solid
  cases h with
  | plain h =>
    obtain ⟨c, last⟩ := List.getLast?_isSome.mpr h.filled |> Option.isSome_iff_exists.mp
    exact endLine_solid last (h.line c (List.mem_of_getLast? last))
  | single => exact quoted _ _ (by decide) _
  | double => exact quoted _ _ (by decide) _
  | literal filled special =>
    have last : ('|' :: (blockHints cs ++ '\n' :: blockLines indent true cs)).getLast? =
        cs.getLast? := by
      have nonempty : blockLines indent true cs ≠ [] := List.ne_nil_of_length_pos
        (Nat.lt_of_lt_of_le (List.length_pos_of_ne_nil filled) (length_le_blockLines _ cs))
      have split : '|' :: (blockHints cs ++ '\n' :: blockLines indent true cs) =
          ('|' :: blockHints cs ++ ['\n']) ++ blockLines indent true cs := by simp
      rw [split, List.getLast?_append_of_ne_nil _ nonempty, getLast?_blockLines filled]
    rw [endLine, last, lineEnd, closing]
    split_ifs <;> simp

/-! ### Printable characters -/

lemma all_isPrintable_spaces (n : Nat) : (spaces n).all Yaml.isPrintable = true := by
  rw [List.all_eq_true]
  intro c hc
  rw [List.eq_of_mem_replicate hc]
  decide

/-- A printable character that ends no line. -/
def isSolid (c : Char) : Bool := Yaml.isPrintable c && !isBreak c

lemma all_isSolid_capitals (width n : Nat) : (Hexadecimal.capitals width n).all isSolid = true := by
  induction width generalizing n with
  | zero => rfl
  | succ width ih =>
    have digit : ∀ k < 16, isSolid (Hexadecimal.capital k) = true := by decide
    simp [Hexadecimal.capitals, ih, digit, Nat.mod_lt]

lemma all_isSolid_escapeChar (c : Char) : (escapeChar c).all isSolid = true := by
  have signs : isSolid '\\' = true ∧ isSolid 'x' = true ∧ isSolid 'u' = true ∧
      isSolid 'U' = true := by decide
  unfold escapeChar
  cases letter : escapeLetter c with
  | some e =>
    obtain ⟨-, -, solid, printable⟩ := escapeLetter_spec letter
    have here : isSolid e = true := by simp [isSolid, solid, printable]
    simp only [List.all_cons, List.all_nil, signs, here, Bool.and_self]
  | none =>
    dsimp only
    split_ifs with printable
    · simp [isSolid, printable, solid_of_escapeLetter letter printable]
    all_goals simp only [List.all_cons, signs, all_isSolid_capitals, Bool.and_self]

lemma all_isSolid_flatMap (cs : List Char) : (cs.flatMap escapeChar).all isSolid = true := by
  simp [List.all_flatMap, all_isSolid_escapeChar]

lemma all_isPrintable_indentLines (indent : Nat) (closed afterBreak : Bool)
    {write : Char → List Char}
    (h : ∀ c ∈ cs, Yaml.isPrintable c = true ∧ (write c).all Yaml.isPrintable = true) :
    (indentLines indent closed afterBreak write cs).all Yaml.isPrintable = true := by
  have feed : Yaml.isPrintable '\n' = true := by decide
  have space := all_isPrintable_spaces indent
  induction cs generalizing afterBreak with
  | nil =>
    rw [indentLines]
    split_ifs
    · exact space
    · rfl
  | cons c cs ih =>
    obtain ⟨printable, written⟩ := h c List.mem_cons_self
    have rest (b : Bool) := ih b fun d hd => h d (List.mem_cons_of_mem c hd)
    rw [indentLines]
    split
    · split_ifs <;> simp only [List.nil_append, List.singleton_append, List.all_cons, feed,
        printable, rest, Bool.and_self]
    · split_ifs <;> simp only [List.nil_append, List.all_append, space, written, rest,
        Bool.and_self]

lemma all_isPrintable (h : Spelling indent cs style written) :
    written.all Yaml.isPrintable = true := by
  have signs : Yaml.isPrintable '\x27' = true ∧ Yaml.isPrintable '"' = true ∧
      Yaml.isPrintable '|' = true ∧ Yaml.isPrintable '\n' = true := by decide
  cases h with
  | plain h => exact List.all_eq_true.mpr h.printable
  | single special blank line =>
    have printable := isPrintable_of_isSpecial special
    have quotes : ∀ c ∈ cs, (doubleQuote c).all Yaml.isPrintable = true := by
      intro c hc
      unfold doubleQuote
      split_ifs <;> simp [printable c hc]
    have lines := all_isPrintable_indentLines indent true false fun c hc =>
      ⟨printable c hc, quotes c hc⟩
    simp only [List.all_cons, List.all_append, List.all_nil, lines, signs, Bool.and_self]
  | double =>
    have escapes : (cs.flatMap escapeChar).all Yaml.isPrintable = true :=
      List.all_eq_true.mpr fun c hc =>
        (Bool.and_eq_true_iff.mp (List.all_eq_true.mp (all_isSolid_flatMap cs) c hc)).1
    simp only [List.all_cons, List.all_append, List.all_nil, escapes, signs, Bool.and_self]
  | literal filled special =>
    have lines : (blockLines indent true cs).all Yaml.isPrintable = true :=
      all_isPrintable_indentLines indent false true fun c hc =>
        ⟨isPrintable_of_isSpecial special c hc, by simp [isPrintable_of_isSpecial special c hc]⟩
    have hints : (blockHints cs).all Yaml.isPrintable = true := by
      rw [blockHints_eq]
      cases chompingFor cs <;> split_ifs <;> decide
    simp only [List.all_cons, List.all_append, hints, signs, lines, Bool.and_self]

/-! ### Simple keys -/

lemma length_escapeChar_le (c : Char) :
    (escapeChar c).length ≤ 4 * (String.utf8EncodeChar c).length := by
  have positive := c.utf8Size_pos
  have two (h : ¬ c.toNat ≤ 0xFF) : 2 ≤ c.utf8Size := by
    dsimp only [Char.utf8Size]
    split_ifs with one
    · have : c.toNat ≤ 0x7F := one
      omega
    all_goals decide
  have four (h : ¬ c.toNat ≤ 0xFFFF) : 4 ≤ c.utf8Size := by
    dsimp only [Char.utf8Size]
    split_ifs with one two three
    · have : c.toNat ≤ 0x7F := one
      omega
    · have : c.toNat ≤ 0x7FF := two
      omega
    · have : c.toNat ≤ 0xFFFF := three
      omega
    · exact Nat.le_refl 4
  rw [String.length_utf8EncodeChar]
  unfold escapeChar
  cases escapeLetter c with
  | some e => simp only [List.length_cons, List.length_nil]; omega
  | none =>
    dsimp only
    split_ifs with printable byte unit <;> simp only [List.length_cons, List.length_nil,
      length_capitals]
    · omega
    · omega
    · have := two byte
      omega
    · have := four unit
      omega

lemma indentLines_line {write : Char → List Char} {closed : Bool}
    (line : ∀ c ∈ cs, isBreak c = false) :
    indentLines indent closed false write cs = cs.flatMap write := by
  induction cs with
  | nil => simp [indentLines]
  | cons c cs ih =>
    rw [indentLines, line c List.mem_cons_self, List.flatMap_cons,
      ← ih fun d hd => line d (List.mem_cons_of_mem c hd)]
    rfl

lemma length_flatMap_le {α β : Type} {f : Char → List α} {g : Char → List β}
    (h : ∀ c, (f c).length ≤ 4 * (g c).length) (cs : List Char) :
    (cs.flatMap f).length ≤ 4 * (cs.flatMap g).length := by
  induction cs with
  | nil => exact Nat.zero_le _
  | cons c cs ih =>
    have first := h c
    simp only [List.flatMap_cons, List.length_append]
    omega

lemma simple (h : Spelling indent cs style written) (simple : isSimpleKey cs = true)
    (inline : style ≠ .literal) :
    written.length ≤ 514 ∧ ∀ c ∈ written, isBreak c = false := by
  simp only [isSimpleKey, isMultiline, Bool.and_eq_true, Bool.not_eq_true', List.any_eq_false,
    Bool.not_eq_true, decide_eq_true_eq] at simple
  obtain ⟨line, short⟩ := simple
  have bound {f : Char → List Char} (h : ∀ c, (f c).length ≤ 4 * (String.utf8EncodeChar c).length) :
      (cs.flatMap f).length ≤ 512 :=
    Nat.le_trans (length_flatMap_le h cs) (Nat.mul_le_mul_left 4 short)
  have positive (c : Char) : 1 ≤ (String.utf8EncodeChar c).length := by
    rw [String.length_utf8EncodeChar]
    exact c.utf8Size_pos
  have quote : isBreak '\x27' = false ∧ isBreak '"' = false := by decide
  cases h with
  | plain h =>
    have short := bound (f := fun c => [c]) fun c => by
      have := positive c
      simp only [List.length_cons, List.length_nil]
      omega
    rw [List.flatMap_singleton'] at short
    exact ⟨by omega, line⟩
  | single special blank noFeed =>
    rw [indentLines_line line]
    have short := bound (f := doubleQuote) fun c => by
      have := positive c
      unfold doubleQuote
      split_ifs <;> simp only [List.length_cons, List.length_nil] <;> omega
    refine ⟨by simp only [List.length_cons, List.length_append, List.length_nil]; omega, ?_⟩
    intro c hc
    simp only [List.mem_cons, List.mem_append, List.not_mem_nil, or_false, List.mem_flatMap] at hc
    rcases hc with rfl | ⟨d, hd, hc⟩ | rfl
    · exact quote.1
    · unfold doubleQuote at hc
      split_ifs at hc <;> simp_all
    · exact quote.1
  | double =>
    have short := bound length_escapeChar_le
    refine ⟨by simp only [List.length_cons, List.length_append, List.length_nil]; omega, ?_⟩
    intro c hc
    simp only [List.mem_cons, List.mem_append, List.not_mem_nil, or_false] at hc
    rcases hc with rfl | hc | rfl
    · exact quote.2
    · have solid := List.all_eq_true.mp (all_isSolid_flatMap cs) c hc
      simpa using (Bool.and_eq_true_iff.mp solid).2
    · exact quote.2
  | literal => exact absurd rfl inline

end Spelling

end FeatureBatch.Yaml
