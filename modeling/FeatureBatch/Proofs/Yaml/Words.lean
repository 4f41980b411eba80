import FeatureBatch.Proofs.Yaml.Reads

/-!
The words of a written mapping. A scalar is one word, whatever its spelling; a key is read with its
colon, after a question mark if it is no simple one; and so the lines of a mapping are read as its
fields, one after the other.
-/

namespace FeatureBatch.Yaml

/-! ### Scalars as words -/

lemma Spelling.startsWord {indent : Nat} {cs written : List Char} {style : ScalarStyle}
    (h : Spelling indent cs style written) (rest : List Char) : StartsWord (written ++ rest) := by
  cases h with
  | plain h =>
    obtain ⟨c, cs, rfl⟩ := List.exists_cons_of_ne_nil h.filled
    rintro d ⟨⟩
    obtain ⟨noBlank, noMark, -, -⟩ := h.first_spec
    exact ⟨noBlank, h.line c List.mem_cons_self, noMark '#' (by decide),
      ne_of_isPrintable (h.printable c List.mem_cons_self)⟩
  | _ =>
    rintro d ⟨⟩
    decide

namespace Scan

lemma isIndicator_cases {c : Char} (h : isIndicator c = true) :
    c ∈ marks ∨ c = '?' ∨ c = ':' ∨ c = '-' := by
  have all : "-?:,[]\x7b\x7d#&*!|>\x27\"%@\x60".toList.all
      (fun d => decide (d ∈ marks ∨ d = '?' ∨ d = ':' ∨ d = '-')) = true := by decide
  exact of_decide_eq_true (List.all_eq_true.mp all c (List.contains_iff_mem.mp h))

lemma beginsPlain_of_noMark {c : Char} {rest : List Char} (solid : isBreak c = false)
    (noBlank : isBlank c = false) (noMark : ∀ d ∈ marks, c ≠ d)
    (gapAfter : (c = '?' ∨ c = ':' ∨ c = '-') → atGap rest = false) :
    beginsPlain false c rest = true := by
  by_cases special : c = '?' ∨ c = ':' ∨ c = '-'
  · have noGap := gapAfter special
    have next : rest.head?.any isBlank = false := by
      cases rest with
      | nil => cases noGap
      | cons d rest =>
        simp only [atGap, Bool.or_eq_false_iff] at noGap
        exact noGap.1
    rcases special with rfl | rfl | rfl <;> simp [beginsPlain, noGap, next]
  · have plain : isIndicator c = false := by
      cases indicator : isIndicator c with
      | false => rfl
      | true =>
        rcases isIndicator_cases indicator with mark | other
        · exact absurd rfl (noMark c mark)
        · exact absurd other special
    simp [beginsPlain, solid, noBlank, plain]

lemma readWord_plain {s : Scan} {cs rest : List Char} (h : IsPlain cs) (here : s.rest = cs ++ rest)
    (noFlow : s.outerPlaces = []) (after : rest.head? ≠ some '-' ∧ rest.head? ≠ some '.') :
    s.readWord = s.readPlainWord := by
  obtain ⟨c, cs, rfl⟩ := List.exists_cons_of_ne_nil h.filled
  have mark := h.not_atDocumentMark after
  obtain ⟨noBlank, noMark, gapAfter, -⟩ := h.first_spec
  have gapAfter : (c = '?' ∨ c = ':' ∨ c = '-') → atGap (cs ++ rest) = false := by
    intro special
    have noGap := gapAfter special
    rw [atGap_append, if_neg, noGap]
    rintro rfl
    cases noGap
  rw [List.cons_append] at mark here
  rw [atDocumentMark, Bool.or_eq_false_iff] at mark
  have begins := beginsPlain_of_noMark (h.line c List.mem_cons_self) noBlank noMark gapAfter
  have inFlow : s.inFlow = false := by simp [inFlow, noFlow]
  have sign (d : Char) (special : d = '?' ∨ d = ':' ∨ d = '-') :
      (decide (c = d) && atGap (cs ++ rest)) = false := by
    rw [Bool.and_eq_false_iff, decide_eq_false_iff_not]
    by_cases same : c = d
    · exact .inr (gapAfter (same ▸ special))
    · exact .inl same
  rw [readWord]
  simp only [here, inFlow, Bool.false_or, mark.1, mark.2, Bool.and_false, Bool.false_eq_true,
    if_false, noMark '%' (by decide), noMark '[' (by decide), noMark '\x7b' (by decide),
    noMark ']' (by decide), noMark '\x7d' (by decide), noMark ',' (by decide),
    noMark '*' (by decide), noMark '&' (by decide), noMark '!' (by decide),
    noMark '|' (by decide), noMark '>' (by decide), noMark '\x27' (by decide),
    noMark '"' (by decide), sign '-' (by simp), sign '?' (by simp), sign ':' (by simp),
    decide_false, Bool.false_and, begins, if_true]

lemma atMark_of_ne {mark c : Char} (ne : c ≠ mark) (rest : List Char) :
    atMark mark (c :: rest) = false := by
  match rest with
  | [] => rfl
  | [b] => rfl
  | a :: b :: rest => simp [atMark, ne]

lemma readWord_quoted {s : Scan} {indent : Nat} {cs written rest : List Char} {style : ScalarStyle}
    (h : Spelling indent cs style written) (quoted : style = .single ∨ style = .double)
    (indented : 0 < indent) (here : s.rest = written ++ rest) (after : rest.head? ≠ some '\x27') :
    s.readWord = s.readKeyWord (.scalar style cs) rest (s.mark.after written) false := by
  cases h with
  | plain | literal => simp at quoted
  | single special blank line =>
    have here : s.rest =
        '\x27' :: (indentLines indent true false doubleQuote cs ++ '\x27' :: rest) := by
      simpa using here
    have word : s.readWord = s.readQuoted .single := by simp [readWord, here, atMark_of_ne]
    have read := readSingle_indentLines indented special blank line []
      (.none (m := s.mark.right 1) (Nat.succ_pos _) cs) after
    simp only [Gap.broken_none, Gap.text_none, List.append_nil, List.nil_append] at read
    have place : s.mark.after
        ('\x27' :: (indentLines indent true false doubleQuote cs ++ ['\x27'])) =
        (s.mark.right 1).after (indentLines indent true false doubleQuote cs ++ ['\x27']) :=
      Mark.after_solid (by decide) _ _
    rw [word, readQuoted, here, place]
    simp [read]
  | double =>
    have here : s.rest = '"' :: (cs.flatMap escapeChar ++ '"' :: rest) := by simpa using here
    have word : s.readWord = s.readQuoted .double := by simp [readWord, here, atMark_of_ne]
    have enough : cs.length < (cs.flatMap escapeChar ++ '"' :: rest).length + 1 := by
      have := length_le_flatMap_escapeChar cs
      rw [List.length_append]
      omega
    have read := readDouble_flatMap enough [] Gap.broken_none (m := s.mark.right 1)
      (Nat.succ_pos _) rest
    simp only [Gap.text_none, List.append_nil, List.nil_append] at read
    have place : s.mark.after ('"' :: (cs.flatMap escapeChar ++ ['"'])) =
        (s.mark.right 1).right ((cs.flatMap escapeChar).length + 1) := by
      have solid : ∀ c ∈ cs.flatMap escapeChar, isBreak c = false := fun c hc => by
        have := List.all_eq_true.mp (Spelling.all_isSolid_flatMap cs) c hc
        simpa using (Bool.and_eq_true_iff.mp this).2
      rw [Mark.after_solid (by decide), Mark.after_append, Mark.after_line solid,
        Mark.after_solid (by decide), Mark.after_nil, Mark.right_right _ _ 1]
    rw [word, readQuoted, here, place]
    simp only [List.drop_succ_cons, List.drop_zero, reduceCtorEq, if_false, read,
      Option.bind_eq_bind, Option.bind_some]

/-! ### Scalars -/

variable {m : Mark} {tokens : List Token} {columns : List Nat} {keyAllowed : Bool}
  {words : List Token} {rest : List Char}

lemma readKeyWord_outside (rest : List Char) (tokens : List Token) (keyAllowed : Bool)
    (word : Token) (rest' : List Char) (m' : Mark) (allowed : Bool)
    (right : columns.head? ≠ some m.column) :
    ∃ place, (outside rest m tokens columns keyAllowed).readKeyWord word rest' m' allowed =
        some ⟨rest', m', tokens ++ [word], columns, allowed, place, []⟩ ∧
      ∀ p ∈ place, p.required = false ∧ p.mark.line = m.line := by
  cases keyAllowed with
  | true =>
    refine ⟨some ⟨false, tokens.length, m⟩, ?_, by simp⟩
    simp [readKeyWord, savePlace, outside, dropPlace, inFlow, right, push]
  | false =>
    refine ⟨none, ?_, by simp⟩
    simp [readKeyWord, savePlace, outside, push]

lemma columns_left {outer : Nat} (inner : columns.head? = some outer) (right : outer < m.column) :
    (∀ c ∈ columns.head?, c ≤ m.column) ∧ columns.head? ≠ some m.column := by
  rw [inner]
  refine ⟨?_, by simpa using Nat.ne_of_lt right⟩
  rintro c ⟨⟩
  exact Nat.le_of_lt right

lemma reads_quoted {outer : Nat} {cs written : List Char} {style : ScalarStyle}
    (h : Spelling (outer + 2) cs style written) (quoted : style = .single ∨ style = .double)
    (inner : columns.head? = some outer) (right : outer < m.column)
    (next : Onward outer rest (tokens ++ [.scalar style cs]) columns words) :
    Reads (outside (written ++ '\n' :: rest) m tokens columns keyAllowed) words := by
  obtain ⟨within, ne⟩ := columns_left inner right
  obtain ⟨place, kept, optional⟩ := readKeyWord_outside (written ++ '\n' :: rest) tokens keyAllowed
    (.scalar style cs) ('\n' :: rest) (m.after written) false ne
  have here : (outside (written ++ '\n' :: rest) m tokens columns keyAllowed).rest =
      written ++ '\n' :: rest := rfl
  have read := readWord_quoted h quoted (Nat.succ_pos _) here (by simp)
  have filled := List.length_pos_of_ne_nil h.ne_nil
  refine reads_of_readWord (h.startsWord _) (by simp [outside]) dropStale_outside within
    (read.trans kept) (by simp [outside, filled]) (reads_lineFeed next fun p hp => ?_)
  obtain ⟨notRequired, same⟩ := optional p hp
  exact ⟨notRequired, same ▸ Mark.line_le_after m written⟩

lemma reads_plain {outer : Nat} {cs : List Char} (h : IsPlain cs)
    (inner : columns.head? = some outer) (right : outer < m.column)
    (next : Onward outer rest (tokens ++ [.scalar .plain cs]) columns words) :
    Reads (outside (cs ++ '\n' :: rest) m tokens columns keyAllowed) words := by
  obtain ⟨within, ne⟩ := columns_left inner right
  obtain ⟨k, tail, rfl, le, startsTail, read⟩ := next
  have spelling : Spelling (outer + 2) cs .plain cs := .plain h
  have starts := spelling.startsWord ('\n' :: (spaces k ++ tail))
  obtain ⟨place, kept, optional⟩ := readKeyWord_outside (cs ++ '\n' :: (spaces k ++ tail)) tokens
    keyAllowed (.scalar .plain cs) tail (((m.right cs.length).down 1).right k) true ne
  have text : readPlain false (outer + 1) [] .none true m (cs ++ '\n' :: (spaces k ++ tail)) =
      some ⟨cs, tail, ((m.right cs.length).down 1).right k, true⟩ := by
    rw [h.readPlain (by simp), readPlain_lineEnd startsTail (Nat.lt_succ_of_le le)]
  have word : (outside (cs ++ '\n' :: (spaces k ++ tail)) m tokens columns keyAllowed).readWord =
      some ⟨tail, ((m.right cs.length).down 1).right k, tokens ++ [.scalar .plain cs], columns,
        true, place, []⟩ := by
    rw [readWord_plain h rfl rfl (by simp), readPlainWord]
    simp only [outside, inFlow, List.isEmpty_nil, Bool.not_true, inner, text, Option.bind_eq_bind,
      Option.bind_some]
    exact kept
  refine reads_of_readWord starts (by simp [outside]) dropStale_outside within word
    (by simp [outside]; omega) (reads_later startsTail (fun p hp => ?_) (read _ (by simp)))
  obtain ⟨notRequired, same⟩ := optional p hp
  exact ⟨notRequired, same ▸ Nat.lt_succ_self _⟩

lemma reads_literal {outer : Nat} {cs : List Char} (filled : cs ≠ []) (special : isSpecial cs = false)
    (inner : columns.head? = some outer) (right : outer < m.column)
    (next : Onward outer rest (tokens ++ [.scalar .literal cs]) columns words) :
    Reads (outside ('|' :: (blockHints cs ++ '\n' :: (blockLines (outer + 2) true cs ++
      (closing cs ++ rest)))) m tokens columns keyAllowed) words := by
  obtain ⟨k, tail, rfl, le, startsTail, read⟩ := next
  have less : k < outer + 2 := Nat.lt_of_le_of_lt le (Nat.lt_add_of_pos_right (by decide))
  obtain ⟨m', text, column⟩ := readBlock_blockLines filled (isPrintable_of_isSpecial special) less
    startsTail (m.right 1)
  have lines (text : List Char) : (outside ('|' :: text) m tokens columns keyAllowed).readWord =
      (outside ('|' :: text) m tokens columns keyAllowed).readLines .literal := by
    simp [readWord, outside, inFlow, atMark_of_ne]
  have word : (outside ('|' :: (blockHints cs ++ '\n' :: (blockLines (outer + 2) true cs ++
      (closing cs ++ (spaces k ++ tail))))) m tokens columns keyAllowed).readWord =
      some (outside tail m' (tokens ++ [.scalar .literal cs]) columns true) := by
    rw [lines, readLines]
    simp only [dropPlace, outside, Option.any_none, Bool.false_eq_true, if_false,
      Option.bind_eq_bind, Option.bind_some, inner, List.drop_succ_cons, List.drop_zero,
      decide_true, text]
    rfl
  exact reads_of_readWord (by rintro c ⟨⟩; decide) (List.cons_ne_nil _ _) dropStale_outside
    (columns_left inner right).1 word (by simp [outside]; omega) (read m' column)

lemma reads_scalar {outer : Nat} {cs written : List Char} {style : ScalarStyle}
    (h : Spelling (outer + 2) cs style written) (inner : columns.head? = some outer)
    (right : outer < m.column)
    (next : Onward outer rest (tokens ++ [.scalar style cs]) columns words) :
    Reads (outside (written ++ (lineEnd cs style ++ rest)) m tokens columns keyAllowed) words := by
  cases h with
  | plain plain => exact reads_plain plain inner right next
  | single special blank line =>
    exact reads_quoted (.single special blank line) (.inl rfl) inner right next
  | double => exact reads_quoted .double (.inr rfl) inner right next
  | literal filled special =>
    rw [List.cons_append, List.append_assoc, List.cons_append]
    exact reads_literal filled special inner right next

/-! ### Keys -/

/-- What opens a mapping at a column, unless one is open there. -/
def opening (columns : List Nat) (column : Nat) : List Token :=
  if columns.head?.all (· < column) then [.blockMapping] else []

def opened (columns : List Nat) (column : Nat) : List Nat :=
  if columns.head?.all (· < column) then column :: columns else columns

lemma head?_opened {column : Nat} (within : ∀ c ∈ columns.head?, c ≤ column) :
    (opened columns column).head? = some column := by
  unfold opened
  split_ifs with new
  · rfl
  · cases columns with
    | nil => simp at new
    | cons c columns =>
      have le : c ≤ column := within c rfl
      have ge : column ≤ c := by simpa using new
      exact congrArg some (Nat.le_antisymm le ge)

lemma opened_of_head? {column : Nat} (h : columns.head? = some column) :
    opening columns column = [] ∧ opened columns column = columns := by
  simp [opening, opened, h]

lemma openBlock_outside (column : Nat) :
    (outside rest m tokens columns keyAllowed).openBlock column tokens.length .blockMapping =
      outside rest m (tokens ++ opening columns column) (opened columns column) keyAllowed := by
  unfold openBlock opening opened outside
  split_ifs <;> simp_all [inFlow, insert]

lemma readWord_colon {s : Scan} (here : s.rest = ':' :: rest) (gap : atGap rest = true) :
    s.readWord = s.readValue := by
  simp [readWord, here, atMark_of_ne, gap]

lemma readWord_beforeColon {s : Scan} {indent : Nat} {cs written : List Char} {style : ScalarStyle}
    (h : Spelling indent cs style written) (inline : style ≠ .literal) (indented : 0 < indent)
    (line : ∀ c ∈ written, isBreak c = false) (gap : atGap rest = true)
    (here : s.rest = written ++ ':' :: rest) (noFlow : s.outerPlaces = []) :
    s.readWord =
      s.readKeyWord (.scalar style cs) (':' :: rest) (s.mark.right written.length) false := by
  have quoted (q : style = .single ∨ style = .double) : s.readWord =
      s.readKeyWord (.scalar style cs) (':' :: rest) (s.mark.right written.length) false := by
    rw [readWord_quoted h q indented here (by simp), Mark.after_line line]
  cases h with
  | single => exact quoted (.inl rfl)
  | double => exact quoted (.inr rfl)
  | literal => contradiction
  | plain h =>
    have inFlow : s.inFlow = false := by simp [inFlow, noFlow]
    have read (least : Nat) : readPlain false least [] .none true s.mark (cs ++ ':' :: rest) =
        some ⟨cs, ':' :: rest, s.mark.right cs.length, false⟩ := by
      rw [h.readPlain (by simp), readPlain_colon gap]
    rw [readWord_plain h here noFlow (by simp), readPlainWord]
    simp only [inFlow, here, read, Option.bind_eq_bind, Option.bind_some]

lemma reads_simpleKey {indent : Nat} {cs written : List Char} {style : ScalarStyle}
    (h : Spelling indent cs style written) (simple : isSimpleKey cs = true)
    (inline : style ≠ .literal) (indented : 0 < indent) (gap : atGap rest = true)
    (within : ∀ c ∈ columns.head?, c ≤ m.column)
    (next : ∀ m' allowed, m.column < m'.column →
      Reads (outside rest m' (tokens ++ opening columns m.column ++ [.key, .scalar style cs, .value])
        (opened columns m.column) allowed) words) :
    Reads (outside (written ++ ':' :: rest) m tokens columns true) words := by
  obtain ⟨short, line⟩ := h.simple simple inline
  have starts := h.startsWord (':' :: rest)
  have filled : 0 < written.length := List.length_pos_of_ne_nil h.ne_nil
  set place : KeyPlace := ⟨decide (columns.head? = some m.column), tokens.length, m⟩ with hplace
  set s : Scan := ⟨':' :: rest, m.right written.length, tokens ++ [.scalar style cs], columns, false,
    some place, []⟩ with hs
  have kept : (outside (written ++ ':' :: rest) m tokens columns true).readKeyWord
      (.scalar style cs) (':' :: rest) (m.right written.length) false = some s := by
    simp [readKeyWord, savePlace, outside, dropPlace, inFlow, push, hs, hplace]
  have word : (outside (written ++ ':' :: rest) m tokens columns true).readWord = some s :=
    (readWord_beforeColon h inline indented line gap rfl rfl).trans kept
  have fresh : s.dropStale = some s := by
    have near : ¬ m.index + 1024 < m.index + written.length := by omega
    simp [dropStale, freshPlace, isStale, hs, hplace, near]
  have value : s.readValue = some (outside rest (m.right (written.length + 1))
      (tokens ++ opening columns m.column ++ [.key, .scalar style cs, .value])
      (opened columns m.column) false) := by
    unfold opening opened
    simp only [readValue, hs, hplace]
    by_cases new : columns.head?.all (· < m.column) <;>
      simp [insert, openBlock, inFlow, outside, push, advance, new]
  refine reads_of_readWord starts (by simp [outside]) dropStale_outside within word
    (by simp [hs, outside, filled]) (reads_of_readWord (s := s) (by rintro c ⟨⟩; decide)
      (by simp [hs]) fresh (fun c hc => Nat.le_trans (within c hc) (Nat.le_add_right _ _))
      ((readWord_colon rfl gap).trans value) (Nat.lt_succ_self _)
      (next _ _ (Nat.lt_add_of_pos_right (Nat.succ_pos _))))

lemma reads_colon (inner : columns.head? = some m.column) (gap : atGap rest = true)
    (next : Reads (outside rest (m.right 1) (tokens ++ [.value]) columns true) words) :
    Reads (outside (':' :: rest) m tokens columns true) words := by
  have read : (outside (':' :: rest) m tokens columns true).readValue =
      some (outside rest (m.right 1) (tokens ++ [.value]) columns true) := by
    obtain ⟨noBlock, same⟩ := opened_of_head? inner
    have block : (outside (':' :: rest) m tokens columns true).openBlock m.column tokens.length
        .blockMapping = outside (':' :: rest) m tokens columns true := by
      rw [openBlock_outside, noBlock, same, List.append_nil]
    simp only [readValue, outside, inFlow, List.isEmpty_nil, Bool.not_true, Bool.and_false,
      Bool.false_eq_true, if_false] at block ⊢
    rw [block]
    rfl
  refine reads_of_readWord (by rintro c ⟨⟩; decide) (List.cons_ne_nil _ _) dropStale_outside
    (fun c hc => ?_) ((readWord_colon rfl gap).trans read) (Nat.lt_succ_self _) next
  obtain rfl : m.column = c := Option.some.inj (inner.symm.trans hc)
  exact Nat.le_refl _

lemma reads_question (within : ∀ c ∈ columns.head?, c ≤ m.column) (starts : StartsWord rest)
    (next : Reads (outside rest (m.right 2) (tokens ++ opening columns m.column ++ [.key])
      (opened columns m.column) true) words) :
    Reads (outside ('?' :: ' ' :: rest) m tokens columns true) words := by
  have word : (outside ('?' :: ' ' :: rest) m tokens columns true).readWord =
      (outside ('?' :: ' ' :: rest) m tokens columns true).readKey := by
    simp [readWord, outside, atMark_of_ne, atGap, isBlank]
  have read : (outside ('?' :: ' ' :: rest) m tokens columns true).readKey =
      some (outside (' ' :: rest) (m.right 1) (tokens ++ opening columns m.column ++ [.key])
        (opened columns m.column) true) := by
    have key : (outside ('?' :: ' ' :: rest) m tokens columns true).readKey =
        ((outside ('?' :: ' ' :: rest) m tokens columns true).openBlock m.column tokens.length
          .blockMapping).dropPlace.bind fun s =>
            some { (s.push .key).advance 1 with keyAllowed := !s.inFlow } := rfl
    rw [key, openBlock_outside]
    rfl
  refine reads_of_readWord (by rintro c ⟨⟩; decide) (List.cons_ne_nil _ _) dropStale_outside within
    (word.trans read) (Nat.lt_succ_self _) (reads_space starts ?_)
  rwa [Mark.right_right]

/-- The word that a text is as a key. -/
def keyWord (cs : List Char) : Token := .scalar (styleOf cs) cs

lemma styleOf_ne_literal {cs : List Char} (simple : isSimpleKey cs = true) :
    styleOf cs ≠ .literal := by
  have noFeed : cs.contains '\n' = false := by
    simp only [isSimpleKey, isMultiline, Bool.and_eq_true, Bool.not_eq_true', List.any_eq_false]
      at simple
    cases feed : cs.contains '\n' with
    | false => rfl
    | true => exact absurd (by decide) (simple.1 '\n' (List.contains_iff_mem.mp feed))
  unfold styleOf
  rw [noFeed]
  split_ifs <;> simp_all

/-- **A key is read with its colon**, and opens a mapping unless it goes on with one. -/
lemma onward_key {column : Nat} {cs : List Char} (within : ∀ c ∈ columns.head?, c ≤ column)
    (gap : atGap rest = true)
    (next : ∀ m allowed, column < m.column →
      Reads (outside rest m (tokens ++ opening columns column ++ [.key, keyWord cs, .value])
        (opened columns column) allowed) words) :
    Onward column (renderKey column cs ++ rest) tokens columns words := by
  have spelling := spelling_renderText (column + 2) cs
  unfold renderKey
  split_ifs with simple
  · refine ⟨column, renderText (column + 2) cs ++ ':' :: rest, by simp, Nat.le_refl _,
      spelling.startsWord _, fun m hm => ?_⟩
    subst hm
    exact reads_simpleKey spelling simple (styleOf_ne_literal simple) (Nat.succ_pos _) gap within
      next
  · have written : endLine (spaces column ++ '?' :: ' ' :: renderText (column + 2) cs) ++
        spaces column ++ [':'] ++ rest = spaces column ++ ('?' :: ' ' :: (renderText (column + 2) cs ++
          (lineEnd cs (styleOf cs) ++ (spaces column ++ ':' :: rest)))) := by
      have line : endLine (spaces column ++ '?' :: ' ' :: renderText (column + 2) cs) =
          (spaces column ++ ['?', ' ']) ++ endLine (renderText (column + 2) cs) := by
        rw [← endLine_append spelling.ne_nil]
        simp
      rw [line, spelling.endLine_eq]
      simp
    rw [written]
    refine ⟨column, _, rfl, Nat.le_refl _, by rintro c ⟨⟩; decide, fun m hm => ?_⟩
    subst hm
    have inner := head?_opened within
    have value : Onward m.column (spaces m.column ++ ':' :: rest)
        (tokens ++ opening columns m.column ++ [.key] ++ [keyWord cs]) (opened columns m.column)
        words := by
      refine ⟨m.column, _, rfl, Nat.le_refl _, by rintro c ⟨⟩; decide, fun m' hm' => ?_⟩
      refine reads_colon (hm' ▸ inner) gap ?_
      have read := next (m'.right 1) true (by simp [hm'])
      simpa using read
    exact reads_question within (spelling.startsWord _)
      (reads_scalar spelling inner (Nat.lt_add_of_pos_right (by decide)) value)

end Scan

end FeatureBatch.Yaml
