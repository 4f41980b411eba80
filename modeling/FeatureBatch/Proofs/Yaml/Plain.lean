import FeatureBatch.Proofs.Yaml.Chars
import FeatureBatch.Yaml.Scan

/-!
Plain scalars. A text that may stand without quotes is read up to what ends it: the colon after a
key, or the end of the line that is followed by one less indented. It begins no other word.
-/

namespace FeatureBatch.Yaml

/-- What comes first begins a word, if there is anything. -/
def StartsWord (cs : List Char) : Prop :=
  ∀ c ∈ cs.head?, isBlank c = false ∧ isBreak c = false ∧ c ≠ '#' ∧ c ≠ '\uFEFF'

/-! ### What a text without quotes looks like -/

/-- What is known of a text that may stand without quotes. -/
structure IsPlain (cs : List Char) : Prop where
  filled : cs ≠ []
  printable : ∀ c ∈ cs, isPrintable c = true
  line : ∀ c ∈ cs, isBreak c = false
  first : cs.head? ≠ some ' '
  last : cs.getLast? ≠ some ' '
  noMark : hasMark cs = false

lemma isPlain_of_plainAllowed {cs : List Char} (filled : cs ≠ []) (h : plainAllowed cs = true) :
    IsPlain cs := by
  simp only [plainAllowed, Bool.and_eq_true, Bool.not_eq_true', hasOuterBlank, isSpecial,
    isMultiline, Bool.or_eq_false_iff, List.any_eq_false, decide_eq_false_iff_not,
    Bool.not_eq_true] at h
  obtain ⟨⟨⟨⟨first, last⟩, printable, -⟩, line⟩, noMark⟩ := h
  exact ⟨filled, fun c hc => by simpa using printable c hc, line, first, last, noMark⟩

lemma ne_of_isDigit {c d : Char} (digit : c.isDigit = true)
    (h : d.isDigit = false := by decide) : c ≠ d := by
  rintro rfl
  simp [digit] at h

lemma holdsMark_of_isDigit {cs : List Char} (digits : ∀ c ∈ cs, c.isDigit = true) (before : Char) :
    holdsMark before cs = false := by
  induction cs generalizing before with
  | nil => rfl
  | cons c cs ih =>
    have digit := digits c List.mem_cons_self
    have colon : c ≠ ':' := ne_of_isDigit digit
    have sign : c ≠ '#' := ne_of_isDigit digit
    simp [holdsMark, colon, sign, ih fun d hd => digits d (List.mem_cons_of_mem c hd)]

lemma isPlain_of_isDigit {cs : List Char} (filled : cs ≠ []) (digits : ∀ c ∈ cs, c.isDigit = true) :
    IsPlain cs where
  filled := filled
  printable c hc := by
    have digit := digits c hc
    simp only [Char.isDigit, Bool.and_eq_true, decide_eq_true_eq] at digit
    obtain ⟨low, high⟩ := digit
    have low : 48 ≤ c.toNat := low
    have high : c.toNat ≤ 57 := high
    simp only [isPrintable, Bool.or_eq_true, Bool.and_eq_true, decide_eq_true_eq]
    omega
  line c hc := by
    cases h : isBreak c with
    | false => rfl
    | true => rcases isBreak_iff.mp h with rfl | rfl | rfl | rfl | rfl <;> simpa using digits _ hc
  first h := absurd (digits ' ' (List.mem_of_head? h)) (by decide)
  last h := absurd (digits ' ' (List.mem_of_getLast? h)) (by decide)
  noMark := by
    obtain ⟨c, cs, rfl⟩ := List.exists_cons_of_ne_nil filled
    have digit := digits c List.mem_cons_self
    have holds := holdsMark_of_isDigit (fun d hd => digits d (List.mem_cons_of_mem c hd)) c
    have dash : c ≠ '-' := ne_of_isDigit digit
    have dot : c ≠ '.' := ne_of_isDigit digit
    have others (d : Char) (h : d.isDigit = false) : c ≠ d := ne_of_isDigit digit h
    simp [hasMark, beginsWithMark, holds, List.isPrefixOf, dash.symm, dot.symm, others]

/-! ### Reading -/

section

variable {least : Nat} {text : List Char} {gap : Gap} {fresh : Bool} {m : Mark} {rest : List Char}

lemma readPlain_solid {c : Char} (solid : isBreak c = false) (noBlank : isBlank c = false)
    (goes : fresh = true → c ≠ '#' ∧ gap.broken = false ∧
      (m.column = 0 → atDocumentMark (c :: rest) = false))
    (colon : c = ':' → atGap rest = false) :
    readPlain false least text gap fresh m (c :: rest) =
      readPlain false least (text ++ gap.text ++ [c]) .none false (m.right 1) rest := by
  have first : c = '\r' → False := by
    rintro rfl
    exact absurd solid (by decide)
  have ends : endsPlain false c rest = false := by
    simpa [endsPlain] using colon
  have stops : (fresh && ((gap.broken && !false && m.column < least) ||
      (m.column = 0 && atDocumentMark (c :: rest)) || c = '#')) = false := by
    cases fresh with
    | false => rfl
    | true =>
      obtain ⟨sign, broken, mark⟩ := goes rfl
      simpa [sign, broken] using mark
  rw [readPlain]
  · dsimp only
    rw [solid, noBlank, stops, ends]
    simp [wrongColon]
  · exact fun _ same _ => first same

lemma readPlain_space (broken : gap.broken = false) :
    readPlain false least text gap fresh m (' ' :: rest) =
      readPlain false least text (gap.addBlank ' ') true (m.right 1) rest := by
  rw [readPlain]
  · simp [broken, isBreak, isBlank]
  · simp

lemma readPlain_append {before : Char} {cs : List Char} (filled : cs ≠ [])
    (printable : ∀ c ∈ cs, isPrintable c = true) (line : ∀ c ∈ cs, isBreak c = false)
    (last : cs.getLast? ≠ some ' ') (noMark : holdsMark before cs = false)
    (fresh_blank : fresh = true → isBlank before = true) (broken : gap.broken = false)
    (column : 0 < m.column) :
    readPlain false least text gap fresh m (cs ++ rest) =
      readPlain false least (text ++ gap.text ++ cs) .none false (m.right cs.length) rest := by
  induction cs generalizing before text gap fresh m with
  | nil => contradiction
  | cons c cs ih =>
    have printables := fun d hd => printable d (List.mem_cons_of_mem c hd)
    have lines := fun d hd => line d (List.mem_cons_of_mem c hd)
    simp only [holdsMark, Bool.or_eq_false_iff, Bool.and_eq_false_iff, decide_eq_false_iff_not]
      at noMark
    obtain ⟨⟨colon, sign⟩, noMark⟩ := noMark
    rw [List.cons_append]
    cases blank : isBlank c with
    | true =>
      obtain rfl := eq_space_of_isPrintable (printable c List.mem_cons_self) blank
      have more : cs ≠ [] := by
        rintro rfl
        exact last rfl
      have last : cs.getLast? ≠ some ' ' := by
        rwa [List.getLast?_cons_of_ne_nil more] at last
      obtain ⟨added, broken'⟩ := Gap.text_addBlank broken ' '
      rw [readPlain_space broken, ih more printables lines last noMark (fun _ => blank) broken'
        (Nat.succ_pos _), added, Mark.right_right, List.length_cons, Nat.add_comm 1]
      simp
    | false =>
      rw [readPlain_solid (line c List.mem_cons_self) blank]
      · by_cases more : cs = []
        · subst more
          rfl
        · have last : cs.getLast? ≠ some ' ' := by
            rwa [List.getLast?_cons_of_ne_nil more] at last
          rw [ih more printables lines last noMark (by simp) rfl (Nat.succ_pos _),
            Mark.right_right, List.length_cons, Nat.add_comm 1]
          simp
      · intro isFresh
        refine ⟨?_, broken, fun zero => absurd zero (Nat.ne_of_gt column)⟩
        rintro rfl
        have gapBefore : atGap [before] = true := by simp [atGap, fresh_blank isFresh]
        simp [gapBefore] at sign
      · rintro rfl
        rw [atGap_append]
        split_ifs with none
        · subst none
          simp [atGap] at colon
        · simpa using colon

lemma readPlain_colon (gapAfter : atGap rest = true) :
    readPlain false least text .none false m (':' :: rest) =
      some ⟨text, ':' :: rest, m, false⟩ := by
  rw [readPlain]
  · simp [endsPlain, gapAfter, wrongColon, isBreak, isBlank]
  · simp

lemma readPlain_spaces (broken : gap.broken = true) (n : Nat) :
    readPlain false least text gap true m (spaces n ++ rest) =
      readPlain false least text gap true (m.right n) rest := by
  induction n generalizing m with
  | zero => rfl
  | succ n ih =>
    have step : readPlain false least text gap true m (' ' :: (spaces n ++ rest)) =
        readPlain false least text gap true (m.right 1) (spaces n ++ rest) := by
      rw [readPlain]
      · simp [broken, isBreak, isBlank, Gap.addBlank_of_broken]
      · simp
    exact step.trans (ih.trans (by rw [Mark.right_right, Nat.add_comm 1]))

lemma readPlain_lineEnd {n : Nat} {tail : List Char} (starts : StartsWord tail) (less : n < least) :
    readPlain false least text .none false m ('\n' :: (spaces n ++ tail)) =
      some ⟨text, tail, (m.down 1).right n, true⟩ := by
  have step : readPlain false least text .none false m ('\n' :: (spaces n ++ tail)) =
      readPlain false least text (Gap.none.addBreak '\n') true (m.down 1) (spaces n ++ tail) := by
    rw [readPlain]
    · simp [isBreak, breakChar]
    · simp
  rw [step, readPlain_spaces rfl]
  cases tail with
  | nil => rfl
  | cons c tail =>
    obtain ⟨noBlank, solid, sign, -⟩ := starts c rfl
    have first : c = '\r' → False := by
      rintro rfl
      exact absurd solid (by decide)
    rw [readPlain]
    · simp [solid, noBlank, less, Gap.addBreak, Gap.none]
    · exact fun _ same _ => first same

end

/-! ### The first character -/

/-- The marks that no plain scalar begins with. -/
def marks : List Char := "#,[]\x7b\x7d&*!|>\x27\"%@\x60".toList

lemma beginsWithMark_cons (c : Char) (cs : List Char) : beginsWithMark (c :: cs) =
    (marks.contains c || ((c = '?' || c = ':' || c = '-') && atGap cs)) := rfl

lemma IsPlain.first_spec {c : Char} {cs : List Char} (h : IsPlain (c :: cs)) :
    isBlank c = false ∧ (∀ d ∈ marks, c ≠ d) ∧
      ((c = '?' ∨ c = ':' ∨ c = '-') → atGap cs = false) ∧ holdsMark c cs = false := by
  have noMark := h.noMark
  simp only [hasMark, beginsWithMark_cons, Bool.or_eq_false_iff] at noMark
  obtain ⟨⟨-, mark, gapAfter⟩, holds⟩ := noMark
  refine ⟨?_, ?_, ?_, holds⟩
  · cases blank : isBlank c with
    | false => rfl
    | true =>
      obtain rfl := eq_space_of_isPrintable (h.printable c List.mem_cons_self) blank
      exact absurd rfl h.first
  · rintro d hd rfl
    rw [List.contains_iff_mem.mpr hd] at mark
    cases mark
  · intro special
    simpa [or_assoc, special] using gapAfter

lemma atMark_append {mark : Char} {cs rest : List Char}
    (h : [mark, mark, mark].isPrefixOf cs = false)
    (filled : cs ≠ []) (after : rest.head? ≠ some mark) : atMark mark (cs ++ rest) = false := by
  have other (c : Char) (cs : List Char) (same : rest = c :: cs) : c ≠ mark := by
    rintro rfl
    exact after (same ▸ rfl)
  match cs, filled with
  | [a], _ =>
    match rest, other with
    | [], _ => rfl
    | [b], _ => rfl
    | b :: c :: rest, other => simp [atMark, other b _ rfl]
  | [a, b], _ =>
    match rest, other with
    | [], _ => rfl
    | c :: rest, other => simp [atMark, other c _ rfl]
  | a :: b :: c :: cs, _ =>
    simp only [List.isPrefixOf, Bool.and_true, Bool.and_eq_false_iff, beq_eq_false_iff_ne] at h
    simp only [List.cons_append, atMark, Bool.and_eq_false_iff, decide_eq_false_iff_not]
    grind

lemma IsPlain.not_atDocumentMark {cs rest : List Char} (h : IsPlain cs)
    (after : rest.head? ≠ some '-' ∧ rest.head? ≠ some '.') :
    atDocumentMark (cs ++ rest) = false := by
  have noMark := h.noMark
  simp only [hasMark, Bool.or_eq_false_iff] at noMark
  obtain ⟨⟨⟨dashes, dots⟩, -⟩, -⟩ := noMark
  rw [atDocumentMark, atMark_append (by simpa using dashes) h.filled after.1,
    atMark_append (by simpa using dots) h.filled after.2, Bool.or_false]

lemma IsPlain.readPlain {cs : List Char} (h : IsPlain cs) {least : Nat} {m : Mark}
    {rest : List Char} (after : rest.head? ≠ some '-' ∧ rest.head? ≠ some '.') :
    Yaml.readPlain false least [] .none true m (cs ++ rest) =
      Yaml.readPlain false least cs .none false (m.right cs.length) rest := by
  obtain ⟨c, cs, rfl⟩ := List.exists_cons_of_ne_nil h.filled
  obtain ⟨noBlank, noMark, gapAfter, holds⟩ := h.first_spec
  have mark := h.not_atDocumentMark after
  rw [List.cons_append] at mark ⊢
  rw [readPlain_solid (h.line c List.mem_cons_self) noBlank
    fun _ => ⟨noMark '#' (by decide), rfl, fun _ => mark⟩]
  · by_cases more : cs = []
    · subst more
      rfl
    · have last : cs.getLast? ≠ some ' ' := by
        have := h.last
        rwa [List.getLast?_cons_of_ne_nil more] at this
      rw [readPlain_append more (fun d hd => h.printable d (List.mem_cons_of_mem c hd))
        (fun d hd => h.line d (List.mem_cons_of_mem c hd)) last holds (by simp) rfl (Nat.succ_pos _),
        Mark.right_right, List.length_cons, Nat.add_comm 1]
      rfl
  · rintro rfl
    have noGap := gapAfter (.inr (.inl rfl))
    rw [atGap_append, if_neg, noGap]
    rintro rfl
    cases noGap

end FeatureBatch.Yaml
