import FeatureBatch.Proofs.Yaml.Chars

/-!
Quoted scalars. Reading what stands between quotes gives the text that was written there: in single
quotes, where a line may end in a separator and the next one is indented, and in double quotes,
where all is on one line and any character has a written form.
-/

namespace FeatureBatch.Yaml

section

variable {text : List Char} {gap : Gap} {m : Mark} {rest : List Char}

/-! ### Single quotes -/

lemma readSingle_break {c : Char} (printable : isPrintable c = true) (h : isBreak c = true) :
    readSingle text gap m (c :: rest) = readSingle text (gap.addBreak c) (m.down 1) rest := by
  rw [readSingle]
  · rw [if_pos h, breakChar_of_isPrintable printable h]
  · rintro _ rfl
    exact absurd printable (by decide)
  · rintro _ rfl
    exact absurd h (by decide)

lemma readSingle_space :
    readSingle text gap m (' ' :: rest) = readSingle text (gap.addBlank ' ') (m.right 1) rest := by
  rw [readSingle]
  · simp [isBreak, isBlank]
  · simp
  · simp

lemma readSingle_spaces (broken : gap.broken = true) (n : Nat) :
    readSingle text gap m (spaces n ++ rest) = readSingle text gap (m.right n) rest := by
  induction n generalizing m with
  | zero => rfl
  | succ n ih =>
    have step : readSingle text gap m (' ' :: (spaces n ++ rest)) =
        readSingle text gap (m.right 1) (spaces n ++ rest) := by
      rw [readSingle_space, Gap.addBlank_of_broken broken]
    exact step.trans (ih.trans (by rw [Mark.right_right, Nat.add_comm 1]))

lemma readSingle_lead (indent : Nat) :
    readSingle text gap m ((if gap.broken then spaces indent else []) ++ rest) =
      readSingle text gap (m.after (if gap.broken then spaces indent else [])) rest := by
  cases broken : gap.broken with
  | true => simp [readSingle_spaces broken]
  | false => simp

lemma column_after_lead {broken : Bool} {indent : Nat} (indented : 0 < indent)
    (column : broken = false → 0 < m.column) :
    0 < (m.after (if broken then spaces indent else [])).column := by
  cases broken with
  | true => simpa using Nat.add_pos_right _ indented
  | false => simpa using column rfl

lemma readSingle_quote :
    readSingle text gap m ('\x27' :: '\x27' :: rest) =
      readSingle (text ++ gap.text ++ ['\x27']) .none (m.right 2) rest := by
  rw [readSingle]

lemma readSingle_solid {c : Char} (solid : isBreak c = false) (noBlank : isBlank c = false)
    (noQuote : c ≠ '\x27') (column : 0 < m.column) :
    readSingle text gap m (c :: rest) =
      readSingle (text ++ gap.text ++ [c]) .none (m.right 1) rest := by
  rw [readSingle]
  · simp [solid, noBlank, noQuote, Nat.ne_of_gt column]
  · rintro _ rfl
    exact absurd solid (by decide)
  · rintro _ rfl
    contradiction

lemma after_doubleQuote {c : Char} (solid : isBreak c = false) :
    m.after (doubleQuote c) = m.right (doubleQuote c).length := by
  unfold doubleQuote
  split_ifs with quote
  · subst quote
    rfl
  · rw [Mark.after_solid solid, Mark.after_nil]
    rfl

lemma readSingle_doubleQuote (text : List Char) {c : Char} (printable : isPrintable c = true)
    (solid : isBreak c = false) (within : gap.broken = true → c ≠ ' ') (column : 0 < m.column) :
    ∃ text' gap', text' ++ gap'.text = text ++ gap.text ++ [c] ∧ gap'.broken = false ∧
      (isBlank c = false → gap' = .none) ∧ ∀ rest, readSingle text gap m (doubleQuote c ++ rest) =
        readSingle text' gap' (m.after (doubleQuote c)) rest := by
  by_cases quote : c = '\x27'
  · subst quote
    exact ⟨_, .none, List.append_nil _, rfl, fun _ => rfl, fun _ => readSingle_quote⟩
  · have once : doubleQuote c = [c] := if_neg quote
    have place : m.after (doubleQuote c) = m.right 1 := by
      rw [after_doubleQuote solid, once]
      rfl
    cases blank : isBlank c with
    | false =>
      refine ⟨_, .none, List.append_nil _, rfl, fun _ => rfl, fun rest => ?_⟩
      rw [place, once]
      exact readSingle_solid solid blank quote column
    | true =>
      obtain rfl := eq_space_of_isPrintable printable blank
      have unbroken : gap.broken = false := by
        cases broken : gap.broken with
        | true => exact absurd rfl (within broken)
        | false => rfl
      obtain ⟨added, unbroken⟩ := Gap.text_addBlank unbroken ' '
      refine ⟨text, gap.addBlank ' ', by rw [added, List.append_assoc], unbroken, nofun,
        fun rest => ?_⟩
      rw [place, once]
      exact readSingle_space

lemma readSingle_end (column : 0 < m.column) (after : rest.head? ≠ some '\x27') :
    readSingle text gap m ('\x27' :: rest) = some ⟨text ++ gap.text, rest, m.right 1⟩ := by
  rw [readSingle]
  · simp [isBreak, isBlank, Nat.ne_of_gt column]
  · simp
  · rintro _ _ rfl
    exact after rfl

end

/-- What a gap has to be where `cs` is still to be read: after a break no blank follows, and before a
break there is none. The place is not the beginning of a line unless a break was the last. -/
structure GapBefore (gap : Gap) (m : Mark) (cs : List Char) : Prop where
  first : gap.broken = true → gap.first ≠ some '\n'
  noBlank : gap.broken = true → cs.head? ≠ some ' '
  column : gap.broken = false → 0 < m.column
  blanks : gap.broken = false → (∀ c ∈ cs.head?, isBreak c = true) → cs ≠ [] → gap.blanks = []

lemma GapBefore.none {m : Mark} (column : 0 < m.column) (cs : List Char) :
    GapBefore .none m cs where
  first h := absurd h (by decide)
  noBlank h := absurd h (by decide)
  column _ := column
  blanks _ _ _ := rfl

lemma readSingle_indentLines {cs : List Char} {indent : Nat} (indented : 0 < indent)
    (plain : isSpecial cs = false) (blanks : hasBlankAfterBreak cs = false) (line : '\n' ∉ cs)
    (text : List Char) {gap : Gap} {m : Mark} {rest : List Char} (before : GapBefore gap m cs)
    (after : rest.head? ≠ some '\x27') :
    readSingle text gap m (indentLines indent true gap.broken doubleQuote cs ++ '\x27' :: rest) =
      some ⟨text ++ gap.text ++ cs, rest,
        m.after (indentLines indent true gap.broken doubleQuote cs ++ ['\x27'])⟩ := by
  induction cs generalizing text gap m with
  | nil =>
    rw [Mark.after_append, List.append_nil, indentLines, Bool.and_true, readSingle_lead]
    exact readSingle_end (column_after_lead indented before.column) after
  | cons c cs ih =>
    obtain ⟨printable, noBreak, plains⟩ := isSpecial_cons plain
    obtain ⟨noBlank, others⟩ := hasBlankAfterBreak_cons blanks
    have noFeed : c ≠ '\n' := fun same => line (same ▸ List.mem_cons_self)
    have lines : '\n' ∉ cs := fun mem => line (List.mem_cons_of_mem c mem)
    cases isBreak : isBreak c with
    | true =>
      obtain ⟨added, broken, first⟩ := Gap.text_addBreak noFeed before.first fun broken =>
        before.blanks broken (by simpa using isBreak) (List.cons_ne_nil c cs)
      have before' : GapBefore (gap.addBreak c) (m.down 1) cs :=
        ⟨fun _ => first, fun _ => noBlank isBreak, by simp [broken], by simp [broken]⟩
      have read := ih plains others lines text before'
      rw [broken] at read
      simp only [indentLines, isBreak, noFeed, if_true, decide_false, Bool.and_false,
        Bool.false_eq_true, if_false, List.nil_append, List.cons_append]
      rw [readSingle_break printable isBreak, read, added, Mark.after_break isBreak]
      simp
    | false =>
      have written (more : List Char) : indentLines indent true gap.broken doubleQuote (c :: cs) ++
          more = (if gap.broken then spaces indent else []) ++ (doubleQuote c ++
            (indentLines indent true false doubleQuote cs ++ more)) := by
        simp [indentLines, isBreak]
      have placed := column_after_lead indented before.column
      obtain ⟨text', gap', added, unbroken, solid, step⟩ := readSingle_doubleQuote text
        printable isBreak (fun broken same => before.noBlank broken (congrArg some same)) placed
      have before' : GapBefore gap' ((m.after (if gap.broken then spaces indent else [])).after
          (doubleQuote c)) cs := by
        refine ⟨by simp [unbroken], by simp [unbroken], fun _ => ?_, fun _ breaks more => ?_⟩
        · rw [after_doubleQuote isBreak]
          exact Nat.add_pos_left placed _
        · cases blank : isBlank c with
          | false => rw [solid blank]; rfl
          | true =>
            obtain rfl := eq_space_of_isPrintable printable blank
            obtain ⟨d, cs, rfl⟩ := List.exists_cons_of_ne_nil more
            have next := noBreak rfl d rfl
            rw [breaks d rfl] at next
            cases next
      have read := ih plains others lines text' before'
      rw [unbroken, added] at read
      rw [written, written, readSingle_lead, step, read, Mark.after_append m,
        Mark.after_append (m.after _) (doubleQuote c)]
      simp

/-! ### Digits in base sixteen -/

lemma value_capital {n : Nat} (h : n < 16) : Hexadecimal.value (Hexadecimal.capital n) = some n := by
  revert n
  decide

@[simp] lemma length_capitals (width n : Nat) : (Hexadecimal.capitals width n).length = width := by
  induction width generalizing n with
  | zero => rfl
  | succ width ih => simp [Hexadecimal.capitals, ih]

lemma ofDigits?_capitals {width n : Nat} (h : n < Nat.pow 16 width) :
    Hexadecimal.ofDigits? (Hexadecimal.capitals width n) = some n := by
  induction width generalizing n with
  | zero =>
    obtain rfl : n = 0 := by simpa using h
    rfl
  | succ width ih =>
    have high : n / 16 < Nat.pow 16 width := by
      have h : n < Nat.pow 16 width * 16 := h
      omega
    have low := value_capital (Nat.mod_lt n (by decide : 0 < 16))
    have ih := ih high
    rw [Hexadecimal.ofDigits?] at ih ⊢
    rw [Hexadecimal.capitals, List.foldlM_append, ih]
    simp [low]
    omega

lemma takeHex_capitals {width : Nat} {c : Char} (h : c.toNat < Nat.pow 16 width) (rest : List Char) :
    takeHex width (Hexadecimal.capitals width c.toNat ++ rest) = some (c, rest) := by
  have valid : c.toNat.isValidChar := c.valid
  simp [takeHex, ofHex?, ofDigits?_capitals h, valid]

/-! ### Double quotes -/

lemma escapeLetter_spec {c e : Char} (h : escapeLetter c = some e) :
    simpleEscape e = some c ∧ escapeWidth e = none ∧ isBreak e = false ∧ isPrintable e = true := by
  unfold escapeLetter at h
  split at h
  all_goals first | (obtain rfl := Option.some.inj h; decide) | cases h

lemma solid_of_escapeLetter {c : Char} (h : escapeLetter c = none)
    (printable : isPrintable c = true) :
    isBreak c = false ∧ (isBlank c = true → c = ' ') ∧ c ≠ '"' ∧ c ≠ '\\' := by
  refine ⟨?_, eq_space_of_isPrintable printable, ?_, ?_⟩
  · cases isBreak : isBreak c with
    | false => rfl
    | true =>
      rcases break_of_isPrintable printable isBreak with rfl | rfl | rfl <;>
        exact absurd h (by decide)
  · rintro rfl
    exact absurd h (by decide)
  · rintro rfl
    exact absurd h (by decide)

section

variable {fuel : Nat} {text : List Char} {gap : Gap} {m : Mark} {rest : List Char}

lemma readDouble_space : readDouble (fuel + 1) text gap m (' ' :: rest) =
    readDouble fuel text (gap.addBlank ' ') (m.right 1) rest := by
  rw [readDouble.eq_def]
  simp only
  rw [takeBreak_solid (by decide)]
  rfl

lemma readDouble_end (column : 0 < m.column) :
    readDouble (fuel + 1) text gap m ('"' :: rest) = some ⟨text ++ gap.text, rest, m.right 1⟩ := by
  rw [readDouble.eq_def]
  simp only
  rw [takeBreak_solid (by decide)]
  simp [isBlank, Nat.ne_of_gt column]

lemma readDouble_escapeChar {c : Char} (ne : c ≠ ' ') (column : 0 < m.column) :
    readDouble (fuel + 1) text gap m (escapeChar c ++ rest) =
      readDouble fuel (text ++ gap.text ++ [c]) .none (m.right (escapeChar c).length) rest := by
  have noMark : m.column ≠ 0 := Nat.ne_of_gt column
  unfold escapeChar
  cases letter : escapeLetter c with
  | some e =>
    obtain ⟨escape, width, solid, -⟩ := escapeLetter_spec letter
    simp only [List.cons_append, List.nil_append]
    rw [readDouble, takeBreak_solid (by decide)]
    simp [isBlank, noMark, takeBreak_solid solid, width, escape]
  | none =>
    have numeric (e : Char) (width : Nat) (known : escapeWidth e = some width)
        (solid : isBreak e = false) (small : c.toNat < Nat.pow 16 width) :
        readDouble (fuel + 1) text gap m
            ('\\' :: e :: Hexadecimal.capitals width c.toNat ++ rest) =
          readDouble fuel (text ++ gap.text ++ [c]) .none (m.right (2 + width)) rest := by
      rw [List.cons_append, List.cons_append, readDouble, takeBreak_solid (by decide)]
      simp [isBlank, noMark, takeBreak_solid solid, known, takeHex_capitals small]
    dsimp only
    split_ifs with printable byte unit
    · obtain ⟨solid, blank, quote, backslash⟩ := solid_of_escapeLetter letter printable
      have noBlank : isBlank c = false := by
        cases h : isBlank c with
        | false => rfl
        | true => exact absurd (blank h) ne
      rw [List.singleton_append, readDouble.eq_def]
      simp only
      rw [takeBreak_solid solid]
      simp [noBlank, noMark, quote, backslash]
    · simpa [Nat.add_comm] using numeric 'x' 2 rfl (by decide) (Nat.lt_succ_of_le byte)
    · simpa [Nat.add_comm] using numeric 'u' 4 rfl (by decide) (Nat.lt_succ_of_le unit)
    · have small : c.toNat < Nat.pow 16 8 := c.val.toNat_lt
      simpa [Nat.add_comm] using numeric 'U' 8 rfl (by decide) small

end

lemma length_escapeChar_pos (c : Char) : 0 < (escapeChar c).length := by
  unfold escapeChar
  split
  · simp
  · split_ifs <;> simp

lemma length_le_flatMap_escapeChar (cs : List Char) :
    cs.length ≤ (cs.flatMap escapeChar).length := by
  induction cs with
  | nil => exact Nat.le_refl _
  | cons c cs ih =>
    have := length_escapeChar_pos c
    simp only [List.flatMap_cons, List.length_append, List.length_cons]
    omega

lemma readDouble_flatMap {cs : List Char} {fuel : Nat} (enough : cs.length < fuel)
    (text : List Char) {gap : Gap} (unbroken : gap.broken = false) {m : Mark} (column : 0 < m.column)
    (rest : List Char) :
    readDouble fuel text gap m (cs.flatMap escapeChar ++ '"' :: rest) =
      some ⟨text ++ gap.text ++ cs, rest, m.right ((cs.flatMap escapeChar).length + 1)⟩ := by
  obtain ⟨fuel, rfl⟩ := Nat.exists_eq_succ_of_ne_zero (Nat.ne_of_gt (Nat.zero_lt_of_lt enough))
  induction cs generalizing fuel text gap m with
  | nil => simpa using readDouble_end column
  | cons c cs ih =>
    have less : cs.length < fuel := Nat.lt_of_succ_lt_succ enough
    obtain ⟨fuel, rfl⟩ := Nat.exists_eq_succ_of_ne_zero (Nat.ne_of_gt (Nat.zero_lt_of_lt less))
    rw [List.flatMap_cons, List.append_assoc, List.length_append]
    by_cases blank : c = ' '
    · subst blank
      obtain ⟨added, unbroken⟩ := Gap.text_addBlank unbroken ' '
      have read := ih text unbroken (m := m.right 1) (Nat.succ_pos _) fuel less
      rw [added] at read
      refine readDouble_space.trans (read.trans ?_)
      simp [escapeChar, escapeLetter, isPrintable, Nat.add_comm]
    · have read := ih (text ++ gap.text ++ [c]) Gap.broken_none (m := m.right (escapeChar c).length)
        (Nat.add_pos_right _ (length_escapeChar_pos c)) fuel less
      rw [readDouble_escapeChar blank column]
      refine read.trans ?_
      simp [Nat.add_assoc]

end FeatureBatch.Yaml
