import FeatureBatch.Proofs.Yaml.Spelling

/-!
Scanning from word to word. What a text is read as from some place on is the same before and after a
gap, a block that ends there, or a word that adds what it adds; so the words of a text are found
from its end to its beginning, for any words that come before.
-/

namespace FeatureBatch.Yaml.Scan

/-! ### Gaps -/

/-- A scan outside of brackets where no key has begun. -/
def outside (rest : List Char) (m : Mark) (tokens : List Token) (columns : List Nat)
    (keyAllowed : Bool) : Scan :=
  ⟨rest, m, tokens, columns, keyAllowed, none, []⟩

section

variable {s : Scan} {rest tail : List Char} {m : Mark} {tokens : List Token} {columns : List Nat}
  {keyAllowed : Bool}

lemma skipGap_of_startsWord (starts : StartsWord s.rest) (fuel : Nat) :
    skipGap (fuel + 1) s = s := by
  obtain ⟨rest, m, tokens, columns, keyAllowed, place, outer⟩ := s
  cases rest with
  | nil => simp [skipGap, advance, takeBreak]
  | cons c rest =>
    obtain ⟨noBlank, solid, sign, orderMark⟩ := starts c rfl
    have noSkip : skips ⟨c :: rest, m, tokens, columns, keyAllowed, place, outer⟩ c = false := by
      have space : c ≠ ' ' ∧ c ≠ '\t' := by
        constructor <;> (rintro rfl; exact absurd noBlank (by decide))
      simp [skips, space]
    simp [skipGap, advance, orderMark, noSkip, sign, takeBreak_solid solid]

lemma skipGap_spaces {place : Option KeyPlace} {outer : List (Option KeyPlace)}
    (starts : StartsWord tail) (n fuel : Nat) :
    skipGap (fuel + 1) ⟨spaces n ++ tail, m, tokens, columns, keyAllowed, place, outer⟩ =
      ⟨tail, m.right n, tokens, columns, keyAllowed, place, outer⟩ := by
  have orderMark : (spaces n ++ tail).head? ≠ some '\uFEFF' := by
    cases n with
    | zero =>
      intro first
      exact (starts _ first).2.2.2 rfl
    | succ n => simp [spaces, List.replicate_succ]
  have skipped : (spaces n ++ tail).takeWhile
      (skips ⟨spaces n ++ tail, m, tokens, columns, keyAllowed, place, outer⟩) = spaces n := by
    rw [List.takeWhile_append_of_pos]
    · cases tail with
      | nil => simp
      | cons c tail =>
        have noBlank := (starts c rfl).1
        have space : c ≠ ' ' ∧ c ≠ '\t' := by
          constructor <;> (rintro rfl; exact absurd noBlank (by decide))
        simp [skips, space]
    · intro c hc
      rw [List.eq_of_mem_replicate hc]
      rfl
  have width : (spaces n).length = n := List.length_replicate
  have sign : tail.head? ≠ some '#' := fun first => (starts _ first).2.2.1 rfl
  have noBreak : takeBreak tail (m.right n) = none := by
    cases tail with
    | nil => rfl
    | cons c tail => exact takeBreak_solid (starts c rfl).2.1 tail _
  rw [skipGap]
  simp only [orderMark, decide_false, Bool.and_false, Bool.false_eq_true, if_false, skipped,
    advance, width, List.drop_left' width, sign, noBreak]

lemma skipGap_lineFeed {place : Option KeyPlace} (fuel : Nat) :
    skipGap (fuel + 1) ⟨'\n' :: rest, m, tokens, columns, keyAllowed, place, []⟩ =
      skipGap fuel ⟨rest, m.down 1, tokens, columns, true, place, []⟩ := by
  simp [skipGap, skips, advance, takeBreak, isBreak, inFlow]

lemma dropStale_outside :
    (outside rest m tokens columns keyAllowed).dropStale =
      some (outside rest m tokens columns keyAllowed) := rfl

lemma dropStale_of_line {place : Option KeyPlace}
    (earlier : ∀ p ∈ place, p.required = false ∧ p.mark.line < m.line) :
    (⟨rest, m, tokens, columns, keyAllowed, place, []⟩ : Scan).dropStale =
      some (outside rest m tokens columns keyAllowed) := by
  cases place with
  | none => rfl
  | some p =>
    obtain ⟨optional, line⟩ := earlier p rfl
    simp [dropStale, freshPlace, isStale, line, optional, outside]

lemma closeBlocks_of_le {column : Nat} (within : ∀ c ∈ s.columns.head?, c ≤ column) :
    s.closeBlocks column = s := by
  unfold closeBlocks
  split
  · rfl
  · obtain ⟨rest, m, tokens, columns, keyAllowed, place, outer⟩ := s
    cases columns with
    | nil => simp
    | cons c columns =>
      have le : c ≤ column := within c rfl
      simp [Nat.not_lt.mpr le]

end

/-! ### Reading on -/

/-- From here on the text is read as these words, the ones before it included. -/
def Reads (s : Scan) (words : List Token) : Prop :=
  ∀ fuel, s.rest.length < fuel → readWords fuel s = some words

section

variable {s s' : Scan} {rest tail : List Char} {m : Mark} {tokens : List Token}
  {columns : List Nat} {keyAllowed : Bool} {words : List Token}

lemma reads_of_settled {t : Scan} (starts : StartsWord t.rest) (fresh : t.dropStale = some t)
    (settled : (skipGap (s.rest.length + 1) s).dropStale = some t)
    (le : t.rest.length ≤ s.rest.length) (h : Reads t words) : Reads s words := by
  intro fuel enough
  have read := h fuel (Nat.lt_of_le_of_lt le enough)
  obtain ⟨fuel, rfl⟩ := Nat.exists_eq_succ_of_ne_zero (Nat.ne_of_gt (Nat.zero_lt_of_lt enough))
  rw [readWords, skipGap_of_startsWord starts, fresh] at read
  rw [readWords, settled]
  exact read

lemma reads_of_readWord (starts : StartsWord s.rest) (filled : s.rest ≠ [])
    (fresh : s.dropStale = some s) (within : ∀ c ∈ s.columns.head?, c ≤ s.mark.column)
    (read : s.readWord = some s') (shorter : s'.rest.length < s.rest.length)
    (h : Reads s' words) : Reads s words := by
  intro fuel enough
  obtain ⟨fuel, rfl⟩ := Nat.exists_eq_succ_of_ne_zero (Nat.ne_of_gt (Nat.zero_lt_of_lt enough))
  have more := h fuel (Nat.lt_of_lt_of_le shorter (Nat.le_of_lt_succ enough))
  rw [readWords, skipGap_of_startsWord starts, fresh]
  simp only [Option.bind_eq_bind, Option.bind_some, closeBlocks_of_le within, List.isEmpty_iff,
    filled, if_false, read, more]

lemma reads_of_close {column : Nat} (starts : StartsWord rest) (left : m.column < column)
    (h : Reads (outside rest m (tokens ++ [.blockEnd]) columns keyAllowed) words) :
    Reads (outside rest m tokens (column :: columns) keyAllowed) words := by
  intro fuel enough
  have read := h fuel enough
  obtain ⟨fuel, rfl⟩ := Nat.exists_eq_succ_of_ne_zero (Nat.ne_of_gt (Nat.zero_lt_of_lt enough))
  have closed : (outside rest m tokens (column :: columns) keyAllowed).closeBlocks m.column =
      (outside rest m (tokens ++ [.blockEnd]) columns keyAllowed).closeBlocks m.column := by
    simp [outside, closeBlocks, inFlow, left, List.replicate_succ]
  rw [readWords, skipGap_of_startsWord starts, dropStale_outside] at read ⊢
  simp only [Option.bind_eq_bind, Option.bind_some] at read ⊢
  rw [show (outside rest m tokens (column :: columns) keyAllowed).mark.column = m.column from rfl,
    closed]
  exact read

lemma reads_end : Reads (outside [] m tokens columns keyAllowed)
    (tokens ++ List.replicate columns.length .blockEnd) := by
  intro fuel enough
  obtain ⟨fuel, rfl⟩ := Nat.exists_eq_succ_of_ne_zero (Nat.ne_of_gt (Nat.zero_lt_of_lt enough))
  have starts : StartsWord (outside [] m tokens columns keyAllowed).rest := nofun
  have some_columns : (columns.takeWhile (m.column < ·)).length ≤ columns.length :=
    (List.takeWhile_sublist _).length_le
  have count : (columns.takeWhile (m.column < ·)).length +
      (columns.length - (columns.takeWhile (m.column < ·)).length) = columns.length := by omega
  rw [readWords, skipGap_of_startsWord starts, dropStale_outside]
  simp [outside, closeBlocks, closeAllBlocks, inFlow, finish, dropPlace, count]

/-- The text begins with a line. The first word is at column `n` or to the left of it, and read
from there on. -/
def Onward (n : Nat) (text : List Char) (tokens : List Token) (columns : List Nat)
    (words : List Token) : Prop :=
  ∃ k tail, text = spaces k ++ tail ∧ k ≤ n ∧ StartsWord tail ∧
    ∀ m, m.column = k → Reads (outside tail m tokens columns true) words

lemma reads_lineFeed {place : Option KeyPlace} {n : Nat} (h : Onward n rest tokens columns words)
    (earlier : ∀ p ∈ place, p.required = false ∧ p.mark.line ≤ m.line) :
    Reads ⟨'\n' :: rest, m, tokens, columns, keyAllowed, place, []⟩ words := by
  obtain ⟨k, tail, rfl, -, starts, read⟩ := h
  refine reads_of_settled (t := outside tail ((m.down 1).right k) tokens columns true) starts
    dropStale_outside ?_ (by simp [outside]; omega) (read _ (by simp))
  have fuel : ('\n' :: (spaces k ++ tail)).length + 1 = (spaces k ++ tail).length + 1 + 1 := rfl
  rw [fuel, skipGap_lineFeed, skipGap_spaces starts]
  refine dropStale_of_line fun p hp => ?_
  obtain ⟨optional, line⟩ := earlier p hp
  exact ⟨optional, Nat.lt_succ_of_le line⟩

lemma reads_later {place : Option KeyPlace} (starts : StartsWord rest)
    (earlier : ∀ p ∈ place, p.required = false ∧ p.mark.line < m.line)
    (h : Reads (outside rest m tokens columns keyAllowed) words) :
    Reads ⟨rest, m, tokens, columns, keyAllowed, place, []⟩ words := by
  refine reads_of_settled (t := outside rest m tokens columns keyAllowed) starts
    dropStale_outside ?_ (Nat.le_refl _) h
  rw [skipGap_of_startsWord starts]
  exact dropStale_of_line earlier

lemma reads_space (starts : StartsWord rest)
    (h : Reads (outside rest (m.right 1) tokens columns keyAllowed) words) :
    Reads (outside (' ' :: rest) m tokens columns keyAllowed) words := by
  refine reads_of_settled (t := outside rest (m.right 1) tokens columns keyAllowed) starts
    dropStale_outside ?_ (Nat.le_succ _) h
  exact congrArg dropStale (skipGap_spaces starts 1 _)

lemma onward_close {n column : Nat} (left : n < column)
    (h : Onward n rest (tokens ++ [.blockEnd]) columns words) :
    Onward n rest tokens (column :: columns) words := by
  obtain ⟨k, tail, rfl, le, starts, read⟩ := h
  exact ⟨k, tail, rfl, le, starts, fun m hm =>
    reads_of_close starts (hm ▸ Nat.lt_of_le_of_lt le left) (read m hm)⟩

end

end FeatureBatch.Yaml.Scan
