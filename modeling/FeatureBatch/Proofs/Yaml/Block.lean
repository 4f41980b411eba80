import Mathlib.Data.List.TakeWhile
import FeatureBatch.Proofs.Yaml.Plain

/-!
Blocks of lines. A text that is written line by line, each line indented and empty ones left as they
are, is read as the text: the head of the block says how far it is indented where the first line
does not show it, and what becomes of the breaks at its end.
-/

namespace FeatureBatch.Yaml

/-! ### Lines -/

/-- The lines of a block, the first of which is indented if `afterBreak`. -/
def blockLines (indent : Nat) (afterBreak : Bool) (cs : List Char) : List Char :=
  indentLines indent false afterBreak (fun c => [c]) cs

section

variable {indent : Nat} {afterBreak : Bool}

@[simp] lemma blockLines_nil : blockLines indent afterBreak [] = [] := by
  simp [blockLines, indentLines]

lemma blockLines_break {c : Char} (h : isBreak c = true) (cs : List Char) :
    blockLines indent afterBreak (c :: cs) = c :: blockLines indent true cs := by
  simp [blockLines, indentLines, h]

lemma blockLines_breaks {breaks : List Char} (h : ∀ c ∈ breaks, isBreak c = true) (cs : List Char) :
    blockLines indent true (breaks ++ cs) = breaks ++ blockLines indent true cs := by
  induction breaks with
  | nil => rfl
  | cons c breaks ih =>
    rw [List.cons_append, blockLines_break (h c List.mem_cons_self),
      ih fun d hd => h d (List.mem_cons_of_mem c hd), List.cons_append]

lemma blockLines_cons {c : Char} (solid : isBreak c = false) (cs : List Char) :
    blockLines indent false (c :: cs) = c :: blockLines indent false cs := by
  simp [blockLines, indentLines, solid]

lemma blockLines_line {line : List Char} (h : ∀ c ∈ line, isBreak c = false) (cs : List Char) :
    blockLines indent false (line ++ cs) = line ++ blockLines indent false cs := by
  induction line with
  | nil => rfl
  | cons c line ih =>
    rw [List.cons_append, blockLines_cons (h c List.mem_cons_self),
      ih fun d hd => h d (List.mem_cons_of_mem c hd), List.cons_append]

lemma length_le_blockLines (afterBreak : Bool) (cs : List Char) :
    cs.length ≤ (blockLines indent afterBreak cs).length := by
  induction cs generalizing afterBreak with
  | nil => exact Nat.zero_le _
  | cons c cs ih =>
    have broken := ih true
    have solid := ih false
    unfold blockLines at broken solid ⊢
    rw [indentLines]
    split <;> simp only [List.length_append, List.length_cons, List.length_nil] <;> omega

lemma blockLines_true {c : Char} (h : isBreak c = false) (cs : List Char) :
    blockLines indent true (c :: cs) = spaces indent ++ blockLines indent false (c :: cs) := by
  simp [blockLines, indentLines, h]

end

/-! ### Empty lines and indentation -/

lemma takeWhile_spaces {n : Nat} {tail : List Char} (h : tail.head? ≠ some ' ') :
    (spaces n ++ tail).takeWhile (· = ' ') = spaces n := by
  induction n with
  | zero =>
    cases tail with
    | nil => rfl
    | cons c tail =>
      have ne : c ≠ ' ' := fun same => h (same ▸ rfl)
      exact List.takeWhile_cons_of_neg (by simpa using ne)
  | succ n ih => exact (List.takeWhile_cons_of_pos (by simp)).trans (congrArg _ ih)

lemma takeWhile_take_spaces {indent n : Nat} {tail : List Char} (le : n ≤ indent)
    (less : n < indent → tail.head? ≠ some ' ') :
    ((spaces n ++ tail).take indent).takeWhile (· = ' ') = spaces n := by
  have width : (spaces n).length = n := List.length_replicate
  have split : (spaces n ++ tail).take indent = spaces n ++ tail.take (indent - n) := by
    rw [List.take_append, width, List.take_of_length_le (Nat.le_trans (Nat.le_of_eq width) le)]
  rw [split]
  refine takeWhile_spaces ?_
  rcases Nat.lt_or_eq_of_le le with lt | rfl
  · obtain ⟨k, hk⟩ : ∃ k, indent - n = k + 1 := ⟨indent - n - 1, by omega⟩
    rw [hk]
    cases tail with
    | nil => simp
    | cons c tail => simpa using less lt
  · simp

/-- Where the indentation is known, empty lines are read and no more than it is taken off the line
after them. -/
lemma readBlockGap_some {indent n : Nat} {breaks tail : List Char}
    (h : ∀ c ∈ breaks, isBreak c = true ∧ isPrintable c = true) (le : n ≤ indent)
    (solid : ∀ c ∈ tail.head?, isBreak c = false)
    (less : n < indent → ∀ c ∈ tail.head?, isBlank c = false) {fuel : Nat}
    (enough : breaks.length < fuel) (before : List Char) (widest : Nat) {m : Mark}
    (column : m.column = 0) :
    ∃ widest' m', readBlockGap (some indent) fuel
        ⟨before, widest, breaks ++ (spaces n ++ tail), m⟩ =
      some ⟨before ++ breaks, widest', tail, m'⟩ ∧ m'.column = n := by
  induction breaks generalizing fuel before widest m with
  | nil =>
    obtain ⟨fuel, rfl⟩ := Nat.exists_eq_succ_of_ne_zero (Nat.ne_of_gt enough)
    have taken : ((spaces n ++ tail).take (indent - m.column)).takeWhile (· = ' ') = spaces n := by
      rw [column]
      refine takeWhile_take_spaces le fun lt first => ?_
      exact absurd (less lt ' ' first) (by decide)
    have width : (spaces n).length = n := List.length_replicate
    have place : (m.right n).column = n := by simp [column]
    have noTab : (decide (n < indent) && decide (tail.head? = some '\t')) = false := by
      rw [Bool.and_eq_false_iff, decide_eq_false_iff_not, decide_eq_false_iff_not,
        ← not_and_or]
      exact fun ⟨lt, first⟩ => absurd (less lt '\t' first) (by decide)
    have noBreak : takeBreak tail (m.right n) = none := by
      cases tail with
      | nil => rfl
      | cons c tail => exact takeBreak_solid (solid c rfl) tail _
    refine ⟨max widest n, m.right n, ?_, place⟩
    rw [List.nil_append, List.append_nil, readBlockGap]
    simp only [taken, width, List.drop_left' width, place, noTab, noBreak, Bool.false_eq_true,
      if_false]
  | cons b breaks ih =>
    obtain ⟨fuel, rfl⟩ := Nat.exists_eq_succ_of_ne_zero (Nat.ne_of_gt (Nat.zero_lt_of_lt enough))
    obtain ⟨isBreak, printable⟩ := h b List.mem_cons_self
    have noBlank : b ≠ ' ' := by
      rintro rfl
      exact absurd isBreak (by decide)
    have noTab : b ≠ '\t' := ne_of_isPrintable printable
    have taken (k : Nat) :
        ((b :: (breaks ++ (spaces n ++ tail))).take k).takeWhile (· = ' ') = [] := by
      cases k <;> simp [noBlank]
    obtain ⟨widest', m', read, place⟩ := ih (fun c hc => h c (List.mem_cons_of_mem b hc))
      (Nat.lt_of_succ_lt_succ enough) (before ++ [b]) (max widest m.column) (m := m.down 1) rfl
    refine ⟨widest', m', ?_, place⟩
    rw [List.cons_append, readBlockGap]
    simp only [taken, List.length_nil, List.drop_zero, Mark.right_zero, List.head?_cons,
      Option.some.injEq, noTab, decide_false, Bool.and_false, Bool.false_eq_true, if_false,
      takeBreak_break printable isBreak, read]
    simp

lemma readBlockGap_none (n : Nat) {c : Char} (solid : isBreak c = false)
    (noBlank : isBlank c = false) (tail : List Char) {m : Mark} (column : m.column = 0)
    (fuel : Nat) :
    readBlockGap none (fuel + 1) ⟨[], 0, spaces n ++ c :: tail, m⟩ =
      some ⟨[], n, c :: tail, m.right n⟩ := by
  have ne (d : Char) (blank : isBlank d = true) : c ≠ d := by
    rintro rfl
    simp [noBlank] at blank
  have taken : ((spaces n ++ c :: tail).take (spaces n ++ c :: tail).length).takeWhile (· = ' ') =
      spaces n := by
    rw [List.take_length, takeWhile_spaces]
    simpa using ne ' ' (by decide)
  have width : (spaces n).length = n := List.length_replicate
  have noTab : c ≠ '\t' := ne '\t' (by decide)
  rw [readBlockGap]
  simp only [taken, width, List.drop_left' width, takeBreak_solid solid]
  simp [column, noTab]

/-! ### The lines of a block -/

/-- What is added to a block that does not end in a break. -/
def closing (cs : List Char) : List Char := if cs.getLast?.any isBreak then [] else ['\n']

lemma endsInBreak_append (cs : List Char) {ds : List Char} {broken : Bool}
    (h : ∀ c ∈ ds, isBreak c = broken) (filled : ds ≠ []) :
    (cs ++ ds).getLast?.any isBreak = broken := by
  rw [List.getLast?_append_of_ne_nil _ filled, List.getLast?_eq_some_getLast filled]
  exact h _ (List.getLast_mem filled)

lemma exists_line {cs : List Char} (solid : ∀ c ∈ cs.head?, isBreak c = false) (filled : cs ≠ []) :
    ∃ line breaks more, cs = line ++ (breaks ++ more) ∧ line ≠ [] ∧
      (∀ c ∈ line, isBreak c = false) ∧ (∀ c ∈ breaks, isBreak c = true) ∧
      (∀ c ∈ more.head?, isBreak c = false) ∧ (breaks = [] → more = []) := by
  set rest := cs.dropWhile fun c => !isBreak c with hrest
  refine ⟨cs.takeWhile fun c => !isBreak c, rest.takeWhile isBreak, rest.dropWhile isBreak,
    ?_, ?_, fun c hc => ?_, fun c hc => List.mem_takeWhile_imp hc, fun c hc => ?_, fun none => ?_⟩
  · rw [List.takeWhile_append_dropWhile, hrest, List.takeWhile_append_dropWhile]
  · obtain ⟨c, cs, rfl⟩ := List.exists_cons_of_ne_nil filled
    simp [solid c rfl]
  · simpa using List.mem_takeWhile_imp hc
  · have head := List.head?_dropWhile_not isBreak rest
    rw [Option.mem_def.mp hc] at head
    exact head
  · cases breaks : rest with
    | nil => rfl
    | cons b bs =>
      have head := List.head?_dropWhile_not (fun c => !isBreak c) cs
      rw [← hrest, breaks] at head
      have isBreak : isBreak b = true := by simpa using head
      rw [breaks, List.takeWhile_cons_of_pos isBreak] at none
      cases none

/-- A block that has been read up to a line that is not indented enough for it. If the text does not
end in a break, the break after it is not part of it; if it does, all breaks are. -/
structure BlockRead (cs : List Char) (tail : List Char) (n : Nat) (s : BlockState) : Prop where
  rest : s.rest = tail
  column : s.mark.column = n
  unbroken : cs.getLast?.any isBreak = false → s.text = cs
  broken : cs.getLast?.any isBreak = true → s.text ++ (s.last ++ s.empty) = cs
  breaks : ∀ c ∈ s.last ++ s.empty, isBreak c = true
  last : s.text ≠ [] → s.last ≠ []

lemma readBlockLines_stop {indent fuel : Nat} {s : BlockState}
    (ends : s.mark.column < indent) : readBlockLines true indent (fuel + 1) s = some s := by
  rw [readBlockLines]
  simp [Nat.ne_of_lt ends]

lemma readBlockLines_line (fuel : Nat) {indent k : Nat} {line breaks tail : List Char} {b : Char}
    {s : BlockState} (solid : ∀ c ∈ line, isBreak c = false) (here : s.mark.column = indent)
    (written : s.rest = line ++ b :: (breaks ++ (spaces k ++ tail)))
    (isBreaks : ∀ c ∈ b :: breaks, isBreak c = true ∧ isPrintable c = true) (le : k ≤ indent)
    (next : ∀ c ∈ tail.head?, isBreak c = false)
    (less : k < indent → ∀ c ∈ tail.head?, isBlank c = false) :
    ∃ blank m', m'.column = k ∧ readBlockLines true indent (fuel + 1) s =
      readBlockLines true indent fuel
        ⟨s.text ++ (s.last ++ s.empty) ++ line, [b], breaks, blank, tail, m'⟩ := by
  obtain ⟨isBreak, printable⟩ := isBreaks b List.mem_cons_self
  have first : s.rest.takeWhile (fun c => !Yaml.isBreak c) = line := by
    rw [written, List.takeWhile_append_of_pos fun c hc => by simp [solid c hc],
      List.takeWhile_cons_of_neg (by simp [isBreak]), List.append_nil]
  have left : s.rest.drop line.length = b :: (breaks ++ (spaces k ++ tail)) := by
    rw [written, List.drop_left]
  have filled : s.rest ≠ [] := by simp [written]
  have enough : breaks.length < (breaks ++ (spaces k ++ tail)).length + 1 := by
    rw [List.length_append]
    omega
  obtain ⟨widest, m', gap, place⟩ := readBlockGap_some
    (fun c hc => isBreaks c (List.mem_cons_of_mem b hc)) le next less enough [] 0
    (m := (s.mark.right line.length).down 1) rfl
  rw [List.nil_append] at gap
  refine ⟨(s.rest.head?.map isBlank).getD false, m', place, ?_⟩
  rw [readBlockLines]
  simp only [here, ne_eq, not_true_eq_false, filled, decide_false, Bool.or_self, Bool.false_eq_true,
    if_false, first, left, takeBreak_break printable isBreak, gap, Bool.not_true, Bool.false_and]
  simp only [List.append_assoc]

lemma readBlockLines_last {indent n : Nat} {line breaks tail : List Char} {s : BlockState}
    (solid : ∀ c ∈ line, isBreak c = false) (filled : line ≠ [])
    (isBreaks : ∀ c ∈ breaks, isBreak c = true ∧ isPrintable c = true) (less : n < indent)
    (starts : StartsWord tail) (here : s.mark.column = indent)
    (written : s.rest = line ++ (breaks ++ (closing (line ++ breaks) ++ (spaces n ++ tail))))
    (fuel : Nat) :
    ∃ s', readBlockLines true indent (fuel + 2) s = some s' ∧
      BlockRead (s.text ++ (s.last ++ s.empty) ++ (line ++ breaks)) tail n s' := by
  have nextSolid : ∀ c ∈ tail.head?, isBreak c = false := fun c hc => (starts c hc).2.1
  have nextBlank : n < indent → ∀ c ∈ tail.head?, isBlank c = false :=
    fun _ c hc => (starts c hc).1
  cases breaks with
  | nil =>
    have unbroken (cs : List Char) := endsInBreak_append cs solid filled
    have feed : ∀ c ∈ ['\n'], isBreak c = true ∧ isPrintable c = true := by simp; decide
    have written : s.rest = line ++ '\n' :: ([] ++ (spaces n ++ tail)) := by
      have close : closing (line ++ []) = ['\n'] := by
        rw [List.append_nil, closing, ← List.nil_append line, unbroken, if_neg Bool.false_ne_true]
      rw [written, close]
      rfl
    obtain ⟨blank, m', place, read⟩ := readBlockLines_line (fuel + 1) solid here written feed
      (Nat.le_of_lt less) nextSolid nextBlank
    rw [List.append_nil]
    refine ⟨_, read.trans (readBlockLines_stop (place ▸ less)), rfl, place, fun _ => rfl,
      fun broken => ?_, fun c hc => (feed c hc).1, by simp⟩
    rw [unbroken] at broken
    cases broken
  | cons b breaks =>
    have onlyBreaks : ∀ c ∈ b :: breaks, isBreak c = true := fun c hc => (isBreaks c hc).1
    have broken (cs : List Char) := endsInBreak_append cs onlyBreaks (List.cons_ne_nil b breaks)
    have written : s.rest = line ++ b :: (breaks ++ (spaces n ++ tail)) := by
      have close : closing (line ++ b :: breaks) = [] := by
        rw [closing, broken, if_pos rfl]
      rw [written, close]
      rfl
    obtain ⟨blank, m', place, read⟩ := readBlockLines_line (fuel + 1) solid here written isBreaks
      (Nat.le_of_lt less) nextSolid nextBlank
    refine ⟨_, read.trans (readBlockLines_stop (place ▸ less)), rfl, place, fun unbroken => ?_,
      fun _ => by simp, by simpa using onlyBreaks, by simp⟩
    rw [← List.append_assoc, broken] at unbroken
    cases unbroken

lemma readBlockLines_blockLines {indent n fuel : Nat} {cs tail : List Char}
    (printable : ∀ c ∈ cs, isPrintable c = true) (less : n < indent) (starts : StartsWord tail)
    {s : BlockState} (solid : ∀ c ∈ cs.head?, isBreak c = false) (filled : cs ≠ [])
    (here : s.mark.column = indent)
    (written : s.rest = blockLines indent false cs ++ (closing cs ++ (spaces n ++ tail)))
    (enough : s.rest.length < fuel) :
    ∃ s', readBlockLines true indent fuel s = some s' ∧
      BlockRead (s.text ++ (s.last ++ s.empty) ++ cs) tail n s' := by
  induction fuel generalizing s cs with
  | zero => exact absurd enough (Nat.not_lt_zero _)
  | succ fuel ih =>
    obtain ⟨line, breaks, more, rfl, lineFilled, lineSolid, isBreaks, moreSolid, none⟩ :=
      exists_line solid filled
    have width := List.length_pos_of_ne_nil lineFilled
    have breaksPrintable : ∀ c ∈ breaks, isBreak c = true ∧ isPrintable c = true := fun c hc =>
      ⟨isBreaks c hc, printable c (by simp [hc])⟩
    rw [blockLines_line lineSolid, List.append_assoc] at written
    cases more with
    | nil =>
      have lines : blockLines indent false (breaks ++ []) = breaks := by
        cases breaks with
        | nil => rfl
        | cons b breaks =>
          obtain ⟨first, others⟩ := List.forall_mem_cons.mp isBreaks
          rw [List.cons_append, blockLines_break first, blockLines_breaks others, blockLines_nil,
            List.append_nil]
      obtain ⟨fuel, rfl⟩ : ∃ k, fuel = k + 1 := by
        refine Nat.exists_eq_succ_of_ne_zero fun zero => ?_
        simp only [written, List.length_append] at enough
        omega
      rw [lines, List.append_nil] at written
      rw [List.append_nil]
      exact readBlockLines_last lineSolid lineFilled breaksPrintable less starts here written fuel
    | cons c more =>
      obtain ⟨b, breaks, rfl⟩ :=
        List.exists_cons_of_ne_nil fun nil => List.cons_ne_nil c more (none nil)
      have close : closing (line ++ (b :: breaks ++ c :: more)) = closing (c :: more) := by
        rw [closing, closing, ← List.append_assoc,
          List.getLast?_append_of_ne_nil _ (List.cons_ne_nil c more)]
      have written : s.rest = line ++ b :: (breaks ++ (spaces indent ++ (blockLines indent false
          (c :: more) ++ (closing (c :: more) ++ (spaces n ++ tail))))) := by
        obtain ⟨first, others⟩ := List.forall_mem_cons.mp isBreaks
        rw [written, close, List.cons_append, blockLines_break first, blockLines_breaks others,
          blockLines_true (moreSolid c rfl)]
        simp
      have next : ∀ d ∈ (blockLines indent false (c :: more) ++
          (closing (c :: more) ++ (spaces n ++ tail))).head?, isBreak d = false := by
        rw [blockLines_cons (moreSolid c rfl)]
        simpa using moreSolid c rfl
      obtain ⟨blank, m', place, read⟩ := readBlockLines_line fuel lineSolid here written
        breaksPrintable (Nat.le_refl indent) next fun lt => absurd lt (Nat.lt_irrefl indent)
      have less : (blockLines indent false (c :: more) ++
          (closing (c :: more) ++ (spaces n ++ tail))).length < fuel := by
        have length := congrArg List.length written
        rw [List.length_append, List.length_cons, List.length_append, List.length_append] at length
        omega
      obtain ⟨s', done, final⟩ := ih (s := ⟨_, [b], breaks, blank, _, m'⟩)
        (fun d hd => printable d (by simp_all)) moreSolid (List.cons_ne_nil c more) place rfl less
      rw [read]
      exact ⟨s', done, by simpa using final⟩

/-! ### Whole blocks -/

/-- What becomes of the breaks at the end of a text for it to be read back. -/
def chompingFor (cs : List Char) : Chomping :=
  match cs.reverse with
  | [] => .strip
  | c :: before =>
    if !isBreak c then .strip
    else match before with
      | [] => .keep
      | d :: _ => if isBreak d then .keep else .clip

/-- How much the lines of a text are indented, where its first line does not show it. -/
def incrementFor (cs : List Char) : Option Nat :=
  if cs.head?.any fun c => c = ' ' || isBreak c then some 2 else none

/-- The sign of an ending in the head of a block. -/
def chompingSign : Chomping → List Char
  | .strip => ['-']
  | .clip => []
  | .keep => ['+']

lemma blockHints_eq (cs : List Char) :
    blockHints cs =
      (if (incrementFor cs).isSome then ['2'] else []) ++ chompingSign (chompingFor cs) := by
  have hint : (incrementFor cs).isSome = cs.head?.any fun c => c = ' ' || isBreak c := by
    unfold incrementFor
    split_ifs with h <;> simp [h]
  rw [blockHints, hint]
  refine congrArg _ ?_
  unfold chompingFor
  generalize cs.reverse = reversed
  rcases reversed with _ | ⟨c, _ | ⟨d, before⟩⟩
  · rfl
  · cases h : isBreak c <;> simp [h, chompingSign]
  · cases h : isBreak c <;> cases h' : isBreak d <;> simp [h, h', chompingSign]

lemma readBlockHead_blockHints (cs rest : List Char) :
    readBlockHead (blockHints cs ++ '\n' :: rest) =
      some (⟨chompingFor cs, incrementFor cs⟩, '\n' :: rest) := by
  have said : incrementFor cs = some 2 ∨ incrementFor cs = none := by
    unfold incrementFor
    split_ifs <;> simp
  rw [blockHints_eq]
  rcases said with said | said <;> rw [said] <;> cases chompingFor cs <;> rfl

lemma skipLineEnd_lineFeed (rest : List Char) (m : Mark) :
    skipLineEnd ('\n' :: rest) m = some (rest, m.down 1) := rfl

/-- What a block gives with its ending. -/
def BlockState.textWith (s : BlockState) : Chomping → List Char
  | .strip => s.text
  | .clip => s.text ++ s.last
  | .keep => s.text ++ (s.last ++ s.empty)

lemma BlockRead.textWith {cs tail : List Char} {n : Nat} {s : BlockState}
    (h : BlockRead cs tail n s) : s.textWith (chompingFor cs) = cs := by
  have last : cs.getLast? = cs.reverse.head? := List.head?_reverse.symm
  unfold chompingFor
  split
  case h_1 nil =>
    exact h.unbroken (by simp [last, nil])
  case h_2 c before reverse =>
    have ends : cs.getLast?.any isBreak = isBreak c := by simp [last, reverse]
    split_ifs with solid
    · exact h.unbroken (ends.trans (by simpa using solid))
    · have broken := h.broken (ends.trans (by simpa using solid))
      split
      · exact broken
      · rename_i d before
        split_ifs with more
        · exact broken
        · have none : s.empty = [] := by
            by_contra filled
            -- two breaks at the end of the text would show that it does not end in one alone
            have both : ∀ e ∈ (s.last ++ s.empty).reverse, isBreak e = true := by
              simpa [or_comm] using h.breaks
            have parts : (s.last ++ s.empty).reverse ++ s.text.reverse = c :: d :: before := by
              rw [← List.reverse_append, broken, reverse]
            have lastFilled : s.last ≠ [] := by
              refine h.last fun noText => more ?_
              rw [noText, List.reverse_nil, List.append_nil] at parts
              exact both d (by simp [parts])
            have long : 2 ≤ (s.last ++ s.empty).reverse.length := by
              have := List.length_pos_of_ne_nil lastFilled
              have := List.length_pos_of_ne_nil filled
              simp only [List.length_reverse, List.length_append]
              omega
            generalize (s.last ++ s.empty).reverse = ends at both parts long
            match ends, long with
            | e :: f :: ends, _ =>
              obtain ⟨-, rfl, -⟩ : e = c ∧ f = d ∧ _ := by simpa using parts
              exact more (both f (by simp))
          simpa [BlockState.textWith, none] using broken

lemma incrementFor_eq_none {c : Char} {cs : List Char} (printable : isPrintable c = true)
    (h : incrementFor (c :: cs) = none) : isBreak c = false ∧ isBlank c = false := by
  have noHint : ¬ (c = ' ' ∨ isBreak c = true) := by
    simpa [incrementFor] using h
  obtain ⟨noSpace, solid⟩ := not_or.mp noHint
  refine ⟨by simpa using solid, ?_⟩
  cases blank : isBlank c with
  | false => rfl
  | true => exact absurd (eq_space_of_isPrintable printable blank) noSpace

/-- The lines of a text after the head of a block are read up to the next line that is less
indented. -/
def ReadsLines (known : Option Nat) (outer n fuel : Nat) (cs tail : List Char) (m : Mark) : Prop :=
  ∃ g s, readBlockGap known fuel ⟨[], 0, blockLines (outer + 2) true cs ++
      (closing cs ++ (spaces n ++ tail)), m⟩ = some g ∧
    readBlockLines true (known.getD (max g.widest (outer + 1))) (g.rest.length + 1)
      ⟨[], [], g.breaks, false, g.rest, g.mark⟩ = some s ∧ BlockRead cs tail n s

section

variable {outer n fuel : Nat} {tail : List Char} {m : Mark}

lemma readsLines_measured {c : Char} {cs : List Char} (solid : isBreak c = false)
    (noBlank : isBlank c = false) (printable : ∀ d ∈ c :: cs, isPrintable d = true)
    (less : n < outer + 2) (starts : StartsWord tail) (column : m.column = 0) :
    ReadsLines none outer n (fuel + 1) (c :: cs) tail m := by
  have gap := readBlockGap_none (outer + 2) solid noBlank (blockLines (outer + 2) false cs ++
    (closing (c :: cs) ++ (spaces n ++ tail))) column fuel
  have indent : max (outer + 2) (outer + 1) = outer + 2 := Nat.max_eq_left (Nat.le_succ _)
  obtain ⟨s, read, final⟩ := readBlockLines_blockLines printable less starts
    (s := ⟨[], [], [], false, _, m.right (outer + 2)⟩) (by simpa using solid)
    (List.cons_ne_nil c cs) (by simp [column]) rfl (Nat.lt_succ_self _)
  rw [blockLines_cons solid] at read
  refine ⟨⟨[], outer + 2, c :: (blockLines (outer + 2) false cs ++
    (closing (c :: cs) ++ (spaces n ++ tail))), m.right (outer + 2)⟩, s, ?_, ?_, final⟩
  · rw [blockLines_true solid, blockLines_cons solid, List.append_assoc]
    exact gap
  · simpa [indent] using read

lemma readsLines_breaks {breaks : List Char}
    (isBreaks : ∀ c ∈ breaks, isBreak c = true ∧ isPrintable c = true) (filled : breaks ≠ [])
    (less : n < outer + 2) (starts : StartsWord tail) (column : m.column = 0)
    (enough : breaks.length < fuel) : ReadsLines (some (outer + 2)) outer n fuel breaks tail m := by
  have onlyBreaks : ∀ c ∈ breaks, isBreak c = true := fun c hc => (isBreaks c hc).1
  have broken : breaks.getLast?.any isBreak = true := endsInBreak_append [] onlyBreaks filled
  obtain ⟨widest, m', gap, place⟩ := readBlockGap_some isBreaks (Nat.le_of_lt less)
    (fun c hc => (starts c hc).2.1) (fun _ c hc => (starts c hc).1) enough [] 0 column
  have close : closing breaks = [] := by rw [closing, broken, if_pos rfl]
  have written : blockLines (outer + 2) true breaks = breaks := by
    simpa using blockLines_breaks onlyBreaks []
  refine ⟨⟨breaks, widest, tail, m'⟩, _, ?_, readBlockLines_stop (place ▸ less), rfl, place,
    fun unbroken => ?_, fun _ => rfl, by simpa using onlyBreaks, by simp⟩
  · rw [written, close]
    exact gap
  · rw [broken] at unbroken
    cases unbroken

lemma readsLines_hinted {breaks cs : List Char} {c : Char}
    (isBreaks : ∀ c ∈ breaks, isBreak c = true ∧ isPrintable c = true) (solid : isBreak c = false)
    (printable : ∀ d ∈ c :: cs, isPrintable d = true) (less : n < outer + 2)
    (starts : StartsWord tail) (column : m.column = 0) (enough : breaks.length < fuel) :
    ReadsLines (some (outer + 2)) outer n fuel (breaks ++ c :: cs) tail m := by
  have next : ∀ d ∈ (blockLines (outer + 2) false (c :: cs) ++
      (closing (c :: cs) ++ (spaces n ++ tail))).head?, isBreak d = false := by
    rw [blockLines_cons solid]
    simpa using solid
  obtain ⟨widest, m', gap, place⟩ := readBlockGap_some isBreaks (Nat.le_refl (outer + 2)) next
    (fun lt => absurd lt (Nat.lt_irrefl _)) enough [] 0 column
  obtain ⟨s, read, final⟩ := readBlockLines_blockLines printable less starts
    (s := ⟨[], [], breaks, false, _, m'⟩) (by simpa using solid) (List.cons_ne_nil c cs) place
    rfl (Nat.lt_succ_self _)
  have close : closing (breaks ++ c :: cs) = closing (c :: cs) := by
    rw [closing, closing, List.getLast?_append_of_ne_nil _ (List.cons_ne_nil c cs)]
  have written : blockLines (outer + 2) true (breaks ++ c :: cs) =
      breaks ++ (spaces (outer + 2) ++ blockLines (outer + 2) false (c :: cs)) := by
    rw [← blockLines_true solid, blockLines_breaks fun c hc => (isBreaks c hc).1]
  refine ⟨⟨breaks, widest, _, m'⟩, s, ?_, read, by simpa using final⟩
  rw [written, close, List.append_assoc, List.append_assoc]
  exact gap

end

/-- **The lines of a text are read**, whether its head says how much they are indented or not. -/
lemma readsLines_of_printable {outer n fuel : Nat} {cs tail : List Char} {m : Mark}
    (filled : cs ≠ []) (printable : ∀ c ∈ cs, isPrintable c = true) (less : n < outer + 2)
    (starts : StartsWord tail) (column : m.column = 0) (enough : cs.length < fuel) :
    ReadsLines ((incrementFor cs).map (outer + ·)) outer n fuel cs tail m := by
  cases said : incrementFor cs with
  | none =>
    obtain ⟨c, cs, rfl⟩ := List.exists_cons_of_ne_nil filled
    obtain ⟨solid, noBlank⟩ := incrementFor_eq_none (printable c List.mem_cons_self) said
    obtain ⟨fuel, rfl⟩ := Nat.exists_eq_succ_of_ne_zero (Nat.ne_of_gt (Nat.zero_lt_of_lt enough))
    exact readsLines_measured solid noBlank printable less starts column
  | some increment =>
    obtain rfl : increment = 2 := by
      unfold incrementFor at said
      split_ifs at said
      exact (Option.some.inj said).symm
    have parts : cs.takeWhile isBreak ++ cs.dropWhile isBreak = cs := List.takeWhile_append_dropWhile
    have moreSolid := List.head?_dropWhile_not isBreak cs
    have isBreaks : ∀ c ∈ cs.takeWhile isBreak, isBreak c = true ∧ isPrintable c = true :=
      fun c hc => ⟨List.mem_takeWhile_imp hc, printable c (parts ▸ List.mem_append_left _ hc)⟩
    have few : (cs.takeWhile isBreak).length < fuel :=
      Nat.lt_of_le_of_lt (List.takeWhile_sublist _).length_le enough
    cases more : cs.dropWhile isBreak with
    | nil =>
      rw [more, List.append_nil] at parts
      have read := readsLines_breaks isBreaks (parts.symm ▸ filled) less starts column few
      rwa [parts] at read
    | cons c rest =>
      rw [more] at parts moreSolid
      have later : ∀ d ∈ c :: rest, isPrintable d = true := fun d hd =>
        printable d (parts ▸ List.mem_append_right _ hd)
      have read := readsLines_hinted isBreaks moreSolid later less starts column few
      rwa [parts] at read

/-- **A text written as a block is read** up to the next line that is less indented. -/
lemma readBlock_blockLines {outer n : Nat} {cs tail : List Char} (filled : cs ≠ [])
    (printable : ∀ c ∈ cs, isPrintable c = true) (less : n < outer + 2) (starts : StartsWord tail)
    (m : Mark) :
    ∃ m', readBlock true (some outer) m (blockHints cs ++ '\n' ::
        (blockLines (outer + 2) true cs ++ (closing cs ++ (spaces n ++ tail)))) =
      some ⟨cs, tail, m'⟩ ∧ m'.column = n := by
  have enough : cs.length <
      (blockLines (outer + 2) true cs ++ (closing cs ++ (spaces n ++ tail))).length + 1 := by
    rw [List.length_append]
    exact Nat.lt_succ_of_le (Nat.le_trans (length_le_blockLines true cs) (Nat.le_add_right _ _))
  obtain ⟨g, s, gap, read, final⟩ := readsLines_of_printable filled printable less starts
    (m := (m.right (blockHints cs).length).down 1) rfl enough
  refine ⟨s.mark, ?_, final.column⟩
  rw [readBlock, readBlockHead_blockHints]
  have width : (blockHints cs ++ '\n' :: (blockLines (outer + 2) true cs ++
      (closing cs ++ (spaces n ++ tail)))).length - ('\n' :: (blockLines (outer + 2) true cs ++
      (closing cs ++ (spaces n ++ tail)))).length = (blockHints cs).length := by simp
  have ending := final.textWith
  simp only [Option.bind_eq_bind, Option.bind_some, width, skipLineEnd_lineFeed, Option.getD_some]
  rw [gap]
  simp only [Option.bind_some, read, final.rest]
  cases said : chompingFor cs <;> rw [said] at ending <;>
    simpa [BlockState.textWith] using ending

end FeatureBatch.Yaml
