import Mathlib.Data.List.Basic
import Mathlib.Tactic.Common
import FeatureBatch.Yaml.Printer

/-!
Characters of written YAML texts, and the place in a text after some of them. A character that is
printable is no tab and no carriage return, so each break counts as one, and all readers stand at
the place after what they have taken.
-/

namespace FeatureBatch.Yaml

/-! ### Printable characters -/

lemma isReadable_of_isPrintable {c : Char} (h : isPrintable c = true) : isReadable c = true := by
  simp only [isPrintable, isReadable, Bool.or_eq_true, Bool.and_eq_true, beq_iff_eq,
    decide_eq_true_eq, bne_iff_ne] at h ⊢
  omega

lemma isBreak_iff {c : Char} : isBreak c = true ↔
    c = '\n' ∨ c = '\r' ∨ c = '\u0085' ∨ c = '\u2028' ∨ c = '\u2029' := by
  simp [isBreak, or_assoc]

lemma isBlank_iff {c : Char} : isBlank c = true ↔ c = ' ' ∨ c = '\t' := by simp [isBlank]

lemma break_of_isPrintable {c : Char} (printable : isPrintable c = true) (h : isBreak c = true) :
    c = '\n' ∨ c = '\u2028' ∨ c = '\u2029' := by
  rcases isBreak_iff.mp h with rfl | rfl | rfl | rfl | rfl <;> simp_all +decide

lemma eq_space_of_isPrintable {c : Char} (printable : isPrintable c = true)
    (h : isBlank c = true) : c = ' ' := by
  rcases isBlank_iff.mp h with rfl | rfl
  · rfl
  · exact absurd printable (by decide)

lemma ne_of_isPrintable {c d : Char} (printable : isPrintable c = true)
    (h : isPrintable d = false := by decide) : c ≠ d := by
  rintro rfl
  simp [printable] at h

lemma breakChar_of_isPrintable {c : Char} (printable : isPrintable c = true)
    (h : isBreak c = true) : breakChar c = c := by
  rcases break_of_isPrintable printable h with rfl | rfl | rfl <;> rfl

/-! ### Neighbours -/

lemma neighbours_cons (c : Char) (cs : List Char) :
    neighbours (c :: cs) = cs.head?.toList.map (c, ·) ++ neighbours cs := by
  cases cs <;> rfl

lemma isSpecial_cons {c : Char} {cs : List Char} (h : isSpecial (c :: cs) = false) :
    isPrintable c = true ∧ (c = ' ' → ∀ d ∈ cs.head?, isBreak d = false) ∧
      isSpecial cs = false := by
  simp only [isSpecial, neighbours_cons, List.any_cons, List.any_append, List.any_map,
    Bool.or_eq_false_iff] at h ⊢
  obtain ⟨⟨printable, printables⟩, next, others⟩ := h
  refine ⟨by simpa using printable, ?_, printables, others⟩
  rintro rfl d hd
  rw [Option.mem_def.mp hd] at next
  simpa using next

lemma isPrintable_of_isSpecial {cs : List Char} (h : isSpecial cs = false) :
    ∀ c ∈ cs, isPrintable c = true := by
  simp only [isSpecial, Bool.or_eq_false_iff, List.any_eq_false] at h
  exact fun c hc => by simpa using h.1 c hc

lemma hasBlankAfterBreak_cons {c : Char} {cs : List Char}
    (h : hasBlankAfterBreak (c :: cs) = false) :
    (isBreak c = true → cs.head? ≠ some ' ') ∧ hasBlankAfterBreak cs = false := by
  simp only [hasBlankAfterBreak, neighbours_cons, List.any_append, List.any_map,
    Bool.or_eq_false_iff] at h ⊢
  refine ⟨fun isBreak next => ?_, h.2⟩
  simp [next, isBreak] at h

/-! ### Places -/

namespace Mark

@[simp] lemma right_zero (m : Mark) : m.right 0 = m := rfl

@[simp] lemma right_right (m : Mark) (a b : Nat) : (m.right a).right b = m.right (a + b) := by
  simp [right, Nat.add_assoc]

@[simp] lemma right_column (m : Mark) (n : Nat) : (m.right n).column = m.column + n := rfl

@[simp] lemma right_line (m : Mark) (n : Nat) : (m.right n).line = m.line := rfl

@[simp] lemma right_index (m : Mark) (n : Nat) : (m.right n).index = m.index + n := rfl

@[simp] lemma down_column (m : Mark) (n : Nat) : (m.down n).column = 0 := rfl

@[simp] lemma down_line (m : Mark) (n : Nat) : (m.down n).line = m.line + 1 := rfl

/-- The place after some text in which every break is one character. -/
def after (m : Mark) (cs : List Char) : Mark :=
  cs.foldl (fun m c => if isBreak c then m.down 1 else m.right 1) m

@[simp] lemma after_nil (m : Mark) : m.after [] = m := rfl

lemma after_cons (m : Mark) (c : Char) (cs : List Char) :
    m.after (c :: cs) = (if isBreak c then m.down 1 else m.right 1).after cs := rfl

lemma after_break {c : Char} (h : isBreak c = true) (m : Mark) (cs : List Char) :
    m.after (c :: cs) = (m.down 1).after cs := by
  rw [after_cons, if_pos h]

lemma after_solid {c : Char} (h : isBreak c = false) (m : Mark) (cs : List Char) :
    m.after (c :: cs) = (m.right 1).after cs := by
  rw [after_cons, h, if_neg Bool.false_ne_true]

lemma after_append (m : Mark) (cs ds : List Char) : m.after (cs ++ ds) = (m.after cs).after ds :=
  List.foldl_append

lemma after_line {cs : List Char} (h : ∀ c ∈ cs, isBreak c = false) (m : Mark) :
    m.after cs = m.right cs.length := by
  induction cs generalizing m with
  | nil => rfl
  | cons c cs ih =>
    rw [after_solid (h c List.mem_cons_self), ih fun d hd => h d (List.mem_cons_of_mem c hd),
      right_right, List.length_cons, Nat.add_comm]

lemma line_le_after (m : Mark) (cs : List Char) : m.line ≤ (m.after cs).line := by
  induction cs generalizing m with
  | nil => exact Nat.le_refl _
  | cons c cs ih =>
    rw [after_cons]
    split
    · exact Nat.le_trans (Nat.le_succ _) (ih (m.down 1))
    · exact ih (m.right 1)

@[simp] lemma after_spaces (m : Mark) (n : Nat) : m.after (spaces n) = m.right n := by
  rw [after_line (fun c hc => by rw [List.eq_of_mem_replicate hc]; decide), spaces,
    List.length_replicate]

end Mark

/-! ### Breaks and gaps -/

lemma takeBreak_break {c : Char} (printable : isPrintable c = true) (h : isBreak c = true)
    (rest : List Char) (m : Mark) : takeBreak (c :: rest) m = some (c, rest, m.down 1) := by
  have ne := ne_of_isPrintable (d := '\r') printable
  rw [takeBreak, if_pos h, breakChar_of_isPrintable printable h]
  exact fun _ same _ => ne same

lemma takeBreak_solid {c : Char} (h : isBreak c = false) (rest : List Char) (m : Mark) :
    takeBreak (c :: rest) m = none := by
  rw [takeBreak, h, if_neg Bool.false_ne_true]
  rintro rest ⟨⟩
  exact absurd h (by decide)

lemma atGap_append (cs rest : List Char) :
    atGap (cs ++ rest) = if cs = [] then atGap rest else atGap cs := by
  cases cs with
  | nil => rfl
  | cons c cs => rfl

namespace Gap

@[simp] lemma text_none : none.text = [] := rfl

@[simp] lemma broken_none : none.broken = false := rfl

lemma text_addBlank {g : Gap} (h : g.broken = false) (c : Char) :
    (g.addBlank c).text = g.text ++ [c] ∧ (g.addBlank c).broken = false := by
  simp [addBlank, text, h]

lemma text_addBreak {g : Gap} {c : Char} (ne : c ≠ '\n')
    (first : g.broken = true → g.first ≠ some '\n') (blanks : g.broken = false → g.blanks = []) :
    (g.addBreak c).text = g.text ++ [c] ∧ (g.addBreak c).broken = true ∧
      (g.addBreak c).first ≠ some '\n' := by
  cases broken : g.broken with
  | true => simp [addBreak, text, broken, first broken]
  | false => simp [addBreak, text, broken, blanks broken, ne]

lemma addBlank_of_broken {g : Gap} (h : g.broken = true) (c : Char) : g.addBlank c = g := by
  simp [addBlank, h]

end Gap

end FeatureBatch.Yaml
