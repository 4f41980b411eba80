import Mathlib.Data.List.DropRight
import Mathlib.Tactic.Common
import FeatureBatch.Text.Blank

/-!
What trimming does. It takes blanks off both ends and nothing else, what is left neither begins nor
ends with a blank, and so blanks around a text make no difference to it, nor to its words. Where a
text is split at a character that is not blank, blanks around the text are blanks before its first
part and after its last.
-/

namespace FeatureBatch.Text

/-- A list of characters with blanks before it and after it. -/
def Padded (s t : List Char) : Prop :=
  ∃ u v, u.all isBlank = true ∧ v.all isBlank = true ∧ t = u ++ s ++ v

lemma trimStart_append_blank {u : List Char} (hu : u.all isBlank = true) (s : List Char) :
    trimStart (u ++ s) = trimStart s :=
  List.dropWhile_append_of_pos (List.all_eq_true.mp hu)

lemma trimStart_blank {u : List Char} (hu : u.all isBlank = true) : trimStart u = [] := by
  simpa [trimStart] using trimStart_append_blank hu []

lemma trimStart_cons_of_not_blank {c : Char} (hc : isBlank c = false) (s : List Char) :
    trimStart (c :: s) = c :: s :=
  List.dropWhile_cons_of_neg (by simp [hc])

lemma trimEnd_append_blank (s : List Char) {v : List Char} (hv : v.all isBlank = true) :
    trimEnd (s ++ v) = trimEnd s := by
  rw [trimEnd, List.reverse_append, List.dropWhile_append_of_pos, trimEnd]
  simpa using hv

lemma padded_trim (s : List Char) : Padded (trim s) s := by
  refine ⟨s.takeWhile isBlank, ((trimStart s).reverse.takeWhile isBlank).reverse, ?_, ?_, ?_⟩
  · exact List.all_takeWhile
  · rw [List.all_reverse]
    exact List.all_takeWhile
  · rw [trim, trimEnd, List.append_assoc, ← List.reverse_append, List.takeWhile_append_dropWhile,
      List.reverse_reverse, trimStart, List.takeWhile_append_dropWhile]

lemma Padded.trim_eq {s t : List Char} (h : Padded s t) : trim t = trim s := by
  obtain ⟨u, v, hu, hv, rfl⟩ := h
  have start : trimStart (u ++ s ++ v) = trimStart (s ++ v) := by
    rw [List.append_assoc, trimStart_append_blank hu]
  rw [trim, start, trimStart, List.dropWhile_append]
  split
  · rename_i blank
    have none : trimStart s = [] := by simpa [trimStart] using blank
    rw [trim, none, ← trimStart, trimStart_blank hv]
  · rw [trimEnd_append_blank _ hv, ← trimStart, trim]

lemma Padded.allBlank_eq {s t : List Char} (h : Padded s t) : allBlank t = allBlank s := by
  obtain ⟨u, v, hu, hv, rfl⟩ := h
  rw [allBlank, List.all_append, List.all_append, hu, hv, Bool.true_and, Bool.and_true, allBlank]

lemma Padded.eq_of_free {s t : List Char} (h : Padded s t) (free : t.any isBlank = false) :
    t = s := by
  obtain ⟨u, v, hu, hv, rfl⟩ := h
  have none {w : List Char} (blank : w.all isBlank = true) (free : w.any isBlank = false) :
      w = [] := by
    cases w with
    | nil => rfl
    | cons b w =>
      rw [List.all_cons, Bool.and_eq_true] at blank
      rw [List.any_cons, blank.1, Bool.true_or] at free
      cases free
  rw [List.any_append, List.any_append, Bool.or_eq_false_iff, Bool.or_eq_false_iff] at free
  rw [none hu free.1.1, none hv free.2, List.nil_append, List.append_nil]

@[simp] lemma trim_trim (s : List Char) : trim (trim s) = trim s := (padded_trim s).trim_eq.symm

lemma mem_of_mem_trim {c : Char} {s : List Char} (mem : c ∈ trim s) : c ∈ s := by
  obtain ⟨u, v, -, -, whole⟩ := padded_trim s
  rw [whole]
  exact List.mem_append_left v (List.mem_append_right u mem)

lemma trimEnd_trimEnd (s : List Char) : trimEnd (trimEnd s) = trimEnd s := by
  rw [trimEnd, trimEnd, List.reverse_reverse, List.dropWhile_idempotent]

lemma trimEnd_cons_of_not_blank {c : Char} (hc : isBlank c = false) (s : List Char) :
    trimEnd (c :: s) = c :: trimEnd s := by
  rw [trimEnd, List.reverse_cons, List.dropWhile_append, trimEnd]
  split
  · rename_i blank
    have none : s.reverse.dropWhile isBlank = [] := by simpa using blank
    rw [none, List.dropWhile_cons_of_neg (by simp [hc])]
    rfl
  · rw [List.reverse_append]
    rfl

lemma trim_cons_trim {c : Char} (hc : isBlank c = false) (s : List Char) :
    trim (c :: trim s) = c :: trim s := by
  rw [trim, trimStart_cons_of_not_blank hc, trimEnd_cons_of_not_blank hc, trim, trimEnd_trimEnd]

lemma mem_of_mem_splitOn {α : Type} [BEq α] [LawfulBEq α] {sep : α} {s : List α} :
    ∀ part ∈ s.splitOn sep, ∀ c ∈ part, c ∈ s ∧ c ≠ sep := by
  induction s with
  | nil => simp
  | cons a s ih =>
    have later : ∀ part ∈ s.splitOn sep, ∀ c ∈ part, c ∈ a :: s ∧ c ≠ sep := fun part mem c inside =>
      (ih part mem c inside).imp_left (List.mem_cons_of_mem a)
    rw [List.splitOn_cons_eq_if_modifyHead]
    split
    · simpa using later
    · rename_i other
      cases split : s.splitOn sep with
      | nil => simp
      | cons first rest =>
        rw [split, List.forall_mem_cons] at later
        refine List.forall_mem_cons.mpr ⟨List.forall_mem_cons.mpr ⟨?_, later.1⟩, later.2⟩
        exact ⟨List.mem_cons_self, fun same => other (beq_iff_eq.mpr same)⟩

lemma mem_of_mem_intercalate {α : Type} {sep : List α} {parts : List (List α)} {c : α}
    (mem : c ∈ sep.intercalate parts) : c ∈ sep ∨ ∃ part ∈ parts, c ∈ part := by
  induction parts with
  | nil => simp at mem
  | cons part parts ih =>
    by_cases last : parts = []
    · exact .inr ⟨part, List.mem_cons_self, by simpa [last] using mem⟩
    · rw [List.intercalate_cons_of_ne_nil last, List.mem_append, List.mem_append] at mem
      rcases mem with (here | between) | later
      · exact .inr ⟨part, List.mem_cons_self, here⟩
      · exact .inl between
      · exact (ih later).imp id fun ⟨p, mem, inside⟩ => ⟨p, List.mem_cons_of_mem part mem, inside⟩

lemma splitOn_append_left {c : Char} {u : List Char} (hu : c ∉ u) (s : List Char) :
    (u ++ s).splitOn c = (s.splitOn c).modifyHead (u ++ ·) := by
  induction u with
  | nil => exact (congrFun List.modifyHead_id _).symm
  | cons a u ih =>
    obtain ⟨other, hu⟩ : c ≠ a ∧ c ∉ u := by simpa using hu
    rw [List.cons_append, List.splitOn_cons_eq_if_modifyHead, ih hu, List.modifyHead_modifyHead]
    simp [other.symm, Function.comp_def]

lemma splitOn_append_right {c : Char} (s : List Char) {v : List Char} (hv : c ∉ v) :
    ∃ parts last, s.splitOn c = parts ++ [last] ∧ (s ++ v).splitOn c = parts ++ [last ++ v] := by
  induction s with
  | nil => exact ⟨[], [], by simp, by simpa using splitOn_append_left hv []⟩
  | cons a s ih =>
    obtain ⟨parts, last, split, split'⟩ := ih
    by_cases at_c : a = c
    · exact ⟨[] :: parts, last, by simp [List.splitOn_cons_eq_if_modifyHead, at_c, split],
        by simp [List.splitOn_cons_eq_if_modifyHead, at_c, split']⟩
    · cases parts with
      | nil => exact ⟨[], a :: last, by simp [List.splitOn_cons_eq_if_modifyHead, at_c, split],
          by simp [List.splitOn_cons_eq_if_modifyHead, at_c, split']⟩
      | cons part parts => exact ⟨(a :: part) :: parts, last,
          by simp [List.splitOn_cons_eq_if_modifyHead, at_c, split],
          by simp [List.splitOn_cons_eq_if_modifyHead, at_c, split']⟩

/-! ### Words -/

lemma words_append_cons (s t : List Char) {b : Char} (hb : isBlank b = true) :
    words (s ++ b :: t) = words s ++ words t := by
  rw [words, List.splitOnP_append_cons s t hb, List.filter_append]
  rfl

lemma words_blank_append {u : List Char} (hu : u.all isBlank = true) (s : List Char) :
    words (u ++ s) = words s := by
  induction u with
  | nil => rfl
  | cons b u ih =>
    rw [List.all_cons, Bool.and_eq_true] at hu
    exact (words_append_cons [] (u ++ s) hu.1).trans (ih hu.2)

lemma Padded.words_eq {s t : List Char} (h : Padded s t) : words t = words s := by
  obtain ⟨u, v, hu, hv, rfl⟩ := h
  rw [List.append_assoc, words_blank_append hu]
  cases v with
  | nil => rw [List.append_nil]
  | cons b v =>
    rw [List.all_cons, Bool.and_eq_true] at hv
    have none : words v = [] := by simpa [words] using words_blank_append hv.2 []
    rw [words_append_cons s v hv.1, none, List.append_nil]

/-! ### Small letters -/

lemma isBlank_toLower (c : Char) : isBlank c.toLower = isBlank c := by
  by_cases low : c.toNat < 0x80
  · have all : ∀ n < 0x80, isBlank (Char.ofNat n).toLower = isBlank (Char.ofNat n) := by decide
    have here := all c.toNat low
    rwa [Char.ofNat_toNat] at here
  · have capital : ¬(c.val ≥ 'A'.val ∧ c.val ≤ 'Z'.val) := fun between => by
      have most : c.toNat ≤ 90 := between.2
      omega
    have same : c.toLower = c := dif_neg capital
    rw [same]

lemma any_foldAscii (s : List Char) : (foldAscii s).any isBlank = s.any isBlank := by
  rw [foldAscii, List.any_map]
  exact congrArg s.any (funext isBlank_toLower)

end FeatureBatch.Text
