import Mathlib.Data.List.Flatten
import Mathlib.Tactic.Common

/-!
Programs of several parties that take turns: merges of lists, and the lists that are left once one
party has made the next of its steps.
-/

namespace FeatureBatch

/-- The list takes the elements of the lists, each list in its own order. -/
inductive IsMerge {α : Type} : List (List α) → List α → Prop
  | nil {lists : List (List α)} (empty : ∀ l ∈ lists, l = []) : IsMerge lists []
  | cons {lists : List (List α)} {i : Nat} {x : α} {rest merged : List α}
      (next : lists[i]? = some (x :: rest)) (later : IsMerge (lists.set i rest) merged) :
      IsMerge lists (x :: merged)

namespace IsMerge

variable {α β : Type} {lists : List (List α)} {merged : List α}

lemma perm_flatten (h : IsMerge lists merged) : merged.Perm lists.flatten := by
  induction h with
  | nil empty => rw [List.flatten_eq_nil_iff.mpr empty]
  | @cons lists i x rest merged next _ ih =>
    obtain ⟨there, here⟩ := List.getElem?_eq_some_iff.mp next
    rw [List.set_eq_take_append_cons_drop, if_pos there, List.flatten_append,
      List.flatten_cons] at ih
    have split : lists.flatten =
        (lists.take i).flatten ++ x :: (rest ++ (lists.drop (i + 1)).flatten) := by
      conv_lhs => rw [← List.take_append_drop i lists, List.drop_eq_getElem_cons there, here]
      simp
    rw [split]
    exact (ih.cons x).trans List.perm_middle.symm

lemma sublist (h : IsMerge lists merged) : ∀ l ∈ lists, l.Sublist merged := by
  induction h with
  | nil empty =>
    intro l mem
    obtain rfl := empty l mem
    exact List.nil_sublist []
  | @cons lists i x rest merged next _ ih =>
    intro l mem
    obtain ⟨j, there⟩ := List.getElem?_of_mem mem
    by_cases same : i = j
    · subst same
      rw [next, Option.some_inj] at there
      subst there
      have length := (List.getElem?_eq_some_iff.mp next).1
      exact (ih rest (List.mem_set length rest)).cons_cons x
    · refine (ih l (List.mem_of_getElem? (i := j) ?_)).cons x
      rw [List.getElem?_set_ne same, there]

lemma filterMap (f : α → Option β) (h : IsMerge lists merged) :
    IsMerge (lists.map (List.filterMap f)) (merged.filterMap f) := by
  induction h with
  | nil empty =>
    refine .nil fun l mem => ?_
    obtain ⟨before, there, rfl⟩ := List.mem_map.mp mem
    rw [empty before there, List.filterMap_nil]
  | @cons lists i x rest merged next _ ih =>
    rw [List.map_set] at ih
    cases taken : f x with
    | none =>
      have here : (lists.map (List.filterMap f))[i]? = some (rest.filterMap f) := by
        rw [List.getElem?_map, next, Option.map_some, List.filterMap_cons_none taken]
      obtain ⟨there, same⟩ := List.getElem?_eq_some_iff.mp here
      rw [← same, List.set_getElem_self] at ih
      rw [List.filterMap_cons_none taken]
      exact ih
    | some y =>
      rw [List.filterMap_cons_some taken]
      refine .cons ?_ ih
      rw [List.getElem?_map, next, Option.map_some, List.filterMap_cons_some taken]

end IsMerge

/-! ### What is left -/

lemma modify_tail {α : Type} {waiting : List (List α)} {i : Nat} {x : α} {rest : List α}
    (next : waiting[i]? = some (x :: rest)) :
    waiting.modify i List.tail = waiting.set i rest := by
  rw [List.modify_eq_set, next]
  rfl

lemma length_flatten_set {α : Type} {waiting : List (List α)} {i : Nat} {x : α} {rest : List α}
    (next : waiting[i]? = some (x :: rest)) :
    (waiting.set i rest).flatten.length + 1 = waiting.flatten.length := by
  obtain ⟨there, here⟩ := List.getElem?_eq_some_iff.mp next
  rw [List.set_eq_take_append_cons_drop, if_pos there]
  conv_rhs => rw [← List.take_append_drop i waiting, List.drop_eq_getElem_cons there, here]
  simp
  omega

end FeatureBatch
