import Mathlib.Data.List.Forall2
import FeatureBatch.Run.Step

/-!
Calls that are made one after the other until one fails. So a completion makes its report calls, and
so the caller makes the calls about the whole suite.
-/

namespace FeatureBatch

section Carried

variable {α β ε : Type} {Makes : α → β → Option ε → Prop} {as done : List α} {bs made : List β}
variable {error : Option ε}

/-- `bs` is what came of the calls `as`, made in their order up to the first that failed, if one
did; `Makes a b error` says that `b` can come of the call `a`, with that error. -/
inductive Carried (Makes : α → β → Option ε → Prop) : List α → List β → Option ε → Prop where
  | all : Carried Makes [] [] none
  | next {a : α} {b : β} {as : List α} {bs : List β} {error : Option ε} (fine : Makes a b none)
      (later : Carried Makes as bs error) : Carried Makes (a :: as) (b :: bs) error
  | failed {a : α} {b : β} {as : List α} {e : ε} (fails : Makes a b (some e)) :
      Carried Makes (a :: as) [b] (some e)

/-- `made` is what came of the calls `done`, of which none failed. -/
def Passed (Makes : α → β → Option ε → Prop) (done : List α) (made : List β) : Prop :=
  List.Forall₂ (fun a b => Makes a b none) done made

lemma Passed.snoc {a : α} {b : β} (h : Passed Makes done made) (fine : Makes a b none) :
    Passed Makes (done ++ [a]) (made ++ [b]) := by
  induction h with
  | nil => exact .cons fine .nil
  | cons first later ih => exact .cons first ih

lemma Passed.carried (h : Passed Makes done made) (later : Carried Makes as bs error) :
    Carried Makes (done ++ as) (made ++ bs) error := by
  induction h with
  | nil => exact later
  | cons first h ih => exact .next first ih

lemma Passed.all (h : Passed Makes done made) : Carried Makes done made none := by
  simpa using h.carried .all

/-- **No error means that every call was made** and passed. -/
theorem carried_none_iff : Carried Makes as bs none ↔ Passed Makes as bs := by
  refine ⟨fun h => ?_, Passed.all⟩
  generalize fine : (none : Option ε) = error at h
  induction h with
  | all => exact .nil
  | next first later ih => exact .cons first (ih fine)
  | failed fails => cases fine

/-- **An error is the one of the last call** that was made, and all before it passed. -/
theorem Carried.eq_snoc {e : ε} (h : Carried Makes as bs (some e)) : ∃ done a rest made b,
    as = done ++ a :: rest ∧ bs = made ++ [b] ∧ Passed Makes done made ∧ Makes a b (some e) := by
  generalize failed : some e = error at h
  induction h with
  | all => cases failed
  | next first later ih =>
    obtain ⟨done, a, rest, made, b, rfl, rfl, passed, fails⟩ := ih failed
    exact ⟨_ :: done, a, rest, _ :: made, b, rfl, rfl, .cons first passed, fails⟩
  | failed fails =>
    cases failed
    exact ⟨[], _, _, [], _, rfl, rfl, .nil, fails⟩

lemma Carried.exists_call (h : Carried Makes as bs error) :
    ∀ b ∈ bs, ∃ a e, Makes a b e := by
  induction h with
  | all => simp
  | next first later ih =>
    intro b hb
    rw [List.mem_cons] at hb
    rcases hb with rfl | hb
    · exact ⟨_, _, first⟩
    · exact ih b hb
  | failed fails =>
    intro b hb
    rw [List.mem_singleton] at hb
    subst hb
    exact ⟨_, _, fails⟩

/-! ### What is told of the calls -/

variable {γ : Type} {f : α → Option γ} {g : β → Option γ}

lemma Passed.filterMap_eq (h : Passed Makes done made)
    (told : ∀ a b, Makes a b none → g b = f a) : made.filterMap g = done.filterMap f := by
  induction h with
  | nil => rfl
  | cons first later ih => rw [List.filterMap_cons, List.filterMap_cons, told _ _ first, ih]

lemma Carried.filterMap_sublist (h : Carried Makes as bs error)
    (told : ∀ a b, Makes a b none → g b = f a) (untold : ∀ a b e, Makes a b (some e) → g b = none) :
    (bs.filterMap g).Sublist (as.filterMap f) := by
  induction h with
  | all => exact .slnil
  | next first later ih =>
    rw [List.filterMap_cons, List.filterMap_cons, told _ _ first]
    split
    · exact ih
    · exact ih.cons_cons _
  | failed fails =>
    rw [List.filterMap_cons, untold _ _ _ fails]
    exact List.nil_sublist _

end Carried

end FeatureBatch
