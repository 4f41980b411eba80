import Mathlib.Logic.Relation
import FeatureBatch.TagSelector
import FeatureBatch.Proofs.Text.Blank

/-!
What a tag selector takes: the tags that meet every expression which names a tag, where an
expression is met by any alternative that holds. Nothing else about the spelling counts, so the
order of expressions, alternatives and tags, their repetition, the blanks around them and those
that name no tag make no difference.
-/

namespace FeatureBatch

open Text

namespace TagSelector

/-! ### What expressions say -/

/-- The alternatives of an expression, which are what stands between its commas. -/
def alternatives (expression : String) : List String :=
  (expression.toList.splitOn ',').map String.ofList

def isNegated (alternative : String) : Bool := (trim alternative.toList).head? = some '~'

/-- The tag of an alternative: what is left after trimming, taking off one `~`, and trimming. -/
def namedTag (alternative : String) : List Char :=
  trim (if isNegated alternative then (trim alternative.toList).tail else trim alternative.toList)

/-- The alternative is blank. -/
def NamesNothing (alternative : String) : Prop :=
  namedTag alternative = [] ∨ namedTag alternative = ['@']

/-- The tag is among the tags, blanks and a missing `@` apart. -/
def HasTag (tags : List String) (tag : List Char) : Prop :=
  ∃ t ∈ tags, canonicalTag t.toList = canonicalTag tag

/-- The alternative holds of the tags: its tag is there, or it is not if it is negated. -/
def Holds (tags : List String) (alternative : String) : Prop :=
  if isNegated alternative then ¬ HasTag tags (namedTag alternative)
  else HasTag tags (namedTag alternative)

/-- An expression without an alternative that is not blank. -/
def SaysNothing (expression : String) : Prop := ∀ a ∈ alternatives expression, NamesNothing a

/-- Some alternative of the expression, not a blank one, holds of the tags. -/
def Meets (tags : List String) (expression : String) : Prop :=
  ∃ a ∈ alternatives expression, ¬ NamesNothing a ∧ Holds tags a

instance (alternative : String) : Decidable (NamesNothing alternative) :=
  inferInstanceAs (Decidable (_ ∨ _))

lemma ofText?_eq (alternative : String) :
    TagAlternative.ofText? alternative.toList =
      if NamesNothing alternative then none
      else some ⟨canonicalTag (namedTag alternative), isNegated alternative⟩ := by
  have trimmed : trim (trim alternative.toList) = trim alternative.toList := trim_trim _
  cases spelled : trim alternative.toList with
  | nil =>
    rw [spelled] at trimmed
    simp [TagAlternative.ofText?, NamesNothing, namedTag, isNegated, spelled, trimmed]
  | cons c rest =>
    rw [spelled] at trimmed
    by_cases tilde : c = '~'
    · subst tilde
      simp [TagAlternative.ofText?, NamesNothing, namedTag, isNegated, spelled]
    · simp [TagAlternative.ofText?, NamesNothing, namedTag, isNegated, spelled, tilde, trimmed]

lemma mem_clauseOfText {expression : String} {alt : TagAlternative} :
    alt ∈ clauseOfText expression.toList ↔ ∃ a ∈ alternatives expression, ¬ NamesNothing a ∧
      alt = ⟨canonicalTag (namedTag a), isNegated a⟩ := by
  rw [clauseOfText, List.mem_filterMap]
  constructor
  · rintro ⟨cs, mem, spelled⟩
    refine ⟨String.ofList cs, List.mem_map_of_mem mem, ?_⟩
    have := ofText?_eq (String.ofList cs)
    rw [String.toList_ofList, spelled] at this
    split at this
    · cases this
    · rename_i names
      exact ⟨names, by simpa using this⟩
  · rintro ⟨a, mem, names, rfl⟩
    obtain ⟨cs, part, rfl⟩ := List.mem_map.mp mem
    refine ⟨cs, part, ?_⟩
    have := ofText?_eq (String.ofList cs)
    rw [String.toList_ofList] at this
    rw [this, if_neg names]

lemma satisfied_iff (tags : List String) (a : String) :
    TagAlternative.satisfied ⟨canonicalTag (namedTag a), isNegated a⟩
      (tags.map fun t => canonicalTag t.toList) = true ↔ Holds tags a := by
  have has : (tags.map fun t => canonicalTag t.toList).contains (canonicalTag (namedTag a)) = true ↔
      HasTag tags (namedTag a) := by
    rw [List.contains_iff_mem, List.mem_map]
    rfl
  unfold TagAlternative.satisfied Holds
  rw [← has]
  by_cases negated : isNegated a <;> simp [negated]

lemma any_clauseOfText (tags : List String) (expression : String) :
    ((clauseOfText expression.toList).any fun alt =>
      alt.satisfied (tags.map fun t => canonicalTag t.toList)) = true ↔ Meets tags expression := by
  rw [List.any_eq_true]
  constructor
  · rintro ⟨alt, mem, holds⟩
    obtain ⟨a, ha, names, rfl⟩ := mem_clauseOfText.mp mem
    exact ⟨a, ha, names, (satisfied_iff tags a).mp holds⟩
  · rintro ⟨a, ha, names, holds⟩
    exact ⟨_, mem_clauseOfText.mpr ⟨a, ha, names, rfl⟩, (satisfied_iff tags a).mpr holds⟩

lemma clauseOfText_eq_nil (expression : String) :
    clauseOfText expression.toList = [] ↔ SaysNothing expression := by
  rw [List.eq_nil_iff_forall_not_mem]
  constructor
  · intro none a ha
    by_contra names
    exact none _ (mem_clauseOfText.mpr ⟨a, ha, names, rfl⟩)
  · intro nothing alt mem
    obtain ⟨a, ha, names, -⟩ := mem_clauseOfText.mp mem
    exact names (nothing a ha)

lemma accepts_parse (expressions tags : List String) :
    (parse expressions).accepts tags = true ↔
      ∀ e ∈ expressions, ¬ SaysNothing e → Meets tags e := by
  simp only [accepts, parse, List.all_eq_true, List.mem_filter, List.mem_map]
  constructor
  · intro all e he counts
    refine (any_clauseOfText tags e).mp (all _ ⟨⟨e, he, rfl⟩, ?_⟩)
    simpa [clauseOfText_eq_nil] using counts
  · rintro all clause ⟨⟨e, he, rfl⟩, counts⟩
    refine (any_clauseOfText tags e).mpr (all e he ?_)
    simpa [clauseOfText_eq_nil] using counts

/-! ### What makes no difference -/

/-- A list of texts told in another way: in another order, with one told again, with blanks around
one, or with one more that counts for nothing. -/
inductive Retold (Nothing : String → Prop) : List String → List String → Prop
  | reorder {l l' : List String} (perm : l.Perm l') : Retold Nothing l l'
  | again {l : List String} {s : String} (mem : s ∈ l) : Retold Nothing l (s :: l)
  | pad (before : List String) {after : List String} {s t : String}
      (padded : Padded s.toList t.toList) :
      Retold Nothing (before ++ s :: after) (before ++ t :: after)
  | add {l : List String} {s : String} (nothing : Nothing s) : Retold Nothing l (s :: l)

/-- Any number of such steps, in either direction. -/
abbrev Alike (Nothing : String → Prop) : List String → List String → Prop :=
  Relation.EqvGen (Retold Nothing)

/-- Whether some text of the list has a property is told alike, if blanks around a text make no
difference to the property and what counts for nothing does not have it. -/
lemma Alike.exists_iff {Nothing P : String → Prop} {l l' : List String} (h : Alike Nothing l l')
    (padded : ∀ s t : String, Padded s.toList t.toList → (P s ↔ P t))
    (nothing : ∀ s, Nothing s → ¬ P s) : (∃ s ∈ l, P s) ↔ ∃ s ∈ l', P s := by
  induction h with
  | rel l l' step =>
    cases step with
    | reorder perm => simp only [perm.mem_iff]
    | again mem => exact ⟨fun ⟨s, hs, has⟩ => ⟨s, .tail _ hs, has⟩, fun ⟨s, hs, has⟩ =>
        ⟨s, (List.mem_cons.mp hs).elim (fun eq => eq ▸ mem) id, has⟩⟩
    | pad before around => simp [or_and_right, exists_or, padded _ _ around]
    | add none => simp [nothing _ none]
  | refl l => rfl
  | symm l l' _ ih => exact ih.symm
  | trans l l' l'' _ _ ih ih' => exact ih.trans ih'

lemma canonicalTag_padded {s t : List Char} (h : Padded s t) : canonicalTag t = canonicalTag s := by
  rw [canonicalTag, canonicalTag, h.trim_eq]

lemma isNegated_padded {a b : String} (h : Padded a.toList b.toList) :
    isNegated b = isNegated a := by
  rw [isNegated, isNegated, h.trim_eq]

lemma namedTag_padded {a b : String} (h : Padded a.toList b.toList) : namedTag b = namedTag a := by
  rw [namedTag, namedTag, isNegated_padded h, h.trim_eq]

lemma namesNothing_padded {a b : String} (h : Padded a.toList b.toList) :
    NamesNothing b ↔ NamesNothing a := by
  rw [NamesNothing, NamesNothing, namedTag_padded h]

lemma holds_padded (tags : List String) {a b : String} (h : Padded a.toList b.toList) :
    Holds tags b ↔ Holds tags a := by
  rw [Holds, Holds, isNegated_padded h, namedTag_padded h]

lemma saysNothing_alike {e e' : String}
    (h : Alike NamesNothing (alternatives e) (alternatives e')) :
    SaysNothing e ↔ SaysNothing e' := by
  have some_names := h.exists_iff (P := fun a => ¬ NamesNothing a)
    (fun a b around => (namesNothing_padded around).symm.not) fun a nothing => not_not.mpr nothing
  simpa [SaysNothing] using some_names.not

lemma meets_alike (tags : List String) {e e' : String}
    (h : Alike NamesNothing (alternatives e) (alternatives e')) : Meets tags e ↔ Meets tags e' :=
  h.exists_iff (fun a b around => by rw [namesNothing_padded around, holds_padded tags around])
    fun a nothing holds => holds.1 nothing

lemma comma_not_mem_blank {u : List Char} (hu : u.all isBlank = true) : ',' ∉ u := fun mem =>
  absurd (List.all_eq_true.mp hu _ mem) (by decide)

/-- A tag that names nothing. -/
def IsBlankTag (tag : String) : Prop := trim tag.toList = [] ∨ trim tag.toList = ['@']

lemma canonicalTag_of_blank {tag : String} (blank : IsBlankTag tag) :
    canonicalTag tag.toList = ['@'] := by
  rcases blank with trimmed | trimmed <;> simp [canonicalTag, trimmed]

lemma canonicalTag_namedTag_ne {a : String} (names : ¬ NamesNothing a) :
    canonicalTag (namedTag a) ≠ ['@'] := by
  have trimmed : trim (namedTag a) = namedTag a := trim_trim _
  rw [NamesNothing, not_or] at names
  rw [canonicalTag, trimmed]
  split
  · exact names.2
  · simpa using names.1

lemma meets_tags_alike {tags tags' : List String} (h : Alike IsBlankTag tags tags') (e : String) :
    Meets tags e ↔ Meets tags' e := by
  have has (a : String) (names : ¬ NamesNothing a) :
      HasTag tags (namedTag a) ↔ HasTag tags' (namedTag a) :=
    h.exists_iff (fun s t around => by rw [canonicalTag_padded around]) fun s blank eq =>
      canonicalTag_namedTag_ne names (by rw [← eq, canonicalTag_of_blank blank])
  refine exists_congr fun a => and_congr_right fun _ => and_congr_right fun names => ?_
  rw [Holds, Holds, has a names]

lemma alternatives_padded {e e' : String} (h : Padded e.toList e'.toList) :
    Alike NamesNothing (alternatives e) (alternatives e') := by
  obtain ⟨u, v, hu, hv, spelled⟩ := h
  obtain ⟨parts, last, split, split'⟩ :=
    splitOn_append_right (u ++ e.toList) (comma_not_mem_blank hv)
  have after : Alike NamesNothing (parts.map String.ofList ++ [String.ofList last])
      (alternatives e') := by
    rw [alternatives, spelled, split', List.map_append]
    exact .rel _ _ (.pad _ ⟨[], v, rfl, hv, by simp⟩)
  have before : Alike NamesNothing (alternatives e)
      (parts.map String.ofList ++ [String.ofList last]) := by
    have eq : parts.map String.ofList ++ [String.ofList last] =
        ((e.toList.splitOn ',').modifyHead (u ++ ·)).map String.ofList := by
      rw [← splitOn_append_left (comma_not_mem_blank hu), split, List.map_append]
      rfl
    rw [eq, alternatives]
    cases first : e.toList.splitOn ',' with
    | nil => exact (List.splitOn_ne_nil _ _ first).elim
    | cons part parts => exact .rel _ _ (.pad [] ⟨u, [], hu, rfl, by simp⟩)
  exact before.trans _ _ _ after

lemma accepts_eq_of_exists {expressions expressions' tags tags' : List String}
    (h : (∃ e ∈ expressions, ¬ SaysNothing e ∧ ¬ Meets tags e) ↔
      ∃ e ∈ expressions', ¬ SaysNothing e ∧ ¬ Meets tags' e) :
    (parse expressions').accepts tags' = (parse expressions).accepts tags := by
  rw [Bool.eq_iff_iff, accepts_parse, accepts_parse]
  simpa using h.symm.not

/-- **What a tag selector takes.** It takes the tags that meet every expression with an alternative
that is not blank, and an expression is met by an alternative that is not blank and holds of the
tags. Telling the expressions, the alternatives or the tags in another order or again, with blanks
around them or with blank ones among them, makes no difference, and the expressions of two lists
together take what those of both lists take. -/
theorem accepts_iff_meets (expressions tags : List String) :
    ((parse expressions).accepts tags = true ↔
      ∀ e ∈ expressions, (∃ a ∈ alternatives e, ¬ NamesNothing a) →
        ∃ a ∈ alternatives e, ¬ NamesNothing a ∧ Holds tags a) ∧
    (∀ expressions', Alike SaysNothing expressions expressions' →
      (parse expressions').accepts tags = (parse expressions).accepts tags) ∧
    (∀ expressions', List.Forall₂
      (fun e e' => Alike NamesNothing (alternatives e) (alternatives e')) expressions expressions' →
      (parse expressions').accepts tags = (parse expressions).accepts tags) ∧
    (∀ tags', Alike IsBlankTag tags tags' →
      (parse expressions).accepts tags' = (parse expressions).accepts tags) ∧
    ∀ more, (parse (expressions ++ more)).accepts tags =
      ((parse expressions).accepts tags && (parse more).accepts tags) := by
  refine ⟨?_, fun expressions' alike => ?_, fun expressions' alike => ?_, fun tags' alike => ?_,
    fun more => ?_⟩
  · simp only [accepts_parse, SaysNothing, Meets, not_forall, exists_prop]
  · refine accepts_eq_of_exists (alike.exists_iff (fun e e' around => ?_) fun e nothing h =>
      h.1 nothing)
    have same := alternatives_padded around
    rw [saysNothing_alike same, meets_alike tags same]
  · refine accepts_eq_of_exists ?_
    induction alike with
    | nil => simp
    | cons same _ ih =>
      simp [or_and_right, exists_or, ih, saysNothing_alike same, meets_alike tags same]
  · refine accepts_eq_of_exists ?_
    simp only [meets_tags_alike alike]
  · rw [Bool.eq_iff_iff, Bool.and_eq_true]
    simp only [accepts_parse, List.forall_mem_append]

end TagSelector

end FeatureBatch
