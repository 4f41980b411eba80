import FeatureBatch.Proofs.TagSelector

/-!
Selectors as text. What a selector shows can be split at `&&` and read again, and gives the same
selector, unless it takes everything; so selectors that show the same are the same. This needs
expressions without `&`, which is the only character of the text that a tag could imitate.
-/

namespace FeatureBatch

open Text

namespace Text

/-! ### Splitting at a mark -/

/-- The pieces of a text between the occurrences of a mark, which are looked for from the left and
do not overlap; the first characters of the text, `skip` of them, still belong to an occurrence. -/
def piecesAfter (mark : List Char) : (skip : Nat) → List Char → List (List Char)
  | _, [] => [[]]
  | skip + 1, _ :: s => piecesAfter mark skip s
  | 0, c :: s =>
    if mark.isPrefixOf (c :: s) then [] :: piecesAfter mark (mark.length - 1) s
    else (piecesAfter mark 0 s).modifyHead (c :: ·)

/-- A text split at a mark that is not empty. -/
def splitAtMark (mark s : String) : List String :=
  (piecesAfter mark.toList 0 s.toList).map String.ofList

lemma piecesAfter_append (mark u s : List Char) :
    piecesAfter mark u.length (u ++ s) = piecesAfter mark 0 s := by
  induction u with
  | nil => rfl
  | cons c u ih => exact ih

variable {a b : Char} {more : List Char}

lemma not_isPrefixOf {s : List Char} (c : Char) (next : s.head? ≠ some b) :
    (a :: b :: more).isPrefixOf (c :: s) = false := by
  rw [Bool.eq_false_iff, ne_eq, List.isPrefixOf_iff_prefix]
  rintro ⟨rest, whole⟩
  obtain ⟨-, rfl⟩ := List.cons.inj whole
  exact next rfl

lemma piecesAfter_eq_singleton {piece : List Char} (free : b ∉ piece) :
    piecesAfter (a :: b :: more) 0 piece = [piece] := by
  induction piece with
  | nil => rfl
  | cons c piece ih =>
    have rest : b ∉ piece := fun mem => free (List.mem_cons_of_mem c mem)
    have next : piece.head? ≠ some b := fun first => rest (List.mem_of_head? first)
    rw [piecesAfter, not_isPrefixOf c next, ih rest]
    rfl

lemma piecesAfter_piece (differ : a ≠ b) {piece : List Char} (free : b ∉ piece) (s : List Char) :
    piecesAfter (a :: b :: more) 0 (piece ++ (a :: b :: more) ++ s) =
      piece :: piecesAfter (a :: b :: more) 0 s := by
  induction piece with
  | nil =>
    have here : (a :: b :: more).isPrefixOf (a :: (b :: more ++ s)) = true :=
      List.isPrefixOf_iff_prefix.mpr ⟨s, rfl⟩
    rw [List.nil_append, List.cons_append, piecesAfter, here, if_pos rfl]
    exact congrArg _ (piecesAfter_append (a :: b :: more) (b :: more) s)
  | cons c piece ih =>
    have rest : b ∉ piece := fun mem => free (List.mem_cons_of_mem c mem)
    -- What follows is a character of the piece, or the first of the mark.
    have next : (piece ++ (a :: b :: more) ++ s).head? ≠ some b := by
      cases piece with
      | nil => simpa using differ
      | cons d piece =>
        have other : d ≠ b := by
          rintro rfl
          exact rest List.mem_cons_self
        simpa using other
    rw [List.cons_append, List.cons_append, piecesAfter, not_isPrefixOf c next, ih rest]
    rfl

lemma piecesAfter_intercalate (differ : a ≠ b) {pieces : List (List Char)}
    (free : ∀ piece ∈ pieces, b ∉ piece) (ne : pieces ≠ []) :
    piecesAfter (a :: b :: more) 0 ((a :: b :: more).intercalate pieces) = pieces := by
  induction pieces with
  | nil => exact absurd rfl ne
  | cons piece pieces ih =>
    have first : b ∉ piece := free piece List.mem_cons_self
    by_cases last : pieces = []
    · rw [last, List.intercalate_singleton, piecesAfter_eq_singleton first]
    · rw [List.intercalate_cons_of_ne_nil last, piecesAfter_piece differ first,
        ih (fun p mem => free p (List.mem_cons_of_mem piece mem)) last]

end Text

/-! ### Alternatives -/

lemma head?_canonicalTag (tag : List Char) : (canonicalTag tag).head? = some '@' := by
  simp only [canonicalTag]
  split
  · assumption
  · rfl

lemma trim_canonicalTag (tag : List Char) : trim (canonicalTag tag) = canonicalTag tag := by
  simp only [canonicalTag]
  split
  · exact trim_trim tag
  · exact trim_cons_trim (by decide) tag

lemma mem_canonicalTag {tag : List Char} {c : Char} (mem : c ∈ canonicalTag tag) :
    c = '@' ∨ c ∈ tag := by
  simp only [canonicalTag] at mem
  split at mem
  · exact .inr (mem_of_mem_trim mem)
  · exact (List.mem_cons.mp mem).imp id mem_of_mem_trim

/-- An alternative as reading one gives it. -/
structure TagAlternative.Canonical (alt : TagAlternative) : Prop where
  head : alt.tag.head? = some '@'
  ne : alt.tag ≠ ['@']
  trimmed : trim alt.tag = alt.tag
  comma : ',' ∉ alt.tag

namespace TagAlternative

variable {alt : TagAlternative}

lemma Canonical.trim_render (h : alt.Canonical) : trim alt.render = alt.render := by
  unfold render
  split
  · have marked := trim_cons_trim (c := '~') (by decide) alt.tag
    rwa [h.trimmed] at marked
  · exact h.trimmed

lemma Canonical.isNegated_render (h : alt.Canonical) :
    TagSelector.isNegated (String.ofList alt.render) = alt.negated := by
  rw [TagSelector.isNegated, String.toList_ofList, h.trim_render, render]
  cases alt.negated with
  | true => rfl
  | false =>
    rw [if_neg Bool.false_ne_true, h.head]
    rfl

lemma Canonical.namedTag_render (h : alt.Canonical) :
    TagSelector.namedTag (String.ofList alt.render) = alt.tag := by
  rw [TagSelector.namedTag, h.isNegated_render, String.toList_ofList, h.trim_render, render]
  cases alt.negated with
  | true => exact h.trimmed
  | false => exact h.trimmed

lemma Canonical.ofText?_render (h : alt.Canonical) : ofText? alt.render = some alt := by
  have names : ¬TagSelector.NamesNothing (String.ofList alt.render) := by
    rw [TagSelector.NamesNothing, h.namedTag_render]
    rintro (none | bare)
    · simpa [none] using h.head
    · exact h.ne bare
  have read := TagSelector.ofText?_eq (String.ofList alt.render)
  rw [if_neg names, String.toList_ofList, h.namedTag_render, h.isNegated_render] at read
  rw [read, canonicalTag, h.trimmed, if_pos h.head]

lemma mem_render {c : Char} (mem : c ∈ alt.render) : c = '~' ∨ c ∈ alt.tag := by
  unfold render at mem
  split at mem
  · exact List.mem_cons.mp mem
  · exact .inr mem

end TagAlternative

namespace TagSelector

/-! ### Clauses -/

lemma exists_namedTag {expression : String} {alt : TagAlternative}
    (mem : alt ∈ clauseOfText expression.toList) :
    ∃ part ∈ expression.toList.splitOn ',', ¬NamesNothing (String.ofList part) ∧
      alt.tag = canonicalTag (namedTag (String.ofList part)) := by
  obtain ⟨a, among, names, read⟩ := mem_clauseOfText.mp mem
  obtain ⟨part, between, rfl⟩ := List.mem_map.mp among
  exact ⟨part, between, names, by rw [read]⟩

lemma mem_of_mem_namedTag {part : List Char} {c : Char}
    (mem : c ∈ namedTag (String.ofList part)) : c ∈ part := by
  rw [namedTag, String.toList_ofList] at mem
  have within := mem_of_mem_trim mem
  split at within
  · exact mem_of_mem_trim (List.mem_of_mem_tail within)
  · exact mem_of_mem_trim within

/-- A tag of a clause is made of characters of the expression other than commas, and perhaps an `@`
before them. -/
lemma mem_tag_of_mem_clauseOfText {expression : String} {alt : TagAlternative}
    (mem : alt ∈ clauseOfText expression.toList) {c : Char} (inside : c ∈ alt.tag) :
    c = '@' ∨ c ∈ expression.toList ∧ c ≠ ',' := by
  obtain ⟨part, between, -, tag⟩ := exists_namedTag mem
  rw [tag] at inside
  exact (mem_canonicalTag inside).imp id fun named =>
    mem_of_mem_splitOn part between c (mem_of_mem_namedTag named)

lemma canonical_of_mem_clauseOfText {expression : String} {alt : TagAlternative}
    (mem : alt ∈ clauseOfText expression.toList) : alt.Canonical := by
  have comma : ',' ∉ alt.tag := fun inside => by
    rcases mem_tag_of_mem_clauseOfText mem inside with at_sign | ⟨-, differ⟩
    · exact absurd at_sign (by decide)
    · exact differ rfl
  obtain ⟨part, -, names, tag⟩ := exists_namedTag mem
  refine ⟨?_, ?_, ?_, comma⟩
  · rw [tag, head?_canonicalTag]
  · rw [tag]
    exact canonicalTag_namedTag_ne names
  · rw [tag, trim_canonicalTag]

lemma clauseOfText_renderClause {clause : List TagAlternative} (ne : clause ≠ [])
    (canonical : ∀ alt ∈ clause, alt.Canonical) : clauseOfText (renderClause clause) = clause := by
  have free : ∀ text ∈ clause.map TagAlternative.render, ',' ∉ text := by
    intro text mem comma
    obtain ⟨alt, inside, rfl⟩ := List.mem_map.mp mem
    rcases TagAlternative.mem_render comma with tilde | tag
    · exact absurd tilde (by decide)
    · exact (canonical alt inside).comma tag
  rw [clauseOfText, renderClause, List.splitOn_intercalate ',' free (by simpa using ne),
    List.filterMap_map]
  calc clause.filterMap (TagAlternative.ofText? ∘ TagAlternative.render)
    _ = clause.filterMap some :=
      List.filterMap_congr fun alt mem => (canonical alt mem).ofText?_render
    _ = clause := List.filterMap_some

/-! ### Selectors -/

/-- A selector as reading one gives it. -/
def Canonical (s : TagSelector) : Prop :=
  ∀ clause ∈ s.clauses, clause ≠ [] ∧ ∀ alt ∈ clause, alt.Canonical

lemma exists_clauseOfText {expressions : List String} {clause : List TagAlternative}
    (mem : clause ∈ (parse expressions).clauses) :
    clause ≠ [] ∧ ∃ e ∈ expressions, clauseOfText e.toList = clause := by
  obtain ⟨among, counts⟩ := List.mem_filter.mp mem
  exact ⟨by simpa using counts, List.mem_map.mp among⟩

lemma canonical_parse (expressions : List String) : (parse expressions).Canonical := by
  intro clause mem
  obtain ⟨ne, e, -, rfl⟩ := exists_clauseOfText mem
  exact ⟨ne, fun alt => canonical_of_mem_clauseOfText⟩

variable {s : TagSelector}

/-- The texts of the clauses of a selector, each alone. -/
def clauseTexts (s : TagSelector) : List String :=
  s.clauses.map fun clause => String.ofList (renderClause clause)

lemma Canonical.parse_clauseTexts (h : s.Canonical) : parse s.clauseTexts = s := by
  have read : (s.clauseTexts.map fun e => clauseOfText e.toList) = s.clauses := by
    rw [clauseTexts, List.map_map]
    refine (List.map_congr_left fun clause mem => ?_).trans (List.map_id s.clauses)
    rw [Function.comp_apply, String.toList_ofList]
    exact clauseOfText_renderClause (h clause mem).1 (h clause mem).2
  have counts : ∀ clause ∈ s.clauses, (!clause.isEmpty) = true := fun clause mem => by
    simpa using (h clause mem).1
  rw [parse, read, List.filter_eq_self.mpr counts]

/-- No tag of the selector holds the character of the mark between clauses. -/
def FreeOfMark (s : TagSelector) : Prop := ∀ clause ∈ s.clauses, ∀ alt ∈ clause, '&' ∉ alt.tag

lemma freeOfMark_parse {expressions : List String} (free : ∀ e ∈ expressions, '&' ∉ e.toList) :
    (parse expressions).FreeOfMark := by
  intro clause mem alt among inside
  obtain ⟨-, e, given, rfl⟩ := exists_clauseOfText mem
  rcases mem_tag_of_mem_clauseOfText among inside with at_sign | ⟨there, -⟩
  · exact absurd at_sign (by decide)
  · exact free e given there

lemma FreeOfMark.splitAtMark_render (free : s.FreeOfMark) (counts : s.isEmpty = false) :
    splitAtMark " && " s.render = s.clauseTexts := by
  have ne : s.clauses.map renderClause ≠ [] := by simpa [isEmpty] using counts
  have clear : ∀ text ∈ s.clauses.map renderClause, '&' ∉ text := by
    intro text mem inside
    obtain ⟨clause, given, rfl⟩ := List.mem_map.mp mem
    rcases mem_of_mem_intercalate inside with comma | ⟨text, among, inside⟩
    · exact absurd comma (by decide)
    · obtain ⟨alt, there, rfl⟩ := List.mem_map.mp among
      rcases TagAlternative.mem_render inside with tilde | tag
      · exact absurd tilde (by decide)
      · exact free clause given alt there tag
  have split : piecesAfter [' ', '&', '&', ' '] 0
      (List.intercalate [' ', '&', '&', ' '] (s.clauses.map renderClause)) = _ :=
    piecesAfter_intercalate (by decide) clear ne
  have text : s.render.toList = List.intercalate [' ', '&', '&', ' '] (s.clauses.map renderClause) := by
    rw [render, counts, if_neg Bool.false_ne_true, String.toList_ofList]
  have mark : " && ".toList = [' ', '&', '&', ' '] := by decide
  rw [splitAtMark, text, mark, split, clauseTexts, List.map_map]
  rfl

lemma parse_splitAtMark_render {expressions : List String}
    (free : ∀ e ∈ expressions, '&' ∉ e.toList) (counts : (parse expressions).isEmpty = false) :
    parse (splitAtMark " && " (parse expressions).render) = parse expressions := by
  rw [(freeOfMark_parse free).splitAtMark_render counts,
    (canonical_parse expressions).parse_clauseTexts]

lemma isEmpty_of_render_ne (shown : s.render ≠ "*") : s.isEmpty = false :=
  Bool.eq_false_iff.mpr fun empty => shown (if_pos empty)

/-- Only a selector that takes everything shows so: read again, the text of another one would give a
tag. -/
lemma eq_any_of_render {expressions : List String} (free : ∀ e ∈ expressions, '&' ∉ e.toList)
    (star : (parse expressions).render = "*") : parse expressions = any := by
  cases counts : (parse expressions).isEmpty with
  | true =>
    rw [isEmpty, List.isEmpty_iff] at counts
    exact congrArg TagSelector.mk counts
  | false =>
    have again := parse_splitAtMark_render free counts
    have shown : (parse (splitAtMark " && " "*")).render = "@*" := by decide
    rw [← star, again, star] at shown
    exact absurd shown (by decide)

/-- **A selector can be read from its text.** Split at the marks between its clauses, the text of a
selector that was read from expressions without `&` gives the selector again, unless the selector
takes everything; and two such selectors with the same text are the same and take the same tags. -/
theorem parse_split_render {expressions : List String} (free : ∀ e ∈ expressions, '&' ∉ e.toList) :
    ((parse expressions).isEmpty = false →
      parse (splitAtMark " && " (parse expressions).render) = parse expressions) ∧
    ∀ others : List String, (∀ e ∈ others, '&' ∉ e.toList) →
      (parse others).render = (parse expressions).render →
        parse others = parse expressions ∧
          ∀ tags, (parse others).accepts tags = (parse expressions).accepts tags := by
  refine ⟨parse_splitAtMark_render free, fun others free' shown => ?_⟩
  have same : parse others = parse expressions := by
    by_cases star : (parse expressions).render = "*"
    · rw [eq_any_of_render free star, eq_any_of_render free' (shown.trans star)]
    · have counts := isEmpty_of_render_ne star
      have counts' := isEmpty_of_render_ne (shown ▸ star)
      rw [← parse_splitAtMark_render free' counts', shown, parse_splitAtMark_render free counts]
  exact ⟨same, fun tags => by rw [same]⟩

/-- Blanks, a missing `@`, tildes, a blank alternative and a blank expression. -/
theorem parse_split_render_untidy :
    let expressions := [" smoke ,~ @slow", "~~old, ,@@x y", " , "]
    (∀ e ∈ expressions, '&' ∉ e.toList) ∧
      (parse expressions).render = "@smoke,~@slow && ~@~old,@@x y" ∧
      parse (splitAtMark " && " (parse expressions).render) = parse expressions ∧
      parse ["@smoke,~@slow", "~~old,@@x y"] = parse expressions := by
  intro expressions
  have free : ∀ e ∈ expressions, '&' ∉ e.toList := by decide
  have shown : (parse expressions).render = "@smoke,~@slow && ~@~old,@@x y" := by decide
  obtain ⟨again, same⟩ := parse_split_render free
  refine ⟨free, shown, again (by decide), (same _ (by decide) ?_).1⟩
  rw [shown]
  decide

end TagSelector

end FeatureBatch
