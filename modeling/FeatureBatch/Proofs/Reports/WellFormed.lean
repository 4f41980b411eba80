import FeatureBatch.Proofs.Files.Writing
import FeatureBatch.Proofs.Number.Decimal
import FeatureBatch.Proofs.Reports.Xml
import FeatureBatch.Reports.FileReports

/-!
Which JUnit documents are well-formed. Escaping leaves nothing that could end a value, so that the
tags of a document make elements whatever texts are in it. It leaves every other character as it is,
also those that no document may have: a document is well-formed where its texts have none of these,
and nowhere else.
-/

namespace FeatureBatch.Markup

open Xml

/-! ### Escaped texts -/

lemma escapeChar_cases (c : Char) :
    (IsReference (escapeChar c) ∧ IsChar c) ∨
      (escapeChar c = [c] ∧ c ≠ '<' ∧ c ≠ '&' ∧ c ≠ '"') := by
  have reference (name : String) {text : List Char} (char : IsChar c)
      (known : name ∈ ["amp", "lt", "gt", "quot", "apos"])
      (spelled : text = '&' :: name.toList ++ [';']) : IsReference text ∧ IsChar c :=
    ⟨spelled ▸ .entity known, char⟩
  unfold escapeChar
  split_ifs with amp lt gt quot apos
  · exact .inl (reference "amp" (by rw [amp]; decide) (by decide) (by decide))
  · exact .inl (reference "lt" (by rw [lt]; decide) (by decide) (by decide))
  · exact .inl (reference "gt" (by rw [gt]; decide) (by decide) (by decide))
  · exact .inl (reference "quot" (by rw [quot]; decide) (by decide) (by decide))
  · exact .inl (reference "apos" (isChar_of_le (by omega) (by omega)) (by decide) (by decide))
  · exact .inr ⟨rfl, lt, amp, quot⟩

lemma legal_escape {s : List Char} : Legal (escape s) ↔ Legal s := by
  induction s with
  | nil => rfl
  | cons c s ih =>
    have first : Legal (escapeChar c) ↔ IsChar c := by
      rcases escapeChar_cases c with ⟨reference, char⟩ | ⟨same, -⟩
      · exact iff_of_true reference.legal char
      · simp [same]
    rw [escape, List.flatMap_cons, legal_append, first, legal_cons, ← ih, escape]

lemma isValue_escape {s : List Char} (legal : Legal s) : IsValue '"' (escape s) := by
  induction s with
  | nil => exact .nil
  | cons c s ih =>
    obtain ⟨char, rest⟩ := legal_cons.mp legal
    rcases escapeChar_cases c with ⟨reference, -⟩ | ⟨same, plain⟩
    · exact .reference reference (ih rest)
    · rw [escape, List.flatMap_cons, same]
      exact .char char plain (ih rest)

lemma escape_of_blank {s : List Char} (blank : Blank s) : escape s = s := by
  induction s with
  | nil => rfl
  | cons c s ih =>
    obtain ⟨space, rest⟩ := List.forall_mem_cons.mp blank
    have same : escapeChar c = [c] := by
      rcases isSpace_iff.mp space with rfl | rfl | rfl | rfl <;> rfl
    rw [escape, List.flatMap_cons, same, ← escape, ih rest]
    rfl

/-! ### Tags and what is between them -/

/-- A tag with a name, and with attributes that have different names and allowed values. -/
structure IsSound (name : String) (attributes : List Attribute) : Prop where
  isName : Xml.IsName name.toList
  names : ∀ a ∈ attributes, Xml.IsName a.name.toList
  distinct : (attributes.map fun a => a.name.toList).Nodup
  legal : ∀ a ∈ attributes, Legal a.value.toList

variable {name : String} {attributes : List Attribute} {tokens more : List MarkupToken}

lemma attributes_render (names : ∀ a ∈ attributes, Xml.IsName a.name.toList)
    (distinct : (attributes.map fun a => a.name.toList).Nodup)
    (legal : ∀ a ∈ attributes, Legal a.value.toList) :
    Attributes (attributes.map fun a => a.name.toList) (attributes.flatMap renderAttribute) := by
  induction attributes with
  | nil => exact .nil
  | cons a as ih =>
    rw [List.forall_mem_cons] at names legal
    obtain ⟨new, distinct⟩ := List.nodup_cons.mp distinct
    have apart : [' '] ≠ [] ∧ Blank [' '] := by decide
    have blank : Blank [] ∧ Blank [] := by decide
    have value := isValue_escape legal.1
    have further := ih names.2 distinct legal.2
    have spelled := Attributes.cons apart names.1 new blank (.inl rfl) value further
    simpa [renderAttribute] using spelled

lemma IsSound.tagStart (h : IsSound name attributes) :
    TagStart name.toList ('<' :: name.toList ++ attributes.flatMap renderAttribute) := by
  refine ⟨h.isName, _, _, [], attributes_render h.names h.distinct h.legal, by decide, ?_⟩
  simp

lemma IsSound.startTag (h : IsSound name attributes) :
    StartTag name.toList (renderToken (.opening name attributes)) := ⟨_, h.tagStart, rfl⟩

lemma IsSound.emptyTag (h : IsSound name attributes) :
    EmptyTag name.toList (renderToken (.empty name attributes)) := ⟨_, h.tagStart, rfl⟩

lemma endTag_closing (name : String) : EndTag name.toList (renderToken (.closing name)) :=
  ⟨[], by decide, by simp [renderToken]⟩

/-- The tokens can stand between the tags of an element, before whatever else does. -/
def Fills (tokens : List MarkupToken) : Prop :=
  ∀ rest, Content rest → Content (render tokens ++ rest)

@[simp] lemma render_append (tokens more : List MarkupToken) :
    render (tokens ++ more) = render tokens ++ render more := List.flatMap_append

lemma fills_nil : Fills [] := fun _ h => h

lemma Fills.append (h : Fills tokens) (h' : Fills more) : Fills (tokens ++ more) := by
  intro rest content
  rw [render_append, List.append_assoc]
  exact h _ (h' rest content)

lemma Fills.content (h : Fills tokens) : Content (render tokens) := by
  simpa using h [] .nil

lemma fills_flatMap {α : Type} {xs : List α} {f : α → List MarkupToken}
    (h : ∀ x ∈ xs, Fills (f x)) : Fills (xs.flatMap f) := by
  induction xs with
  | nil => exact fills_nil
  | cons x xs ih =>
    rw [List.forall_mem_cons] at h
    exact h.1.append (ih h.2)

lemma fills_blank (s : String) (blank : Blank s.toList) : Fills [.text s] := by
  intro rest content
  have same : render [.text s] = s.toList := by simp [render, renderToken, escape_of_blank blank]
  rw [same]
  generalize s.toList = cs at blank
  induction cs with
  | nil => exact content
  | cons c cs ih =>
    obtain ⟨space, blank⟩ := List.forall_mem_cons.mp blank
    have plain : (c ≠ '<' ∧ c ≠ '&') ∧ c ≠ ']' := by
      rcases isSpace_iff.mp space with rfl | rfl | rfl | rfl <;> decide
    refine .char space.isChar plain.1 (fun inside => ?_) (ih blank)
    exact plain.2 (List.cons_prefix_cons.mp inside).1.symm

lemma fills_empty (h : IsSound name attributes) : Fills [.empty name attributes] := by
  intro rest content
  simpa [render] using Content.empty h.emptyTag content

lemma render_element (name : String) (attributes : List Attribute) (tokens : List MarkupToken) :
    render (.opening name attributes :: tokens ++ [.closing name]) =
      renderToken (.opening name attributes) ++ render tokens ++ renderToken (.closing name) := by
  simp [render]

lemma fills_element (h : IsSound name attributes) (inside : Fills tokens) :
    Fills (.opening name attributes :: tokens ++ [.closing name]) := by
  intro rest content
  rw [render_element]
  exact .element h.startTag inside.content (endTag_closing name) content

lemma isElement_render (h : IsSound name attributes) (inside : Fills tokens) :
    IsElement (render (.opening name attributes :: tokens ++ [.closing name])) := by
  rw [render_element]
  exact .element h.startTag inside.content (endTag_closing name)

/-! ### The texts of a document -/

/-- The attributes of a tag that opens an element. -/
def tagAttributes : MarkupToken → List Attribute
  | .opening _ attributes | .empty _ attributes => attributes
  | _ => []

lemma legal_of_render {t : MarkupToken} {a : Attribute} (legal : Legal (render tokens))
    (there : t ∈ tokens) (mem : a ∈ tagAttributes t) : Legal a.value.toList := by
  refine legal_escape.mp fun c inside => legal c (List.mem_flatMap.mpr ⟨t, there, ?_⟩)
  have value : c ∈ (tagAttributes t).flatMap renderAttribute :=
    List.mem_flatMap.mpr ⟨a, mem, by simp [renderAttribute, inside]⟩
  cases t <;> simp_all [tagAttributes, renderToken]

end FeatureBatch.Markup

namespace FeatureBatch.Junit

open Markup Xml

/-! ### Documents of records -/

lemma legal_toString (n : Nat) : Legal (toString n).toList := by
  rw [Nat.toString_eq_repr, Nat.toList_repr]
  exact fun c mem => isChar_of_isDigit (Decimal.isDigit_of_mem_digits mem)

lemma legal_seconds (ms : UInt64) : Legal (seconds ms).toList := by
  have body {num den : Nat} : Legal (Decimal.fixed 3 num den) := by
    intro c mem
    rcases Decimal.of_mem_fixed mem with digit | rfl
    · exact isChar_of_isDigit digit
    · decide
  have minus : IsChar '-' := by decide
  rw [seconds, String.toList_ofList, Binary64.fixed]
  split
  split_ifs <;> simp [body, minus]

/-- The texts of a record that are written into its document. -/
def writtenTexts (r : FeatureRecord) : List String :=
  r.qualifiedName :: r.scenarios.flatMap fun s => s.name :: (failure? s).toList

lemma isSound_suite {r : FeatureRecord} (legal : Legal r.qualifiedName.toList) :
    IsSound "testsuite" (suiteAttributes r) where
  isName := by decide
  names := by
    simp only [suiteAttributes, List.forall_mem_cons]
    exact ⟨by decide, by decide, by decide, by decide, by decide, by simp⟩
  distinct := by
    simp only [suiteAttributes, List.map_cons, List.map_nil]
    decide
  legal := by
    simp only [suiteAttributes, List.forall_mem_cons]
    exact ⟨legal, legal_toString _, legal_toString _, by decide, legal_seconds _, by simp⟩

lemma isSound_case {r : FeatureRecord} {s : Scenario} (feature : Legal r.qualifiedName.toList)
    (scenario : Legal s.name.toList) : IsSound "testcase" (caseAttributes r s) where
  isName := by decide
  names := by
    simp only [caseAttributes, List.forall_mem_cons]
    exact ⟨by decide, by decide, by decide, by simp⟩
  distinct := by
    simp only [caseAttributes, List.map_cons, List.map_nil]
    decide
  legal := by
    simp only [caseAttributes, List.forall_mem_cons]
    exact ⟨feature, scenario, legal_seconds _, by simp⟩

lemma isSound_failure {error : String} (legal : Legal error.toList) :
    IsSound "failure" [⟨"message", error⟩] where
  isName := by decide
  names := by simpa using (by decide : Xml.IsName "message".toList)
  distinct := by simp
  legal := by simpa using legal

lemma fills_case {r : FeatureRecord} {s : Scenario} (feature : Legal r.qualifiedName.toList)
    (legal : ∀ text ∈ s.name :: (failure? s).toList, Legal text.toList) :
    Fills (caseTokens r s) := by
  rw [List.forall_mem_cons] at legal
  have sound := isSound_case feature legal.1
  unfold caseTokens
  cases failed : failure? s with
  | none =>
    exact ((fills_blank "  " (by decide)).append (fills_empty sound)).append
      (fills_blank "\n" (by decide))
  | some error =>
    have failure := isSound_failure (legal.2 error (by simp [failed]))
    have inside : Fills [.text "\n    ", .empty "failure" [⟨"message", error⟩], .text "\n  "] :=
      ((fills_blank "\n    " (by decide)).append (fills_empty failure)).append
        (fills_blank "\n  " (by decide))
    have element := fills_element sound inside
    exact ((fills_blank "  " (by decide)).append element).append (fills_blank "\n" (by decide))

lemma declaration_xml : Declaration "<?xml version=\"1.0\" encoding=\"UTF-8\"?>".toList := by
  have version : DeclarationPart "version" IsVersion " version=\"1.0\"".toList :=
    ⟨[' '], [], [], '"', "1.0".toList, by decide, by decide, .inl rfl,
      ⟨['0'], by decide, List.forall_mem_singleton.mpr (by decide), by decide⟩, by decide⟩
  have further : ∀ c ∈ ['T', 'F', '-', '8'], c.isAlphanum ∨ c ∈ ['.', '_', '-'] := by
    simp only [List.forall_mem_cons]
    exact ⟨by decide, by decide, by decide, by decide, by simp⟩
  have encoding : DeclarationPart "encoding" IsEncoding " encoding=\"UTF-8\"".toList :=
    ⟨[' '], [], [], '"', "UTF-8".toList, by decide, by decide, .inl rfl,
      ⟨'U', ['T', 'F', '-', '8'], by decide, further, by decide⟩, by decide⟩
  exact ⟨_, _, [], [], version, .inr encoding, .inl rfl, by decide, by decide⟩

lemma misc_newline : Misc ['\n'] := .space (by decide) .nil

lemma wellFormed_document {r : FeatureRecord}
    (legal : ∀ text ∈ writtenTexts r, Legal text.toList) : WellFormed (document r).toList := by
  obtain ⟨feature, scenarios⟩ := List.forall_mem_cons.mp legal
  have cases : Fills (r.scenarios.flatMap (caseTokens r)) :=
    fills_flatMap fun s mem => fills_case feature fun text written =>
      scenarios text (List.mem_flatMap.mpr ⟨s, mem, written⟩)
  have inside : Fills (.text "\n" :: r.scenarios.flatMap (caseTokens r)) :=
    (fills_blank "\n" (by decide)).append cases
  have root := isElement_render (isSound_suite feature) inside
  refine ⟨_, _, _, _, .inr declaration_xml, misc_newline, root, misc_newline, ?_⟩
  simp [document, tokens, render, renderToken, escape, escapeChar]

lemma legal_of_case {r : FeatureRecord} {s : Scenario} (legal : Legal (render (caseTokens r s))) :
    ∀ text ∈ s.name :: (failure? s).toList, Legal text.toList := by
  have name : (⟨"name", s.name⟩ : Attribute) ∈ caseAttributes r s := by simp [caseAttributes]
  unfold caseTokens at legal
  cases failed : failure? s with
  | none =>
    rw [failed] at legal
    have tag := legal_of_render (t := .empty "testcase" (caseAttributes r s)) legal (by simp) name
    simpa using tag
  | some error =>
    rw [failed] at legal
    have tag := legal_of_render (t := .opening "testcase" (caseAttributes r s)) legal (by simp) name
    have failure := legal_of_render (t := .empty "failure" [⟨"message", error⟩]) legal (by simp)
      (List.mem_singleton_self _)
    simpa using ⟨tag, failure⟩

lemma legal_of_document {r : FeatureRecord} (legal : Legal (document r).toList) :
    ∀ text ∈ writtenTexts r, Legal text.toList := by
  rw [document, String.toList_ofList] at legal
  have feature := legal_of_render (t := .opening "testsuite" (suiteAttributes r)) legal
    (by simp [tokens]) (List.mem_cons_self)
  refine List.forall_mem_cons.mpr ⟨feature, fun text written => ?_⟩
  obtain ⟨s, mem, inside⟩ := List.mem_flatMap.mp written
  have case : Legal (render (caseTokens r s)) := by
    have parts : render (r.scenarios.flatMap (caseTokens r)) =
        r.scenarios.flatMap fun s => render (caseTokens r s) := List.flatMap_assoc
    intro c there
    refine legal c ?_
    simp only [tokens, render_append, parts, List.mem_append, List.mem_flatMap]
    exact .inl (.inr ⟨s, mem, there⟩)
  exact legal_of_case case text inside

/-- **When the document is well-formed.** The document of a record is a well-formed one of XML 1.0
if and only if the names and errors in it have no characters that XML does not allow; if they have
any, so does the document. A document that was written to a file is what the file has as its text. -/
theorem wellFormed_iff (r : FeatureRecord) :
    (WellFormed (document r).toList ↔ ∀ text ∈ writtenTexts r, Legal text.toList) ∧
      (Legal (document r).toList ↔ ∀ text ∈ writtenTexts r, Legal text.toList) ∧
      ∀ (fs fs' : FileSystem) (dir path : Path), FileReports.featureXml fs dir r = (.ok path, fs') →
        fs'.readText path = .ok (document r) := by
  refine ⟨⟨fun h => legal_of_document h.legal, wellFormed_document⟩,
    ⟨legal_of_document, fun h => (wellFormed_document h).legal⟩, ?_⟩
  exact fun fs fs' dir path written => (FileReports.readText_writeReport written).2

/-- A record of a scenario with a colour in its name, as terminals are told to show one. -/
def coloured : FeatureRecord where
  name := "a"
  qualifiedName := "a"
  path := "a.feature"
  scenarios := [.pass "\x1b[31mred" 1 1 .epoch]
  startedAt := some .epoch
  durationMs := 0

theorem coloured_not_wellFormed :
    ¬ Legal (document coloured).toList ∧ ¬ WellFormed (document coloured).toList := by
  have name : "\x1b[31mred" ∈ writtenTexts coloured := by
    simp [writtenTexts, coloured, Scenario.pass]
  have escape : ¬ Legal "\x1b[31mred".toList := by decide
  have illegal : ¬ Legal (document coloured).toList := fun legal =>
    escape (legal_of_document legal _ name)
  exact ⟨illegal, fun wellFormed => illegal wellFormed.legal⟩

end FeatureBatch.Junit
