import Mathlib.Data.List.Forall2
import Mathlib.Tactic.Common
import FeatureBatch.Proofs.Records.Totals
import FeatureBatch.Proofs.Reports.Outline
import FeatureBatch.Reports.Junit

/-!
What the JUnit document of a record says. Read back, it is one suite with a case for each scenario,
in their order, with the names and errors as they were, whatever characters are in them. A failure
marks the cases of the scenarios that failed with an error; a scenario that failed without one is
counted as failed, and not marked.
-/

namespace FeatureBatch.Junit

open Markup

/-! ### The document, read back -/

/-- The only suite of a document. -/
def suite? (document : String) : Option Node := do
  match (← read? [] document.toList).filter (Node.isNamed "testsuite") with
  | [suite] => some suite
  | _ => none

def cases (suite : Node) : List Node := suite.childrenNamed "testcase"

def failures (case : Node) : List Node := case.childrenNamed "failure"

/-- The case of a scenario. -/
def caseNode (r : FeatureRecord) (s : Scenario) : Node :=
  .element "testcase" (caseAttributes r s) <|
    match failure? s with
    | none => []
    | some error => chars "\n    " ++ [.element "failure" [⟨"message", error⟩] []] ++ chars "\n  "

def suiteNode (r : FeatureRecord) : Node :=
  .element "testsuite" (suiteAttributes r) <|
    chars "\n" ++ r.scenarios.flatMap fun s => chars "  " ++ [caseNode r s] ++ chars "\n"

lemma isReadable_case (r : FeatureRecord) (s : Scenario) : ∀ t ∈ caseTokens r s, IsReadable t := by
  have testcase : IsName "testcase" := by decide
  have named : ∀ a ∈ caseAttributes r s, IsName a.name := by
    simp only [caseAttributes, List.forall_mem_cons]
    exact ⟨by decide, by decide, by decide, by simp⟩
  have failure : IsName "failure" := by decide
  have message : IsName "message" := by decide
  unfold caseTokens
  cases failure? s <;> simpa [IsReadable, testcase, failure, message] using named

lemma isReadable_tokens (r : FeatureRecord) : ∀ t ∈ tokens r, IsReadable t := by
  have testsuite : IsName "testsuite" := by decide
  have named : ∀ a ∈ suiteAttributes r, IsName a.name := by
    simp only [suiteAttributes, List.forall_mem_cons]
    exact ⟨by decide, by decide, by decide, by decide, by decide, by simp⟩
  intro t mem
  unfold tokens at mem
  rw [List.mem_append, List.mem_append, List.mem_flatMap] at mem
  obtain ((start | ⟨s, -, inside⟩) | stop) := mem
  · simp only [List.mem_cons, List.not_mem_nil, or_false] at start
    rcases start with rfl | rfl | rfl | rfl
    · exact ⟨.inr (by decide), by decide⟩
    · trivial
    · exact ⟨testsuite, named⟩
    · trivial
  · exact isReadable_case r s t inside
  · simp only [List.mem_cons, List.not_mem_nil, or_false] at stop
    rcases stop with rfl | rfl
    · exact testsuite
    · trivial

lemma makes_case (r : FeatureRecord) (s : Scenario) :
    Makes [] (caseTokens r s) (chars "  " ++ [caseNode r s] ++ chars "\n") := by
  unfold caseTokens caseNode
  cases failure? s with
  | none => exact ((makes_text "  ").append (makes_empty _ _)).append (makes_text "\n")
  | some error =>
    have inside : Makes [] [.text "\n    ", .empty "failure" [⟨"message", error⟩], .text "\n  "] _ :=
      ((makes_text "\n    ").append (makes_empty _ _)).append (makes_text "\n  ")
    have element := makes_element "testcase" (caseAttributes r s) List.not_mem_nil inside
    exact ((makes_text "  ").append element).append (makes_text "\n")

theorem read?_document (r : FeatureRecord) :
    read? [] (document r).toList = some ([.declaration "?xml version=\"1.0\" encoding=\"UTF-8\"?"] ++
      chars "\n" ++ [suiteNode r] ++ chars "\n") := by
  have start : Makes [] _ _ := (makes_declaration "?xml version=\"1.0\" encoding=\"UTF-8\"?").append
    (makes_text "\n")
  have inside : Makes [] (.text "\n" :: r.scenarios.flatMap (caseTokens r)) _ :=
    (makes_text "\n").append (Makes.flatMap (makes_case r) r.scenarios)
  have suite := makes_element "testsuite" (suiteAttributes r) List.not_mem_nil inside
  have whole := (start.append suite).append (makes_text "\n")
  rw [document, String.toList_ofList, read?_render (isReadable_tokens r)]
  refine (congrArg (build? []) ?_).trans whole.build?
  simp [tokens]

lemma suite?_document (r : FeatureRecord) : suite? (document r) = some (suiteNode r) := by
  simp [suite?, read?_document, suiteNode, Node.isNamed]

lemma cases_suiteNode (r : FeatureRecord) : cases (suiteNode r) = r.scenarios.map (caseNode r) := by
  have one (s : Scenario) : (chars "  " ++ [caseNode r s] ++ chars "\n").filter
      (Node.isNamed "testcase") = [caseNode r s] := by
    simp [caseNode, Node.isNamed]
  rw [cases, Node.childrenNamed, suiteNode, Node.children, List.filter_append, filter_isNamed_chars,
    List.nil_append, List.filter_flatMap]
  simp only [one, List.map_eq_flatMap]

lemma failures_caseNode (r : FeatureRecord) (s : Scenario) : failures (caseNode r s) =
    (failure? s).toList.map fun error => .element "failure" [⟨"message", error⟩] [] := by
  unfold failures caseNode
  cases failure? s <;> simp [Node.childrenNamed, Node.children, Node.isNamed]

/-! ### What is marked -/

/-- The scenarios that failed without an error. -/
def unexplained (r : FeatureRecord) : List Scenario :=
  r.scenarios.filter fun s => s.failed && s.error.isNone

lemma failures_ne_nil_iff (r : FeatureRecord) (s : Scenario) :
    failures (caseNode r s) ≠ [] ↔ s.failed ∧ s.error.isSome := by
  rw [failures_caseNode, failure?]
  cases s.failed <;> cases s.error <;> simp

lemma length_failures (r : FeatureRecord) (s : Scenario) :
    (failures (caseNode r s)).length = if s.failed && s.error.isSome then 1 else 0 := by
  rw [failures_caseNode, failure?]
  cases s.failed <;> cases s.error <;> simp

lemma length_flatMap_failures (r : FeatureRecord) :
    ((cases (suiteNode r)).flatMap failures).length + (unexplained r).length = r.failedCount := by
  rw [cases_suiteNode, unexplained, FeatureRecord.failedCount]
  induction r.scenarios with
  | nil => rfl
  | cons s ss ih =>
    rw [List.map_cons, List.flatMap_cons, List.length_append, length_failures, List.filter_cons,
      List.countP_cons, ← ih]
    cases s.failed <;> cases s.error <;> simp <;> omega

lemma unexplained_eq_nil_iff (r : FeatureRecord) :
    unexplained r = [] ↔ ∀ s ∈ r.scenarios, s.failed → s.error.isSome := by
  simp [unexplained, Option.isSome_iff_ne_none]

lemma failures_add {t u : Totals} {r : FeatureRecord} (h : t.add r = .ok u) :
    u.failures = t.failures + r.failedCount := by
  rw [Totals.add] at h
  split at h
  · rename_i empty
    cases h
    rw [(Totals.counts_of_isEmpty empty).2]
    rfl
  · cases time : Totals.addTimes t.timeMs r.durationMs with
    | error payload =>
      rw [time] at h
      cases h
    | ok timeMs =>
      rw [time] at h
      cases h
      rfl

/-- **What is marked as failed.** The document of any record is one suite with a case for each
scenario, and a failure marks the cases of the scenarios that failed with an error. The attribute
counts all that failed, as the totals do, and so counts the failures and the scenarios that failed
without an error: the cases of the failed scenarios are the marked ones only if there are none of
these. -/
theorem failures_marked (r : FeatureRecord) :
    ∃ suite, suite? (document r) = some suite ∧
      List.Forall₂ (fun s case => failures case ≠ [] ↔ s.failed ∧ s.error.isSome)
        r.scenarios (cases suite) ∧
      suite.value? "failures" = some (toString r.failedCount) ∧
      (∀ t u : Totals, t.add r = .ok u → u.failures = t.failures + r.failedCount) ∧
      ((cases suite).flatMap failures).length + (unexplained r).length = r.failedCount ∧
      (List.Forall₂ (fun s case => failures case ≠ [] ↔ s.failed) r.scenarios (cases suite) ↔
        unexplained r = []) := by
  refine ⟨suiteNode r, suite?_document r, ?_, rfl, fun _ _ => failures_add,
    length_flatMap_failures r, ?_⟩
  · rw [cases_suiteNode, List.forall₂_map_right_iff, List.forall₂_same]
    exact fun s _ => failures_ne_nil_iff r s
  · rw [cases_suiteNode, List.forall₂_map_right_iff, List.forall₂_same, unexplained_eq_nil_iff]
    simp only [failures_ne_nil_iff, and_iff_left_iff_imp]

/-- A record of which the second scenario failed, and nothing says why. -/
def halfExplained : FeatureRecord where
  name := "cart"
  qualifiedName := "shop.cart"
  path := "shop/cart.feature"
  scenarios := [.pass "adds item" 3 12 .epoch,
    { name := "removes item", line := 8, failed := true, error := none, startedAt := .epoch,
      durationMs := 4, thread := none }]
  startedAt := some .epoch
  durationMs := 16

theorem failure_unmarked :
    ∃ suite, suite? (document halfExplained) = some suite ∧
      suite.value? "failures" = some "1" ∧ (cases suite).flatMap failures = [] ∧
      ¬ List.Forall₂ (fun s case => failures case ≠ [] ↔ s.failed)
        halfExplained.scenarios (cases suite) := by
  refine ⟨suiteNode halfExplained, suite?_document _, rfl, ?_, ?_⟩
  · rw [cases_suiteNode]
    rfl
  · rw [cases_suiteNode, List.forall₂_map_right_iff, List.forall₂_same]
    simp [failures_ne_nil_iff, halfExplained]

/-! ### The whole document -/

/-- The scenario failed, and has an error. -/
def isExplained (s : Scenario) : Bool := s.failed && s.error.isSome

/-- The case shows the scenario: its name, and its error if it failed. -/
structure Shows (r : FeatureRecord) (s : Scenario) (case : Node) : Prop where
  named : case.isNamed "testcase"
  classname : case.value? "classname" = some r.qualifiedName
  name : case.value? "name" = some s.name
  marked : ∀ error, s.failed → s.error = some error →
    ∃ failure, elements case.children = [failure] ∧ failure.isNamed "failure" ∧
      failure.value? "message" = some error ∧ failure.children = []
  unmarked : isExplained s = false → elements case.children = []

lemma elements_caseNode (r : FeatureRecord) (s : Scenario) : elements (caseNode r s).children =
    (failure? s).toList.map fun error => .element "failure" [⟨"message", error⟩] [] := by
  unfold caseNode
  cases failure? s <;> simp [Node.children, Node.isElement]

lemma shows_caseNode (r : FeatureRecord) (s : Scenario) : Shows r s (caseNode r s) where
  named := rfl
  classname := rfl
  name := rfl
  marked error failed explained := by
    have failure : failure? s = some error := by rw [failure?, if_pos failed, explained]
    exact ⟨_, by rw [elements_caseNode, failure]; rfl, rfl, rfl, rfl⟩
  unmarked unexplained := by
    have none : failure? s = none := by
      cases failed : s.failed <;> simp_all [failure?, isExplained]
    rw [elements_caseNode, none]
    rfl

lemma elements_suiteNode (r : FeatureRecord) :
    elements (suiteNode r).children = r.scenarios.map (caseNode r) := by
  have element (s : Scenario) : (caseNode r s).isElement = true := rfl
  simp [suiteNode, Node.children, List.map_eq_flatMap, element]

/-- The outline of a case, which only depends on whether the scenario is explained. -/
def caseOutline (explained : Bool) : Node :=
  .element "testcase" [⟨"classname", ""⟩, ⟨"name", ""⟩, ⟨"time", ""⟩] <|
    if explained then [.element "failure" [⟨"message", ""⟩] []] else []

lemma bare_caseNode (r : FeatureRecord) (s : Scenario) :
    (caseNode r s).bare = [caseOutline (isExplained s)] := by
  unfold caseNode caseOutline failure? isExplained
  cases s.failed <;> cases s.error <;> simp [caseAttributes]

/-- The outline of the document of a record with scenarios that are explained or not. -/
def documentOutline (explained : List Bool) : List Node :=
  [.declaration "?xml version=\"1.0\" encoding=\"UTF-8\"?",
    .element "testsuite"
      [⟨"name", ""⟩, ⟨"tests", ""⟩, ⟨"failures", ""⟩, ⟨"skipped", ""⟩, ⟨"time", ""⟩]
      (explained.map caseOutline)]

/-- **The document says what the record says.** Read as markup it is one suite, with the name and
the counts of the record, and in it one case for each scenario, in their order, each with its name,
and with a failure that has the error as its message exactly if the scenario failed with an error.
No text can open, close or alter an element: the outline of the document depends on nothing but
which scenarios failed with an error. -/
theorem document_shows (r : FeatureRecord) :
    ∃ nodes suite, read? [] (document r).toList = some nodes ∧ elements nodes = [suite] ∧
      suite.isNamed "testsuite" ∧ suite.value? "name" = some r.qualifiedName ∧
      suite.value? "tests" = some (toString r.scenarioCount) ∧
      suite.value? "failures" = some (toString r.failedCount) ∧
      List.Forall₂ (Shows r) r.scenarios (elements suite.children) ∧
      Node.outline nodes = documentOutline (r.scenarios.map isExplained) := by
  refine ⟨_, suiteNode r, read?_document r, ?_, rfl, rfl, rfl, rfl, ?_, ?_⟩
  · simp [Node.isElement, suiteNode]
  · rw [elements_suiteNode, List.forall₂_map_right_iff, List.forall₂_same]
    exact fun s _ => shows_caseNode r s
  · simp [documentOutline, suiteNode, suiteAttributes, bare_caseNode, ← List.map_eq_flatMap]

end FeatureBatch.Junit
