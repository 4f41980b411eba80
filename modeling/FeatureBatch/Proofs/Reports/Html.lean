import Mathlib.Data.List.Forall2
import FeatureBatch.Proofs.Reports.Files
import FeatureBatch.Proofs.Reports.Outline

/-!
What the pages say. Read back, each page has one table, with a row for each scenario or for each
feature that ran, in their order, and the cells have the texts as they were, whatever characters are
in them. The link in a row of the summary names the file that the feature's page is written to.
-/

namespace FeatureBatch.Html

open Markup

/-! ### Pages, read back -/

/-- The elements that have no content and are never closed. -/
def standalone : List String := ["meta"]

/-- The name of elements that have content. -/
def IsTag (name : String) : Prop := IsName name ∧ name ∉ standalone

instance (name : String) : Decidable (IsTag name) := inferInstanceAs (Decidable (_ ∧ _))

/-- Tokens that are read as these nodes wherever they stand outside the tags. -/
structure Spells (tokens : List MarkupToken) (nodes : List Node) : Prop where
  readable : ∀ t ∈ tokens, IsReadable t
  makes : Makes standalone tokens nodes

namespace Spells

variable {tokens more : List MarkupToken} {nodes others : List Node}

lemma append (h : Spells tokens nodes) (rest : Spells more others) :
    Spells (tokens ++ more) (nodes ++ others) where
  readable t mem := (List.mem_append.mp mem).elim (h.readable t) (rest.readable t)
  makes := h.makes.append rest.makes

lemma flatMap {α : Type} {tokens : α → List MarkupToken} {nodes : α → List Node}
    (h : ∀ x, Spells (tokens x) (nodes x)) (xs : List α) :
    Spells (xs.flatMap tokens) (xs.flatMap nodes) where
  readable t mem := by
    obtain ⟨x, -, inside⟩ := List.mem_flatMap.mp mem
    exact (h x).readable t inside
  makes := Makes.flatMap (fun x => (h x).makes) xs

lemma text (s : String) : Spells [.text s] (chars s) where
  readable t mem := by
    rw [List.mem_singleton.mp mem]
    trivial
  makes := makes_text s

lemma within (name : String) (tag : IsTag name) {attributes : List Attribute}
    (named : ∀ a ∈ attributes, IsName a.name) (h : Spells tokens nodes) :
    Spells (.opening name attributes :: tokens ++ [.closing name])
      [.element name attributes nodes] where
  readable t mem := by
    rcases List.mem_append.mp mem with before | last
    · rcases List.mem_cons.mp before with rfl | inside
      · exact ⟨tag.1, named⟩
      · exact h.readable t inside
    · rw [List.mem_singleton.mp last]
      exact tag.1
  makes := makes_element name attributes tag.2 h.makes

lemma element (name : String) (tag : IsTag name) {attributes : List Attribute}
    (named : ∀ a ∈ attributes, IsName a.name) (text : String) :
    Spells (Html.element name attributes text) [.element name attributes (chars text)] :=
  (Spells.text text).within name tag named

lemma read? (h : Spells tokens nodes) : read? standalone (render tokens) = some nodes := by
  rw [read?_render h.readable]
  exact h.makes.build?

end Spells

lemma named_nil : ∀ a ∈ ([] : List Attribute), IsName a.name := List.forall_mem_nil _

/-- A page, and what is on it. -/
def pageNodes (title : String) (body : List Node) : List Node :=
  [.declaration "!DOCTYPE html"] ++ chars "\n" ++
    [.element "html" [] [
      .element "head" [] [.element "meta" [⟨"charset", "UTF-8"⟩] [],
        .element "title" [] (chars title), .element "style" [] (chars style)],
      .element "body" [] (chars "\n" ++ body)]] ++ chars "\n"

def rowNode (cells : List Node) : Node := .element "tr" [] cells

/-- The table of a page. -/
def tableNode (captions : List String) (rows : List (List Node)) : Node :=
  .element "table" [] <|
    [rowNode (captions.flatMap fun caption => [.element "th" [] (chars caption)])] ++ chars "\n" ++
      rows.flatMap fun cells => [rowNode cells] ++ chars "\n"

def reportNodes (heading summary : String) (captions : List String) (rows : List (List Node)) :
    List Node :=
  [.element "h1" [] (chars heading)] ++ chars "\n" ++ [.element "p" [] (chars summary)] ++
    chars "\n" ++ [tableNode captions rows]

lemma spells_page (title : String) {body : List MarkupToken} {nodes : List Node}
    (h : Spells body nodes) : Spells (page title body) (pageNodes title nodes) := by
  have start : Spells [.declaration "!DOCTYPE html"] [.declaration "!DOCTYPE html"] := by
    refine ⟨fun t mem => ?_, makes_declaration _⟩
    rw [List.mem_singleton.mp mem]
    exact ⟨.inl (by decide), by decide⟩
  have charset : Spells [.opening "meta" [⟨"charset", "UTF-8"⟩]]
      [.element "meta" [⟨"charset", "UTF-8"⟩] []] := by
    refine ⟨fun t mem => ?_, fun b => by simp [Builder.step, standalone]⟩
    rw [List.mem_singleton.mp mem]
    exact ⟨by decide, by decide⟩
  have titles := (charset.append (.element "title" (by decide) named_nil title)).append
    (.element "style" (by decide) named_nil style)
  have head := titles.within "head" (by decide) named_nil
  have body := ((Spells.text "\n").append h).within "body" (by decide) named_nil
  have html := (head.append body).within "html" (by decide) named_nil
  have whole := ((start.append (.text "\n")).append html).append (.text "\n")
  simpa [page, pageNodes, Html.element] using whole

lemma spells_report {α : Type} (heading summary : String) (captions : List String) (xs : List α)
    {row : α → List MarkupToken} {nodes : α → List Node} (h : ∀ x, Spells (row x) (nodes x)) :
    Spells (report heading summary captions (xs.map row))
      (reportNodes heading summary captions (xs.map nodes)) := by
  have line {cells : List MarkupToken} {nodes : List Node} (h : Spells cells nodes) :
      Spells (.opening "tr" [] :: cells ++ [.closing "tr"]) [rowNode nodes] :=
    h.within "tr" (by decide) named_nil
  have header := line (Spells.flatMap (Spells.element "th" (by decide) named_nil) captions)
  have rows := Spells.flatMap (fun x => (line (h x)).append (.text "\n")) xs
  have table := ((header.append (.text "\n")).append rows).within "table" (by decide) named_nil
  have top := ((Spells.element "h1" (by decide) named_nil heading).append (.text "\n")).append
    (.element "p" (by decide) named_nil summary)
  have whole := (top.append (.text "\n")).append table
  simpa [report, reportNodes, tableNode, Html.element, List.flatMap_map] using whole

/-! ### Rows -/

def cellNode (attributes : List Attribute) (text : String) : Node :=
  .element "td" attributes (chars text)

@[simp] lemma isNamed_cellNode (attributes : List Attribute) (text name : String) :
    (cellNode attributes text).isNamed name = decide ("td" = name) := rfl

@[simp] lemma label_cellNode (attributes : List Attribute) (text : String) :
    (cellNode attributes text).label = text := Node.label_element ..

@[simp] lemma childrenNamed_cellNode (attributes : List Attribute) (text name : String) :
    (cellNode attributes text).childrenNamed name = [] := filter_isNamed_chars name text

def outcomeNode (failed : Bool) (text : String) : Node :=
  cellNode [⟨"class", if failed then "fail" else "pass"⟩] text

lemma spells_cell (text : String) : Spells (cell text) [cellNode [] text] :=
  .element "td" (by decide) named_nil text

lemma spells_outcomeCell (failed : Bool) (text : String) :
    Spells (outcomeCell failed text) [outcomeNode failed text] :=
  .element "td" (by decide) (List.forall_mem_singleton.mpr (by decide : IsName "class")) text

def scenarioNodes (s : Scenario) : List Node :=
  [cellNode [] (toString s.line.toNat), cellNode [] s.name,
    outcomeNode s.failed (if s.failed then "FAIL" else "PASS"), cellNode [] (millis s.durationMs),
    cellNode [] (s.error.getD "")]

lemma spells_scenarioRow (s : Scenario) : Spells (scenarioRow s) (scenarioNodes s) :=
  ((((spells_cell _).append (spells_cell s.name)).append (spells_outcomeCell s.failed _)).append
    (spells_cell _)).append (spells_cell _)

def linkNode (name : String) : Node :=
  .element "td" [] [.element "a" [⟨"href", name ++ ".html"⟩] (chars name)]

def featureNodes (r : FeatureRow) : List Node :=
  [linkNode r.name, cellNode [] (toString r.scenarios), outcomeNode false (toString r.passed),
    outcomeNode (0 < r.failed) (toString r.failed), cellNode [] (millis r.durationMs)]

@[simp] lemma isNamed_linkNode (target name : String) :
    (linkNode target).isNamed name = decide ("td" = name) := rfl

@[simp] lemma label_linkNode (target : String) : (linkNode target).label = target := by
  simp only [Node.label, linkNode, Node.text, Node.texts, Node.texts_chars, List.append_nil,
    String.ofList_toList]

lemma spells_featureRow (r : FeatureRow) : Spells (featureRow r) (featureNodes r) := by
  have href : ∀ a ∈ [(⟨"href", r.name ++ ".html"⟩ : Attribute)], IsName a.name :=
    List.forall_mem_singleton.mpr (by decide : IsName "href")
  have link := (Spells.element "a" (by decide) href r.name).within "td" (by decide) named_nil
  exact (((link.append (spells_cell _)).append (spells_outcomeCell false _)).append
    (spells_outcomeCell _ _)).append (spells_cell _)

lemma spells_featureTokens (r : FeatureRecord) : ∃ summary, Spells (featureTokens r)
    (pageNodes r.qualifiedName (reportNodes r.path summary
      ["Line", "Scenario", "Status", "Duration", "Error"] (r.scenarios.map scenarioNodes))) :=
  ⟨_, spells_page _ (spells_report _ _ _ r.scenarios spells_scenarioRow)⟩

lemma spells_summaryTokens (s : Summary) : ∃ summary, Spells (summaryTokens s)
    (pageNodes "Suite Summary" (reportNodes "Suite Summary" summary
      ["Feature", "Scenarios", "Passed", "Failed", "Duration"] (s.features.map featureNodes))) :=
  ⟨_, spells_page _ (spells_report _ _ _ s.features spells_featureRow)⟩

/-! ### The table of a page -/

/-- The only one among nodes that has a name. -/
def only? (name : String) (nodes : List Node) : Option Node :=
  match nodes.filter (Node.isNamed name) with
  | [node] => some node
  | _ => none

/-- The table of a page. -/
def table? (page : String) : Option Node := do
  let html ← only? "html" (← read? standalone page.toList)
  let body ← only? "body" html.children
  only? "table" body.children

/-- The texts of the elements in a row that have a name. -/
def cellTexts (name : String) (row : Node) : List String :=
  (row.childrenNamed name).map Node.label

/-- Where the links in a row lead. -/
def links (row : Node) : List String :=
  (row.childrenNamed "td").flatMap fun cell =>
    (cell.childrenNamed "a").filterMap (Node.value? "href")

/-- The page has one table, with a row of captions and then a row for each member of the list. -/
def Tabulates {α : Type} (page : String) (captions : List String) (shows : α → Node → Prop)
    (xs : List α) : Prop :=
  ∃ table header rows, table? page = some table ∧ elements table.children = header :: rows ∧
    cellTexts "th" header = captions ∧ List.Forall₂ shows xs rows

structure ShowsScenario (s : Scenario) (row : Node) : Prop where
  named : row.isNamed "tr"
  cells : cellTexts "td" row = [toString s.line.toNat, s.name, if s.failed then "FAIL" else "PASS",
    toString s.durationMs.toNat ++ "ms", s.error.getD ""]
  links : links row = []

/-- The link is the name of the file that the feature's page is written to. -/
structure ShowsFeature (r : FeatureRecord) (row : Node) : Prop where
  named : row.isNamed "tr"
  cells : cellTexts "td" row = [r.qualifiedName, toString r.scenarioCount, toString r.passedCount,
    toString r.failedCount, toString r.durationMs.toNat ++ "ms"]
  link : ∃ target, links row = [target] ∧ ('/' ∉ r.qualifiedName.toList → ∀ dir : Path,
    (FileReports.featureFile dir r.qualifiedName "html").DirectlyIn dir ∧
      (FileReports.featureFile dir r.qualifiedName "html").fileName = some (Text.utf8 target.toList))

lemma table?_page {page title : String} {nodes : List Node}
    (h : read? standalone page.toList = some (pageNodes title nodes)) :
    table? page = only? "table" nodes := by
  simp [table?, h, pageNodes, only?, Node.isNamed, Node.children]

lemma only?_reportNodes (heading summary : String) (captions : List String)
    (rows : List (List Node)) :
    only? "table" (reportNodes heading summary captions rows) = some (tableNode captions rows) := by
  simp [only?, reportNodes, Node.isNamed, tableNode]

lemma elements_tableNode (captions : List String) (rows : List (List Node)) :
    elements (tableNode captions rows).children =
      rowNode (captions.flatMap fun caption => [.element "th" [] (chars caption)]) ::
        rows.map rowNode := by
  have element (cells : List Node) : (rowNode cells).isElement = true := rfl
  simp [tableNode, Node.children, element, ← List.map_eq_flatMap]

lemma tabulates_of_read? {α : Type} {page title heading summary : String}
    {captions : List String} {xs : List α} {row : α → List Node} {shows : α → Node → Prop}
    (h : read? standalone page.toList =
      some (pageNodes title (reportNodes heading summary captions (xs.map row))))
    (each : ∀ x, shows x (rowNode (row x))) : Tabulates page captions shows xs := by
  refine ⟨_, _, _, (table?_page h).trans (only?_reportNodes ..), elements_tableNode .., ?_, ?_⟩
  · simp [cellTexts, Node.childrenNamed, rowNode, Node.children, Node.isNamed,
      ← List.map_eq_flatMap, List.filter_map, Function.comp_def]
  · rw [List.map_map, List.forall₂_map_right_iff, List.forall₂_same]
    exact fun x _ => each x

lemma millis_eq (ms : UInt64) : millis ms = toString ms.toNat ++ "ms" := rfl

lemma childrenNamed_rowNode (cells : List Node) (name : String) :
    (rowNode cells).childrenNamed name = cells.filter (Node.isNamed name) := rfl

lemma showsScenario_row (s : Scenario) : ShowsScenario s (rowNode (scenarioNodes s)) where
  named := rfl
  cells := by
    simp [cellTexts, childrenNamed_rowNode, scenarioNodes, outcomeNode, millis_eq]
  links := by
    simp [links, childrenNamed_rowNode, scenarioNodes, outcomeNode]

lemma showsFeature_row (r : FeatureRecord) :
    ShowsFeature r (rowNode (featureNodes (.ofRecord r))) where
  named := rfl
  cells := by
    simp [cellTexts, childrenNamed_rowNode, featureNodes, outcomeNode, millis_eq,
      FeatureRow.ofRecord]
  link := by
    refine ⟨r.qualifiedName ++ ".html", ?_, fun plain dir => ?_⟩
    · have target : ((linkNode r.qualifiedName).childrenNamed "a").filterMap (Node.value? "href") =
        [r.qualifiedName ++ ".html"] := rfl
      simp [links, childrenNamed_rowNode, featureNodes, outcomeNode, FeatureRow.ofRecord, target]
    · have components := Report.components_file dir (r := .feature r.qualifiedName .html) plain
      have name : (Report.feature r.qualifiedName .html).fileName = r.qualifiedName ++ ".html" :=
        String.append_assoc ..
      have file : FileReports.featureFile dir r.qualifiedName "html" =
        (Report.feature r.qualifiedName .html).file dir := rfl
      refine ⟨Path.directlyIn_of_components components, ?_⟩
      rw [file, Path.fileName, components, List.getLast?_concat, name]

/-! ### What the texts cannot change -/

/-- The outline of a page with so many captions, and so many rows that are alike. -/
def pageOutline (captions : Nat) (row : List Node) (rows : Nat) : List Node :=
  [.declaration "!DOCTYPE html",
    .element "html" [] [
      .element "head" [] [.element "meta" [⟨"charset", ""⟩] [], .element "title" [] [],
        .element "style" [] []],
      .element "body" [] [
        .element "h1" [] [], .element "p" [] [],
        .element "table" [] <|
          rowNode (.replicate captions (.element "th" [] [])) :: .replicate rows (rowNode row)]]]

def cellOutline : Node := .element "td" [] []

def outcomeOutline : Node := .element "td" [⟨"class", ""⟩] []

def scenarioOutline : List Node :=
  [cellOutline, cellOutline, outcomeOutline, cellOutline, cellOutline]

def featureOutline : List Node :=
  [.element "td" [] [.element "a" [⟨"href", ""⟩] []], cellOutline, outcomeOutline, outcomeOutline,
    cellOutline]

lemma outline_page {α : Type} (title heading summary : String) (captions : List String)
    {row : α → List Node} {outline : List Node} (alike : ∀ x, Node.outline (row x) = outline)
    (xs : List α) :
    Node.outline (pageNodes title (reportNodes heading summary captions (xs.map row))) =
      pageOutline captions.length outline xs.length := by
  simp [pageNodes, reportNodes, tableNode, pageOutline, rowNode, alike, List.flatMap_map,
    ← List.map_eq_flatMap]

/-! ### The main result -/

/-- **The pages show what ran.** Read as markup, the page of a record has a row for each scenario and
the page of a run a row for each registered record that has a scenario, in their order, after a row of
captions; the cells have the texts and counts of the record, and the link to a feature's page is the
name of its file in the report directory, if the name has no separator. No text can add, close or
alter an element: the outline of a page depends on nothing but the number of its rows. -/
theorem pages_show (r : FeatureRecord) (results : Results) (store : RecordStore) :
    let page := featurePage r
    let summary := summaryPage (.ofResults results store)
    let ran := (store.select results.registered).filter fun r => !r.isEmpty
    Tabulates page ["Line", "Scenario", "Status", "Duration", "Error"] ShowsScenario r.scenarios ∧
      Tabulates summary ["Feature", "Scenarios", "Passed", "Failed", "Duration"] ShowsFeature ran ∧
      (read? standalone page.toList).map Node.outline =
        some (pageOutline 5 scenarioOutline r.scenarios.length) ∧
      (read? standalone summary.toList).map Node.outline =
        some (pageOutline 5 featureOutline ran.length) := by
  intro page summary ran
  obtain ⟨counts, spelled⟩ := spells_featureTokens r
  have read : read? standalone page.toList = some (pageNodes r.qualifiedName
      (reportNodes r.path counts ["Line", "Scenario", "Status", "Duration", "Error"]
        (r.scenarios.map scenarioNodes))) := by
    rw [show page.toList = render (featureTokens r) from String.toList_ofList, spelled.read?]
  obtain ⟨counts', spelled'⟩ := spells_summaryTokens (.ofResults results store)
  have read' : read? standalone summary.toList = some (pageNodes "Suite Summary"
      (reportNodes "Suite Summary" counts' ["Feature", "Scenarios", "Passed", "Failed", "Duration"]
        (ran.map fun r => featureNodes (.ofRecord r)))) := by
    rw [show summary.toList = render (summaryTokens (.ofResults results store)) from
      String.toList_ofList, spelled'.read?, Summary.ofResults, List.map_map]
    rfl
  refine ⟨tabulates_of_read? read showsScenario_row, tabulates_of_read? read' showsFeature_row, ?_, ?_⟩
  · have alike (s : Scenario) : Node.outline (scenarioNodes s) = scenarioOutline := by
      simp [scenarioNodes, scenarioOutline, cellNode, outcomeNode, cellOutline, outcomeOutline]
    rw [read, Option.map_some, outline_page _ _ _ _ alike]
    rfl
  · have alike (r : FeatureRecord) : Node.outline (featureNodes (.ofRecord r)) = featureOutline := by
      simp [featureNodes, featureOutline, linkNode, cellNode, outcomeNode, cellOutline,
        outcomeOutline]
    rw [read', Option.map_some, outline_page _ _ _ _ alike]
    rfl

end FeatureBatch.Html
