import Mathlib.Data.List.Nodup
import FeatureBatch.Reports.FileReports
import FeatureBatch.Proofs.Path
import FeatureBatch.Proofs.Text.Utf8

/-!
Where reports go. A feature's report lies directly in the report directory if the feature's name has
no separator, and the names that are made of paths have none; a name that was given freely, or a path
of dots and separators that stands for itself, may lead elsewhere. Reports whose names have no
separators go to the same file only if they are of the same kind and name, or if one of them has the
name of a report about the suite.
-/

namespace FeatureBatch

/-! ### Files directly in a directory -/

/-- The path has the directory as its parent, and one ordinary component after it. -/
structure Path.DirectlyIn (p dir : Path) : Prop where
  parent : ∃ up, p.parent = some up ∧ up.components = dir.components
  component : ∃ name, p.components = dir.components ++ [.normal name]

namespace Path

lemma directlyIn_of_components {p dir : Path} {name : List UInt8}
    (h : p.components = dir.components ++ [.normal name]) : p.DirectlyIn dir := by
  obtain ⟨up, parent⟩ := exists_parent h
  refine ⟨⟨up, parent, ?_⟩, name, h⟩
  rw [components_parent parent, h, List.dropLast_concat]

lemma components_ne_nil {p : Path} (ne : p.bytes ≠ []) : p.components ≠ [] := by
  rw [components_eq, readSegments]
  cases root : p.isAbsolute with
  | true => simp
  | false =>
    cases segs : p.segments with
    | nil => exact absurd segs (List.splitOn_ne_nil _ _)
    | cons first rest =>
      have some_bytes : first ≠ [] := fun empty =>
        ne (bytes_eq_nil_of_segments root (by rw [segs, empty]; rfl))
      by_cases here : first = [dot] <;> simp [here, skipped, some_bytes]

end Path

/-! ### Reports and their files -/

/-- The kinds of reports of a single feature. -/
inductive FeatureReport where
  | json
  | xml
  | html
  deriving DecidableEq, Repr

def FeatureReport.extension : FeatureReport → String
  | json => "json"
  | xml => "xml"
  | html => "html"

/-- A report of a run: of a feature, by its qualified name, or about the suite. -/
inductive Report where
  | feature (name : String) (kind : FeatureReport)
  | summary
  | stats
  | timeline
  deriving DecidableEq, Repr

namespace Report

def fileName : Report → String
  | feature name kind => name ++ "." ++ kind.extension
  | summary => FileReports.summaryFile
  | stats => FileReports.statsFile
  | timeline => FileReports.timelineFile

/-- Where the report goes. -/
def file (dir : Path) (r : Report) : Path := dir.join (.ofText r.fileName)

/-- The name of the report's feature has no separator. -/
def IsPlain : Report → Prop
  | feature name _ => '/' ∉ name.toList
  | _ => True

end Report

open FeatureBatch.Path

lemma slash_mem_utf8 {s : List Char} : slash ∈ Text.utf8 s ↔ '/' ∈ s := Text.mem_utf8 (by decide)

lemma utf8_fileName (name : String) (kind : FeatureReport) :
    Text.utf8 (Report.feature name kind).fileName.toList =
      Text.utf8 name.toList ++ Text.utf8 ('.' :: kind.extension.toList) := by
  rw [Report.fileName, String.toList_append, String.toList_append, List.append_assoc,
    Text.utf8_append]
  rfl

lemma isName_append {bytes : List UInt8} (clean : slash ∉ bytes) (kind : FeatureReport) :
    IsName (bytes ++ Text.utf8 ('.' :: kind.extension.toList)) := by
  have long : 3 ≤ (Text.utf8 ('.' :: kind.extension.toList)).length := by
    cases kind <;> decide +kernel
  have plain : slash ∉ Text.utf8 ('.' :: kind.extension.toList) := by
    cases kind <;> decide +kernel
  have length : (bytes ++ Text.utf8 ('.' :: kind.extension.toList)).length =
      bytes.length + (Text.utf8 ('.' :: kind.extension.toList)).length := List.length_append
  refine ⟨by simp [clean, plain], ?_, fun dots => ?_⟩
  · have ne_nil : bytes ++ Text.utf8 ('.' :: kind.extension.toList) ≠ [] := fun empty => by
      rw [empty, List.length_nil] at length
      omega
    have ne_dot : bytes ++ Text.utf8 ('.' :: kind.extension.toList) ≠ [dot] := fun single => by
      rw [single, List.length_singleton] at length
      omega
    simp [skipped, ne_nil, ne_dot]
  · rw [dots, List.length_cons, List.length_singleton] at length
    omega

namespace Report

lemma isName_fileName {r : Report} (plain : r.IsPlain) : IsName (Text.utf8 r.fileName.toList) := by
  cases r with
  | feature name kind =>
    rw [utf8_fileName]
    exact isName_append (slash_mem_utf8.not.mpr plain) kind
  | _ => exact ⟨by decide +kernel, by decide +kernel, by decide +kernel⟩

lemma components_file (dir : Path) {r : Report} (plain : r.IsPlain) :
    (r.file dir).components = dir.components ++ [.normal (Text.utf8 r.fileName.toList)] :=
  components_join_name dir (isName_fileName plain)

lemma not_directlyIn {name : String} (separator : '/' ∈ name.toList) (kind : FeatureReport) :
    ¬ ((feature name kind).file ⟨[]⟩).DirectlyIn ⟨[]⟩ := by
  rintro ⟨-, x, components⟩
  obtain ⟨tail, before, split, clean⟩ :=
    List.eq_append_cons_of_mem (List.mem_reverse.mpr (slash_mem_utf8.mpr separator))
  have bytes : Text.utf8 (feature name kind).fileName.toList =
      before.reverse ++ slash :: (tail.reverse ++ Text.utf8 ('.' :: kind.extension.toList)) := by
    rw [utf8_fileName, ← List.reverse_reverse (Text.utf8 name.toList), split]
    simp
  have file : (feature name kind).file ⟨[]⟩ = ⟨Text.utf8 (feature name kind).fileName.toList⟩ := by
    unfold Report.file Path.join ofText
    split <;> simp
  have nothing : Path.components ⟨[]⟩ = [] := rfl
  rw [file, bytes, nothing, List.nil_append] at components
  by_cases absolute : before.reverse = []
  · rw [absolute, List.nil_append] at components
    cases (List.cons.inj components).1
  · rw [components_append_slash absolute (isName_append (by simpa using clean) kind),
      ← List.nil_append [Component.normal x]] at components
    exact components_ne_nil absolute (List.append_inj_left' components rfl)

end Report

/-! ### The reports of a batch -/

namespace Report

/-- What a report is called. Reports about the suite go by names that a feature could have. -/
def slot : Report → String × FeatureReport
  | feature name kind => (name, kind)
  | summary => ("index", .html)
  | stats => ("suite-stats", .json)
  | timeline => ("timeline", .json)

/-- The file name of a slot. -/
def slotName (s : String × FeatureReport) : String := s.1 ++ "." ++ s.2.extension

lemma fileName_eq (r : Report) : r.fileName = slotName r.slot := by
  cases r with
  | feature name kind => rfl
  | _ => decide

lemma extension_injective : Function.Injective FeatureReport.extension := by
  intro kind kind' same
  cases kind <;> cases kind' <;> simp [FeatureReport.extension] at same ⊢

lemma slotName_injective : Function.Injective slotName := by
  rintro ⟨name, kind⟩ ⟨name', kind'⟩ same
  have ends (kind : FeatureReport) (rest : List Char) :
      (kind.extension.toList.reverse ++ '.' :: rest).takeWhile (· ≠ '.') =
        kind.extension.toList.reverse := by
    cases kind <;> rfl
  have chars : kind.extension.toList.reverse ++ '.' :: name.toList.reverse =
      kind'.extension.toList.reverse ++ '.' :: name'.toList.reverse := by
    simpa [slotName] using congrArg (fun s => s.toList.reverse) same
  have kinds := congrArg (List.takeWhile (· ≠ '.')) chars
  rw [ends, ends, List.reverse_inj, String.toList_inj] at kinds
  obtain rfl := extension_injective kinds
  rw [List.append_cancel_left_eq, List.cons_inj_right, List.reverse_inj, String.toList_inj] at chars
  rw [chars]

/-- The path of a slot in a directory. -/
def place (dir : Path) (s : String × FeatureReport) : List Component :=
  dir.components ++ [.normal (Text.utf8 (slotName s).toList)]

lemma place_injective (dir : Path) : Function.Injective (place dir) := by
  intro s t same
  have last := List.append_inj_right' same rfl
  rw [List.cons_eq_cons, Component.normal.injEq] at last
  exact slotName_injective (String.toList_inj.mp (Text.utf8_inj.mp last.1))

lemma components_file_eq (dir : Path) {r : Report} (plain : r.IsPlain) :
    (r.file dir).components = place dir r.slot := by
  rw [components_file dir plain, fileName_eq]
  rfl

/-- The reports of a run of features with these names, in the order of a run with one thread. -/
def ofBatch (names : List String) : List Report :=
  names.flatMap (fun name => [feature name .json, feature name .xml]) ++
    (names.map (feature · .html) ++ [summary, stats, timeline])

/-- The names of features, none used twice and none used for a report about the suite. -/
structure Apart (names : List String) : Prop where
  nodup : names.Nodup
  free : ∀ name ∈ names, name ∉ ["index", "suite-stats", "timeline"]

lemma isPlain_ofBatch {names : List String} (plain : ∀ name ∈ names, '/' ∉ name.toList) :
    ∀ r ∈ ofBatch names, r.IsPlain := by
  intro r mem
  cases r with
  | feature name kind =>
    refine plain name ?_
    simp only [ofBatch, List.mem_append, List.mem_flatMap, List.mem_map, List.mem_cons,
      feature.injEq, List.not_mem_nil, or_false, reduceCtorEq] at mem
    rcases mem with ⟨n, there, ⟨rfl, -⟩ | ⟨rfl, -⟩⟩ | ⟨n, there, rfl, -⟩ <;> exact there
  | _ => trivial

lemma nodup_slots (names : List String) : ((ofBatch names).map slot).Nodup ↔ Apart names := by
  have spelled : (ofBatch names).map slot =
      names.flatMap (fun name => [(name, .json), (name, .xml)]) ++
        (names.map (·, .html) ++ [("index", .html), ("suite-stats", .json), ("timeline", .json)]) := by
    simp [ofBatch, List.map_flatMap, Function.comp_def, slot]
  rw [spelled, List.nodup_append', List.nodup_append', List.nodup_flatMap]
  constructor
  · rintro ⟨-, ⟨pages, -, others⟩, early⟩
    refine ⟨pages.of_map _, fun name mem reserved => ?_⟩
    have page := @others (name, .html) (List.mem_map_of_mem mem)
    have json := @early (name, .json) (List.mem_flatMap.mpr ⟨name, mem, List.mem_cons_self⟩)
    simp only [List.mem_cons, List.not_mem_nil, or_false] at reserved
    rcases reserved with rfl | rfl | rfl
    · exact page (by simp)
    · exact json (by simp)
    · exact json (by simp)
  · rintro ⟨nodup, free⟩
    have others {name : String} (mem : name ∈ names) (kind : FeatureReport) :
        (name, kind) ∉ [("index", .html), ("suite-stats", .json), ("timeline", .json)] :=
      fun slot => free name mem (List.mem_map_of_mem (f := Prod.fst) slot)
    refine ⟨⟨fun name _ => by simp, nodup.imp fun differ => ?_⟩, ⟨?_, by decide, ?_⟩, ?_⟩
    · simpa [Function.onFun, eq_comm] using differ
    · exact nodup.map fun a b same => (Prod.mk.inj same).1
    · rintro s page other
      obtain ⟨name, mem, rfl⟩ := List.mem_map.mp page
      exact others mem _ other
    · rintro ⟨name, kind⟩ early later
      obtain ⟨owner, mem, here⟩ := List.mem_flatMap.mp early
      simp only [List.mem_cons, Prod.mk.injEq, List.not_mem_nil, or_false] at here
      obtain rfl : name = owner := here.elim And.left And.left
      rcases List.mem_append.mp later with page | other
      · obtain ⟨name', -, same⟩ := List.mem_map.mp page
        cases same
        simp at here
      · exact others mem kind other

lemma nodup_files (dir : Path) {names : List String} (plain : ∀ name ∈ names, '/' ∉ name.toList) :
    ((ofBatch names).map fun r => (r.file dir).components).Nodup ↔ Apart names := by
  have placed : (ofBatch names).map (fun r => (r.file dir).components) =
      ((ofBatch names).map slot).map (place dir) := by
    rw [List.map_map]
    exact List.map_congr_left fun r mem => components_file_eq dir (isPlain_ofBatch plain r mem)
  rw [placed, List.nodup_map_iff (place_injective dir), nodup_slots]

end Report

/-! ### Features -/

namespace Feature

/-- The path of the feature, without its extension, names something. -/
def HasNames (f : Feature) : Prop := namesOf f.path.withoutExtension ≠ []

lemma slash_not_mem_namesOf (path : Path) : ∀ name ∈ namesOf path, '/' ∉ name := by
  intro name mem
  obtain ⟨component, there, text⟩ := List.mem_filterMap.mp mem
  cases component with
  | normal bytes =>
    obtain rfl := Option.some.inj text
    have low : slash.toNat < 0x80 := by decide
    exact Text.not_mem_ofUtf8Lossy low (slash_not_mem_of_normal there)
  | _ => cases text

lemma slash_mem_qualifiedName (f : Feature) :
    '/' ∈ f.qualifiedName.toList ↔ ¬ f.HasNames ∧ '/' ∈ f.name.toList := by
  unfold qualifiedName HasNames
  split
  · rename_i none
    simp [none]
  · rename_i names some_names
    have clean : '/' ∉ List.intercalate ['.'] (namesOf f.path.withoutExtension) := fun mem => by
      rcases Text.mem_of_mem_intercalate mem with dot | ⟨name, among, inside⟩
      · exact absurd dot (by decide)
      · exact slash_not_mem_namesOf _ name among inside
    have there : namesOf f.path.withoutExtension ≠ [] := some_names
    simp [clean, there]

end Feature

/-! ### Reports of features -/

namespace FileReports

/-- **A feature's reports lie directly in the report directory**, whichever it is, exactly if the
feature's path names something or the name that stands for the path has no separator. -/
theorem feature_reports_inside (f : Feature) (kind : FeatureReport) :
    (∀ dir : Path, (featureFile dir (FeatureRecord.ofFeature f).qualifiedName
      kind.extension).DirectlyIn dir) ↔ f.HasNames ∨ '/' ∉ f.name.toList := by
  have same (dir : Path) : featureFile dir (FeatureRecord.ofFeature f).qualifiedName kind.extension =
    (Report.feature f.qualifiedName kind).file dir := rfl
  have plain := f.slash_mem_qualifiedName.not
  rw [not_and_or, not_not] at plain
  simp only [same, ← plain]
  constructor
  · intro inside separator
    exact Report.not_directlyIn separator kind (inside ⟨[]⟩)
  · intro clean dir
    exact directlyIn_of_components (Report.components_file dir clean)

/-- The feature at `../..` is called so, and its reports leave the directory. So do those of a
feature that is given an absolute name. -/
theorem dots_lead_outside :
    let reports : Path := .ofText "reports"
    let up := featureFile reports (FeatureRecord.ofFeature (.ofPath (.ofText "../.."))).qualifiedName
      "json"
    let away := featureFile reports
      (FeatureRecord.ofFeature ((Feature.ofPath (.ofText "/")).withName "/d/x")).qualifiedName "json"
    up.bytes = Text.utf8 "reports/../...json".toList ∧ ¬ up.DirectlyIn reports ∧
      away.bytes = Text.utf8 "/d/x.json".toList ∧ ¬ away.DirectlyIn reports := by
  have outside {p : Path} (h : p.components.length ≠ 2) : ¬ p.DirectlyIn (.ofText "reports") := by
    rintro ⟨-, name, components⟩
    have length := congrArg List.length components
    rw [List.length_append, show (Path.ofText "reports").components.length = 1 by decide +kernel]
      at length
    exact h length
  exact ⟨by decide +kernel, outside (by decide +kernel), by decide +kernel, outside (by decide +kernel)⟩

end FileReports

end FeatureBatch
