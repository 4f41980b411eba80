import FeatureBatch.Config.Settings
import FeatureBatch.Proofs.Config.Dictionary
import FeatureBatch.Proofs.Files.Writing
import FeatureBatch.Proofs.Json.RoundTrip

/-!
Settings in files. Settings with a directory that is no text have no text either, and saving them
changes nothing; all others are loaded from the file that they were saved in as they were.
-/

namespace FeatureBatch

open Json

namespace Settings

/-! ### Directories -/

/-- The directories that are there are texts. -/
def DirectoriesAreText (s : Settings) : Prop :=
  ∀ p, some p ∈ [s.workingDir, s.buildDir, s.reportDir, s.configDir] → p.IsText

lemma exists_directoryText? {d : Option Path} (text : ∀ p, d = some p → p.IsText) :
    ∃ t : Option String, directoryText? d = some t ∧ t.map Path.ofText = d := by
  cases d with
  | none => exact ⟨none, rfl, rfl⟩
  | some p =>
    obtain ⟨t, rfl⟩ := text p rfl
    have read : (Path.ofText t).text? = some t := Path.text?_eq_some.mpr rfl
    exact ⟨some t, by rw [directoryText?, read, Option.map_some], rfl⟩

lemma directoryText?_eq_none {p : Path} (h : ¬ p.IsText) : directoryText? (some p) = none := by
  rw [directoryText?, Path.text?_eq_none.mpr h, Option.map_none]

lemma exists_directories? {s : Settings} (h : s.DirectoriesAreText) :
    ∃ working build report config : Option String,
      s.directories? = some [working, build, report, config] ∧
      working.map Path.ofText = s.workingDir ∧ build.map Path.ofText = s.buildDir ∧
      report.map Path.ofText = s.reportDir ∧ config.map Path.ofText = s.configDir := by
  obtain ⟨working, hw, working_eq⟩ := exists_directoryText? (d := s.workingDir) fun p hp =>
    h p (by simp [hp])
  obtain ⟨build, hb, build_eq⟩ := exists_directoryText? (d := s.buildDir) fun p hp =>
    h p (by simp [hp])
  obtain ⟨report, hr, report_eq⟩ := exists_directoryText? (d := s.reportDir) fun p hp =>
    h p (by simp [hp])
  obtain ⟨config, hc, config_eq⟩ := exists_directoryText? (d := s.configDir) fun p hp =>
    h p (by simp [hp])
  refine ⟨working, build, report, config, ?_, working_eq, build_eq, report_eq, config_eq⟩
  simp [directories?, hw, hb, hr, hc]

lemma mapM_eq_none {α β : Type} {f : α → Option β} {l : List α} {a : α} (mem : a ∈ l)
    (none : f a = none) : l.mapM f = .none := by
  induction l with
  | nil => cases mem
  | cons b l ih =>
    rw [List.mapM_cons]
    rcases List.mem_cons.mp mem with rfl | mem
    · rw [none]
      rfl
    · rw [ih mem]
      cases f b <;> rfl

lemma directories?_eq_none {s : Settings} (h : ¬ s.DirectoriesAreText) : s.directories? = none := by
  simp only [DirectoriesAreText, not_forall] at h
  obtain ⟨p, mem, noText⟩ := h
  exact mapM_eq_none mem (directoryText?_eq_none noText)

/-! ### JSON -/

lemma dictionaryOfJson?_record (d : Dictionary) :
    dictionaryOfJson? (record (d.toList.map fun (k, v) => (k, text v))) = some d := by
  have pairs : (d.toList.map fun p => (some p.1, text p.2)).mapM
      (fun f => do some (← f.1, ← f.2.asText?)) = some d.toList :=
    mapM_map_eq_self fun p _ => rfl
  rw [record, dictionaryOfJson?, List.map_map]
  exact (congrArg (Option.bind · fun l => some (Dictionary.ofList l)) pairs).trans
    (congrArg some d.ofList_toList)

lemma asOption?_of_ne_null {α : Type} {f : Json → Option α} {v : Json} (value : v ≠ .null) :
    asOption? f v = (f v).map some := by
  cases v with
  | null => contradiction
  | _ => rfl

lemma optional?_orNull {α β : Type} {f : Json → Option β} {g : α → Json} {h : α → β}
    (value : ∀ a, g a ≠ .null) (read : ∀ a, f (g a) = some (h a)) (o : Option α) :
    optional? f (some (orNull g o)) = some (o.map h) := by
  cases o with
  | none => rfl
  | some a => exact (asOption?_of_ne_null (value a)).trans (congrArg (Option.map some) (read a))

@[simp] lemma optional?_word (n : Option UInt64) :
    optional? asWord? (some (orNull word n)) = some n :=
  (optional?_orNull (h := id) nofun asWord?_word n).trans (congrArg some Option.map_id')

@[simp] lemma optional?_bool (b : Option Bool) :
    optional? asBool? (some (orNull .bool b)) = some b :=
  (optional?_orNull (h := id) nofun asBool?_bool b).trans (congrArg some Option.map_id')

@[simp] lemma optional?_outputs (o : Option OutputFormats) :
    optional? OutputFormats.ofJson? (some (orNull OutputFormats.toJson o)) = some o :=
  (optional?_orNull (h := id) nofun OutputFormats.ofJson?_toJson o).trans
    (congrArg some Option.map_id')

@[simp] lemma optional?_path (t : Option String) :
    optional? pathOfJson? (some (orNull text t)) = some (t.map Path.ofText) :=
  optional?_orNull (f := pathOfJson?) (g := text) nofun (fun _ => rfl) t

lemma ofJson?_of_toJson? {s : Settings} {v : Json} (text : s.DirectoriesAreText)
    (h : s.toJson? = some v) : ofJson? v = some s := by
  obtain ⟨working, build, report, config, texts, hw, hb, hr, hc⟩ := exists_directories? text
  simp only [toJson?, texts, Option.bind_eq_bind, Option.bind_some, Option.some.injEq] at h
  subst h
  have fields (fs : List (String × Json)) (named : fs.map Prod.fst = fieldNames) :
      jsonFields? (record fs) = some (fs.map fun f => some f.2) :=
    fieldValues?_record named (by decide)
  rw [ofJson?, fields _ rfl]
  simp [dictionaryOfJson?_record, hw, hb, hr, hc]

lemma writable_of_toJson? {s : Settings} {v : Json} (h : s.toJson? = some v) : Writable v := by
  unfold toJson? at h
  obtain ⟨dirs, texts, h⟩ := Option.bind_eq_some_iff.mp h
  split at h
  · obtain rfl := Option.some.inj h
    have properties : Writable (record (s.systemProperties.toList.map fun (k, v) => (k, .text v))) :=
      writable_record fun f hf => by
        obtain ⟨p, -, rfl⟩ := List.mem_map.mp hf
        exact .text p.2
    refine writable_record ?_
    simp [Json.texts, properties, writable_map, writable_orNull, writable_word,
      OutputFormats.writable_toJson, Writable.text, Writable.bool]
  · cases h

/-! ### Files -/

lemma render_eq_error {s : Settings} (h : ¬ s.DirectoriesAreText) (yaml : Bool) :
    s.render yaml = .error .serialize := by
  have none := directories?_eq_none h
  have noYaml : s.toYaml? = .none := by rw [toYaml?, none]; rfl
  have noJson : s.toJson? = .none := by rw [toJson?, none]; rfl
  cases yaml with
  | true => rw [render, noYaml]; rfl
  | false => rw [render, noJson]; rfl

lemma load_of_save {fs : FileSystem} {p : Path} {s : Settings} {text : String}
    (writable : fs.IsWritable p) (rendered : s.render (isYaml p) = .ok text)
    (parsed : parse (isYaml p) text = .ok s) :
    ∃ fs', save fs p s = (.ok (), fs') ∧ load fs' p = .ok s := by
  obtain ⟨fs', written⟩ := writable.write (Text.utf8 text.toList)
  refine ⟨fs', ?_, ?_⟩
  · rw [save, rendered]
    simp only [written]
  · rw [load, FileSystem.readText_write written]
    exact parsed

lemma isYaml_eq_false {p : Path} (yaml : p.extension ≠ some (Text.utf8 "yaml".toList))
    (yml : p.extension ≠ some (Text.utf8 "yml".toList)) : isYaml p = false := by
  rw [isYaml, decide_eq_false yaml, decide_eq_false yml, Bool.or_false]

/-- **Settings are saved whole or not at all.** Settings with a directory that is no text are
refused in either format, and the files stay as they were. Other settings, saved under a name without
one of the extensions of YAML where a file can be written, are loaded from there as they were. -/
theorem save_refuses_or_loads_json (fs : FileSystem) (p : Path) (s : Settings) :
    (¬ s.DirectoriesAreText → save fs p s = (.error .serialize, fs) ∧
      SettingsError.serialize.message = "Failed to serialize settings") ∧
    (s.DirectoriesAreText → p.extension ≠ some (Text.utf8 "yaml".toList) →
      p.extension ≠ some (Text.utf8 "yml".toList) → fs.IsWritable p →
      ∃ fs', save fs p s = (.ok (), fs') ∧ load fs' p = .ok s) := by
  constructor
  · intro noText
    refine ⟨?_, rfl⟩
    rw [save, render_eq_error noText]
  · intro text yaml yml writable
    obtain ⟨v, written⟩ : ∃ v, s.toJson? = some v := by
      obtain ⟨working, build, report, config, texts, -⟩ := exists_directories? text
      exact ⟨_, by rw [toJson?, texts]; rfl⟩
    have json := isYaml_eq_false yaml yml
    refine load_of_save writable (by rw [json, render, written]; rfl) ?_
    simp [json, parse, ofText?_prettyText (writable_of_toJson? written),
      ofJson?_of_toJson? text written]

/-- An existing file keeps its content where a directory is no text, and is written over where all
are texts. -/
theorem settings_kept_or_written :
    let fs : FileSystem := ⟨[([Text.utf8 "s.json".toList], .file [0])], some []⟩
    let p := Path.ofText "s.json"
    let s : Settings := ⟨some "\"\\\n", ["@a"], some 0, none, some .all, some (.ofText "ü"), none, none,
      none, .ofList [("k", "\u2028"), ("", "null")]⟩
    save fs p { s with buildDir := some ⟨[255]⟩ } = (.error .serialize, fs) ∧
      ∃ fs', save fs p s = (.ok (), fs') ∧ load fs' p = .ok s := by
  intro fs p s
  constructor
  · refine ((save_refuses_or_loads_json fs p { s with buildDir := some ⟨[255]⟩ }).1 fun text => ?_).1
    have read := Path.text?_eq_none.not_left.mpr (text ⟨[255]⟩ (by simp))
    have single : Text.readChars [255] = [none] := by
      rw [Text.readChars, Text.readChars.eq_def]
      rfl
    exact read (by rw [Path.text?, Text.ofUtf8?, single]; rfl)
  · refine (save_refuses_or_loads_json fs p s).2 ?_ (by decide) (by decide) ⟨[], _, rfl⟩
    intro q hq
    simp [s] at hq
    exact ⟨"ü", hq.symm⟩

end Settings

end FeatureBatch
