import FeatureBatch.Config.Draft
import FeatureBatch.Proofs.Config.Dictionary

/-!
What assignments come to. Each field of a draft holds what the last assignment gave it that gives it
anything, and lists and properties collect what assignments add. Assignments that give to different
places can be made in either order, and what is built depends on nothing else.
-/

namespace FeatureBatch

variable {η ρ : Type}

namespace Draft

/-! ### Fields -/

/-- The fields of a draft that hold one value each. -/
inductive Field where
  | env
  | tags
  | threads
  | dryRun
  | html
  | cucumberJson
  | junitXml
  | workingDir
  | buildDir
  | reportDir
  | configDir
  | reports
  | httpClients
  deriving DecidableEq, Repr

namespace Field

/-- The values of a field; `ρ` is the type of emitters of reports. -/
abbrev Value (ρ : Type) : Field → Type
  | env => Option String
  | tags => List String
  | threads => UInt64
  | dryRun | html | cucumberJson | junitXml => Bool
  | workingDir | buildDir | reportDir | configDir => Option Path
  | reports => ρ
  | httpClients => HttpClients

/-- What a field holds if nothing is assigned. -/
def default (emitter : ρ) : (f : Field) → f.Value ρ
  | env => none
  | tags => []
  | threads => 1
  | dryRun => false
  | html | cucumberJson | junitXml => true
  | workingDir | buildDir | reportDir | configDir => none
  | reports => emitter
  | httpClients => .default

end Field

/-- What a draft holds in a field. -/
def get (d : Draft η ρ) : (f : Field) → f.Value ρ
  | .env => d.env
  | .tags => d.tags
  | .threads => d.threads
  | .dryRun => d.dryRun
  | .html => d.outputs.html
  | .cucumberJson => d.outputs.cucumberJson
  | .junitXml => d.outputs.junitXml
  | .workingDir => d.workingDir
  | .buildDir => d.buildDir
  | .reportDir => d.reportDir
  | .configDir => d.configDir
  | .reports => d.reports
  | .httpClients => d.httpClients

end Draft

open Draft

/-! ### What assignments give -/

/-- What settings give a field. An absent value and an empty list of tags give nothing. -/
def Settings.given? (s : Settings) : (f : Field) → Option (f.Value ρ)
  | .env => s.env.map some
  | .tags => if s.tags = [] then none else some s.tags
  | .threads => s.threads
  | .dryRun => s.dryRun
  | .html => s.outputs.map (·.html)
  | .cucumberJson => s.outputs.map (·.cucumberJson)
  | .junitXml => s.outputs.map (·.junitXml)
  | .workingDir => s.workingDir.map some
  | .buildDir => s.buildDir.map some
  | .reportDir => s.reportDir.map some
  | .configDir => s.configDir.map some
  | .reports | .httpClients => none

/-- What overrides of the environment give a field. An absent value gives nothing. -/
def Environment.Overrides.given? (o : Environment.Overrides) : (f : Field) → Option (f.Value ρ)
  | .env => o.env.map some
  | .tags => o.tags
  | .threads => o.threads
  | .dryRun => o.dryRun
  | .reportDir => o.reportDir.map some
  | _ => Option.none

namespace Assignment

/-- What an assignment gives a field, if it gives it anything. -/
def given? : Assignment η ρ → (f : Field) → Option (f.Value ρ)
  | env value, .env => some (some value)
  | tags expressions, .tags => some expressions
  | threads n, .threads => some n
  | dryRun value, .dryRun => some value
  | outputs value, .html => some value.html
  | outputs value, .cucumberJson => some value.cucumberJson
  | outputs value, .junitXml => some value.junitXml
  | outputHtml enabled, .html => some enabled
  | outputCucumberJson enabled, .cucumberJson => some enabled
  | outputJunitXml enabled, .junitXml => some enabled
  | workingDir path, .workingDir => some (some path)
  | buildDir path, .buildDir => some (some path)
  | reportDir path, .reportDir => some (some path)
  | configDir path, .configDir => some (some path)
  | reports emitter, .reports => some emitter
  | httpClients value, .httpClients => some value
  | settings s, f => s.given? f
  | overrides o, f => o.given? f
  | _, _ => none

/-- The features that an assignment adds. -/
def addedFeatures : Assignment η ρ → List Feature
  | feature f => [f]
  | features fs => fs
  | _ => []

/-- The hooks that an assignment adds. -/
def addedHooks : Assignment η ρ → List η
  | hook h => [h]
  | _ => []

/-- The properties that an assignment gives, with their values. -/
def givenProperties : Assignment η ρ → List (String × String)
  | systemProperty key value => [(key, value)]
  | settings s => s.systemProperties.toList
  | _ => []

/-- The places that an assignment may give something to. -/
inductive Place where
  | field (f : Field)
  | features
  | hooks
  | property (key : String)

/-- An assignment gives something to a place. -/
def Gives (a : Assignment η ρ) : Place → Prop
  | .field f => a.given? f ≠ none
  | .features => a.addedFeatures ≠ []
  | .hooks => a.addedHooks ≠ []
  | .property key => key ∈ a.givenProperties.map Prod.fst

/-- No place gets something from both assignments. -/
def Apart (a b : Assignment η ρ) : Prop := ∀ place, ¬(a.Gives place ∧ b.Gives place)

end Assignment

namespace Draft

variable {d d' : Draft η ρ} {fs : FileSystem}

lemma get_start (emitter : ρ) (f : Field) :
    (start emitter : Draft η ρ).get f = f.default emitter := by
  cases f <;> rfl

private lemma getD_map_some {α : Type} (new old : Option α) :
    (new.map some).getD old = new.or old := by
  cases new <;> rfl

lemma get_applySettings (d : Draft η ρ) (s : Settings) (f : Field) :
    (d.applySettings s).get f = (s.given? f).getD (d.get f) := by
  cases f with
  | tags =>
    -- An empty list stands for no list here.
    by_cases blank : s.tags = []
    · simp [applySettings, get, Settings.given?, blank]
    · simp [applySettings, get, Settings.given?, blank]
  | threads | dryRun | reports | httpClients => rfl
  | html => exact (Option.getD_map OutputFormats.html ..).symm
  | cucumberJson => exact (Option.getD_map OutputFormats.cucumberJson ..).symm
  | junitXml => exact (Option.getD_map OutputFormats.junitXml ..).symm
  | env | workingDir | buildDir | reportDir | configDir => exact (getD_map_some ..).symm

lemma get_applyOverrides (d : Draft η ρ) (o : Environment.Overrides) (f : Field) :
    (d.applyOverrides o).get f = (o.given? f).getD (d.get f) := by
  cases f with
  | env | reportDir => exact (getD_map_some ..).symm
  | _ => rfl

lemma get_assign (d : Draft η ρ) (a : Assignment η ρ) (f : Field) :
    (d.assign a).get f = (a.given? f).getD (d.get f) := by
  cases a with
  | settings s => exact get_applySettings d s f
  | overrides o => exact get_applyOverrides d o f
  | _ => cases f <;> rfl

lemma features_assign (d : Draft η ρ) (a : Assignment η ρ) :
    (d.assign a).features = d.features ++ a.addedFeatures := by
  cases a <;> simp [assign, applySettings, applyOverrides, Assignment.addedFeatures]

lemma hooks_assign (d : Draft η ρ) (a : Assignment η ρ) :
    (d.assign a).hooks = d.hooks ++ a.addedHooks := by
  cases a <;> simp [assign, applySettings, applyOverrides, Assignment.addedHooks]

lemma systemProperties_assign (d : Draft η ρ) (a : Assignment η ρ) :
    (d.assign a).systemProperties = d.systemProperties.insertAll a.givenProperties := by
  cases a <;> rfl

/-! ### Assignments one after the other -/

lemma assignAll_append (d : Draft η ρ) (before after : List (Assignment η ρ)) :
    d.assignAll (before ++ after) = (d.assignAll before).assignAll after :=
  List.foldl_append

lemma assignAll_snoc (d : Draft η ρ) (as : List (Assignment η ρ)) (a : Assignment η ρ) :
    d.assignAll (as ++ [a]) = (d.assignAll as).assign a :=
  assignAll_append d as [a]

lemma get_assignAll (d : Draft η ρ) (as : List (Assignment η ρ)) (f : Field) :
    (d.assignAll as).get f = ((as.filterMap (·.given? f)).getLast?).getD (d.get f) := by
  -- The last assignment decides, so the induction is from the end.
  induction as using List.reverseRecOn with
  | nil => rfl
  | append_singleton as a ih =>
    rw [assignAll_snoc, get_assign, List.filterMap_append]
    cases given : a.given? f with
    | none => simp [given, ih]
    | some value => simp [given]

lemma collected_assignAll {σ α : Type} {collected : Draft η ρ → σ} {add : σ → List α → σ}
    {given : Assignment η ρ → List α}
    (step : ∀ d a, collected (d.assign a) = add (collected d) (given a))
    (nothing : ∀ s, add s [] = s) (further : ∀ s l l', add s (l ++ l') = add (add s l) l')
    (d : Draft η ρ) (as : List (Assignment η ρ)) :
    collected (d.assignAll as) = add (collected d) (as.flatMap given) := by
  induction as generalizing d with
  | nil => exact (nothing (collected d)).symm
  | cons a as ih =>
    rw [List.flatMap_cons, further, ← step]
    exact ih (d.assign a)

lemma features_assignAll (d : Draft η ρ) (as : List (Assignment η ρ)) :
    (d.assignAll as).features = d.features ++ as.flatMap (·.addedFeatures) :=
  collected_assignAll features_assign List.append_nil (fun s l l' => (List.append_assoc s l l').symm)
    d as

lemma hooks_assignAll (d : Draft η ρ) (as : List (Assignment η ρ)) :
    (d.assignAll as).hooks = d.hooks ++ as.flatMap (·.addedHooks) :=
  collected_assignAll hooks_assign List.append_nil (fun s l l' => (List.append_assoc s l l').symm)
    d as

lemma systemProperties_assignAll (d : Draft η ρ) (as : List (Assignment η ρ)) :
    (d.assignAll as).systemProperties =
      d.systemProperties.insertAll (as.flatMap (·.givenProperties)) :=
  collected_assignAll systemProperties_assign (fun _ => rfl) Dictionary.insertAll_append d as

/-! ### Assignments apart from each other -/

lemma eq_of_same (fields : ∀ f, d.get f = d'.get f) (features : d.features = d'.features)
    (hooks : d.hooks = d'.hooks)
    (properties : ∀ key, d.systemProperties.get? key = d'.systemProperties.get? key) : d = d' := by
  have outputs : d.outputs = d'.outputs := by
    have html : d.outputs.html = d'.outputs.html := fields .html
    have cucumberJson : d.outputs.cucumberJson = d'.outputs.cucumberJson := fields .cucumberJson
    have junitXml : d.outputs.junitXml = d'.outputs.junitXml := fields .junitXml
    rw [OutputFormats.mk.injEq]
    exact ⟨html, cucumberJson, junitXml⟩
  rw [Draft.mk.injEq]
  exact ⟨fields .env, fields .tags, fields .dryRun, fields .threads, outputs, fields .workingDir,
    fields .buildDir, fields .reportDir, fields .configDir, features, hooks, fields .reports,
    fields .httpClients, Dictionary.ext_get? properties⟩

lemma assign_comm {a b : Assignment η ρ} (apart : a.Apart b) (d : Draft η ρ) :
    (d.assign a).assign b = (d.assign b).assign a := by
  have one (place : Assignment.Place) : ¬a.Gives place ∨ ¬b.Gives place :=
    not_and_or.mp (apart place)
  apply eq_of_same
  · intro f
    have one : a.given? f = none ∨ b.given? f = none := (one (.field f)).imp not_not.mp not_not.mp
    rw [get_assign, get_assign, get_assign, get_assign]
    rcases one with none | none <;> rw [none, Option.getD_none, Option.getD_none]
  · have one : a.addedFeatures = [] ∨ b.addedFeatures = [] :=
      (one .features).imp not_not.mp not_not.mp
    rw [features_assign, features_assign, features_assign, features_assign]
    rcases one with none | none <;> rw [none, List.append_nil, List.append_nil]
  · have one : a.addedHooks = [] ∨ b.addedHooks = [] := (one .hooks).imp not_not.mp not_not.mp
    rw [hooks_assign, hooks_assign, hooks_assign, hooks_assign]
    rcases one with none | none <;> rw [none, List.append_nil, List.append_nil]
  · intro key
    have one : lastValue? a.givenProperties key = none ∨ lastValue? b.givenProperties key = none :=
      (one (.property key)).imp lastValue?_eq_none.mpr lastValue?_eq_none.mpr
    simp only [systemProperties_assign, Dictionary.get?_insertAll]
    rcases one with none | none <;> rw [none, Option.none_or, Option.none_or]

lemma assignAll_swap {a b : Assignment η ρ} (apart : a.Apart b) (d : Draft η ρ)
    (before after : List (Assignment η ρ)) :
    d.assignAll (before ++ a :: b :: after) = d.assignAll (before ++ b :: a :: after) := by
  rw [assignAll_append, assignAll_append]
  exact congrArg (assignAll · after) (assign_comm apart (d.assignAll before))

/-! ### What is built -/

/-- What a field holds after assignments to a draft with nothing assigned: what the last assignment
gave it that gave it anything, and else what it holds at first. -/
def settled (emitter : ρ) (as : List (Assignment η ρ)) (f : Field) : f.Value ρ :=
  ((as.filterMap (·.given? f)).getLast?).getD (f.default emitter)

/-- What is built from a draft with nothing assigned by assignments, in a file system. -/
structure Resolved (fs : FileSystem) (emitter : ρ) (as : List (Assignment η ρ))
    (c : Configured η ρ) : Prop where
  env : c.config.env = (settled emitter as .env).filter fun e => !Text.allBlank e.toList
  selector : c.config.selector = .parse (settled emitter as .tags)
  threads : c.config.threads = settled emitter as .threads
  dryRun : c.config.dryRun = settled emitter as .dryRun
  outputs : c.config.outputs =
    ⟨settled emitter as .html, settled emitter as .cucumberJson, settled emitter as .junitXml⟩
  /-- A working directory that is given is taken, and else the current directory. -/
  workingDir : some c.config.workingDir = (settled emitter as .workingDir).or fs.currentDir.toOption
  buildDir : c.config.buildDir =
    (settled emitter as .buildDir).getD (c.config.workingDir.join (.ofText "target"))
  reportDir : c.config.reportDir =
    (settled emitter as .reportDir).getD (c.config.buildDir.join (.ofText "feature-reports"))
  /-- The scripts are read from the directory for them, which is the working directory if none is
  given, for the environment if there is one. -/
  scripts : (c.config.scripts, c.log) =
    Scripts.load fs ((settled emitter as .configDir).getD c.config.workingDir) c.config.env
  features : c.config.features = as.flatMap (·.addedFeatures)
  hooks : c.config.hooks = as.flatMap (·.addedHooks)
  systemProperties : ∀ key, c.config.systemProperties.get? key =
    lastValue? (as.flatMap (·.givenProperties)) key
  httpClients : c.config.httpClients = settled emitter as .httpClients
  reports : c.reports = settled emitter as .reports

lemma get_started (emitter : ρ) (as : List (Assignment η ρ)) (f : Field) :
    ((start emitter).assignAll as).get f = settled emitter as f := by
  rw [get_assignAll, get_start, settled]

lemma resolveWorkingDir_eq_ok {dir : Path} :
    d.resolveWorkingDir fs = .ok dir ↔ d.workingDir.or fs.currentDir.toOption = some dir := by
  rw [resolveWorkingDir]
  cases d.workingDir with
  | some given => simp
  | none => cases fs.currentDir <;> simp [Except.toOption]

lemma resolveWorkingDir_eq_error :
    (∃ error, d.resolveWorkingDir fs = .error error) ↔
      d.workingDir = none ∧ ∃ error, fs.currentDir = .error error := by
  rw [resolveWorkingDir]
  cases d.workingDir with
  | some given => simp
  | none => cases fs.currentDir <;> simp

lemma build_eq_error :
    (∃ error, d.build fs = .error error) ↔
      d.threads = 0 ∨ d.workingDir = none ∧ ∃ error, fs.currentDir = .error error := by
  rw [← resolveWorkingDir_eq_error, build]
  split
  · rename_i pos
    have nonzero : d.threads ≠ 0 := fun zero => UInt64.lt_irrefl 0 (zero ▸ pos)
    cases resolved : d.resolveWorkingDir fs with
    | error e => simp [bind, Except.bind]
    | ok dir => simp [bind, Except.bind, nonzero]
  · rename_i notPos
    have zero : d.threads = 0 := UInt64.le_zero_iff.mp (UInt64.not_lt.mp notPos)
    simp [zero]

lemma resolved_of_build {emitter : ρ} {as : List (Assignment η ρ)} {c : Configured η ρ}
    (built : ((start emitter).assignAll as).build fs = .ok c) : Resolved fs emitter as c := by
  have holds := get_started emitter as
  rw [build] at built
  split at built
  · cases resolved : ((start emitter).assignAll as).resolveWorkingDir fs with
    | error e => simp [resolved, bind, Except.bind] at built
    | ok dir =>
      simp only [resolved, bind, Except.bind, Except.ok.injEq] at built
      subst built
      exact {
        env := congrArg knownEnv (holds .env)
        selector := congrArg TagSelector.parse (holds .tags)
        threads := holds .threads
        dryRun := holds .dryRun
        outputs := by rw [← holds .html, ← holds .cucumberJson, ← holds .junitXml]; rfl
        workingDir := by rw [← holds .workingDir]; exact (resolveWorkingDir_eq_ok.mp resolved).symm
        buildDir := by rw [← holds .buildDir]; rfl
        reportDir := by rw [← holds .reportDir]; rfl
        scripts := by rw [← holds .configDir]; rfl
        features := features_assignAll (start emitter) as
        hooks := hooks_assignAll (start emitter) as
        systemProperties := fun key => by
          simp only [systemProperties_assignAll, Dictionary.get?_insertAll]
          exact Option.or_none
        httpClients := holds .httpClients
        reports := holds .reports }
  · simp at built

/-- **What is built from assignments is what the last of them gave.** Each field holds what the last
assignment gave it that gave it anything, and else its default; features and hooks are in the order
in which they were added; a property has the last value given to it; a blank environment is none; and
directories not given lie below the working directory. Only a missing thread or a missing working
directory keeps a configuration from being built. Neighbouring assignments that give to different
places can be swapped. -/
theorem build_assignAll (fs : FileSystem) (emitter : ρ) (as : List (Assignment η ρ)) :
    (∀ c, ((start emitter).assignAll as).build fs = .ok c → Resolved fs emitter as c) ∧
      ((∃ error, ((start emitter).assignAll as).build fs = .error error) ↔
        settled emitter as .threads = 0 ∨
          settled emitter as .workingDir = none ∧ ∃ error, fs.currentDir = .error error) ∧
      ∀ (a b : Assignment η ρ) (before after : List (Assignment η ρ)),
        as = before ++ a :: b :: after → a.Apart b →
          ((start emitter).assignAll (before ++ b :: a :: after)).build fs =
            ((start emitter).assignAll as).build fs := by
  refine ⟨fun c built => resolved_of_build built, ?_, ?_⟩
  · rw [build_eq_error, ← get_started, ← get_started]
    rfl
  · rintro a b before after rfl apart
    rw [assignAll_swap apart]

/-- Settings for four threads, overrides of the environment that win over them, and a toggle. -/
def layeredAssignments : List (Assignment Unit String) :=
  [.settings { Settings.empty with env := some "dev", threads := some 4, outputs := some .all },
    .overrides { Environment.Overrides.none with env := some "ci", threads := some 2 },
    .outputHtml false, .systemProperty "k" "old", .systemProperty "k" "new"]

/-- The overrides win over the settings, and might come after the toggle as well. -/
theorem build_layeredAssignments :
    let fs : FileSystem := ⟨[], some []⟩
    let swapped := [layeredAssignments[0], layeredAssignments[2], layeredAssignments[1],
      layeredAssignments[3], layeredAssignments[4]]
    ∃ c : Configured Unit String,
      ((start "files").assignAll layeredAssignments).build fs = .ok c ∧
      ((start "files").assignAll swapped).build fs = .ok c ∧
      (c.config.env, c.config.threads, c.config.outputs, c.config.workingDir, c.config.buildDir,
          c.reports, c.config.systemProperties.get? "k") =
        (some "ci", 2, ⟨false, true, true⟩, .ofText "/", .ofText "/target", "files",
          some "new") := by
  intro fs swapped
  obtain ⟨holds, fails, swaps⟩ := build_assignAll fs "files" layeredAssignments
  have apart : layeredAssignments[1].Apart layeredAssignments[2] := by
    rintro (f | - | - | key) ⟨first, second⟩
    · cases f with
      | html => exact first rfl
      | _ => exact second rfl
    · exact first rfl
    · exact first rfl
    · exact absurd first List.not_mem_nil
  cases built : ((start "files").assignAll layeredAssignments).build fs with
  | error e =>
    rcases fails.mp ⟨e, built⟩ with zero | ⟨-, _, unknown⟩
    · exact absurd zero (by decide)
    · cases unknown
  | ok c =>
    have given := holds c built
    have workingDir : c.config.workingDir = .ofText "/" := Option.some.inj given.workingDir
    have buildDir : c.config.buildDir = .ofText "/target" := by
      rw [given.buildDir, workingDir]
      rfl
    refine ⟨c, rfl, (swaps layeredAssignments[1] layeredAssignments[2] [layeredAssignments[0]]
      [layeredAssignments[3], layeredAssignments[4]] rfl apart).trans built, ?_⟩
    rw [given.env, given.threads, given.outputs, workingDir, buildDir, given.reports,
      given.systemProperties]
    rfl

end Draft

end FeatureBatch
