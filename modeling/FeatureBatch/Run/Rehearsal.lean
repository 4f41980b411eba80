import FeatureBatch.Run.Suite

/-!
Rehearsals: runtimes, emitters and hooks that play what is written down for them, down to the ways
in which they can fail. A rehearsed feature runs those of its scenarios that the suite's selector
accepts by the tags of the feature and of the scenario.
-/

namespace FeatureBatch

/-- How a rehearsed feature behaves. -/
inductive Behavior where
  | refuse (reason : String)
  | panicWhenMade (payload : PanicPayload)
  /-- Gives up at the first act. -/
  | crashFirst
  /-- Gives up when all else is done, without completing. -/
  | crash
  | dropCompletion
  /-- Completes and then adds one more scenario, which fails. -/
  | late
  /-- Completes and then gives up. -/
  | crashAfter
  | complete
  deriving DecidableEq, Repr

structure RehearsedScenario where
  scenario : Scenario
  tags : List String

structure RehearsedFeature where
  scenarios : List RehearsedScenario
  durationMs : UInt64
  behavior : Behavior
  /-- What it asks the cache for, with the value that it would compute. -/
  cached : Option (String × Json)

namespace RehearsedFeature

/-- The scenario that comes too late. -/
def lateScenario : Scenario := Scenario.fail "late" 99 1 "too late" .epoch

/-- What is said by a rehearsed runtime that gives up. -/
def crashText : PanicPayload := .text "rehearsed crash"

/-- One scenario: it is run by a task while the runtime has a permit. -/
def scenarioActs (s : Scenario) : List Act := [.acquire, .work [.addScenario s], .release]

/-- The acts up to the end. -/
def bodyActs (r : RehearsedFeature) (selector : TagSelector) (f : Feature) : List Act :=
  let chosen := r.scenarios.filter fun s => selector.accepts (f.tags ++ s.tags)
  (r.cached.toList.map fun (key, value) => Act.obtain key (.ok value)) ++
    (chosen.flatMap fun s => scenarioActs s.scenario) ++ [.work [.setDuration r.durationMs]]

/-- The runtime's acts. -/
def acts (r : RehearsedFeature) (selector : TagSelector) (f : Feature) : List Act :=
  let body := r.bodyActs selector f
  match r.behavior with
  | .crashFirst => [.panic crashText]
  | .crash => body ++ [.panic crashText]
  | .dropCompletion => body ++ [.abandon]
  | .late => body ++ [.complete, .work [.addScenario lateScenario]]
  | .crashAfter => body ++ [.complete, .panic crashText]
  | _ => body ++ [.complete]

def creation (r : RehearsedFeature) (selector : TagSelector) (f : Feature) : Creation :=
  match r.behavior with
  | .refuse reason => .refused reason
  | .panicWhenMade payload => .panicked payload
  | _ => .made (.ofActs f (r.acts selector f))

/-- A factory whose every call plays the next feature of a list. -/
def factory (selector : TagSelector) (features : List RehearsedFeature) : RuntimeFactory :=
  fun n f =>
    match features[n]? with
    | some r => r.creation selector f
    | none => .refused s!"no runtime available for {f.display}"

end RehearsedFeature

/-- What a rehearsed emitter does instead of writing. -/
inductive EmitterAction where
  | io
  | render
  | panic
  | skip
  deriving DecidableEq, Repr

namespace EmitterAction

/-- What a call comes to, for a report directory. -/
def outcome (a : EmitterAction) (dir : Path) (label : String) : CallOutcome :=
  match a with
  | .io => .failed (.io (dir.join (.ofText "artifact")) (.other "disk full"))
  | .render => .failed .render
  | .panic => .panicked (.text ("emitter crashed on " ++ label))
  | .skip => .written (dir.join (.ofText "skipped"))

/-- An emitter that takes actions on the calls that bear these labels, and else leaves the call to
another emitter. -/
def emitter {σ : Type} (actions : List (String × EmitterAction)) (e : Emitter σ) : Emitter σ where
  perform dir call files :=
    match actions.lookup call.label with
    | some a => (a.outcome dir call.label, files)
    | none => e.perform dir call files

end EmitterAction

/-- A hook of a rehearsal: it does the same whatever it sees. -/
def Hook.rehearsed (name : String) (outcome : HookOutcome) : Hook := ⟨name, fun _ => outcome⟩

end FeatureBatch
