import FeatureBatch.Run.Step

/-!
Suites: a run from its beginning to the results that it returns. A run never raises an error; what
goes wrong is the failure reason on the results. Only where the sum of the times is no word does the
run itself give up.
-/

namespace FeatureBatch

namespace Suite

variable {σ : Type}

/-- The limiter of a suite has a permit for each thread; none if there are too many. -/
def limiter? (w : Suite σ) : Option AdmissionLimiter :=
  AdmissionLimiter.create? w.config.threads.toNat

/-- What making each runtime comes to, in the order of the features. -/
def creations (w : Suite σ) : List (Feature × Creation) :=
  w.config.features.zipIdx.map fun (f, i) => (f, w.runtimes i f)

/-- What is reported when the suite is ready. -/
def readyLog (w : Suite σ) : Log :=
  let threads := w.config.threads.toNat
  let env := w.config.env.getD "-"
  [⟨.debug, s!"execution pool ready with {threads} worker(s)"⟩,
    ⟨.info, s!"suite ready: {w.config.features.length} feature(s), {threads} thread(s), env: {env}, " ++
      s!"tags: {w.config.selector.render}"⟩]

/-- A suite that is ready to run, with its limiter and with the files as they are. -/
def start (w : Suite σ) (limiter : AdmissionLimiter) (files : σ) : RunState σ :=
  { pending := w.creations
    stage := .dispatching
    features := []
    records := .empty
    results := .start w.startedAt w.config.threads
    barrier := .fresh
    lane := if 1 < w.config.threads then some .fresh else none
    poolStopped := false
    limiter
    cache := .empty
    files
    log := w.readyLog
    trace := [] }

/-- A suite that is dropped without being run: only the guard acts. -/
def drop (s : RunState σ) : RunState σ := { s with stage := .tearingDown true, pending := [] }

/-- More steps than an act leads to. -/
def actWeight : Act → Nat
  | .work tasks => tasks.length + 1
  | .complete => 4
  | _ => 2

/-- More steps than making, starting and running a runtime takes. -/
def creationWeight : Creation → Nat
  | .made runtime => runtime.acts.foldr (actWeight · + ·) 8
  | _ => 1

/-- More steps than the run can take. -/
def weight (w : Suite σ) : Nat :=
  w.creations.foldr (creationWeight ·.2 + ·) (w.config.hooks.length + 32)

/-- The parties in the order in which they are let go first. The caller lets all others go before it
while it waits for signals or for a feature, and again once the end is stamped; it goes first when
the last signal has come. -/
def parties (s : RunState σ) : List Party :=
  let others := (List.range s.features.length).map (Party.feature · 0) ++ [.lane]
  match s.stage with
  | .executing _ | .reporting _ _ | .hooks _ => others ++ [.caller]
  | .awaiting _ => if s.barrier.isComplete then .caller :: others else others ++ [.caller]
  | _ => .caller :: others

/-- Lets whoever can step go on until the run is over. -/
def runOut (w : Suite σ) : Nat → RunState σ → RunState σ
  | 0, s => s
  | n + 1, s =>
    if s.isOver then s
    else match (parties s).findSome? (s.step? w) with
      | some s => runOut w n s
      | none => s

/-- The state at the end of a run in which the parties go in their order. -/
def finalState (w : Suite σ) (s : RunState σ) : RunState σ := runOut w w.weight s

/-- Results of a run that failed before it began. -/
def failedResults (w : Suite σ) (reason : SuiteError) : Results :=
  (((Results.start w.startedAt w.config.threads).recordFailure reason).2).finish w.startedAt

end Suite

/-- What runtimes and hooks can see of a suite. -/
structure SuiteContext where
  config : RunConfig Hook
  limiter : AdmissionLimiter
  cacheEmpty : Bool

namespace SuiteContext

def ofState {σ : Type} (w : Suite σ) (s : RunState σ) : SuiteContext :=
  ⟨w.config, s.limiter, s.cache.isEmpty⟩

def isParallel (c : SuiteContext) : Bool := 1 < c.config.threads

def systemProperty? (c : SuiteContext) (key : String) : Option String :=
  c.config.systemProperties.get? key

/-- The context as a diagnostic shows it, without what has no short form. -/
def debugText (c : SuiteContext) : String :=
  String.join ["SuiteContext \x7b env: ", RunConfig.envText c.config.env, ", threads: ",
    toString c.config.threads.toNat, ", feature_count: ", toString c.config.features.length,
    ", report_dir: ", Text.quotedBytes c.config.reportDir.bytes, ", .. \x7d"]

end SuiteContext

end FeatureBatch
