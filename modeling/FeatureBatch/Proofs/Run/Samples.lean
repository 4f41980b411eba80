import FeatureBatch.Proofs.Run.Writes

/-!
Small batches and runs of them by a schedule. They show that what is assumed of a run in a theorem
does occur, and give the runs in which something fails that might be expected.
-/

namespace FeatureBatch

/-- A configuration with these features that reports nothing, but for pages if they are wanted. -/
def smallConfig (threads : UInt64) (threads_pos : 0 < threads) (html : Bool) (hooks : List Hook)
    (features : List Feature) : RunConfig Hook where
  env := none
  selector := .any
  dryRun := false
  threads
  threads_pos
  outputs := ⟨html, false, false⟩
  workingDir := ⟨[]⟩
  buildDir := ⟨[]⟩
  reportDir := ⟨[]⟩
  features
  hooks
  scripts := ⟨none, none, none⟩
  systemProperties := .empty
  httpClients := .default

/-- A feature for the samples. -/
def smallFeature (name : String) : Feature := ⟨⟨[]⟩, name, []⟩

lemma one_thread : (0 : UInt64) < 1 := by decide

lemma two_threads : (0 : UInt64) < 2 := by decide

/-- A suite whose runtimes are made as the list says, and whose reports are all written. -/
def smallSuite (threads : UInt64) (threads_pos : 0 < threads) (html : Bool) (hooks : List Hook)
    (creations : List Creation) : Suite Unit where
  config := smallConfig threads threads_pos html hooks (creations.map fun _ => smallFeature "f")
  runtimes i _ := creations.getD i (.refused "")
  emitter := ⟨fun dir _ files => (.written dir, files)⟩
  startedAt := .epoch
  endedAt := .epoch

/-- A limiter of one permit. -/
def smallLimiter : AdmissionLimiter :=
  { capacity := 1, available := 1, held := [], granted := [], queue := [], closed := false
    nextPermit := 0, nextWaiter := 0 }

/-- A scenario that passes and one that fails. -/
def passing : Scenario := .pass "a" 1 5 .epoch

def failing : Scenario := .fail "b" 2 5 "broken" .epoch

lemma runtime?_smallSuite {threads : UInt64} {threads_pos : 0 < threads} {html : Bool}
    {hooks : List Hook} {creations : List Creation} {i : Nat} {r : Runtime}
    (h : (smallSuite threads threads_pos html hooks creations).runtime? i = some r) :
    creations[i]? = some (.made r) := by
  obtain ⟨f, hf, made⟩ := Suite.runtime?_eq_some.mp h
  have hi : i < creations.length := by
    have := (List.getElem?_eq_some_iff.mp hf).1
    simpa [smallSuite, smallConfig] using this
  rw [List.getElem?_eq_getElem hi, ← made]
  simp [smallSuite, hi]

lemma forall_smallSuite {threads : UInt64} {threads_pos : 0 < threads} {html : Bool}
    {hooks : List Hook} {creations : List Creation} {P : Runtime → Prop}
    (h : ∀ r, .made r ∈ creations → P r) (i : Nat) (r : Runtime)
    (hr : (smallSuite threads threads_pos html hooks creations).runtime? i = some r) : P r :=
  h r (List.mem_of_getElem? (runtime?_smallSuite hr))

namespace RunState

lemma reaches_play {σ : Type} (w : Suite σ) (s : RunState σ) (schedule : List Party) :
    Reaches w s (s.play w schedule) := by
  induction schedule using List.reverseRecOn with
  | nil => exact .refl s
  | append_singleton ps p ih =>
    have last : s.play w (ps ++ [p]) = ((s.play w ps).step? w p).getD (s.play w ps) := by
      simp [play, List.foldl_append]
    rw [last]
    cases next : (s.play w ps).step? w p with
    | none => exact ih
    | some t => exact .step p ih next

end RunState

end FeatureBatch
