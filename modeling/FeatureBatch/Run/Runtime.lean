import FeatureBatch.Exec.Cache
import FeatureBatch.Feature
import FeatureBatch.Json.Basic
import FeatureBatch.Records.RecordStore

/-!
What executes a feature. A runtime is written down as the acts that it takes, one after the other,
once it has been started; where a runtime has several ways to go, each is a runtime of its own here.
It holds the feature's record, and a completion that it is to invoke at its end.
-/

namespace FeatureBatch

/-- One act of a runtime. -/
inductive Act where
  /-- Spawns tasks that each write to the record, in any order, and goes on when all have ended. A
  task that gives up ends without harm to the runtime. -/
  | work (tasks : List RecordUpdate)
  /-- Gets a value from the cache, which it computes on first use. -/
  | obtain (key : String) (init : Initializer Json)
  /-- Takes a permit of the limiter, for which it may have to wait. If the limiter is closed it goes
  on without. -/
  | acquire
  /-- Gives the latest of its permits back. -/
  | release
  /-- Invokes the completion. -/
  | complete
  /-- Drops the completion uninvoked. -/
  | abandon
  /-- Gives up. -/
  | panic (payload : PanicPayload)

structure Runtime where
  feature : Feature
  /-- The record as the runtime was made with it. -/
  record : FeatureRecord
  /-- Asking for the record gives up. -/
  recordPanics : Option PanicPayload
  /-- Handing over the completion gives up. -/
  completionPanics : Option PanicPayload
  /-- Starting gives up, before the first act. -/
  startPanics : Option PanicPayload
  acts : List Act

/-- A runtime that is asked, completed and started without giving up. -/
def Runtime.ofActs (feature : Feature) (acts : List Act) : Runtime :=
  { feature, record := .ofFeature feature, recordPanics := none, completionPanics := none
    startPanics := none, acts }

/-- What making a runtime comes to. -/
inductive Creation where
  | made (runtime : Runtime)
  | refused (reason : String)
  | panicked (payload : PanicPayload)

/-- Makes the runtimes of a batch: the number of the call, from zero, and the feature. -/
abbrev RuntimeFactory := Nat → Feature → Creation

end FeatureBatch
