import FeatureBatch.Records.Summary
import FeatureBatch.Records.Timeline

/-!
Results kept together with the records that they refer to. Registered records go on changing, and
the totals follow only when they are computed again.
-/

namespace FeatureBatch

structure ResultsBook where
  results : Results
  records : RecordStore

/-- What may happen to results and their records. -/
inductive ResultsEvent where
  /-- A record is made and registered. -/
  | registerNew (record : FeatureRecord)
  /-- A record that exists is registered, perhaps once more. -/
  | register (record : RecordId)
  | update (record : RecordId) (change : RecordUpdate)
  | finalize
  | finish (endedAt : Instant)
  | fail (reason : SuiteError)

namespace ResultsBook

def start (startedAt : Instant) (threads : UInt64) : ResultsBook :=
  ⟨.start startedAt threads, .empty⟩

/-- Computing the totals changes nothing if it gives up. -/
def after (b : ResultsBook) : ResultsEvent → ResultsBook
  | .registerNew record =>
    let (id, records) := b.records.add record
    ⟨b.results.register id, records⟩
  | .register id => { b with results := b.results.register id }
  | .update id change => { b with records := b.records.update id change }
  | .finalize =>
    match b.results.finalize b.records with
    | .ok results => { b with results }
    | .error _ => b
  | .finish endedAt => { b with results := b.results.finish endedAt }
  | .fail reason => { b with results := (b.results.recordFailure reason).2 }

def afterAll (b : ResultsBook) (events : List ResultsEvent) : ResultsBook := events.foldl after b

@[simp] theorem afterAll_nil (b : ResultsBook) : b.afterAll [] = b := rfl

@[simp] theorem afterAll_cons (b : ResultsBook) (e : ResultsEvent) (es : List ResultsEvent) :
    b.afterAll (e :: es) = (b.after e).afterAll es := rfl

/-- The registered records as they are now, in the order of registration. -/
def registered (b : ResultsBook) : List FeatureRecord := b.records.select b.results.registered

def summary (b : ResultsBook) : Summary := .ofResults b.results b.records

def timeline (b : ResultsBook) : Except Instant.AddError (List TimelineEntry) :=
  b.results.timeline b.records

end ResultsBook

end FeatureBatch
