import FeatureBatch.Records.FeatureRecord

/-!
Records that several parties hold. A record is known by its number; whoever knows the number may
read it and update it, and all see the same record. An update runs to its end before the next one
begins, also one that gives up after its change: the change stays, and the record stays usable.
-/

namespace FeatureBatch

/-- A change to a record. -/
inductive RecordUpdate where
  | addScenario (s : Scenario)
  | setDuration (ms : UInt64)
  /-- Adds the scenario, then gives up. -/
  | addThenPanic (s : Scenario)
  deriving DecidableEq, Repr

namespace RecordUpdate

def apply (r : FeatureRecord) : RecordUpdate → FeatureRecord
  | addScenario s => r.addScenario s
  | setDuration ms => r.setDuration ms
  | addThenPanic s => r.addScenario s

/-- The scenario that the update adds, if it adds one. -/
def scenario? : RecordUpdate → Option Scenario
  | addScenario s => some s
  | setDuration _ => none
  | addThenPanic s => some s

def panics : RecordUpdate → Bool
  | addThenPanic _ => true
  | _ => false

end RecordUpdate

/-- The record after a sequence of updates. -/
def FeatureRecord.applyAll (r : FeatureRecord) (us : List RecordUpdate) : FeatureRecord :=
  us.foldl RecordUpdate.apply r

@[simp] theorem FeatureRecord.applyAll_nil (r : FeatureRecord) : r.applyAll [] = r := rfl

@[simp] theorem FeatureRecord.applyAll_cons (r : FeatureRecord) (u : RecordUpdate)
    (us : List RecordUpdate) : r.applyAll (u :: us) = (u.apply r).applyAll us := rfl

theorem FeatureRecord.applyAll_append (r : FeatureRecord) (us vs : List RecordUpdate) :
    r.applyAll (us ++ vs) = (r.applyAll us).applyAll vs := by
  simp [applyAll, List.foldl_append]

abbrev RecordId := Nat

/-- All records, in the order of their making. -/
structure RecordStore where
  records : List FeatureRecord
  deriving Repr

namespace RecordStore

def empty : RecordStore := ⟨[]⟩

/-- Makes a record, and says by what number it is known. -/
def add (store : RecordStore) (r : FeatureRecord) : RecordId × RecordStore :=
  (store.records.length, ⟨store.records ++ [r]⟩)

def get? (store : RecordStore) (id : RecordId) : Option FeatureRecord := store.records[id]?

def update (store : RecordStore) (id : RecordId) (u : RecordUpdate) : RecordStore :=
  ⟨store.records.modify id u.apply⟩

/-- The records with these numbers. -/
def select (store : RecordStore) (ids : List RecordId) : List FeatureRecord := ids.filterMap store.get?

end RecordStore

end FeatureBatch
