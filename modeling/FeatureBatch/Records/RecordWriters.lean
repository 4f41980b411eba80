import FeatureBatch.Records.RecordStore

/-!
Writers that update one record at the same time. A lock admits one writer at a time: it enters, makes
its change, and gives the lock back. A writer that gives up does so after its change, and the lock
that it gives back is marked; the mark keeps nobody out. A writer that does not live on after giving
up has no further updates to make.
-/

namespace FeatureBatch

/-- How far the writer is that holds the lock. -/
inductive WriterStage where
  | entered
  /-- Its change is made, and it goes, or gives up. -/
  | leaving (panics : Bool)
  deriving DecidableEq, Repr

structure RecordHolder where
  writer : Nat
  stage : WriterStage
  deriving DecidableEq, Repr

structure RecordWriters where
  records : RecordStore
  /-- The record that they share. -/
  record : RecordId
  holder : Option RecordHolder
  /-- A writer gave up with the lock in hand. -/
  marked : Bool
  /-- For each writer, the updates that it has still to make. -/
  waiting : List (List RecordUpdate)

namespace RecordWriters

/-- A record is made, and each writer gets a handle to it. -/
def start (store : RecordStore) (r : FeatureRecord) (programs : List (List RecordUpdate)) :
    RecordWriters :=
  let (record, records) := store.add r
  { records, record, holder := none, marked := false, waiting := programs }

/-- The next update of a writer. -/
def next? (s : RecordWriters) (writer : Nat) : Option RecordUpdate :=
  s.waiting[writer]?.bind List.head?

def enter (s : RecordWriters) (writer : Nat) : RecordWriters :=
  { s with holder := some ⟨writer, .entered⟩ }

/-- The writer's change. -/
def change (s : RecordWriters) (writer : Nat) (update : RecordUpdate) : RecordWriters :=
  { s with
    records := s.records.update s.record update
    holder := some ⟨writer, .leaving update.panics⟩
    waiting := s.waiting.modify writer List.tail }

def leave (s : RecordWriters) (panics : Bool) : RecordWriters :=
  { s with holder := none, marked := s.marked || panics }

/-- The writer's next step; none if it waits for the lock or has nothing left to do. -/
def step? (s : RecordWriters) (writer : Nat) : Option RecordWriters :=
  match s.holder with
  | none => (s.next? writer).map fun _ => s.enter writer
  | some holder =>
    if holder.writer ≠ writer then none
    else
      match holder.stage with
      | .entered => (s.next? writer).map (s.change writer)
      | .leaving panics => some (s.leave panics)

/-- Lets the writers step in the order of a schedule; one that cannot step is passed over. -/
def play (s : RecordWriters) (schedule : List Nat) : RecordWriters :=
  schedule.foldl (fun s writer => (s.step? writer).getD s) s

/-- All updates are made, and the lock is free. -/
def isDone (s : RecordWriters) : Bool := s.holder.isNone && s.waiting.all List.isEmpty

end RecordWriters

end FeatureBatch
