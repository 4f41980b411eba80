/-!
Dictionaries from texts to texts, in the order of their keys. Adding a value for a key that is there
replaces the one it had.
-/

namespace FeatureBatch

/-- Puts a pair into a list that is in the order of the keys. -/
def insertSorted (key value : String) : List (String × String) → List (String × String)
  | [] => [(key, value)]
  | (k, v) :: rest =>
    if key < k then (key, value) :: (k, v) :: rest
    else if k < key then (k, v) :: insertSorted key value rest
    else (key, value) :: rest

theorem mem_insertSorted {key value : String} {p : String × String} :
    ∀ {l : List (String × String)}, p ∈ insertSorted key value l → p = (key, value) ∨ p ∈ l
  | [], h => by simp_all [insertSorted]
  | (k, v) :: rest, h => by
    rw [insertSorted] at h
    split at h
    · simpa using h
    · split at h
      · rcases List.mem_cons.1 h with h | h
        · exact .inr (List.mem_cons.2 (.inl h))
        · exact (mem_insertSorted h).imp id fun h => List.mem_cons.2 (.inr h)
      · exact (List.mem_cons.1 h).imp id fun h => List.mem_cons.2 (.inr h)

/-- The keys are in order, and none occurs twice. -/
def KeysSorted (l : List (String × String)) : Prop := l.Pairwise fun a b => a.1 < b.1

theorem KeysSorted.insert (key value : String) :
    ∀ {l : List (String × String)}, KeysSorted l → KeysSorted (insertSorted key value l)
  | [], _ => List.pairwise_singleton _ _
  | (k, v) :: rest, h => by
    have ⟨first, tail⟩ := List.pairwise_cons.1 h
    rw [insertSorted]
    split
    case isTrue lt =>
      refine List.pairwise_cons.2 ⟨fun p hp => ?_, h⟩
      rcases List.mem_cons.1 hp with rfl | hp
      · exact lt
      · exact String.lt_trans lt (first p hp)
    case isFalse ge =>
      split
      case isTrue lt =>
        refine List.pairwise_cons.2 ⟨fun p hp => ?_, KeysSorted.insert key value tail⟩
        rcases mem_insertSorted hp with rfl | hp
        · exact lt
        · exact first p hp
      case isFalse le =>
        have same : key = k := String.le_antisymm (String.not_lt.1 le) (String.not_lt.1 ge)
        exact List.pairwise_cons.2 ⟨fun p hp => same ▸ first p hp, tail⟩

structure Dictionary where
  toList : List (String × String)
  sorted : KeysSorted toList
  deriving DecidableEq

namespace Dictionary

def empty : Dictionary := ⟨[], .nil⟩

def insert (d : Dictionary) (key value : String) : Dictionary :=
  ⟨insertSorted key value d.toList, d.sorted.insert key value⟩

/-- Adds pairs one after the other. -/
def insertAll (d : Dictionary) (pairs : List (String × String)) : Dictionary :=
  pairs.foldl (fun d (k, v) => d.insert k v) d

def ofList (pairs : List (String × String)) : Dictionary := empty.insertAll pairs

def erase (d : Dictionary) (key : String) : Dictionary :=
  ⟨d.toList.filter fun p => p.1 ≠ key, d.sorted.filter _⟩

def get? (d : Dictionary) (key : String) : Option String := d.toList.lookup key

end Dictionary

end FeatureBatch
