import Mathlib.Data.List.Induction
import Mathlib.Data.List.Nodup
import Mathlib.Tactic.Common
import FeatureBatch.Config.Dictionary

/-!
Dictionaries as maps. A dictionary is known by what is found in it, and what is found for a key after
a list of pairs has been added is the last value that the list gives for the key.
-/

namespace FeatureBatch

/-! ### The last value for a key -/

/-- The last value that pairs give for a key. -/
def lastValue? (pairs : List (String × String)) (key : String) : Option String :=
  (pairs.filter fun p => p.1 = key).getLast?.map Prod.snd

lemma lastValue?_snoc (pairs : List (String × String)) (k v key : String) :
    lastValue? (pairs ++ [(k, v)]) key = if key = k then some v else lastValue? pairs key := by
  unfold lastValue?
  split
  · rename_i same
    simp [List.filter_append, same]
  · rename_i differ
    simp [List.filter_append, Ne.symm differ]

lemma lastValue?_eq_none {pairs : List (String × String)} {key : String} :
    lastValue? pairs key = none ↔ key ∉ pairs.map Prod.fst := by
  rw [lastValue?, Option.map_eq_none_iff, List.getLast?_eq_none_iff, List.filter_eq_nil_iff,
    List.mem_map]
  simp only [decide_eq_true_eq, not_exists, not_and]

lemma mem_of_lastValue? {pairs : List (String × String)} {key value : String}
    (last : lastValue? pairs key = some value) : (key, value) ∈ pairs := by
  obtain ⟨⟨k, v⟩, found, rfl⟩ := Option.map_eq_some_iff.mp last
  obtain ⟨mem, same⟩ := List.mem_filter.mp (List.mem_of_getLast? found)
  rwa [← of_decide_eq_true same]

lemma find_foldl_add {σ : Type} {find : σ → String → Option String} {add : σ → String → String → σ}
    (find_add : ∀ s k v key, find (add s k v) key = if key = k then some v else find s key) (s : σ)
    (pairs : List (String × String)) (key : String) :
    find (pairs.foldl (fun s p => add s p.1 p.2) s) key = (lastValue? pairs key).or (find s key) := by
  induction pairs using List.reverseRecOn with
  | nil => rfl
  | append_singleton pairs p ih =>
    rw [List.foldl_append, List.foldl_cons, List.foldl_nil, find_add, ih, lastValue?_snoc]
    split <;> rfl

/-! ### What is found -/

lemma lookup_cons_eq_ite (k v key : String) (l : List (String × String)) :
    ((k, v) :: l).lookup key = if key = k then some v else l.lookup key := by
  rw [List.lookup_cons]
  split
  · rename_i same
    rw [if_pos (eq_of_beq same)]
  · rename_i differ
    rw [if_neg (beq_eq_false_iff_ne.mp differ)]

lemma lookup_insertSorted (k v key : String) (l : List (String × String)) :
    (insertSorted k v l).lookup key = if key = k then some v else l.lookup key := by
  induction l with
  | nil => exact lookup_cons_eq_ite k v key []
  | cons p l ih =>
    obtain ⟨k', v'⟩ := p
    rw [insertSorted]
    split
    · rw [lookup_cons_eq_ite]
    · rename_i ge
      split
      · rename_i lt
        rw [lookup_cons_eq_ite, ih, lookup_cons_eq_ite]
        have differ : k' ≠ k := fun same => String.lt_irrefl k (same ▸ lt)
        by_cases here : key = k'
        · rw [if_pos here, if_neg (here ▸ differ), if_pos here]
        · rw [if_neg here, if_neg here]
      · rename_i le
        have same : k = k' := String.le_antisymm (String.not_lt.mp le) (String.not_lt.mp ge)
        subst same
        rw [lookup_cons_eq_ite, lookup_cons_eq_ite]
        split <;> rfl

namespace Dictionary

variable {d d' : Dictionary}

@[simp] lemma get?_empty (key : String) : empty.get? key = none := rfl

lemma get?_insert (d : Dictionary) (k v key : String) :
    (d.insert k v).get? key = if key = k then some v else d.get? key :=
  lookup_insertSorted k v key d.toList

lemma insertAll_append (d : Dictionary) (pairs more : List (String × String)) :
    d.insertAll (pairs ++ more) = (d.insertAll pairs).insertAll more :=
  List.foldl_append

lemma get?_insertAll (d : Dictionary) (pairs : List (String × String)) (key : String) :
    (d.insertAll pairs).get? key = (lastValue? pairs key).or (d.get? key) :=
  find_foldl_add get?_insert d pairs key

lemma mem_toList {key value : String} : (key, value) ∈ d.toList ↔ d.get? key = some value := by
  rw [get?, List.lookup_eq_some_iff]
  constructor
  · intro mem
    obtain ⟨before, after, split⟩ := List.append_of_mem mem
    refine ⟨before, after, split, fun p earlier => ?_⟩
    have sorted : KeysSorted (before ++ (key, value) :: after) := split ▸ d.sorted
    have lt := (List.pairwise_append.mp sorted).2.2 p earlier (key, value) List.mem_cons_self
    exact bne_iff_ne.mpr fun same => String.lt_irrefl key (same ▸ lt)
  · rintro ⟨before, after, split, -⟩
    rw [split]
    exact List.mem_append_right before List.mem_cons_self

lemma nodup_toList (d : Dictionary) : d.toList.Nodup := by
  refine d.sorted.imp ?_
  rintro p q lt rfl
  exact String.lt_irrefl p.1 lt

lemma ext_get? (same : ∀ key, d.get? key = d'.get? key) : d = d' := by
  have perm : d.toList.Perm d'.toList := by
    rw [List.perm_ext_iff_of_nodup d.nodup_toList d'.nodup_toList]
    rintro ⟨key, value⟩
    rw [mem_toList, mem_toList, same]
  have pairs : d.toList = d'.toList :=
    perm.eq_of_pairwise (fun p q _ _ lt gt => absurd gt (String.lt_asymm lt)) d.sorted d'.sorted
  cases d
  cases d'
  simpa using pairs

lemma lastValue?_toList (d : Dictionary) (key : String) : lastValue? d.toList key = d.get? key := by
  cases last : lastValue? d.toList key with
  | none =>
    have absent := lastValue?_eq_none.mp last
    cases found : d.get? key with
    | none => rfl
    | some value => exact absurd (List.mem_map_of_mem (mem_toList.mpr found)) absent
  | some value => exact (mem_toList.mp (mem_of_lastValue? last)).symm

@[simp] lemma ofList_toList (d : Dictionary) : ofList d.toList = d :=
  ext_get? fun key => by
    rw [ofList, get?_insertAll, lastValue?_toList, get?_empty, Option.or_none]

end Dictionary

end FeatureBatch
