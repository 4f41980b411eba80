import FeatureBatch.Proofs.Yaml.Lines
import FeatureBatch.Yaml.Decode

/-!
The document that a written mapping is. Its words make up a mapping with the same keys and values in
the same order, each scalar with its style and its text.
-/

namespace FeatureBatch.Yaml

/-! ### The values of a mapping -/

def Scalar.node (v : Scalar) : Node := .scalar v.style none v.chars

def keyNode (key : String) : Node := .scalar (styleOf key.toList) none key.toList

def Value.node : Value → Node
  | .scalar v => v.node
  | .sequence items => .sequence (items.map Scalar.node)
  | .mapping fields => .mapping (fields.map fun f => (keyNode f.1, f.2.node))

def mappingNode (fields : List (String × Value)) : Node :=
  .mapping (fields.map fun f => (keyNode f.1, f.2.node))

namespace Reading

variable {handles : List (List Char × List Char)} {fuel : Nat} {block flat : Bool}
  {rest : List Token} {names : List (List Char × Nat)}

lemma readNode_scalar (style : ScalarStyle) (text : List Char) :
    readNode handles (fuel + 1) block flat ⟨.scalar style text :: rest, names⟩ =
      some (.scalar style none text, ⟨rest, names⟩) := by
  rfl

lemma readNodeOr_of_notAny {ends : List Token} {r : Reading} (h : r.atAny ends = false) :
    readNodeOr handles (fuel + 1) block flat ends r = readNode handles fuel block flat r := by
  rw [readNodeOr, h, if_neg Bool.false_ne_true]

lemma readNode_entry (more : List Token) :
    readNode handles (fuel + 1) block true ⟨.entry :: more, names⟩ =
      (readFlatItems handles fuel ⟨.entry :: more, names⟩).bind fun (items, r) =>
        some (.sequence items, r) := by
  rfl

lemma readNode_blockMapping (flat : Bool) (more : List Token) :
    readNode handles (fuel + 1) true flat ⟨.blockMapping :: more, names⟩ =
      (readFields handles fuel ⟨more, names⟩).bind fun (fields, r) =>
        some (.mapping fields, r) := by
  cases flat <;> rfl

lemma readFlatItems_items {items : List Scalar} (enough : items.length + 2 ≤ fuel)
    (after : rest.head? ≠ some .entry) :
    readFlatItems handles fuel ⟨items.flatMap itemWords ++ rest, names⟩ =
      some (items.map Scalar.node, ⟨rest, names⟩) := by
  induction items generalizing fuel with
  | nil =>
    obtain ⟨fuel, rfl⟩ := Nat.exists_eq_succ_of_ne_zero (Nat.ne_of_gt (Nat.zero_lt_of_lt enough))
    rw [readFlatItems]
    split
    · rename_i same
      exact absurd (congrArg List.head? same) after
    · rfl
  | cons item items ih =>
    obtain ⟨fuel, rfl⟩ : ∃ k, fuel = k + 3 := ⟨fuel - 3, by
      rw [List.length_cons] at enough
      omega⟩
    have fewer : items.length + 2 ≤ fuel + 2 := by
      rw [List.length_cons] at enough
      omega
    have more := ih fewer
    have first : readNodeOr handles (fuel + 2) true false [.entry, .key, .value, .blockEnd]
        ⟨item.token :: (items.flatMap itemWords ++ rest), names⟩ =
        some (item.node, ⟨items.flatMap itemWords ++ rest, names⟩) := by
      rw [readNodeOr_of_notAny rfl]
      exact readNode_scalar _ _
    have words : (item :: items).flatMap itemWords ++ rest =
        .entry :: item.token :: (items.flatMap itemWords ++ rest) := rfl
    rw [words, readFlatItems]
    simp only [skip, List.drop_succ_cons, List.drop_zero, first, more, Option.bind_eq_bind,
      Option.bind_some, List.map_cons]

/-- What may follow the value of a field. -/
def fieldEnds : List Token := [.key, .value, .blockEnd]

/-- The value of a field is read as what it is. -/
def ReadsValue (handles : List (List Char × List Char)) (v : Value) : Prop :=
  ∀ fuel rest names, v.words.length + 5 ≤ fuel → rest.head? ≠ some Token.entry →
    readFieldValue handles fuel true fieldEnds ⟨.value :: (v.words ++ rest), names⟩ =
      some (v.node, ⟨rest, names⟩)

lemma readFields_entries {entries : List (String × Value)}
    (values : ∀ e ∈ entries, ReadsValue handles e.2)
    (enough : (entries.flatMap fun e => entryWords e.1 e.2).length + 4 ≤ fuel) :
    readFields handles fuel
        ⟨(entries.flatMap fun e => entryWords e.1 e.2) ++ .blockEnd :: rest, names⟩ =
      some (entries.map fun f => (keyNode f.1, f.2.node), ⟨rest, names⟩) := by
  induction entries generalizing fuel with
  | nil =>
    obtain ⟨fuel, rfl⟩ := Nat.exists_eq_succ_of_ne_zero (Nat.ne_of_gt (Nat.zero_lt_of_lt enough))
    rfl
  | cons entry entries ih =>
    obtain ⟨k, v⟩ := entry
    simp only [List.flatMap_cons, List.length_append, entryWords, List.length_cons,
      List.length_nil] at enough
    obtain ⟨fuel, rfl⟩ : ∃ n, fuel = n + 3 := ⟨fuel - 3, by omega⟩
    set more := (entries.flatMap fun e => entryWords e.1 e.2) ++ .blockEnd :: rest with hmore
    have fewer : (entries.flatMap fun e => entryWords e.1 e.2).length + 4 ≤ fuel + 2 := by
      simp only [entryWords]
      omega
    have others := ih (fun e he => values e (List.mem_cons_of_mem _ he)) fewer
    have noEntry : more.head? ≠ some .entry := by
      cases entries <;> simp [hmore, entryWords]
    have value := values (k, v) List.mem_cons_self (fuel + 2) more names
      (by dsimp only; omega) noEntry
    have key : readNodeOr handles (fuel + 2) true true fieldEnds
        ⟨Scan.keyWord k.toList :: .value :: (v.words ++ more), names⟩ =
        some (keyNode k, ⟨.value :: (v.words ++ more), names⟩) := by
      rw [readNodeOr_of_notAny rfl]
      exact readNode_scalar _ _
    have words : (((k, v) :: entries).flatMap fun e => entryWords e.1 e.2) ++ .blockEnd :: rest =
        .key :: Scan.keyWord k.toList :: .value :: (v.words ++ more) := by
      simp [entryWords, hmore]
    rw [words, readFields]
    unfold fieldEnds at key value
    simp only [skip, List.drop_succ_cons, List.drop_zero, key, value, others, Option.bind_eq_bind,
      Option.bind_some, List.map_cons]

lemma readsValue_scalar (v : Scalar) : ReadsValue handles (.scalar v) := by
  intro fuel rest names enough _
  obtain ⟨fuel, rfl⟩ : ∃ n, fuel = n + 3 := ⟨fuel - 3, by omega⟩
  rw [readFieldValue]
  dsimp only
  rw [readNodeOr_of_notAny rfl]
  exact readNode_scalar _ _

lemma readsValue_sequence (items : List Scalar) : ReadsValue handles (.sequence items) := by
  intro fuel rest names enough after
  obtain ⟨fuel, rfl⟩ : ∃ n, fuel = n + 4 := ⟨fuel - 4, by omega⟩
  rw [readFieldValue]
  dsimp only
  cases items with
  | nil =>
    rw [readNodeOr_of_notAny rfl]
    rfl
  | cons item items =>
    have few : (item :: items).length + 2 ≤ fuel + 1 := by
      have words : (Value.sequence (item :: items)).words.length =
          ((item :: items).flatMap itemWords).length := rfl
      have both : ∀ i : Scalar, (itemWords i).length = 2 := fun _ => rfl
      rw [words] at enough
      simp only [List.length_flatMap, both, List.map_const', List.sum_replicate_nat] at enough
      omega
    rw [readNodeOr_of_notAny rfl]
    refine (readNode_entry _).trans ?_
    exact congrArg (Option.bind · _) (readFlatItems_items few after)

lemma readsValue_mapping (fields : List (String × Scalar)) :
    ReadsValue handles (.mapping fields) := by
  intro fuel rest names enough after
  obtain ⟨fuel, rfl⟩ : ∃ n, fuel = n + 4 := ⟨fuel - 4, by omega⟩
  rw [readFieldValue]
  dsimp only
  cases fields with
  | nil =>
    rw [readNodeOr_of_notAny rfl]
    rfl
  | cons field fields =>
    set entries := (field :: fields).map fun f => (f.1, Value.scalar f.2) with hentries
    have words : (Value.mapping (field :: fields)).words =
        .blockMapping :: (entries.flatMap fun e => entryWords e.1 e.2) ++ [.blockEnd] := by
      rw [hentries, List.flatMap_map]
      rfl
    have values : ∀ e ∈ entries, ReadsValue handles e.2 := by
      intro e he
      obtain ⟨f, -, rfl⟩ := List.mem_map.mp he
      exact readsValue_scalar f.2
    have nodes : entries.map (fun f => (keyNode f.1, f.2.node)) =
        (field :: fields).map fun f => (keyNode f.1, f.2.node) := by
      rw [hentries, List.map_map]
      rfl
    have width : (Value.mapping (field :: fields)).words.length =
        (entries.flatMap fun e => entryWords e.1 e.2).length + 2 := by
      rw [words, List.length_append, List.length_cons]
      rfl
    have read : readFields handles (fuel + 1)
        ⟨(entries.flatMap fun e => entryWords e.1 e.2) ++ .blockEnd :: rest, names⟩ =
        some (entries.map fun f => (keyNode f.1, f.2.node), ⟨rest, names⟩) :=
      readFields_entries values (by omega)
    have split : (Value.mapping (field :: fields)).words ++ rest = .blockMapping ::
        ((entries.flatMap fun e => entryWords e.1 e.2) ++ .blockEnd :: rest) := by
      rw [words, List.append_assoc]
      rfl
    have skipped : (⟨.value :: .blockMapping :: ((entries.flatMap fun e => entryWords e.1 e.2) ++
        .blockEnd :: rest), names⟩ : Reading).skip = ⟨.blockMapping ::
          ((entries.flatMap fun e => entryWords e.1 e.2) ++ .blockEnd :: rest), names⟩ := rfl
    rw [split, skipped, readNodeOr_of_notAny rfl, readNode_blockMapping, read, Option.bind_some,
      nodes]
    rfl

lemma readsValue (v : Value) : ReadsValue handles v := by
  cases v with
  | scalar v => exact readsValue_scalar v
  | sequence items => exact readsValue_sequence items
  | mapping fields => exact readsValue_mapping fields

end Reading

theorem Document.ofText?_render {fields : List (String × Value)} (filled : fields ≠ []) :
    Document.ofText? (render fields) = some ⟨some (mappingNode fields)⟩ := by
  have read : Reading.readFields ([] ++ Reading.knownHandles) (3 * (mappingWords fields).length + 2)
      ⟨(fields.flatMap fun e => entryWords e.1 e.2) ++ [.blockEnd], []⟩ =
      some (fields.map fun f => (keyNode f.1, f.2.node), ⟨[], []⟩) :=
    Reading.readFields_entries (fun e _ => Reading.readsValue e.2) (by
      simp only [mappingWords, List.length_append, List.length_cons, List.length_nil]
      omega)
  rw [ofText?, Token.ofText?_render filled, Option.bind_some]
  have words : mappingWords fields = .blockMapping ::
      ((fields.flatMap fun e => entryWords e.1 e.2) ++ [.blockEnd]) := rfl
  rw [words] at read ⊢
  have node := (Reading.readNode_blockMapping false _).trans
    (congrArg (Option.bind · _) read)
  have plain (more : List Token) : ofTokens? (.blockMapping :: more) =
      Reading.readRoot [] (.blockMapping :: more) false := rfl
  simp only [plain, Reading.readRoot, Bool.false_and, Bool.false_eq_true, if_false, node,
    Option.bind_eq_bind, Option.bind_some]
  rfl

end FeatureBatch.Yaml
