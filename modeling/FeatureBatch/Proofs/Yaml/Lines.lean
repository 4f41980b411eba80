import FeatureBatch.Proofs.Yaml.Words

/-!
The lines of a written mapping. Fields, items of a sequence and the entries of a whole mapping are
read one after the other, so that the words of the text are those of the mapping.
-/

namespace FeatureBatch.Yaml

/-! ### The words of a mapping -/

def Scalar.token (v : Scalar) : Token := .scalar v.style v.chars

def fieldWords (key : String) (v : Scalar) : List Token :=
  [.key, Scan.keyWord key.toList, .value, v.token]

def itemWords (item : Scalar) : List Token := [.entry, item.token]

def Value.words : Value → List Token
  | .scalar v => [v.token]
  | .sequence [] => [.openSequence, .closeSequence]
  | .sequence items => items.flatMap itemWords
  | .mapping [] => [.openMapping, .closeMapping]
  | .mapping fields => .blockMapping :: fields.flatMap (fun f => fieldWords f.1 f.2) ++ [.blockEnd]

def entryWords (key : String) (v : Value) : List Token :=
  [.key, Scan.keyWord key.toList, .value] ++ v.words

def mappingWords (fields : List (String × Value)) : List Token :=
  .blockMapping :: fields.flatMap (fun e => entryWords e.1 e.2) ++ [.blockEnd]

namespace Scan

variable {m : Mark} {tokens : List Token} {columns : List Nat} {keyAllowed : Bool}
  {words : List Token} {rest : List Char}

/-! ### Lines -/

lemma reads_inline {outer : Nat} {v : Scalar} (inner : columns.head? = some outer)
    (right : outer ≤ m.column) (next : Onward outer rest (tokens ++ [v.token]) columns words) :
    Reads (outside (' ' :: (endLine (renderScalar (outer + 2) v) ++ rest)) m tokens columns
      keyAllowed) words := by
  have spelling := spelling_renderScalar (outer + 2) v
  rw [spelling.endLine_eq, List.append_assoc]
  exact reads_space (spelling.startsWord _)
    (reads_scalar spelling inner (Nat.lt_succ_of_le right) next)

lemma onward_field {column : Nat} {key : String} {v : Scalar}
    (within : ∀ c ∈ columns.head?, c ≤ column)
    (next : Onward column rest (tokens ++ opening columns column ++ fieldWords key v)
      (opened columns column) words) :
    Onward column (renderField column key v ++ rest) tokens columns words := by
  have written : renderField column key v ++ rest =
      renderKey column key.toList ++ ' ' :: (endLine (renderScalar (column + 2) v) ++ rest) := by
    have nonempty := (spelling_renderScalar (column + 2) v).ne_nil
    have line : endLine (renderKey column key.toList ++ ' ' :: renderScalar (column + 2) v) =
        (renderKey column key.toList ++ [' ']) ++ endLine (renderScalar (column + 2) v) := by
      rw [← endLine_append nonempty]
      simp
    rw [renderField, line]
    simp
  rw [written]
  refine onward_key within rfl fun m allowed right => ?_
  refine reads_inline (head?_opened within) (Nat.le_of_lt right) ?_
  simpa [fieldWords] using next

lemma onward_fields {column : Nat} (inner : columns.head? = some column)
    {fields : List (String × Scalar)}
    (next : Onward column rest (tokens ++ fields.flatMap fun f => fieldWords f.1 f.2) columns
      words) :
    Onward column ((fields.flatMap fun (k, v) => renderField column k v) ++ rest) tokens columns
      words := by
  induction fields generalizing tokens with
  | nil => simpa using next
  | cons field fields ih =>
    obtain ⟨k, v⟩ := field
    obtain ⟨noBlock, same⟩ := opened_of_head? inner
    have within : ∀ c ∈ columns.head?, c ≤ column := by
      rw [inner]
      rintro c ⟨⟩
      exact Nat.le_refl _
    rw [List.flatMap_cons, List.append_assoc]
    refine onward_field within ?_
    rw [noBlock, same, List.append_nil]
    exact ih (by simpa using next)

lemma onward_mapping {field : String × Scalar} {fields : List (String × Scalar)}
    (inner : columns.head? = some 0)
    (next : Onward 0 rest
      (tokens ++ (.blockMapping :: (field :: fields).flatMap (fun f => fieldWords f.1 f.2) ++
        [.blockEnd])) columns words) :
    Onward 2 (((field :: fields).flatMap fun (k, v) => renderField 2 k v) ++ rest) tokens columns
      words := by
  obtain ⟨k, v⟩ := field
  have new : opening columns 2 = [.blockMapping] ∧ opened columns 2 = 2 :: columns := by
    simp [opening, opened, inner]
  rw [List.flatMap_cons, List.append_assoc]
  refine onward_field (by simp [inner]) ?_
  rw [new.1, new.2]
  refine onward_fields rfl ?_
  have closed : Onward 0 rest (tokens ++ [.blockMapping] ++ fieldWords k v ++
      fields.flatMap fun f => fieldWords f.1 f.2) (2 :: columns) words :=
    onward_close (by decide) (by simpa using next)
  obtain ⟨n, tail, rfl, le, starts, read⟩ := closed
  exact ⟨n, tail, rfl, Nat.le_trans le (Nat.zero_le _), starts, read⟩

lemma reads_dash (inner : columns.head? = some m.column)
    (next : Reads (outside (' ' :: rest) (m.right 1) (tokens ++ [.entry]) columns true) words) :
    Reads (outside ('-' :: ' ' :: rest) m tokens columns true) words := by
  have noMark : atMark '-' ('-' :: ' ' :: rest) = false := by cases rest <;> simp [atMark]
  have word : (outside ('-' :: ' ' :: rest) m tokens columns true).readWord =
      (outside ('-' :: ' ' :: rest) m tokens columns true).readEntry := by
    simp [readWord, outside, noMark, atMark_of_ne, atGap, isBlank]
  have read : (outside ('-' :: ' ' :: rest) m tokens columns true).readEntry =
      some (outside (' ' :: rest) (m.right 1) (tokens ++ [.entry]) columns true) := by
    simp [readEntry, outside, inFlow, openBlock, inner, dropPlace, push, advance]
  refine reads_of_readWord (by rintro c ⟨⟩; decide) (List.cons_ne_nil _ _) dropStale_outside
    (fun c hc => ?_) (word.trans read) (Nat.lt_succ_self _) next
  obtain rfl : m.column = c := Option.some.inj (inner.symm.trans hc)
  exact Nat.le_refl _

lemma onward_items (inner : columns.head? = some 0) {items : List Scalar}
    (next : Onward 0 rest (tokens ++ items.flatMap itemWords) columns words) :
    Onward 0 (items.flatMap renderItem ++ rest) tokens columns words := by
  induction items generalizing tokens with
  | nil => simpa using next
  | cons item items ih =>
    have written : renderItem item =
        '-' :: ' ' :: endLine (renderScalar 2 item) :=
      endLine_append (spelling_renderScalar 2 item).ne_nil ['-', ' ']
    rw [List.flatMap_cons, written, List.append_assoc]
    refine ⟨0, _, rfl, Nat.le_refl _, by rintro c ⟨⟩; decide, fun m hm => ?_⟩
    have more : Onward 0 (items.flatMap renderItem ++ rest) (tokens ++ [.entry] ++ [item.token])
        columns words := ih (by simpa [itemWords] using next)
    exact reads_dash (hm ▸ inner) (reads_inline inner (Nat.zero_le _) more)

/-! ### Values -/

lemma reads_brackets {opens closes : Char} {first last : Token} {n : Nat}
    (word : ∀ s : Scan, s.rest = opens :: closes :: '\n' :: rest → s.readWord = s.openFlow first)
    (word' : ∀ s : Scan, s.rest = closes :: '\n' :: rest → s.readWord = s.closeFlow last)
    (starts : StartsWord [opens] ∧ StartsWord [closes])
    (within : ∀ c ∈ columns.head?, c < m.column)
    (next : Onward n rest (tokens ++ [first, last]) columns words) :
    Reads (outside (opens :: closes :: '\n' :: rest) m tokens columns keyAllowed) words := by
  have right : columns.head? ≠ some m.column := fun same => Nat.lt_irrefl _ (within _ same)
  obtain ⟨place, opened, optional⟩ : ∃ place : Option KeyPlace,
      (outside (opens :: closes :: '\n' :: rest) m tokens columns keyAllowed).openFlow first =
        some ⟨closes :: '\n' :: rest, m.right 1, tokens ++ [first], columns, true, none, [place]⟩ ∧
      ∀ p ∈ place, p.required = false ∧ p.mark = m := by
    cases keyAllowed with
    | true =>
      refine ⟨some ⟨false, tokens.length, m⟩, ?_, by simp⟩
      simp [openFlow, savePlace, outside, dropPlace, inFlow, right, push, advance]
    | false =>
      refine ⟨none, ?_, by simp⟩
      simp [openFlow, savePlace, outside, push, advance]
  set s : Scan :=
    ⟨closes :: '\n' :: rest, m.right 1, tokens ++ [first], columns, true, none, [place]⟩ with hs
  have fresh : s.dropStale = some s := by
    cases place with
    | none => rfl
    | some p =>
      have same := (optional p rfl).2
      simp [dropStale, freshPlace, isStale, hs, same]
  have closed : s.closeFlow last =
      some ⟨'\n' :: rest, m.right 2, tokens ++ [first, last], columns, false, place, []⟩ := by
    simp [closeFlow, dropPlace, hs, push, advance]
  refine reads_of_readWord (fun c hc => starts.1 c hc) (List.cons_ne_nil _ _) dropStale_outside
    (fun c hc => Nat.le_of_lt (within c hc)) ((word _ rfl).trans opened) (Nat.lt_succ_self _)
    (reads_of_readWord (s := s) (fun c hc => starts.2 c hc) (List.cons_ne_nil _ _) fresh
      (fun c hc => Nat.le_trans (Nat.le_of_lt (within c hc)) (Nat.le_add_right _ _))
      ((word' s rfl).trans closed) (Nat.lt_succ_self _)
      (reads_lineFeed next fun p hp => ?_))
  obtain ⟨notRequired, same⟩ := optional p hp
  exact ⟨notRequired, same ▸ Nat.le_refl _⟩

/-- What follows a key with its colon. -/
def valueLines : Value → List Char
  | .scalar v => ' ' :: endLine (renderScalar 2 v)
  | .sequence [] => " []\n".toList
  | .sequence items => '\n' :: items.flatMap renderItem
  | .mapping [] => " \x7b\x7d\n".toList
  | .mapping fields => '\n' :: fields.flatMap fun (k, v) => renderField 2 k v

lemma renderEntry_eq (key : String) (v : Value) :
    renderEntry key v = renderKey 0 key.toList ++ valueLines v := by
  unfold renderEntry valueLines
  split
  · rename_i v
    have line : endLine (renderKey 0 key.toList ++ ' ' :: renderScalar 2 v) =
        (renderKey 0 key.toList ++ [' ']) ++ endLine (renderScalar 2 v) := by
      rw [← endLine_append (spelling_renderScalar 2 v).ne_nil]
      simp
    rw [renderField, line]
    simp
  all_goals simp

lemma atGap_valueLines (v : Value) (rest : List Char) : atGap (valueLines v ++ rest) = true := by
  unfold valueLines
  split <;> rfl

lemma reads_value (inner : columns.head? = some 0) (v : Value)
    (next : Onward 0 rest (tokens ++ v.words) columns words) :
    Reads (outside (valueLines v ++ rest) m tokens columns keyAllowed) words := by
  have within : ∀ c ∈ columns.head?, c < m.column + 1 := by
    rw [inner]
    rintro c ⟨⟩
    exact Nat.succ_pos _
  have nothing : ∀ p ∈ (none : Option KeyPlace), p.required = false ∧ p.mark.line ≤ m.line := nofun
  cases v with
  | scalar v => exact reads_inline inner (Nat.zero_le _) next
  | sequence items =>
    cases items with
    | nil =>
      have brackets : Reads (outside ('[' :: ']' :: '\n' :: rest) (m.right 1) tokens columns
          keyAllowed) words :=
        reads_brackets (fun s hs => by simp [readWord, hs, atMark_of_ne])
          (fun s hs => by simp [readWord, hs, atMark_of_ne])
          ⟨by rintro c ⟨⟩; decide, by rintro c ⟨⟩; decide⟩ within next
      exact reads_space (by rintro c ⟨⟩; decide) brackets
    | cons item items => exact reads_lineFeed (onward_items inner next) nothing
  | mapping fields =>
    cases fields with
    | nil =>
      have brackets : Reads (outside ('\x7b' :: '\x7d' :: '\n' :: rest) (m.right 1) tokens columns
          keyAllowed) words :=
        reads_brackets (fun s hs => by simp [readWord, hs, atMark_of_ne])
          (fun s hs => by simp [readWord, hs, atMark_of_ne])
          ⟨by rintro c ⟨⟩; decide, by rintro c ⟨⟩; decide⟩ within next
      exact reads_space (by rintro c ⟨⟩; decide) brackets
    | cons field fields => exact reads_lineFeed (onward_mapping inner next) nothing

/-! ### Mappings -/

lemma onward_entry {key : String} {v : Value} (within : ∀ c ∈ columns.head?, c ≤ 0)
    (next : Onward 0 rest (tokens ++ opening columns 0 ++ entryWords key v) (opened columns 0)
      words) :
    Onward 0 (renderEntry key v ++ rest) tokens columns words := by
  rw [renderEntry_eq, List.append_assoc]
  refine onward_key within (atGap_valueLines v rest) fun m allowed _ => ?_
  refine reads_value (head?_opened within) v ?_
  simpa [entryWords] using next

lemma onward_entries (inner : columns.head? = some 0) {fields : List (String × Value)}
    (next : Onward 0 rest (tokens ++ fields.flatMap fun e => entryWords e.1 e.2) columns words) :
    Onward 0 ((fields.flatMap fun (k, v) => renderEntry k v) ++ rest) tokens columns words := by
  induction fields generalizing tokens with
  | nil => simpa using next
  | cons field fields ih =>
    obtain ⟨k, v⟩ := field
    obtain ⟨noBlock, same⟩ := opened_of_head? inner
    rw [List.flatMap_cons, List.append_assoc]
    refine onward_entry (by simp [inner]) ?_
    rw [noBlock, same, List.append_nil]
    exact ih (by simpa using next)

end Scan

/-! ### Whole texts -/

lemma all_isPrintable_endLine {cs : List Char} (h : cs.all isPrintable = true) :
    (endLine cs).all isPrintable = true := by
  have feed : isPrintable '\n' = true := by decide
  unfold endLine
  split_ifs
  · exact h
  · simp only [List.all_append, h, List.all_cons, List.all_nil, feed, Bool.and_self]

lemma isPrintable_signs : isPrintable ' ' = true ∧ isPrintable '\n' = true ∧
    isPrintable '?' = true ∧ isPrintable ':' = true ∧ isPrintable '-' = true ∧
    " []\n".toList.all isPrintable = true ∧ " \x7b\x7d\n".toList.all isPrintable = true := by
  decide

lemma all_isPrintable_renderKey (indent : Nat) (cs : List Char) :
    (renderKey indent cs).all isPrintable = true := by
  have text := (spelling_renderText (indent + 2) cs).all_isPrintable
  have space := Spelling.all_isPrintable_spaces indent
  have line : (endLine (spaces indent ++ '?' :: ' ' :: renderText (indent + 2) cs)).all
      isPrintable = true := all_isPrintable_endLine (by
    simp only [List.all_append, List.all_cons, text, space, isPrintable_signs, Bool.and_self])
  unfold renderKey
  split_ifs <;> simp only [List.all_append, List.all_cons, List.all_nil, text, space, line,
    isPrintable_signs, Bool.and_self]

lemma all_isPrintable_renderField (indent : Nat) (key : String) (v : Scalar) :
    (renderField indent key v).all isPrintable = true := by
  have scalar := (spelling_renderScalar (indent + 2) v).all_isPrintable
  refine all_isPrintable_endLine ?_
  simp only [List.all_append, List.all_cons, all_isPrintable_renderKey, scalar, isPrintable_signs,
    Bool.and_self]

lemma all_isPrintable_renderItem (item : Scalar) : (renderItem item).all isPrintable = true := by
  have scalar := (spelling_renderScalar 2 item).all_isPrintable
  refine all_isPrintable_endLine ?_
  simp only [List.all_cons, scalar, isPrintable_signs, Bool.and_self]

lemma all_isPrintable_render (fields : List (String × Value)) :
    (render fields).all isPrintable = true := by
  have entry (key : String) (v : Value) : (renderEntry key v).all isPrintable = true := by
    unfold renderEntry
    split
    · exact all_isPrintable_renderField 0 key _
    all_goals simp only [List.all_append, List.all_cons, List.all_flatMap,
      all_isPrintable_renderKey, all_isPrintable_renderItem, all_isPrintable_renderField,
      isPrintable_signs, Bool.and_self, Bool.true_and]
    all_goals exact List.all_eq_true.mpr fun _ _ => rfl
  simp only [render, List.all_flatMap, entry, List.all_eq_true, implies_true]

theorem Token.ofText?_render {fields : List (String × Value)} (filled : fields ≠ []) :
    Token.ofText? (render fields) = some (mappingWords fields) := by
  have printable := List.all_eq_true.mp (all_isPrintable_render fields)
  have readable : (render fields).all isReadable = true :=
    List.all_eq_true.mpr fun c hc => isReadable_of_isPrintable (printable c hc)
  have noOrderMark : (render fields).head? ≠ some '\uFEFF' := fun first =>
    absurd (printable _ (List.mem_of_head? first)) (by decide)
  obtain ⟨⟨k, v⟩, fields, rfl⟩ := List.exists_cons_of_ne_nil filled
  have onward : Scan.Onward 0 (render ((k, v) :: fields)) [] []
      (mappingWords ((k, v) :: fields)) := by
    have parts : render ((k, v) :: fields) =
        renderEntry k v ++ ((fields.flatMap fun (k, v) => renderEntry k v) ++ []) := by simp [render]
    rw [parts]
    refine Scan.onward_entry nofun (Scan.onward_entries rfl
      ⟨0, [], rfl, Nat.le_refl 0, nofun, fun m _ => ?_⟩)
    have done : Scan.Reads (Scan.outside [] m ([.blockMapping] ++ entryWords k v ++
        fields.flatMap fun e => entryWords e.1 e.2) [0] true) (_ ++ [.blockEnd]) := Scan.reads_end
    have first : Scan.opening [] 0 = [.blockMapping] ∧ Scan.opened [] 0 = [0] := ⟨rfl, rfl⟩
    simpa [first, mappingWords] using done
  obtain ⟨n, tail, written, le, -, read⟩ := onward
  obtain rfl : n = 0 := Nat.le_zero.mp le
  rw [ofText?, if_pos readable, if_neg noOrderMark, written]
  exact read .start rfl _ (Nat.lt_succ_self _)

end FeatureBatch.Yaml
