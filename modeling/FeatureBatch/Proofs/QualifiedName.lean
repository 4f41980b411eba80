import FeatureBatch.Feature
import FeatureBatch.Proofs.Path

/-!
The names that reports go by. A path can spell the same names in many ways: absolute or relative,
with parents before them, and with more separators and dots than are needed. The qualified name of
a feature depends on none of this, only on the names and the last dot.
-/

namespace FeatureBatch

namespace Path

/-! ### Parts -/

/-- What counts of what stands between separators. -/
def parts (bytes : List UInt8) : List (List UInt8) :=
  (bytes.splitOn slash).filter fun seg => !skipped seg

@[simp] lemma parts_nil : parts [] = [] := rfl

lemma parts_append_slash (u v : List UInt8) : parts (u ++ slash :: v) = parts u ++ parts v := by
  rw [parts, List.splitOn_append_cons_self, List.filter_append]
  rfl

lemma parts_eq_singleton {seg : List UInt8} (clean : slash ∉ seg) (counts : skipped seg = false) :
    parts seg = [seg] := by
  rw [parts, List.splitOn_eq_singleton clean, List.filter_singleton, counts]
  rfl

lemma filter_segments (p : Path) : p.segments.filter (fun seg => !skipped seg) = parts p.bytes := by
  obtain ⟨bytes⟩ := p
  unfold segments
  split
  · rename_i absolute
    obtain ⟨rest, rfl⟩ : ∃ rest, bytes = slash :: rest :=
      ⟨_, (List.cons_head?_tail (by simpa [isAbsolute] using absolute)).symm⟩
    exact (parts_append_slash [] rest).symm
  · rfl

lemma exists_components_eq (p : Path) : ∃ first : List Component,
    (∀ name, .normal name ∉ first) ∧ p.components = first ++ (parts p.bytes).map componentOf := by
  rw [components_eq, readSegments, filter_segments]
  split_ifs
  · exact ⟨[.root], by simp, rfl⟩
  · exact ⟨[.current], by simp, rfl⟩
  · exact ⟨[], by simp, rfl⟩

/-! ### Spellings -/

/-- What may stand between two components: a separator, then more of them and single dots. -/
inductive Gap : List UInt8 → Prop
  | one : Gap [slash]
  | another {gap : List UInt8} (h : Gap gap) : Gap (gap ++ [slash])
  | current {gap : List UInt8} (h : Gap gap) : Gap (gap ++ [dot, slash])

/-- What may stand before the first component. -/
inductive Lead : List UInt8 → Prop
  | nothing : Lead []
  | root {gap : List UInt8} (h : Gap gap) : Lead gap
  | current {gap : List UInt8} (h : Gap gap) : Lead (dot :: gap)

/-- Bytes that spell names one after the other, the last of them with an extension. -/
inductive SpellsNames (ext : List UInt8) : List (List UInt8) → List UInt8 → Prop
  | last (name : List UInt8) : SpellsNames ext [name] (name ++ dot :: ext)
  | trailing (name : List UInt8) {gap : List UInt8} (h : Gap gap) :
    SpellsNames ext [name] (name ++ dot :: ext ++ gap)
  | cons (name : List UInt8) {gap bytes : List UInt8} {names : List (List UInt8)} (h : Gap gap)
    (rest : SpellsNames ext names bytes) : SpellsNames ext (name :: names) (name ++ gap ++ bytes)

/-- Bytes that spell names, perhaps below parents. -/
inductive SpellsBelow (ext : List UInt8) (names : List (List UInt8)) : List UInt8 → Prop
  | names {bytes : List UInt8} (h : SpellsNames ext names bytes) : SpellsBelow ext names bytes
  | parent {gap bytes : List UInt8} (h : Gap gap) (rest : SpellsBelow ext names bytes) :
    SpellsBelow ext names ([dot, dot] ++ gap ++ bytes)

/-- The path spells these names, the last of them with an extension. -/
def IsSpelling (p : Path) (names : List (List UInt8)) (ext : List UInt8) : Prop :=
  ∃ lead below, Lead lead ∧ SpellsBelow ext names below ∧ p.bytes = lead ++ below

variable {ext bytes : List UInt8} {names : List (List UInt8)}

lemma Gap.parts_append {gap : List UInt8} (h : Gap gap) (u v : List UInt8) :
    parts (u ++ gap ++ v) = parts u ++ parts v := by
  induction h generalizing v with
  | one => rw [List.append_assoc, List.singleton_append, parts_append_slash]
  | @another gap _ ih =>
    have before : parts (u ++ gap) = parts u := by simpa using ih []
    have whole : u ++ (gap ++ [slash]) ++ v = u ++ gap ++ slash :: v := by simp
    rw [whole, parts_append_slash, before]
  | @current gap _ ih =>
    -- The dot is a segment of its own, and is skipped.
    have before : parts (u ++ gap ++ [dot]) = parts u := (ih [dot]).trans (List.append_nil _)
    have whole : u ++ (gap ++ [dot, slash]) ++ v = u ++ gap ++ [dot] ++ slash :: v := by simp
    rw [whole, parts_append_slash, before]

lemma Lead.parts_append {lead : List UInt8} (h : Lead lead) (v : List UInt8) :
    parts (lead ++ v) = parts v := by
  cases h with
  | nothing => rfl
  | root gap => exact gap.parts_append [] v
  | current gap => exact gap.parts_append [dot] v

lemma IsName.ne_nil {name : List UInt8} (h : IsName name) : name ≠ [] := by
  rintro rfl
  exact Bool.noConfusion h.counts

lemma IsName.append_ne_parent {name : List UInt8} (h : IsName name) (ext : List UInt8) :
    name ++ dot :: ext ≠ [dot, dot] := by
  intro same
  match name, same with
  | [], _ => exact h.ne_nil rfl
  | [b], same =>
    obtain ⟨rfl, -⟩ := List.cons.inj same
    exact Bool.noConfusion h.counts
  | b :: c :: name, same => simp at same

lemma IsName.append_extension {name : List UInt8} (h : IsName name) (plain : Path.slash ∉ ext) :
    IsName (name ++ dot :: ext) where
  slash := by
    rw [List.mem_append, List.mem_cons, not_or, not_or]
    exact ⟨h.slash, by decide, plain⟩
  counts := by simp [skipped, h.ne_nil, List.append_eq_cons_iff]
  ne_parent := h.append_ne_parent ext

lemma SpellsNames.exists_parts (h : SpellsNames ext names bytes)
    (proper : ∀ name ∈ names, IsName name) (plain : slash ∉ ext) :
    ∃ before last, names = before ++ [last] ∧ parts bytes = before ++ [last ++ dot :: ext] := by
  induction h with
  | last name =>
    have whole := (proper name List.mem_cons_self).append_extension plain
    exact ⟨[], name, rfl, parts_eq_singleton whole.slash whole.counts⟩
  | trailing name gap =>
    have whole := (proper name List.mem_cons_self).append_extension plain
    refine ⟨[], name, rfl, ?_⟩
    rw [← List.append_nil (_ ++ _), gap.parts_append, parts_nil, List.append_nil]
    exact parts_eq_singleton whole.slash whole.counts
  | cons name gap _ ih =>
    have first := proper name List.mem_cons_self
    obtain ⟨before, last, rfl, rest⟩ := ih fun other mem => proper other (List.mem_cons_of_mem name mem)
    refine ⟨name :: before, last, rfl, ?_⟩
    rw [gap.parts_append, rest, parts_eq_singleton first.slash first.counts]
    rfl

lemma SpellsBelow.exists_parts (h : SpellsBelow ext names bytes)
    (proper : ∀ name ∈ names, IsName name) (plain : slash ∉ ext) :
    ∃ parents before last, (∀ seg ∈ parents, seg = [dot, dot]) ∧ names = before ++ [last] ∧
      parts bytes = parents ++ before ++ [last ++ dot :: ext] := by
  induction h with
  | names spelled =>
    obtain ⟨before, last, whole, there⟩ := spelled.exists_parts proper plain
    exact ⟨[], before, last, by simp, whole, there⟩
  | parent gap _ ih =>
    obtain ⟨parents, before, last, up, whole, there⟩ := ih
    refine ⟨[dot, dot] :: parents, before, last, by simpa using up, whole, ?_⟩
    rw [gap.parts_append, there]
    rfl

lemma IsSpelling.exists_parts {p : Path} (h : p.IsSpelling names ext)
    (proper : ∀ name ∈ names, IsName name) (plain : slash ∉ ext) :
    ∃ parents before last, (∀ seg ∈ parents, seg = [dot, dot]) ∧ names = before ++ [last] ∧
      parts p.bytes = parents ++ before ++ [last ++ dot :: ext] := by
  obtain ⟨lead, below, leads, spelled, bytes⟩ := h
  rw [bytes, leads.parts_append]
  exact spelled.exists_parts proper plain

/-! ### The extension -/

lemma splitName_append {stem : List UInt8} (h : IsName stem) (plain : dot ∉ ext) :
    splitName (stem ++ dot :: ext) = (stem, some ext) := by
  have whole : (stem ++ dot :: ext).reverse = ext.reverse ++ dot :: stem.reverse := by simp
  have after : ((stem ++ dot :: ext).reverse.takeWhile (· != dot)).reverse = ext := by
    rw [whole, List.takeWhile_append_of_pos, List.takeWhile_cons_of_neg, List.append_nil,
      List.reverse_reverse]
    · simp
    · intro b mem
      exact bne_iff_ne.mpr fun same => plain (same ▸ List.mem_reverse.mp mem)
  have before : (stem ++ dot :: ext).take ((stem ++ dot :: ext).length - ext.length - 1) = stem := by
    have length : (stem ++ dot :: ext).length - ext.length - 1 = stem.length := by simp; omega
    rw [length, List.take_left]
  simp only [splitName, after, before]
  simp [h.append_ne_parent ext, h.ne_nil]

lemma components_withoutExtension {p : Path} {before : List Component} {name stem : List UInt8}
    (ends : p.components = before ++ [.normal name]) (split : (splitName name).1 = stem)
    (h : IsName stem) : p.withoutExtension.components = before ++ [.normal stem] := by
  have file : p.fileStem = some stem := by
    rw [fileStem, fileName, ends, List.getLast?_concat]
    exact congrArg some split
  have read := (trimmedSegments_spec p).2.trans ends
  have spells := spells_trimmedSegments (p := p)
  have trimmed := trimmed_trimmedSegments p
  rw [withoutExtension, file]
  generalize p.trimmedSegments = segs at read spells trimmed
  -- Only where a segment that counts comes last do the components end in a name.
  cases trimmed with
  | nothing =>
    have last := congrArg List.getLast? read
    cases root : p.isAbsolute <;> simp [root, readSegments] at last
  | here relative =>
    have last := congrArg List.getLast? read
    simp [relative, readSegments, skipped] at last
  | @name above seg counts =>
    rw [readSegments_append _ _ counts] at read
    obtain ⟨same, -⟩ := List.append_inj' read rfl
    have spells : p.Spells (above ++ [stem]) := by
      refine ⟨fun other mem => ?_, fun relative => ?_⟩
      · rcases List.mem_append.mp mem with earlier | last
        · exact (spells (by simp)).clean other (List.mem_append_left _ earlier)
        · exact List.mem_singleton.mp last ▸ h.slash
      · have head := (spells (by simp)).head relative
        cases above with
        | nil => simpa using h.ne_nil
        | cons first above => exact head
    rw [List.dropLast_concat, spells.components, readSegments_append _ _ h.counts, h.componentOf, same]

end Path

namespace Feature

open FeatureBatch.Path

lemma namesOf_eq {p : Path} {first : List Component} {segs : List (List UInt8)}
    (root : ∀ name, .normal name ∉ first) (spelled : p.components = first ++ segs.map componentOf) :
    namesOf p = (segs.filter (· ≠ [dot, dot])).map Text.ofUtf8Lossy := by
  rw [namesOf, spelled, List.filterMap_append]
  clear spelled
  refine (congrArg₂ (· ++ ·) (List.filterMap_eq_nil_iff.mpr fun c mem => ?_) ?_).trans
    (List.nil_append _)
  · cases c with
    | normal name => exact absurd mem (root name)
    | _ => rfl
  · induction segs with
    | nil => rfl
    | cons seg segs ih =>
      by_cases up : seg = [dot, dot]
      · simpa [componentOf, up] using ih
      · simpa [componentOf, up] using ih

lemma qualifiedName_of_names {f : Feature} {names : List (List Char)} (ne : names ≠ [])
    (there : namesOf f.path.withoutExtension = names) :
    f.qualifiedName = String.ofList (List.intercalate ['.'] names) := by
  unfold qualifiedName
  split
  · rename_i none
    exact absurd (there.symm.trans none) ne
  · rw [there]

lemma ofList_intercalate (names : List (List UInt8)) :
    String.ofList (List.intercalate ['.'] (names.map Text.ofUtf8Lossy)) =
      ".".intercalate (names.map lossyText) := by
  have texts : (names.map lossyText).map String.toList = names.map Text.ofUtf8Lossy := by
    rw [List.map_map]
    exact List.map_congr_left fun name _ => String.toList_ofList
  rw [← String.toList_inj, String.toList_ofList, String.toList_intercalate, texts]
  rfl

/-- **A qualified name is stable.** However the path of a feature spells names and an extension, its
qualified name is made of the names with dots between them. -/
theorem qualifiedName_of_isSpelling {names : List (List UInt8)} {ext : List UInt8}
    (proper : ∀ name ∈ names, IsName name) (extension : slash ∉ ext ∧ dot ∉ ext) (f : Feature)
    (spelled : f.path.IsSpelling names ext) :
    f.qualifiedName = ".".intercalate (names.map lossyText) := by
  obtain ⟨parents, before, last, up, rfl, there⟩ := spelled.exists_parts proper extension.1
  obtain ⟨first, root, components⟩ := exists_components_eq f.path
  have stem : IsName last := proper last (by simp)
  have whole := stem.append_extension extension.1
  have bare : f.path.withoutExtension.components =
      first ++ (parents ++ before ++ [last]).map componentOf := by
    rw [List.map_append, ← List.append_assoc, List.map_singleton, stem.componentOf]
    refine components_withoutExtension ?_ (congrArg Prod.fst (splitName_append stem extension.2)) stem
    rw [components, there, List.map_append, ← List.append_assoc, List.map_singleton, whole.componentOf]
  have names : namesOf f.path.withoutExtension = (before ++ [last]).map Text.ofUtf8Lossy := by
    have none : parents.filter (· ≠ [dot, dot]) = [] := by simpa using up
    have all : (before ++ [last]).filter (· ≠ [dot, dot]) = before ++ [last] :=
      List.filter_eq_self.mpr fun name mem => by simpa using (proper name mem).ne_parent
    rw [namesOf_eq root bare, List.append_assoc, List.filter_append, none, all, List.nil_append]
  rw [qualifiedName_of_names (by simp) names, ofList_intercalate]

/-- Dots and separators, a parent, a name with a dot and one that is no text. -/
theorem qualifiedName_of_untidy_path :
    let bytes := Text.utf8 "./..//users/.//a.".toList ++ [0xFF] ++ Text.utf8 ".feature/".toList
    IsSpelling ⟨bytes⟩ [Text.utf8 "users".toList, Text.utf8 "a.".toList ++ [0xFF]]
        (Text.utf8 "feature".toList) ∧
      (ofPath ⟨bytes⟩).qualifiedName = "users.a.\uFFFD" := by
  intro bytes
  have proper : ∀ name ∈ [Text.utf8 "users".toList, Text.utf8 "a.".toList ++ [0xFF]], IsName name := by
    simp only [List.forall_mem_cons]
    exact ⟨⟨by decide, by decide, by decide⟩, ⟨by decide, by decide, by decide⟩, by simp⟩
  have spelled : IsSpelling ⟨bytes⟩ [Text.utf8 "users".toList, Text.utf8 "a.".toList ++ [0xFF]]
      (Text.utf8 "feature".toList) :=
    ⟨_, _, .current .one, .parent (.another .one)
      (.names (.cons _ (.another (.current .one)) (.trailing _ .one))), by decide⟩
  refine ⟨spelled, ?_⟩
  rw [qualifiedName_of_isSpelling proper ⟨by decide, by decide⟩ (ofPath ⟨bytes⟩) spelled]
  decide +kernel

end Feature

end FeatureBatch
