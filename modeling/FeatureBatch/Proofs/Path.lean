import Mathlib.Data.List.DropRight
import Mathlib.Tactic.Common
import FeatureBatch.Path
import FeatureBatch.Proofs.Text.Blank

/-!
How the operations on paths act on components. The segments of a path spell its components; the
parent has all components but the last, and joining an ordinary name to a directory adds it after
the components of the directory, however these are spelled.
-/

namespace FeatureBatch.Path

/-! ### Segments -/

lemma slash_not_mem_segments (p : Path) : ∀ seg ∈ p.segments, slash ∉ seg := fun seg mem inside =>
  (Text.mem_of_mem_splitOn seg mem slash inside).2 rfl

lemma bytes_eq_nil_of_segments {p : Path} (relative : p.isAbsolute = false)
    (head : p.segments.head? = some []) : p.bytes = [] := by
  obtain ⟨bytes⟩ := p
  cases bytes with
  | nil => rfl
  | cons b bytes =>
    have differ : b ≠ slash := by simpa [isAbsolute] using relative
    rw [segments, relative, if_neg (by simp), List.splitOn_cons_eq_if_modifyHead,
      if_neg (by simpa using differ)] at head
    cases split : bytes.splitOn slash with
    | nil => exact absurd split (List.splitOn_ne_nil _ _)
    | cons first rest => simp [split] at head

/-- The components that segments spell, after a root or not. -/
def readSegments (absolute : Bool) (segs : List (List UInt8)) : List Component :=
  let body := (segs.filter fun seg => !skipped seg).map componentOf
  if absolute then .root :: body
  else if segs.head? = some [dot] then .current :: body
  else body

lemma components_eq (p : Path) : p.components = readSegments p.isAbsolute p.segments := rfl

lemma slash_not_mem_of_normal {p : Path} {name : List UInt8} (h : .normal name ∈ p.components) :
    slash ∉ name := by
  have spelled : .normal name ∈ (p.segments.filter fun seg => !skipped seg).map componentOf := by
    rw [components_eq, readSegments] at h
    split_ifs at h
    · exact (List.mem_cons.mp h).resolve_left (by simp)
    · exact (List.mem_cons.mp h).resolve_left (by simp)
    · exact h
  obtain ⟨seg, mem, normal⟩ := List.mem_map.mp spelled
  unfold componentOf at normal
  split at normal
  · cases normal
  · obtain rfl := Component.normal.inj normal
    exact slash_not_mem_segments p _ (List.mem_filter.mp mem).1

lemma readSegments_append (absolute : Bool) (segs : List (List UInt8)) {seg : List UInt8}
    (counts : skipped seg = false) :
    readSegments absolute (segs ++ [seg]) = readSegments absolute segs ++ [componentOf seg] := by
  have other : seg ≠ [dot] := by
    rintro rfl
    cases counts
  have head : (segs ++ [seg]).head? = some [dot] ↔ segs.head? = some [dot] := by
    cases segs <;> simp [other]
  unfold readSegments
  simp only [head, List.filter_append, List.map_append]
  split_ifs <;> simp [counts]

lemma readSegments_append_skipped (absolute : Bool) {segs cut : List (List UInt8)}
    (nothing : ∀ seg ∈ cut, skipped seg = true)
    (leading : absolute = false → segs = [] → cut.head? ≠ some [dot]) :
    readSegments absolute (segs ++ cut) = readSegments absolute segs := by
  have none : cut.filter (fun seg => !skipped seg) = [] := by simpa using nothing
  have body : (segs ++ cut).filter (fun seg => !skipped seg) =
      segs.filter fun seg => !skipped seg := by
    rw [List.filter_append, none, List.append_nil]
  unfold readSegments
  rw [body]
  cases absolute with
  | true => rfl
  | false =>
    cases segs with
    | nil => simp [leading rfl rfl]
    | cons first rest => rfl

/-! ### Paths made of segments -/

variable {p : Path} {segs : List (List UInt8)}

lemma withSegments_congr {q : Path} (root : p.isAbsolute = q.isAbsolute) :
    p.withSegments segs = q.withSegments segs := by
  simp only [withSegments, root]

/-- These can be the segments of a path with the same root as `p`. -/
structure Spells (p : Path) (segs : List (List UInt8)) : Prop where
  clean : ∀ seg ∈ segs, slash ∉ seg
  head : p.isAbsolute = false → segs.head? ≠ some []

lemma Spells.isAbsolute (h : p.Spells segs) : (p.withSegments segs).isAbsolute = p.isAbsolute := by
  unfold withSegments
  cases root : p.isAbsolute with
  | true => simp [Path.isAbsolute]
  | false =>
    have first := h.head root
    cases segs with
    | nil => simp [Path.isAbsolute]
    | cons seg rest =>
      cases seg with
      | nil => simp at first
      | cons b seg =>
        have differ : slash ≠ b := by
          have := h.clean (b :: seg) List.mem_cons_self
          simp only [List.mem_cons, not_or] at this
          exact this.1
        cases rest <;> simp [Path.isAbsolute, differ.symm]

lemma Spells.segments (h : p.Spells segs) :
    (p.withSegments segs).segments = if segs = [] then [[]] else segs := by
  have body : (List.intercalate [slash] segs).splitOn slash = if segs = [] then [[]] else segs := by
    split
    · rename_i empty
      simp [empty]
    · rename_i some_segs
      exact List.splitOn_intercalate slash h.clean some_segs
  rw [Path.segments, h.isAbsolute, ← body]
  unfold withSegments
  cases p.isAbsolute <;> rfl

lemma Spells.components (h : p.Spells segs) :
    (p.withSegments segs).components = readSegments p.isAbsolute segs := by
  rw [components_eq, h.isAbsolute, h.segments]
  split
  · rename_i empty
    rw [empty, ← List.nil_append [[]],
      readSegments_append_skipped _ (by simp [skipped]) (by simp)]
  · rfl

lemma Spells.left {more : List (List UInt8)} (h : p.Spells (segs ++ more)) : p.Spells segs where
  clean seg mem := h.clean seg (List.mem_append_left _ mem)
  head relative := by
    cases segs with
    | nil => simp
    | cons first rest => exact h.head relative

lemma spells_segments (p : Path) (ne : p.isAbsolute = false → p.bytes ≠ []) :
    p.Spells p.segments where
  clean := slash_not_mem_segments p
  head relative first := ne relative (bytes_eq_nil_of_segments relative first)

/-! ### What is left without skipped segments at the end -/

/-- The last segment is not skipped, unless it is a dot that counts. -/
inductive Trimmed (absolute : Bool) : List (List UInt8) → Prop where
  | nothing : Trimmed absolute []
  | here (relative : absolute = false) : Trimmed absolute [[dot]]
  | name (before : List (List UInt8)) {seg : List UInt8} (counts : skipped seg = false) :
      Trimmed absolute (before ++ [seg])

lemma rdropWhile_skipped (segs : List (List UInt8)) : segs.rdropWhile skipped = [] ∨
    ∃ before seg, segs.rdropWhile skipped = before ++ [seg] ∧ skipped seg = false := by
  by_cases empty : segs.rdropWhile skipped = []
  · exact .inl empty
  · refine .inr ⟨_, _, (List.dropLast_append_getLast empty).symm, ?_⟩
    simpa using List.rdropWhile_last_not skipped segs empty

lemma exists_cut (segs : List (List UInt8)) :
    ∃ cut, segs = segs.rdropWhile skipped ++ cut ∧ ∀ seg ∈ cut, skipped seg = true :=
  ⟨_, List.rdropWhile_append_rtakeWhile.symm, fun _ => List.mem_rtakeWhile_imp⟩

lemma trimmedSegments_eq (p : Path) : p.trimmedSegments =
    if p.isAbsolute = false ∧ p.segments.head? = some [dot] then
      [dot] :: p.segments.tail.rdropWhile skipped
    else p.segments.rdropWhile skipped := by
  unfold trimmedSegments
  cases p.isAbsolute with
  | true => rfl
  | false =>
    cases p.segments with
    | nil => rfl
    | cons first rest =>
      by_cases here : first = [dot] <;> simp [here, List.rdropWhile]

lemma trimmed_trimmedSegments (p : Path) : Trimmed p.isAbsolute p.trimmedSegments := by
  rw [trimmedSegments_eq]
  split
  · rename_i leading
    rcases rdropWhile_skipped p.segments.tail with empty | ⟨before, seg, left, counts⟩
    · rw [empty]
      exact .here leading.1
    · rw [left]
      exact .name ([dot] :: before) counts
  · rcases rdropWhile_skipped p.segments with empty | ⟨before, seg, left, counts⟩
    · rw [empty]
      exact .nothing
    · rw [left]
      exact .name before counts

lemma trimmedSegments_spec (p : Path) : p.trimmedSegments <+: p.segments ∧
    readSegments p.isAbsolute p.trimmedSegments = p.components := by
  rw [trimmedSegments_eq, components_eq]
  split
  · rename_i leading
    obtain ⟨cut, rest, nothing⟩ := exists_cut p.segments.tail
    have whole : p.segments = ([dot] :: p.segments.tail.rdropWhile skipped) ++ cut := by
      rw [List.cons_append, ← rest]
      exact (List.cons_head?_tail leading.2).symm
    refine ⟨⟨cut, whole.symm⟩, ?_⟩
    conv_rhs => rw [whole]
    exact (readSegments_append_skipped _ nothing (by simp)).symm
  · rename_i not_leading
    obtain ⟨cut, whole, nothing⟩ := exists_cut p.segments
    refine ⟨⟨cut, whole.symm⟩, ?_⟩
    conv_rhs => rw [whole]
    refine (readSegments_append_skipped _ nothing fun relative empty first => ?_).symm
    rw [empty, List.nil_append] at whole
    exact not_leading ⟨relative, by rw [whole, first]⟩

lemma spells_trimmedSegments {p : Path} (ne : p.trimmedSegments ≠ []) :
    p.Spells p.trimmedSegments := by
  obtain ⟨more, whole⟩ := (trimmedSegments_spec p).1
  have spells : p.Spells p.segments := spells_segments p fun relative empty => ne <| by
    rw [trimmedSegments_eq, segments, relative, empty]
    simp [skipped]
  rw [← whole] at spells
  exact spells.left

/-! ### Parents -/

lemma Trimmed.dropLast {absolute : Bool} (h : Trimmed absolute segs) (ne : segs ≠ []) :
    readSegments absolute segs.dropLast = (readSegments absolute segs).dropLast := by
  cases h with
  | nothing => exact absurd rfl ne
  | here relative =>
    subst relative
    rfl
  | name before counts => rw [readSegments_append _ _ counts, List.dropLast_concat,
      List.dropLast_concat]

lemma components_withSegments_trimmed (p : Path) :
    (p.withSegments p.trimmedSegments).components = p.components := by
  by_cases empty : p.trimmedSegments = []
  · have nothing : p.Spells [] := ⟨by simp, by simp⟩
    rw [← (trimmedSegments_spec p).2, empty, nothing.components]
  · rw [(spells_trimmedSegments empty).components, (trimmedSegments_spec p).2]

/-- **The parent of a path** has its components but the last. -/
theorem components_parent {up : Path} (h : p.parent = some up) :
    up.components = p.components.dropLast := by
  unfold parent at h
  split at h
  · cases h
  · rename_i segs ne
    have spells := spells_trimmedSegments ne
    have above : p.Spells p.trimmedSegments.dropLast :=
      .left (by rw [List.dropLast_append_getLast ne]; exact spells)
    obtain rfl := Option.some.inj h
    rw [withSegments_congr above.isAbsolute.symm, components_withSegments_trimmed,
      above.components, (trimmed_trimmedSegments p).dropLast ne, (trimmedSegments_spec p).2]

lemma exists_parent {before : List Component} {name : List UInt8}
    (h : p.components = before ++ [.normal name]) : ∃ up, p.parent = some up := by
  unfold parent
  split
  · rename_i empty
    rw [← (trimmedSegments_spec p).2, empty] at h
    have last := congrArg List.getLast? h
    cases root : p.isAbsolute <;> simp [root, readSegments] at last
  · exact ⟨_, rfl⟩

/-! ### Joining a name to a directory -/

/-- The bytes are one segment, and spell an ordinary component. -/
structure IsName (name : List UInt8) : Prop where
  slash : slash ∉ name
  counts : skipped name = false
  ne_parent : name ≠ [dot, dot]

lemma IsName.componentOf {name : List UInt8} (h : IsName name) :
    componentOf name = .normal name := if_neg h.ne_parent

lemma isAbsolute_append {bytes : List UInt8} (ne : bytes ≠ []) (more : List UInt8) :
    isAbsolute ⟨bytes ++ more⟩ = isAbsolute ⟨bytes⟩ := by
  cases bytes with
  | nil => exact absurd rfl ne
  | cons b bytes => rfl

lemma segments_append_slash {bytes : List UInt8} (ne : bytes ≠ []) (more : List UInt8) :
    segments ⟨bytes ++ slash :: more⟩ = segments ⟨bytes⟩ ++ more.splitOn slash := by
  unfold segments
  rw [isAbsolute_append ne]
  cases bytes with
  | nil => exact absurd rfl ne
  | cons b bytes =>
    split
    · exact List.splitOn_append_cons_self bytes more
    · exact List.splitOn_append_cons_self (b :: bytes) more

lemma components_append_slash {bytes name : List UInt8} (ne : bytes ≠ []) (h : IsName name) :
    components ⟨bytes ++ slash :: name⟩ = components ⟨bytes⟩ ++ [.normal name] := by
  rw [components_eq, isAbsolute_append ne, segments_append_slash ne,
    List.splitOn_eq_singleton h.slash, readSegments_append _ _ h.counts, h.componentOf,
    components_eq]

lemma components_append_nothing {bytes : List UInt8} (ne : bytes ≠ []) :
    components ⟨bytes ++ [slash]⟩ = components ⟨bytes⟩ := by
  rw [components_eq, isAbsolute_append ne, segments_append_slash ne, List.splitOn_nil,
    readSegments_append_skipped _ (by simp [skipped]) (by simp), components_eq]

lemma IsName.isAbsolute {name : List UInt8} (h : IsName name) : isAbsolute ⟨name⟩ = false := by
  cases name with
  | nil => rfl
  | cons b name =>
    have other := h.slash
    simp only [List.mem_cons, not_or] at other
    simp [Path.isAbsolute, Ne.symm other.1]

theorem components_join_name (dir : Path) {name : List UInt8} (h : IsName name) :
    (dir.join ⟨name⟩).components = dir.components ++ [.normal name] := by
  have relative := h.isAbsolute
  have alone (absolute : Bool) :
      readSegments absolute [name] = readSegments absolute [] ++ [.normal name] := by
    rw [← h.componentOf, ← readSegments_append _ _ h.counts, List.nil_append]
  obtain ⟨bytes⟩ := dir
  rw [join, relative, if_neg (by simp)]
  simp only [Bool.or_eq_true, decide_eq_true_eq]
  split
  · rename_i ends
    rcases ends with empty | last
    · subst empty
      rw [List.nil_append, components_eq, relative, segments, relative, if_neg (by simp),
        List.splitOn_eq_singleton h.slash, alone]
      rfl
    · obtain ⟨before, rfl⟩ := List.getLast?_eq_some_iff.mp last
      rw [List.append_assoc, List.singleton_append]
      by_cases root : before = []
      · subst root
        have absolute (more : List UInt8) : isAbsolute ⟨slash :: more⟩ = true := rfl
        rw [List.nil_append, List.nil_append, components_eq, components_eq, absolute, absolute,
          segments, segments, absolute, absolute, if_pos rfl, if_pos rfl, List.drop_one,
          List.drop_one, List.tail_cons, List.tail_cons, List.splitOn_eq_singleton h.slash, alone]
        rfl
      · rw [components_append_slash root h, components_append_nothing root]
  · rename_i ends
    exact components_append_slash (fun empty => ends (.inl empty)) h

end FeatureBatch.Path
