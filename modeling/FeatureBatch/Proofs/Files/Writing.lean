import Mathlib.Data.List.Basic
import Mathlib.Tactic.Common
import FeatureBatch.Proofs.Text.Utf8
import FeatureBatch.Reports.FileReports

/-!
Files that were written, read again. An entry is put only where no directory is, so that every place
can still be reached as before, and the path that was written to leads to the new file. So it is with
reports.
-/

namespace FeatureBatch

namespace FileSystem

variable {fs fs' : FileSystem} {place written directory : Place} {entry : FileEntry} {p : Path}

/-! ### The entries of a tree -/

lemma lookup_put (ne : written ≠ []) : (fs.put written entry).lookup written = some entry := by
  simp [lookup, put, ne]

lemma lookup_filter {entries : List (Place × FileEntry)} {keep : Place × FileEntry → Bool}
    (kept : ∀ e : FileEntry, keep (place, e) = true) :
    (entries.filter keep).lookup place = entries.lookup place := by
  induction entries with
  | nil => rfl
  | cons first rest ih =>
    obtain ⟨q, e⟩ := first
    cases here : keep (q, e) with
    | true => rw [List.filter_cons_of_pos here, List.lookup_cons, List.lookup_cons, ih]
    | false =>
      have apart : (place == q) = false := by
        rw [beq_eq_false_iff_ne]
        rintro rfl
        simp [kept e] at here
      rw [List.filter_cons_of_neg (by simp [here]), ih, List.lookup_cons, apart]

lemma lookup_put_of_ne (ne : place ≠ written) :
    (fs.put written entry).lookup place = fs.lookup place := by
  have apart : (place == written) = false := by simp [ne]
  rw [lookup, lookup, put, List.lookup_cons, apart]
  refine congrArg (if place = [] then some .directory else ·) (lookup_filter fun e => ?_)
  exact decide_eq_true ne

lemma requireDirectory_eq_ok : fs.requireDirectory place = .ok () ↔
    fs.lookup place = some .directory := by
  unfold requireDirectory
  split <;> simp_all

/-! ### Following a path -/

lemma walk_append (fs : FileSystem) (place : Place) (names more : List FileName) :
    fs.walk place (names ++ more) = (fs.walk place names).bind fun q => fs.walk q more := by
  induction names generalizing place with
  | nil => rfl
  | cons name names ih =>
    rw [List.cons_append, walk, walk]
    cases fs.requireDirectory place with
    | error e => rfl
    | ok u =>
      simp only [bind, Except.bind]
      split_ifs
      · exact ih place
      · exact ih place.dropLast
      · rfl
      · exact ih (place ++ [name])

lemma walk_name {name : FileName} (there : fs.requireDirectory directory = .ok ())
    (named : Path.skipped name = false ∧ name ≠ [Path.dot, Path.dot])
    (short : name.length ≤ maxName) :
    fs.walk directory [name] = .ok (directory ++ [name]) := by
  simp [walk, there, named, Nat.not_lt.mpr short, bind, Except.bind]

lemma requireDirectory_put (free : fs.lookup written ≠ some .directory)
    (h : fs.requireDirectory place = .ok ()) :
    (fs.put written entry).requireDirectory place = .ok () := by
  have old := requireDirectory_eq_ok.mp h
  have ne : place ≠ written := by
    rintro rfl
    exact free old
  exact requireDirectory_eq_ok.mpr ((lookup_put_of_ne ne).trans old)

lemma walk_put {names : List FileName} (free : fs.lookup written ≠ some .directory)
    (h : fs.walk place names = .ok directory) :
    (fs.put written entry).walk place names = .ok directory := by
  induction names generalizing place with
  | nil => exact h
  | cons name names ih =>
    rw [walk] at h ⊢
    cases there : fs.requireDirectory place with
    | error e => simp [there, bind, Except.bind] at h
    | ok u =>
      simp only [there, requireDirectory_put free there, bind, Except.bind] at h ⊢
      split_ifs at h ⊢
      · exact ih h
      · exact ih h
      · exact ih h

/-! ### Writing and reading -/

lemma target_spec {t : Target} (h : fs.target p = .ok (some t))
    (plain : t.separatorFollows = false) :
    ∃ first names, fs.start p = .ok first ∧ p.segments = names ++ [t.name] ∧
      fs.walk first names = .ok t.directory ∧ fs.requireDirectory t.directory = .ok () ∧
      (Path.skipped t.name = false ∧ t.name ≠ [Path.dot, Path.dot]) ∧
      t.name.length ≤ maxName := by
  unfold target at h
  cases start : fs.start p with
  | error e => simp [start, bind, Except.bind] at h
  | ok first =>
    simp only [start, bind, Except.bind] at h
    split at h
    · simp at h
    rename_i name before found
    split at h
    · cases h
    rename_i directory walked
    split at h
    · cases h
    rename_i u there
    split_ifs at h with dots long
    · cases h
    obtain rfl := Option.some.inj (Except.ok.inj h)
    have last : p.segments.reverse = name :: before := by
      cases segments : p.segments.reverse with
      | nil => simp [segments] at found
      | cons seg segs =>
        have counts : seg ≠ [] := by simpa [segments] using plain
        simpa [segments, counts] using found
    have counts : name ≠ [] := by
      rintro rfl
      simp [last] at plain
    refine ⟨first, before.reverse, rfl, ?_, walked, there, ?_, ?_⟩
    · rw [← List.reverse_reverse p.segments, last, List.reverse_cons]
    · simpa [Path.skipped, counts] using dots
    · exact Nat.not_lt.mp long

theorem read_write {content : List UInt8} (h : fs.write p content = .ok fs') :
    fs'.read p = .ok content := by
  unfold write at h
  cases found : fs.target p with
  | error e => simp [found, bind, Except.bind] at h
  | ok t? =>
    simp only [found, bind, Except.bind] at h
    cases t? with
    | none => cases h
    | some t =>
      simp only at h
      split_ifs at h with taken
      obtain rfl := Except.ok.inj h
      simp only [Bool.or_eq_true, not_or, Bool.not_eq_true] at taken
      obtain ⟨first, names, start, segments, walked, there, named, short⟩ :=
        target_spec found taken.1
      have free : fs.lookup (t.directory ++ [t.name]) ≠ some .directory := by
        simpa [isDirectoryAt] using taken.2
      have resolved : (fs.put (t.directory ++ [t.name]) (.file content)).resolve p =
          .ok (t.directory ++ [t.name]) := by
        have same : (fs.put (t.directory ++ [t.name]) (.file content)).start p = .ok first := start
        rw [resolve, same, segments]
        simp only [bind, Except.bind, walk_append, walk_put free walked]
        exact walk_name (requireDirectory_put free there) named short
      rw [read, resolved]
      simp only [bind, Except.bind, lookup_put (List.concat_ne_nil _ _)]

theorem readText_write {text : String} (h : fs.write p (Text.utf8 text.toList) = .ok fs') :
    fs'.readText p = .ok text := by
  rw [readText, read_write h]
  simp only [bind, Except.bind, Text.ofUtf8?_eq_some.mpr rfl, String.ofList_toList]

/-- A file can be written at the path. -/
def IsWritable (fs : FileSystem) (p : Path) : Prop := ∃ content fs', fs.write p content = .ok fs'

lemma IsWritable.write (writable : fs.IsWritable p) (content : List UInt8) :
    ∃ fs', fs.write p content = .ok fs' := by
  obtain ⟨some', fs', written⟩ := writable
  unfold FileSystem.write at written ⊢
  cases found : fs.target p with
  | error e => simp [found, bind, Except.bind] at written
  | ok t? =>
    simp only [found, bind, Except.bind] at written ⊢
    cases t? with
    | none => cases written
    | some t =>
      simp only at written ⊢
      split_ifs at written ⊢
      exact ⟨_, rfl⟩

end FileSystem

/-! ### Reports -/

namespace FileReports

theorem readText_writeReport {fs fs' : FileSystem} {path p : Path} {content : String}
    (h : writeReport fs path content = (.ok p, fs')) : p = path ∧ fs'.readText p = .ok content := by
  unfold writeReport at h
  split at h
  · cases h
  · split at h
    · rename_i written
      obtain ⟨same, rfl⟩ := Prod.mk.inj h
      obtain rfl := Except.ok.inj same
      exact ⟨rfl, FileSystem.readText_write written⟩
    · cases h

end FileReports

end FeatureBatch
