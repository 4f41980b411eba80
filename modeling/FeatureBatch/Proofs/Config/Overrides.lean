import FeatureBatch.Proofs.Config.Environment
import FeatureBatch.Proofs.Text.Blank

/-!
Overrides where blanks stand around values. Tags and a number of threads are read without them, and a
value of blanks only counts as not set with more of them. A flag is read with them: a word for yes
that has blanks around it is no word for yes any more, and so it stands for no.
-/

namespace FeatureBatch

namespace Environment

open Text

variable {env env' : Environment} {name : String}

/-! ### Padded values -/

/-- What the system has for a variable of the suite. -/
def bytes? (env : Environment) (name : String) : Option (List UInt8) :=
  env.get? (key (fullName name))

/-- A value with blanks added before it and after it, whether it is a text or not. -/
def PaddedValue (value value' : List UInt8) : Prop :=
  ∃ u v, u.all isBlank = true ∧ v.all isBlank = true ∧ value' = utf8 u ++ value ++ utf8 v

/-- A variable of the suite has blanks added around its value in the second environment, or it is set
in neither. -/
def PadsVariable (env env' : Environment) (name : String) : Prop :=
  Option.Rel PaddedValue (env.bytes? name) (env'.bytes? name)

/-- Blanks are added around the values that tags, threads and the dry run are read from. -/
structure Pads (env env' : Environment) : Prop where
  tags : PadsVariable env env' "TAGS"
  threads : PadsVariable env env' "THREADS"
  dryRun : PadsVariable env env' "DRY_RUN"

lemma PadsVariable.of_eq (same : env'.bytes? name = env.bytes? name) :
    PadsVariable env env' name := by
  rw [PadsVariable, same]
  cases env.bytes? name with
  | none => exact .none
  | some value => exact .some ⟨[], [], rfl, rfl, (List.append_nil value).symm⟩

lemma PadsVariable.of_padded {s t : String} (before : env.text? (fullName name) = some s)
    (after : env'.text? (fullName name) = some t) (padded : Padded s.toList t.toList) :
    PadsVariable env env' name := by
  obtain ⟨u, v, hu, hv, whole⟩ := padded
  rw [PadsVariable, bytes?, bytes?, text?_eq_some.mp before, text?_eq_some.mp after, whole]
  exact .some ⟨u, v, hu, hv, by rw [utf8_append, utf8_append]⟩

lemma PadsVariable.text? (h : PadsVariable env env' name) :
    Option.Rel (fun s t => Padded s.toList t.toList)
      (env.text? (fullName name)) (env'.text? (fullName name)) := by
  unfold Environment.text?
  unfold PadsVariable bytes? at h
  generalize env.get? (key (fullName name)) = value, env'.get? (key (fullName name)) = value' at h
  cases h with
  | none => exact .none
  | some padded =>
    obtain ⟨u, v, hu, hv, rfl⟩ := padded
    rw [Option.bind_some, Option.bind_some, ofUtf8?_between]
    cases ofUtf8? _ with
    | none => exact .none
    | some s => exact .some ⟨u, v, hu, hv, by rw [String.toList_ofList, String.toList_ofList]⟩

lemma PadsVariable.value? (h : PadsVariable env env' name) :
    Option.Rel (fun s t => Padded s.toList t.toList) (env.value? name) (env'.value? name) := by
  have texts := h.text?
  unfold Environment.value?
  generalize env.text? (fullName name) = text, env'.text? (fullName name) = text' at texts
  cases texts with
  | none => exact .none
  | some padded =>
    rw [Option.filter_some, Option.filter_some, padded.allBlank_eq]
    split
    · exact .some padded
    · exact .none

lemma bytes?_of_value? {value : String} (there : env.value? name = some value) :
    env.bytes? name = some (utf8 value.toList) :=
  text?_eq_some.mp (Option.eq_some_of_filter_eq_some there)

/-! ### Words for yes -/

lemma free_of_isYes {value : String} (yes : isYes value = true) :
    value.toList.any isBlank = false := by
  have free : ["1", "true", "yes", "on", "enabled"].all (!·.toList.any isBlank) = true := by decide
  have folded := List.all_eq_true.mp free _ (List.contains_iff_mem.mp yes)
  rwa [Bool.not_eq_true', String.toList_ofList, any_foldAscii] at folded

lemma isYes_of_padded {s t : String} (padded : Padded s.toList t.toList) :
    isYes t = true ↔ isYes s = true ∧ t = s := by
  constructor
  · intro yes
    have same : t = s := String.toList_inj.mp (padded.eq_of_free (free_of_isYes yes))
    exact ⟨same ▸ yes, same⟩
  · rintro ⟨yes, rfl⟩
    exact yes

/-! ### What is read -/

lemma tags_of_pads (h : PadsVariable env env' "TAGS") :
    env'.overrides.tags = env.overrides.tags := by
  have values := h.value?
  unfold overrides
  generalize env.value? "TAGS" = value, env'.value? "TAGS" = value' at values
  cases values with
  | none => rfl
  | some padded => rw [Option.map_some, Option.map_some, padded.words_eq]

lemma threads_of_pads (h : PadsVariable env env' "THREADS") :
    env'.overrides.threads = env.overrides.threads := by
  have values := h.value?
  unfold overrides
  generalize env.value? "THREADS" = value, env'.value? "THREADS" = value' at values
  cases values with
  | none => rfl
  | some padded => rw [Option.bind_some, Option.bind_some, padded.trim_eq]

lemma dryRun_of_pads (h : PadsVariable env env' "DRY_RUN") :
    env'.overrides.dryRun =
      if env.overrides.dryRun = some true ∧ env'.bytes? "DRY_RUN" ≠ env.bytes? "DRY_RUN" then
        some false
      else env.overrides.dryRun := by
  by_cases same : env'.bytes? "DRY_RUN" = env.bytes? "DRY_RUN"
  · have value : env'.value? "DRY_RUN" = env.value? "DRY_RUN" := by
      unfold Environment.value? Environment.text?
      rw [← bytes?, same, bytes?]
    rw [if_neg fun changed => changed.2 same]
    exact congrArg (Option.map isYes) value
  · have values := h.value?
    unfold overrides
    generalize before : env.value? "DRY_RUN" = flag, after : env'.value? "DRY_RUN" = flag' at values
    cases values with
    | none => rfl
    | @some s t padded =>
      have no : isYes t = false := by
        rw [← Bool.not_eq_true, isYes_of_padded padded]
        rintro ⟨-, rfl⟩
        exact same (by rw [bytes?_of_value? before, bytes?_of_value? after])
      rw [Option.map_some, Option.map_some, no]
      cases isYes s with
      | true => rw [if_pos ⟨rfl, same⟩]
      | false => rw [if_neg fun changed => Bool.false_ne_true (Option.some.inj changed.1)]

/-- **Blanks around values** change neither the tags nor the number of threads. They change the flag
of a dry run exactly if it is yes and any are added, and then it becomes no. -/
theorem overrides_of_pads (h : Pads env env') :
    env'.overrides.tags = env.overrides.tags ∧
    env'.overrides.threads = env.overrides.threads ∧
    env'.overrides.dryRun =
      if env.overrides.dryRun = some true ∧ env'.bytes? "DRY_RUN" ≠ env.bytes? "DRY_RUN" then
        some false
      else env.overrides.dryRun :=
  ⟨tags_of_pads h.tags, threads_of_pads h.threads, dryRun_of_pads h.dryRun⟩

/-- Blanks of several kinds are added around values that already have some. -/
theorem padded_tags_kept :
    let env := ((empty.insert (fullName "TAGS") "@a,@b\n ~@c").insert (fullName "THREADS")
      "\t+4").insert (fullName "DRY_RUN") "Enabled"
    let env' := ((empty.insert (fullName "TAGS") "\u3000@a,@b\n ~@c\t").insert (fullName "THREADS")
      "\u00a0\t+4\u2028").insert (fullName "DRY_RUN") "Enabled\u0085"
    Pads env env' ∧ env.overrides = ⟨none, some ["@a,@b", "~@c"], some 4, some true, none⟩ ∧
      env'.overrides.tags = env.overrides.tags ∧ env'.overrides.threads = env.overrides.threads ∧
      env'.overrides.dryRun = some false := by
  intro env env'
  have padded : Pads env env' := by
    constructor
    case tags =>
      refine .of_padded (s := "@a,@b\n ~@c") (t := "\u3000@a,@b\n ~@c\t") ?_ ?_
        ⟨['\u3000'], ['\t'], by decide, by decide, rfl⟩ <;> decide +kernel
    case threads =>
      refine .of_padded (s := "\t+4") (t := "\u00a0\t+4\u2028") ?_ ?_
        ⟨['\u00a0'], ['\u2028'], by decide, by decide, rfl⟩ <;> decide +kernel
    case dryRun =>
      refine .of_padded (s := "Enabled") (t := "Enabled\u0085") ?_ ?_
        ⟨[], ['\u0085'], rfl, by decide, rfl⟩ <;> decide +kernel
  obtain ⟨tags, threads, dryRun⟩ := overrides_of_pads padded
  refine ⟨padded, by decide +kernel, tags, threads, ?_⟩
  rw [dryRun]
  decide +kernel

/-- One blank before it turns a flag into its opposite. -/
theorem spaced_yes_is_no :
    let env := empty.insert (fullName "DRY_RUN") "yes"
    let env' := empty.insert (fullName "DRY_RUN") " yes"
    Pads env env' ∧ env.overrides.dryRun = some true ∧ env'.overrides.dryRun = some false := by
  intro env env'
  have padded : Pads env env' := by
    constructor
    case tags => exact .of_eq (by decide +kernel)
    case threads => exact .of_eq (by decide +kernel)
    case dryRun =>
      refine .of_padded (s := "yes") (t := " yes") ?_ ?_ ⟨[' '], [], by decide, rfl, rfl⟩ <;>
        decide +kernel
  exact ⟨padded, by decide +kernel, by decide +kernel⟩

end Environment

end FeatureBatch
