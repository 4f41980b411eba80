import FeatureBatch.Proofs.Config.Settings
import FeatureBatch.Proofs.Yaml.Nodes

/-!
Settings in YAML. A text, a number and a truth value that were written are read back as they were,
so settings that are saved under a name with an extension of YAML are loaded from there as they
were.
-/

namespace FeatureBatch

namespace Yaml

/-! ### Scalars -/

lemma not_isNullWord_of_isDigit {cs : List Char} (filled : cs ≠ [])
    (digits : ∀ c ∈ cs, c.isDigit = true) : isNullWord cs = false := by
  cases null : isNullWord cs with
  | false => rfl
  | true =>
    obtain ⟨c, cs, rfl⟩ := List.exists_cons_of_ne_nil filled
    have digit := digits c List.mem_cons_self
    have words : (["~", "null", "Null", "NULL"].any fun w => w.toList.head?.any Char.isDigit) =
        false := by decide
    obtain ⟨w, hw, same⟩ := List.any_eq_true.mp null
    have same : w.toList = c :: cs := by simpa using same
    have other := List.any_eq_false.mp words w hw
    rw [same] at other
    exact absurd digit other

lemma Scalar.not_isNullWord {v : Scalar} (ne : v ≠ .null) (plain : v.style = .plain) :
    v.chars ≠ [] ∧ isNullWord v.chars = false := by
  cases v with
  | null => contradiction
  | bool b => cases b <;> decide
  | word n =>
    have filled := Decimal.digits_ne_nil n.toNat
    exact ⟨filled, not_isNullWord_of_isDigit filled fun _ => Decimal.isDigit_of_mem_digits⟩
  | text s =>
    have untyped := (styleOf_eq_plain plain).1
    simp only [isTyped, Bool.or_eq_false_iff, List.isEmpty_eq_false_iff] at untyped
    obtain ⟨⟨⟨⟨⟨filled, noNull⟩, -⟩, -⟩, -⟩, -⟩ := untyped
    exact ⟨filled, noNull⟩

lemma number?_of_isDigit {cs : List Char} (filled : cs ≠ []) (digits : ∀ c ∈ cs, c.isDigit = true) :
    number? 10 cs = some (Decimal.ofDigits cs) := by
  have fold (n : Nat) : (cs.foldlM (fun n c => (Hexadecimal.value c).bind fun d =>
      if d < 10 then some (n * 10 + d) else none) n) = some (Nat.ofDigitChars 10 cs n) := by
    clear filled
    induction cs generalizing n with
    | nil => rfl
    | cons c cs ih =>
      have digit := digits c List.mem_cons_self
      have value : Hexadecimal.value c = some (c.toNat - 48) := by simp [Hexadecimal.value, digit]
      have small : c.toNat - 48 < 10 := by
        simp only [Char.isDigit, Bool.and_eq_true, decide_eq_true_eq] at digit
        have high : c.toNat ≤ 57 := digit.2
        omega
      rw [List.foldlM_cons, value]
      simp only [Option.bind_some, small, if_true, Option.bind_eq_bind]
      rw [ih (fun d hd => digits d (List.mem_cons_of_mem c hd)), Nat.ofDigitChars_cons,
        Nat.mul_comm n 10]
      rfl
  rw [number?, if_neg (by simpa using filled)]
  exact fold 0

lemma based?_of_isDigit {cs : List Char} (digits : ∀ c ∈ cs, c.isDigit = true) :
    based? cs = none := by
  unfold based?
  split
  · exact absurd (digits 'x' (by simp)) (by decide)
  · exact absurd (digits 'o' (by simp)) (by decide)
  · exact absurd (digits 'b' (by simp)) (by decide)
  · rfl

lemma hasLeadingZero_digits (n : Nat) : hasLeadingZero (Decimal.digits n) = false := by
  have unsigned : dropSign (Decimal.digits n) = Decimal.digits n := by
    obtain ⟨c, cs, same⟩ := List.exists_cons_of_ne_nil (Decimal.digits_ne_nil n)
    have digit : c.isDigit = true := Decimal.isDigit_of_mem_digits (same ▸ List.mem_cons_self)
    have noSign : isSign c = false := by
      simp [isSign, ne_of_isDigit (d := '+') digit, ne_of_isDigit (d := '-') digit]
    rw [same, dropSign, noSign, if_neg Bool.false_ne_true]
  rw [hasLeadingZero, unsigned]
  split
  · rename_i d rest same
    rcases Nat.eq_zero_or_pos n with rfl | positive
    · cases same
    · exact absurd (congrArg List.head? same) (Decimal.digits_head?_ne_zero positive)
  · rfl

lemma word?_digits (n : UInt64) : word? (Decimal.digits n.toNat) = some n := by
  have digits : ∀ c ∈ Decimal.digits n.toNat, c.isDigit = true :=
    fun _ => Decimal.isDigit_of_mem_digits
  have whole : unsigned? (Decimal.digits n.toNat) = some n.toNat := by
    have magnitude : magnitude? (Decimal.digits n.toNat) = some n.toNat := by
      rw [magnitude?, based?_of_isDigit digits]
      simp only [hasLeadingZero_digits, Bool.false_eq_true, if_false]
      rw [number?_of_isDigit (Decimal.digits_ne_nil _) digits, Decimal.ofDigits_digits]
    unfold unsigned?
    split
    · rename_i rest same
      exact absurd (digits '+' (by simp [same])) (by decide)
    · exact magnitude
  have small : n.toNat < Nat.pow 2 64 := n.toNat_lt
  rw [word?, whole, Option.bind_some, if_pos small, UInt64.ofNat_toNat]

namespace Document

variable (d : Document)

@[simp] lemma asText?_text (s : String) : d.asText? (Scalar.text s).node = some s :=
  congrArg some String.ofList_toList

@[simp] lemma asText?_keyNode (key : String) : d.asText? (keyNode key) = some key :=
  congrArg some String.ofList_toList

@[simp] lemma asBool?_bool (b : Bool) : d.asBool? (Scalar.bool b).node = some b := by
  cases b <;> rfl

@[simp] lemma asWord?_word (n : UInt64) : d.asWord? (Scalar.word n).node = some n :=
  word?_digits n

@[simp] lemma asList?_texts (ss : List String) :
    d.asList? d.asText? (Value.sequence (ss.map .text)).node = some ss := by
  have items : (ss.map fun s => (Scalar.text s).node).mapM d.asText? = some ss :=
    mapM_map_eq_self fun s _ => d.asText?_text s
  rw [Value.node, List.map_map]
  exact items

lemma asOption?_node {α : Type} {f : Node → Option α} {v : Scalar} (ne : v ≠ .null) :
    d.asOption? f v.node = (f v.node).map some := by
  have followed : d.follow v.node = .scalar v.style none v.chars := rfl
  unfold asOption?
  rw [followed]
  cases style : v.style with
  | plain =>
    obtain ⟨filled, noNull⟩ := Scalar.not_isNullWord ne style
    simp [filled, noNull]
  | _ => rfl

@[simp] lemma asPairs?_texts (pairs : List (String × String)) :
    d.asPairs? (Value.mapping (pairs.map fun (k, v) => (k, .text v))).node = some pairs := by
  have items : (pairs.map fun p => (keyNode p.1, (Scalar.text p.2).node)).mapM
      (fun f => do some (← d.asText? f.1, ← d.asText? f.2)) = some pairs :=
    mapM_map_eq_self fun p _ => by
      simp only [asText?_keyNode, asText?_text, Option.bind_eq_bind, Option.bind_some]
  rw [Value.node, List.map_map]
  exact items

lemma fieldValues?_mapping {fields : List (String × Node)} {names : List String}
    (named : fields.map Prod.fst = names) (distinct : names.Nodup) :
    d.fieldValues? names (.mapping (fields.map fun f => (keyNode f.1, f.2))) =
      some (fields.map fun f => some f.2) := by
  have keys : (fields.map fun f => (keyNode f.1, f.2)).mapM
      (fun f => (d.asText? f.1).map fun k => (k, f.2)) = some fields :=
    mapM_map_eq_self fun f _ => by simp only [asText?_keyNode, Option.map_some]
  subst named
  have values : (fields.map Prod.fst).mapM (lookup? fields) = some (fields.map fun f => some f.2) :=
    mapM_map_eq_some fun f hf => by
      unfold lookup?
      generalize found : List.filter _ _ = l
      obtain rfl : l = [f] := found.symm.trans (filter_key distinct hf)
      rfl
  have read : d.fieldValues? (fields.map Prod.fst)
      (.mapping (fields.map fun f => (keyNode f.1, f.2))) =
      ((fields.map fun f => (keyNode f.1, f.2)).mapM fun f =>
        (d.asText? f.1).map fun k => (k, f.2)).bind fun fields' =>
          (fields.map Prod.fst).mapM (lookup? fields') := rfl
  rw [read, keys, Option.bind_some, values]

lemma fieldValues?_mappingNode {fields : List (String × Value)} {names : List String}
    (named : fields.map Prod.fst = names) (distinct : names.Nodup) :
    d.fieldValues? names (mappingNode fields) = some (fields.map fun f => some f.2.node) := by
  have names' : (fields.map fun f => (f.1, f.2.node)).map Prod.fst = names :=
    named ▸ List.map_map
  have read := d.fieldValues?_mapping names' distinct
  rw [List.map_map, List.map_map] at read
  exact read

end Document

end Yaml

open Yaml

namespace Settings

variable (d : Document)

lemma yamlOption?_scalarOrNull {α β : Type} {f : Node → Option β} {g : α → Scalar} {h : α → β}
    (value : ∀ a, g a ≠ .null) (read : ∀ a, f (g a).node = some (h a)) (o : Option α) :
    yamlOption? d f (some (scalarOrNull g o).node) = some (o.map h) := by
  cases o with
  | none => rfl
  | some a =>
    exact (d.asOption?_node (value a)).trans (congrArg (Option.map some) (read a))

@[simp] lemma yamlOption?_text (s : Option String) :
    yamlOption? d d.asText? (some (scalarOrNull .text s).node) = some s :=
  (yamlOption?_scalarOrNull d (h := id) nofun d.asText?_text s).trans (congrArg some Option.map_id')

@[simp] lemma yamlOption?_word (n : Option UInt64) :
    yamlOption? d d.asWord? (some (scalarOrNull .word n).node) = some n :=
  (yamlOption?_scalarOrNull d (h := id) nofun d.asWord?_word n).trans (congrArg some Option.map_id')

@[simp] lemma yamlOption?_bool (b : Option Bool) :
    yamlOption? d d.asBool? (some (scalarOrNull .bool b).node) = some b :=
  (yamlOption?_scalarOrNull d (h := id) nofun d.asBool?_bool b).trans (congrArg some Option.map_id')

@[simp] lemma yamlOption?_path (t : Option String) :
    yamlOption? d (pathOfYaml? d) (some (scalarOrNull .text t).node) = some (t.map Path.ofText) :=
  yamlOption?_scalarOrNull d (g := .text) nofun
    (fun s => congrArg (Option.map Path.ofText) (d.asText?_text s)) t

@[simp] lemma yamlOption?_outputs (o : Option OutputFormats) :
    yamlOption? d (outputsOfYaml? d) (some (outputsToYaml o).node) = some o := by
  cases o with
  | none => rfl
  | some o =>
    have named : ([("html", (Scalar.bool o.html).node),
        ("cucumber_json", (Scalar.bool o.cucumberJson).node),
        ("junit_xml", (Scalar.bool o.junitXml).node)].map Prod.fst) =
        ["html", "cucumber_json", "junit_xml"] := rfl
    have values : d.fieldValues? ["html", "cucumber_json", "junit_xml"]
        (outputsToYaml (some o)).node = some [some (Scalar.bool o.html).node,
          some (Scalar.bool o.cucumberJson).node, some (Scalar.bool o.junitXml).node] :=
      d.fieldValues?_mapping named (by decide)
    have read : outputsOfYaml? d (outputsToYaml (some o)).node = some o := by
      rw [outputsOfYaml?, values]
      simp [Document.required?]
    exact congrArg (Option.map some) read

lemma ofYaml?_of_toYaml? {s : Settings} {fields : List (String × Value)}
    (text : s.DirectoriesAreText) (h : s.toYaml? = some fields) :
    ofYaml? ⟨some (mappingNode fields)⟩ = some s := by
  obtain ⟨working, build, report, config, texts, hw, hb, hr, hc⟩ := exists_directories? text
  simp only [toYaml?, texts, Option.bind_eq_bind, Option.bind_some, Option.some.injEq] at h
  subst h
  have fields (fs : List (String × Value)) (named : fs.map Prod.fst = fieldNames) :
      (⟨some (mappingNode fs)⟩ : Document).fieldValues? fieldNames
        ((some (mappingNode fs)).getD .absent) = some (fs.map fun f => some f.2.node) :=
    Document.fieldValues?_mappingNode _ named (by decide)
  rw [ofYaml?, fields _ rfl]
  generalize (⟨some (mappingNode _)⟩ : Document) = d
  simp [Document.orElse?, hw, hb, hr, hc]

/-- **Settings in YAML are saved whole.** Settings of which the directories are texts, saved under a
name with an extension of YAML where a file can be written, are loaded from there as they were. -/
theorem saved_yaml_loads (fs : FileSystem) (p : Path) (s : Settings) (text : s.DirectoriesAreText)
    (yaml : p.extension = some (Text.utf8 "yaml".toList) ∨
      p.extension = some (Text.utf8 "yml".toList)) (writable : fs.IsWritable p) :
    ∃ fs', save fs p s = (.ok (), fs') ∧ load fs' p = .ok s := by
  have yaml : isYaml p = true := by simpa [isYaml] using yaml
  obtain ⟨f, fields, written⟩ : ∃ f fields, s.toYaml? = some (f :: fields) := by
    obtain ⟨working, build, report, config, texts, -⟩ := exists_directories? text
    exact ⟨_, _, by rw [toYaml?, texts]; rfl⟩
  refine load_of_save writable (by rw [yaml, render, written]; rfl) ?_
  have read := Document.ofText?_render (List.cons_ne_nil f fields)
  simp [yaml, parse, read, ofYaml?_of_toYaml? text written]

/-- Texts that look like other values, that hold line breaks of several kinds and blanks at their
ends, and a key that is too long for its line. -/
theorem unusual_texts_load :
    let fs : FileSystem := ⟨[([Text.utf8 "s.yml".toList], .file [0])], some []⟩
    let p := Path.ofText "s.yml"
    let s : Settings := ⟨some "  a\n\n b\n", ["null", "0x1f", "", "a\u2028 b", "- #: '\"", "\t\r"],
      some 18446744073709551615, some false, some .all, some (.ofText "~"), none, none, none,
      .ofList [(String.ofList (List.replicate 200 'k'), "true"), ("a\nb", "\u0000\uFEFF \n")]⟩
    ∃ fs', save fs p s = (.ok (), fs') ∧ load fs' p = .ok s := by
  intro fs p s
  refine saved_yaml_loads fs p s ?_ (.inr (by decide)) ⟨[], _, rfl⟩
  intro q hq
  simp [s] at hq
  exact ⟨"~", hq.symm⟩

end Settings

end FeatureBatch
