import FeatureBatch.Proofs.Json.Layout

/-!
Both texts of a value, the one in one line and the one over several lines, are layouts of it, and so
they are read as the value. This is so for values whose strings are texts and whose numbers follow
the grammar, which are the values that can be written.
-/

namespace FeatureBatch.Json

/-- A value that has a written form: its strings stand for texts, its numbers follow the grammar. -/
inductive Writable : Json → Prop
  | null : Writable .null
  | bool (b : Bool) : Writable (.bool b)
  | number {n : JsonNumber} (spelled : IsSpelled n) : Writable (.number n)
  | text (s : String) : Writable (.text s)
  | array {vs : List Json} (items : ∀ v ∈ vs, Writable v) : Writable (.array vs)
  | object {fs : List (Option String × Json)} (keys : ∀ f ∈ fs, f.1.isSome = true)
      (values : ∀ f ∈ fs, Writable f.2) : Writable (.object fs)

lemma allSpace_nil : AllSpace [] := by simp [AllSpace]

lemma allSpace_newline (level : Nat) : AllSpace (newline level) := by
  intro c hc
  rcases List.mem_cons.mp hc with rfl | hc
  · decide
  · rw [List.eq_of_mem_replicate hc]
    decide

lemma Layout.spaces {v : Json} {b cs : List Char} (blank : AllSpace b)
    (value : Layout (.value v) cs) : Layout (.value v) (b ++ cs) := by
  induction b with
  | nil => exact value
  | cons c b ih =>
    exact .space (blank c List.mem_cons_self) (ih fun d hd => blank d (List.mem_cons_of_mem c hd))

/-! ### One line -/

lemma layout_compactItems {vs : List Json} (filled : vs ≠ [])
    (items : ∀ v ∈ vs, Layout (.value v) (compact v)) :
    Layout (.items vs) (compactItems vs ++ [']']) := by
  match vs, filled, items with
  | [v], _, items =>
    simpa [compactItems] using Layout.lastItem (items v (by simp)) allSpace_nil
  | v :: w :: rest, _, items =>
    have ih := layout_compactItems (List.cons_ne_nil w rest) fun u hu => items u (by simp [hu])
    simpa [compactItems] using Layout.item (items v (by simp)) allSpace_nil ih

lemma layout_compactFields {fs : List (Option String × Json)} (filled : fs ≠ [])
    (keys : ∀ f ∈ fs, f.1.isSome = true) (values : ∀ f ∈ fs, Layout (.value f.2) (compact f.2)) :
    Layout (.fields fs) (compactFields fs ++ ['\x7d']) := by
  match fs, filled, keys, values with
  | [(some k, v)], _, _, values =>
    simpa [compactFields, renderText] using
      Layout.lastField allSpace_nil allSpace_nil (values (some k, v) (by simp)) allSpace_nil
  | (some k, v) :: f :: rest, _, keys, values =>
    have ih := layout_compactFields (List.cons_ne_nil f rest) (fun g hg => keys g (by simp [hg]))
      fun g hg => values g (by simp [hg])
    simpa [compactFields, renderText] using
      Layout.field allSpace_nil allSpace_nil (values (some k, v) (by simp)) allSpace_nil ih
  | (none, v) :: rest, _, keys, _ => simpa using keys (none, v) List.mem_cons_self

lemma layout_compact {v : Json} (h : Writable v) : Layout (.value v) (compact v) := by
  induction h with
  | null => exact .null
  | bool b => exact .bool b
  | number spelled => exact .number spelled
  | text s => exact .text s
  | @array vs items ih =>
    cases vs with
    | nil => exact .noItems allSpace_nil
    | cons v vs => exact .array (layout_compactItems (by simp) ih)
  | @object fs keys values ih =>
    cases fs with
    | nil => exact .noFields allSpace_nil
    | cons f fs => exact .object (layout_compactFields (by simp) keys ih)

/-! ### Several lines -/

lemma layout_prettyItems {level : Nat} {b : List Char} (blank : AllSpace b) {vs : List Json}
    (filled : vs ≠ []) (items : ∀ v ∈ vs, Layout (.value v) (pretty level v)) :
    Layout (.items vs) (prettyItems level vs ++ b ++ [']']) := by
  match vs, filled, items with
  | [v], _, items =>
    have value := (items v (by simp)).spaces (allSpace_newline level)
    simpa [prettyItems] using Layout.lastItem value blank
  | v :: w :: rest, _, items =>
    have value := (items v (by simp)).spaces (allSpace_newline level)
    have ih := layout_prettyItems blank (List.cons_ne_nil w rest) fun u hu =>
      items u (by simp [hu])
    simpa [prettyItems] using Layout.item value allSpace_nil ih

lemma layout_prettyFields {level : Nat} {b : List Char} (blank : AllSpace b)
    {fs : List (Option String × Json)} (filled : fs ≠ []) (keys : ∀ f ∈ fs, f.1.isSome = true)
    (values : ∀ f ∈ fs, Layout (.value f.2) (pretty level f.2)) :
    Layout (.fields fs) (prettyFields level fs ++ b ++ ['\x7d']) := by
  have line := allSpace_newline level
  match fs, filled, keys, values with
  | [(some k, v)], _, _, values =>
    have value := Layout.space (c := ' ') (by decide) (values (some k, v) (by simp))
    simpa [prettyFields, renderText] using Layout.lastField line allSpace_nil value blank
  | (some k, v) :: f :: rest, _, keys, values =>
    have value := Layout.space (c := ' ') (by decide) (values (some k, v) (by simp))
    have ih := layout_prettyFields blank (List.cons_ne_nil f rest)
      (fun g hg => keys g (by simp [hg])) fun g hg => values g (by simp [hg])
    simpa [prettyFields, renderText] using Layout.field line allSpace_nil value allSpace_nil ih
  | (none, v) :: rest, _, keys, _ => simpa using keys (none, v) List.mem_cons_self

lemma layout_pretty {v : Json} (h : Writable v) (level : Nat) :
    Layout (.value v) (pretty level v) := by
  induction h generalizing level with
  | null => exact .null
  | bool b => exact .bool b
  | number spelled => exact .number spelled
  | text s => exact .text s
  | @array vs items ih =>
    cases vs with
    | nil => exact .noItems allSpace_nil
    | cons v vs =>
      exact .array (layout_prettyItems (allSpace_newline level) (by simp) fun w hw => ih w hw _)
  | @object fs keys values ih =>
    cases fs with
    | nil => exact .noFields allSpace_nil
    | cons f fs =>
      exact .object (layout_prettyFields (allSpace_newline level) (by simp) keys fun g hg =>
        ih g hg _)

/-! ### Reading back -/

lemma readValue_of_layout {v : Json} {cs : List Char} (h : Layout (.value v) cs) {fuel : Nat}
    (enough : 2 * cs.length ≤ fuel) : readValue (fuel + 1) cs = some (v, []) := by
  have reads := h.reads enough endsNumber_nil
  rw [List.append_nil] at reads
  exact reads

lemma ofText?_of_layout {v : Json} {cs : List Char} (h : Layout (.value v) cs) :
    ofText? (String.ofList cs) = some v := by
  have read := readValue_of_layout h (Nat.le_succ (2 * cs.length))
  rw [ofText?, String.toList_ofList]
  exact Option.bind_eq_some_iff.mpr ⟨_, read, if_pos rfl⟩

theorem ofText?_compactText {v : Json} (h : Writable v) : ofText? v.compactText = some v :=
  ofText?_of_layout (layout_compact h)

theorem ofText?_prettyText {v : Json} (h : Writable v) : ofText? v.prettyText = some v :=
  ofText?_of_layout (layout_pretty h 0)

end FeatureBatch.Json
