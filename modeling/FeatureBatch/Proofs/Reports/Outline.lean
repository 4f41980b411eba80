import FeatureBatch.Proofs.Reports.Reading

/-!
What there is in a document besides its texts: the outline of a document has its elements, nested as
they are, with the names of their attributes. Text does not show in an outline, so that documents
which differ only in texts have the same one.
-/

namespace FeatureBatch.Markup

namespace Node

def isElement : Node → Bool
  | .element _ _ _ => true
  | _ => false

mutual

/-- The characters in a node, without the tags around them. -/
def text : Node → List Char
  | .element _ _ children => texts children
  | .char c => [c]
  | .declaration _ => []

def texts : List Node → List Char
  | [] => []
  | n :: ns => n.text ++ texts ns

end

mutual

/-- The node without characters, and with nothing in its attributes. -/
def bare : Node → List Node
  | .element name attributes children =>
    [.element name (attributes.map fun a => ⟨a.name, ""⟩) (outline children)]
  | .char _ => []
  | .declaration body => [.declaration body]

def outline : List Node → List Node
  | [] => []
  | n :: ns => n.bare ++ outline ns

end

attribute [simp] texts text

-- Lemmas, and not the definitions for `simp`, which would leave it to the kernel to unfold the
-- outline of a whole document; that takes it seconds.

@[simp] lemma bare_element (name : String) (attributes : List Attribute) (children : List Node) :
    bare (.element name attributes children) =
      [.element name (attributes.map fun a => ⟨a.name, ""⟩) (outline children)] := by
  rw [bare]

@[simp] lemma bare_char (c : Char) : bare (.char c) = [] := by
  rw [bare]

@[simp] lemma bare_declaration (body : String) : bare (.declaration body) = [.declaration body] := by
  rw [bare]

@[simp] lemma outline_nil : outline [] = [] := by
  rw [outline]

@[simp] lemma outline_cons (n : Node) (ns : List Node) :
    outline (n :: ns) = n.bare ++ outline ns := by
  rw [outline]

@[simp] lemma texts_chars (s : String) : texts (chars s) = s.toList := by
  rw [chars]
  induction s.toList with
  | nil => rfl
  | cons c cs ih => simp [ih]

lemma outline_eq_flatMap (ns : List Node) : outline ns = ns.flatMap bare := by
  induction ns with
  | nil => rfl
  | cons n ns ih => rw [outline, ih, List.flatMap_cons]

@[simp] lemma outline_append (ns ms : List Node) :
    outline (ns ++ ms) = outline ns ++ outline ms := by
  simp [outline_eq_flatMap]

@[simp] lemma outline_flatMap {α : Type} (xs : List α) (nodes : α → List Node) :
    outline (xs.flatMap nodes) = xs.flatMap fun x => outline (nodes x) := by
  simp [outline_eq_flatMap, List.flatMap_assoc]

@[simp] lemma outline_map {α : Type} (xs : List α) (node : α → Node) :
    outline (xs.map node) = xs.flatMap fun x => (node x).bare := by
  rw [outline_eq_flatMap, List.flatMap_map]

@[simp] lemma outline_chars (s : String) : outline (chars s) = [] := by
  simp [outline_eq_flatMap, chars, List.flatMap_eq_nil_iff]

end Node

/-- The characters in a node as a text. -/
def Node.label (n : Node) : String := String.ofList n.text

@[simp] lemma Node.label_element (name : String) (attributes : List Attribute) (s : String) :
    (Node.element name attributes (chars s)).label = s := by
  rw [label, text, texts_chars, String.ofList_toList]

/-- The elements among nodes. -/
def elements (nodes : List Node) : List Node := nodes.filter Node.isElement

@[simp] lemma elements_nil : elements [] = [] := rfl

@[simp] lemma elements_cons (n : Node) (ns : List Node) :
    elements (n :: ns) = if n.isElement then n :: elements ns else elements ns := List.filter_cons

@[simp] lemma elements_append (ns ms : List Node) :
    elements (ns ++ ms) = elements ns ++ elements ms :=
  List.filter_append ns ms

@[simp] lemma elements_chars (s : String) : elements (chars s) = [] := by
  simp [elements, chars, Node.isElement]

@[simp] lemma elements_flatMap {α : Type} (xs : List α) (nodes : α → List Node) :
    elements (xs.flatMap nodes) = xs.flatMap fun x => elements (nodes x) := List.filter_flatMap

end FeatureBatch.Markup
