import Mathlib.Data.List.Basic
import Mathlib.Tactic.Common
import FeatureBatch.Reports.Markup

/-!
Documents with tags, read back. A scan goes over the text once, character by character, and gives
tags, with their double-quoted attributes, and single characters; each reference by one of the five
predefined entities is the character that it stands for. The tags are then put together to elements.
Whatever the values and the text of a document are, what is read is what was rendered.
-/

namespace FeatureBatch

namespace Markup

/-! ### Scanning a text -/

/-- The character that one of the predefined entities stands for. -/
def entity? (name : List Char) : Option Char :=
  [("amp", '&'), ("lt", '<'), ("gt", '>'), ("quot", '"'), ("apos", Char.ofNat 39)].lookup
    (String.ofList name)

/-- A tag of which the name and some attributes have been read. -/
structure Tag where
  name : String
  attributes : List Attribute

def Tag.add (t : Tag) (a : Attribute) : Tag := { t with attributes := t.attributes ++ [a] }

inductive Place where
  /-- Outside the tags. -/
  | content
  /-- After an angle bracket. -/
  | bracket
  | declaration (body : List Char)
  | closing (name : List Char)
  | opening (name : List Char)
  /-- After an attribute. -/
  | inside (tag : Tag)
  | attribute (tag : Tag) (name : List Char)
  | equals (tag : Tag) (name : List Char)
  | value (tag : Tag) (name value : List Char)
  /-- After a slash that ends an element without content. -/
  | slash (tag : Tag)
  /-- In a reference, with the place that it stands at. -/
  | reference (within : Place) (entity : List Char)

structure Scan where
  place : Place
  /-- The tokens that have been read, with a token for each character of the text. -/
  seen : List MarkupToken

namespace Scan

def goTo (s : Scan) (place : Place) : Scan := { s with place }

def give (s : Scan) (t : MarkupToken) : Scan := ⟨.content, s.seen ++ [t]⟩

/-- A character that stands for itself, outside the tags or in a value. -/
def literal (s : Scan) (c : Char) : Place → Option Scan
  | .content => some (s.give (.text (.singleton c)))
  | .value tag name value => some (s.goTo (.value tag name (value ++ [c])))
  | _ => none

/-- After the name of a tag, or after one of its attributes. -/
def further (s : Scan) (tag : Tag) (c : Char) : Option Scan :=
  if c = ' ' then some (s.goTo (.attribute tag []))
  else if c = '>' then some (s.give (.opening tag.name tag.attributes))
  else if c = '/' then some (s.goTo (.slash tag))
  else none

def step (s : Scan) (c : Char) : Option Scan :=
  match s.place with
  | .content =>
    if c = '<' then some (s.goTo .bracket)
    else if c = '&' then some (s.goTo (.reference .content []))
    else s.literal c .content
  | .bracket =>
    if c = '/' then some (s.goTo (.closing []))
    else if c = '!' ∨ c = '?' then some (s.goTo (.declaration [c]))
    else if c.isAlphanum then some (s.goTo (.opening [c]))
    else none
  | .declaration body =>
    if c = '>' then some (s.give (.declaration (.ofList body)))
    else some (s.goTo (.declaration (body ++ [c])))
  | .closing name =>
    if c = '>' then some (s.give (.closing (.ofList name)))
    else if c.isAlphanum then some (s.goTo (.closing (name ++ [c])))
    else none
  | .opening name =>
    if c.isAlphanum then some (s.goTo (.opening (name ++ [c])))
    else s.further ⟨.ofList name, []⟩ c
  | .inside tag => s.further tag c
  | .attribute tag name =>
    if c = '=' then some (s.goTo (.equals tag name))
    else if c.isAlphanum then some (s.goTo (.attribute tag (name ++ [c])))
    else none
  | .equals tag name => if c = '"' then some (s.goTo (.value tag name [])) else none
  | .value tag name value =>
    if c = '"' then some (s.goTo (.inside (tag.add ⟨.ofList name, .ofList value⟩)))
    else if c = '<' then none
    else if c = '&' then some (s.goTo (.reference (.value tag name value) []))
    else s.literal c (.value tag name value)
  | .slash tag => if c = '>' then some (s.give (.empty tag.name tag.attributes)) else none
  | .reference within entity =>
    if c = ';' then (entity? entity).bind fun c => s.literal c within
    else some (s.goTo (.reference within (entity ++ [c])))

end Scan

/-- The tags and the characters of a text; none where it ends inside a tag or cannot be read. -/
def scan? (text : List Char) : Option (List MarkupToken) := do
  let s ← text.foldlM Scan.step ⟨.content, []⟩
  match s.place with
  | .content => some s.seen
  | _ => none

/-! ### Putting elements together -/

/-- Elements with what is in them, characters and declarations. -/
inductive Node where
  | element (name : String) (attributes : List Attribute) (children : List Node)
  | char (c : Char)
  | declaration (body : String)

/-- The nodes of a text. -/
def chars (s : String) : List Node := s.toList.map .char

namespace Node

def isNamed (name : String) : Node → Bool
  | .element n _ _ => n = name
  | _ => false

def children : Node → List Node
  | .element _ _ children => children
  | _ => []

/-- The value of the first attribute with a name. -/
def value? (name : String) : Node → Option String
  | .element _ attributes _ => (attributes.find? (·.name = name)).map (·.value)
  | _ => none

/-- The elements in a node that have a name. -/
def childrenNamed (n : Node) (name : String) : List Node := n.children.filter (isNamed name)

end Node

@[simp] lemma filter_isNamed_chars (name s : String) : (chars s).filter (Node.isNamed name) = [] := by
  simp [chars, Node.isNamed]

/-- An element that is not closed yet, with the nodes that stand before it. -/
structure Frame where
  name : String
  attributes : List Attribute
  before : List Node

structure Builder where
  /-- The elements that are open, the innermost first. -/
  enclosing : List Frame
  nodes : List Node

namespace Builder

def add (b : Builder) (nodes : List Node) : Builder := { b with nodes := b.nodes ++ nodes }

/-- Some elements have no content, and are never closed. -/
def step (standalone : List String) (b : Builder) : MarkupToken → Option Builder
  | .declaration body => some (b.add [.declaration body])
  | .text s => some (b.add (chars s))
  | .empty name attributes => some (b.add [.element name attributes []])
  | .opening name attributes =>
    if name ∈ standalone then some (b.add [.element name attributes []])
    else some ⟨⟨name, attributes, b.nodes⟩ :: b.enclosing, []⟩
  | .closing name =>
    match b.enclosing with
    | [] => none
    | frame :: enclosing =>
      if frame.name = name then
        some ⟨enclosing, frame.before ++ [.element name frame.attributes b.nodes]⟩
      else none

end Builder

/-- The nodes that tokens make; none where an element is not closed, or another one is. -/
def build? (standalone : List String) (tokens : List MarkupToken) : Option (List Node) := do
  let b ← tokens.foldlM (Builder.step standalone) ⟨[], []⟩
  match b.enclosing with
  | [] => some b.nodes
  | _ => none

/-- The nodes of a document. -/
def read? (standalone : List String) (text : List Char) : Option (List Node) := do
  build? standalone (← scan? text)

/-! ### What is rendered is scanned -/

/-- The scan goes over a text, from one state to another. -/
def Reads (s : Scan) (text : List Char) (s' : Scan) : Prop := text.foldlM Scan.step s = some s'

variable {s s' s'' : Scan} {seen : List MarkupToken} {tag : Tag}

lemma Reads.nil : Reads s [] s := rfl

lemma Reads.one {c : Char} (h : s.step c = some s') : Reads s [c] s' := by
  simp [Reads, h]

lemma Reads.append {text more : List Char} (h : Reads s text s') (rest : Reads s' more s'') :
    Reads s (text ++ more) s'' := by
  rw [Reads, List.foldlM_append, h]
  exact rest

lemma Reads.cons {c : Char} {text : List Char} (h : s.step c = some s') (rest : Reads s' text s'') :
    Reads s (c :: text) s'' := (Reads.one h).append rest

lemma Reads.gather {place : List Char → Place} {text : List Char}
    (h : ∀ before, ∀ c ∈ text, Scan.step ⟨place before, seen⟩ c = some ⟨place (before ++ [c]), seen⟩)
    (before : List Char) : Reads ⟨place before, seen⟩ text ⟨place (before ++ text), seen⟩ := by
  induction text generalizing before with
  | nil => simpa using Reads.nil
  | cons c text ih =>
    have rest := ih (fun before d mem => h before d (List.mem_cons_of_mem c mem)) (before ++ [c])
    rw [List.append_assoc, List.singleton_append] at rest
    exact .cons (h before c List.mem_cons_self) rest

/-- The places where text stands: an escaped character is read as the character. -/
inductive TakesText : Place → Prop where
  | content : TakesText .content
  | value (tag : Tag) (name value : List Char) : TakesText (.value tag name value)

section Escaped

variable {place : Place} {c : Char} (h : TakesText place)
  (literal : Scan.literal ⟨place, seen⟩ c place = some s')

include h literal

lemma reads_reference (name : List Char) (stands : entity? name = some c) (clean : ';' ∉ name) :
    Reads ⟨place, seen⟩ ('&' :: name ++ [';']) s' := by
  have start : Scan.step ⟨place, seen⟩ '&' = some ⟨.reference place [], seen⟩ := by
    cases h <;> rfl
  have collected : Reads ⟨.reference place [], seen⟩ name ⟨.reference place name, seen⟩ := by
    refine Reads.gather (fun before d mem => ?_) []
    have other : d ≠ ';' := by
      rintro rfl
      exact clean mem
    exact if_neg other
  refine (Reads.cons start collected).append (.one ?_)
  show (entity? name).bind _ = _
  rw [stands]
  cases h <;> exact literal

lemma reads_escapeChar : Reads ⟨place, seen⟩ (escapeChar c) s' := by
  unfold escapeChar
  split_ifs with amp lt gt quot apos
  · subst amp
    exact reads_reference h literal "amp".toList rfl (by decide)
  · subst lt
    exact reads_reference h literal "lt".toList rfl (by decide)
  · subst gt
    exact reads_reference h literal "gt".toList rfl (by decide)
  · subst quot
    exact reads_reference h literal "quot".toList rfl (by decide)
  · have apostrophe : c = Char.ofNat 39 := by rw [← apos, Char.ofNat_toNat]
    subst apostrophe
    exact reads_reference h literal "apos".toList rfl (by decide)
  · refine .one ?_
    cases h <;> simp [Scan.step, amp, lt, quot, literal]

end Escaped

lemma reads_value {tag : Tag} {name : List Char} (text before : List Char) :
    Reads ⟨.value tag name before, seen⟩ (escape text) ⟨.value tag name (before ++ text), seen⟩ := by
  induction text generalizing before with
  | nil => simpa [escape] using Reads.nil
  | cons c text ih =>
    have rest := ih (before ++ [c])
    rw [List.append_assoc, List.singleton_append] at rest
    exact (reads_escapeChar (.value tag name before) rfl).append rest

/-- The tokens that are read for a token: text is read one character at a time. -/
def single : MarkupToken → List MarkupToken
  | .text s => s.toList.map fun c => .text (.singleton c)
  | t => [t]

lemma reads_text (text : List Char) :
    Reads ⟨.content, seen⟩ (escape text)
      ⟨.content, seen ++ text.map fun c => .text (.singleton c)⟩ := by
  induction text generalizing seen with
  | nil => simpa [escape] using Reads.nil
  | cons c text ih =>
    have rest : Reads ⟨.content, seen ++ [.text (.singleton c)]⟩ (escape text) ⟨.content, _⟩ := ih
    rw [List.append_assoc, List.singleton_append] at rest
    exact (reads_escapeChar .content rfl).append rest

/-- A name of tags and attributes. -/
structure IsName (name : String) : Prop where
  ne_nil : name.toList ≠ []
  letters : ∀ c ∈ name.toList, c.isAlphanum

instance (name : String) : Decidable (IsName name) :=
  -- `List.all`, as Batteries decides what is said of all characters by going through them all
  decidable_of_iff (name.toList ≠ [] ∧ name.toList.all Char.isAlphanum)
    ⟨fun h => ⟨h.1, List.all_eq_true.mp h.2⟩, fun h => ⟨h.ne_nil, List.all_eq_true.mpr h.letters⟩⟩

/-- What can be read in any place has names for tags and attributes. -/
def IsReadable : MarkupToken → Prop
  | .declaration body => (body.toList.head? = some '!' ∨ body.toList.head? = some '?') ∧
      '>' ∉ body.toList
  | .opening name attributes | .empty name attributes =>
      IsName name ∧ ∀ a ∈ attributes, IsName a.name
  | .closing name => IsName name
  | .text _ => True

lemma ne_of_isAlphanum {c d : Char} (h : c.isAlphanum) (other : d.isAlphanum = false) : c ≠ d := by
  rintro rfl
  rw [h] at other
  cases other

/-- What can follow is a further attribute, or the end of the tag. -/
def EndsPart (tag : Tag) (place : Place) : Prop :=
  ∀ (seen : List MarkupToken) (c : Char), c.isAlphanum = false →
    Scan.step ⟨place, seen⟩ c = Scan.further ⟨place, seen⟩ tag c

lemma endsPart_opening (name : List Char) : EndsPart ⟨.ofList name, []⟩ (.opening name) := by
  intro seen c other
  simp [Scan.step, other]

lemma endsPart_inside (tag : Tag) : EndsPart tag (.inside tag) := fun _ _ _ => rfl

lemma reads_attribute {place : Place} {a : Attribute} (ends : EndsPart tag place)
    (h : IsName a.name) :
    Reads ⟨place, seen⟩ (renderAttribute a) ⟨.inside (tag.add a), seen⟩ := by
  have name : Reads ⟨.attribute tag [], seen⟩ a.name.toList ⟨.attribute tag a.name.toList, seen⟩ := by
    refine Reads.gather (fun before c mem => ?_) []
    have letter := h.letters c mem
    have other : c ≠ '=' := ne_of_isAlphanum letter rfl
    simp [Scan.step, Scan.goTo, other, letter]
  have value : Reads ⟨.value tag a.name.toList [], seen⟩ (escape a.value.toList)
      ⟨.value tag a.name.toList a.value.toList, seen⟩ := reads_value a.value.toList []
  have last : Scan.step ⟨.value tag a.name.toList a.value.toList, seen⟩ '"' =
      some ⟨.inside (tag.add a), seen⟩ := by
    simp [Scan.step, Scan.goTo]
  exact ((Reads.cons (ends seen ' ' rfl) name).append (.cons rfl (.cons rfl value))).append (.one last)

lemma reads_attributes {place : Place} {attributes : List Attribute} (ends : EndsPart tag place)
    (h : ∀ a ∈ attributes, IsName a.name) :
    ∃ place', EndsPart { tag with attributes := tag.attributes ++ attributes } place' ∧
      Reads ⟨place, seen⟩ (attributes.flatMap renderAttribute) ⟨place', seen⟩ := by
  induction attributes generalizing tag place with
  | nil => exact ⟨place, by simpa using ends, .nil⟩
  | cons a attributes ih =>
    obtain ⟨place', ends', rest⟩ := ih (endsPart_inside (tag.add a)) fun b mem =>
      h b (List.mem_cons_of_mem a mem)
    refine ⟨place', by simpa [Tag.add] using ends', ?_⟩
    exact (reads_attribute ends (h a List.mem_cons_self)).append rest

lemma reads_tag {name : String} {attributes : List Attribute} (h : IsName name)
    (named : ∀ a ∈ attributes, IsName a.name) :
    ∃ place, EndsPart ⟨name, attributes⟩ place ∧ Reads ⟨.content, seen⟩
      ('<' :: name.toList ++ attributes.flatMap renderAttribute) ⟨place, seen⟩ := by
  have letters : Reads ⟨.bracket, seen⟩ name.toList ⟨.opening name.toList, seen⟩ := by
    cases split : name.toList with
    | nil => exact absurd split h.ne_nil
    | cons first rest =>
      have letter := h.letters first (by simp [split])
      have slash : first ≠ '/' := ne_of_isAlphanum letter rfl
      have bang : first ≠ '!' := ne_of_isAlphanum letter rfl
      have question : first ≠ '?' := ne_of_isAlphanum letter rfl
      have start : Scan.step ⟨.bracket, seen⟩ first = some ⟨.opening [first], seen⟩ := by
        simp [Scan.step, Scan.goTo, slash, bang, question, letter]
      refine .cons start (Reads.gather (fun before c mem => ?_) [first])
      have := h.letters c (by simp [split, mem])
      simp [Scan.step, Scan.goTo, this]
  have start := endsPart_opening name.toList
  rw [String.ofList_toList] at start
  obtain ⟨place, ends, read⟩ := reads_attributes start named
  exact ⟨place, ends, (Reads.cons rfl letters).append read⟩

lemma reads_closing {name : String} (h : IsName name) :
    Reads ⟨.content, seen⟩ (renderToken (.closing name)) ⟨.content, seen ++ [.closing name]⟩ := by
  have letters : Reads ⟨.closing [], seen⟩ name.toList ⟨.closing name.toList, seen⟩ := by
    refine Reads.gather (fun before c mem => ?_) []
    have letter := h.letters c mem
    have other : c ≠ '>' := ne_of_isAlphanum letter rfl
    simp [Scan.step, Scan.goTo, other, letter]
  have last : Scan.step ⟨.closing name.toList, seen⟩ '>' = some ⟨.content, seen ++ [.closing name]⟩ := by
    simp [Scan.step, Scan.give]
  exact (Reads.cons rfl (.cons rfl letters)).append (.one last)

lemma reads_declaration {body : String} (h : IsReadable (.declaration body)) :
    Reads ⟨.content, seen⟩ (renderToken (.declaration body))
      ⟨.content, seen ++ [.declaration body]⟩ := by
  obtain ⟨mark, clean⟩ := h
  have inner : Reads ⟨.bracket, seen⟩ body.toList ⟨.declaration body.toList, seen⟩ := by
    cases split : body.toList with
    | nil => simp [split] at mark
    | cons first rest =>
      have start : Scan.step ⟨.bracket, seen⟩ first = some ⟨.declaration [first], seen⟩ := by
        rw [split, List.head?_cons, Option.some_inj, Option.some_inj] at mark
        rcases mark with rfl | rfl <;> rfl
      refine .cons start (Reads.gather (fun before c mem => ?_) [first])
      have other : c ≠ '>' := by
        rintro rfl
        exact clean (by simp [split, mem])
      simp [Scan.step, Scan.goTo, other]
  have last : Scan.step ⟨.declaration body.toList, seen⟩ '>' =
      some ⟨.content, seen ++ [.declaration body]⟩ := by
    simp [Scan.step, Scan.give]
  exact (Reads.cons rfl inner).append (.one last)

lemma reads_token {t : MarkupToken} (h : IsReadable t) :
    Reads ⟨.content, seen⟩ (renderToken t) ⟨.content, seen ++ single t⟩ := by
  cases t with
  | declaration body => exact reads_declaration h
  | opening name attributes =>
    obtain ⟨place, ends, read⟩ := reads_tag h.1 h.2
    exact read.append (.one (ends seen '>' rfl))
  | empty name attributes =>
    obtain ⟨place, ends, read⟩ := reads_tag h.1 h.2
    exact read.append (.cons (ends seen '/' rfl) (.one rfl))
  | closing name => exact reads_closing h
  | text s => exact reads_text s.toList

lemma reads_render {tokens : List MarkupToken} (h : ∀ t ∈ tokens, IsReadable t) :
    Reads ⟨.content, seen⟩ (render tokens) ⟨.content, seen ++ tokens.flatMap single⟩ := by
  induction tokens generalizing seen with
  | nil => simpa [render] using Reads.nil
  | cons t tokens ih =>
    have rest : Reads ⟨.content, seen ++ single t⟩ (render tokens) ⟨.content, _⟩ :=
      ih fun u mem => h u (List.mem_cons_of_mem t mem)
    rw [List.append_assoc] at rest
    exact (reads_token (h t List.mem_cons_self)).append rest

theorem scan?_render {tokens : List MarkupToken} (h : ∀ t ∈ tokens, IsReadable t) :
    scan? (render tokens) = some (tokens.flatMap single) := by
  have read : (render tokens).foldlM Scan.step ⟨.content, []⟩ = some ⟨.content, tokens.flatMap single⟩ :=
    reads_render h
  simp [scan?, read]

/-! ### What is scanned is put together -/

variable {standalone : List String}

lemma foldlM_single (b : Builder) (t : MarkupToken) :
    (single t).foldlM (Builder.step standalone) b = Builder.step standalone b t := by
  cases t with
  | text s =>
    have characters (text : List Char) (b : Builder) :
        (text.map fun c => MarkupToken.text (.singleton c)).foldlM (Builder.step standalone) b =
          some (b.add (text.map .char)) := by
      induction text generalizing b with
      | nil => simp [Builder.add]
      | cons c text ih => simp [Builder.step, ih, Builder.add, chars]
    exact characters s.toList b
  | _ => simp [single]

lemma build?_single (tokens : List MarkupToken) :
    build? standalone (tokens.flatMap single) = build? standalone tokens := by
  have together (b : Builder) : (tokens.flatMap single).foldlM (Builder.step standalone) b =
      tokens.foldlM (Builder.step standalone) b := by
    induction tokens generalizing b with
    | nil => rfl
    | cons t tokens ih =>
      rw [List.flatMap_cons, List.foldlM_append, foldlM_single, List.foldlM_cons]
      exact congrArg _ (funext ih)
  rw [build?, together]
  rfl

theorem read?_render {tokens : List MarkupToken} (h : ∀ t ∈ tokens, IsReadable t) :
    read? standalone (render tokens) = build? standalone tokens := by
  rw [read?, scan?_render h]
  exact build?_single tokens

/-- Wherever the tokens stand, they add the nodes there. -/
def Makes (standalone : List String) (tokens : List MarkupToken) (nodes : List Node) : Prop :=
  ∀ b : Builder, tokens.foldlM (Builder.step standalone) b = some (b.add nodes)

lemma Makes.build? {tokens : List MarkupToken} {nodes : List Node}
    (h : Makes standalone tokens nodes) : build? standalone tokens = some nodes := by
  rw [Markup.build?, h]
  rfl

lemma Makes.nil : Makes standalone [] [] := fun b => by simp [Builder.add]

lemma Makes.append {tokens more : List MarkupToken} {nodes others : List Node}
    (h : Makes standalone tokens nodes) (rest : Makes standalone more others) :
    Makes standalone (tokens ++ more) (nodes ++ others) := fun b => by
  rw [List.foldlM_append, h, Option.bind_eq_bind, Option.bind_some, rest]
  simp [Builder.add]

lemma Makes.flatMap {α : Type} {tokens : α → List MarkupToken} {nodes : α → List Node}
    (h : ∀ x, Makes standalone (tokens x) (nodes x)) (xs : List α) :
    Makes standalone (xs.flatMap tokens) (xs.flatMap nodes) := by
  induction xs with
  | nil => exact .nil
  | cons x xs ih => exact (h x).append ih

lemma makes_text (s : String) : Makes standalone [.text s] (chars s) := fun b => by
  simp [Builder.step]

lemma makes_declaration (body : String) :
    Makes standalone [.declaration body] [.declaration body] := fun b => by
  simp [Builder.step]

lemma makes_empty (name : String) (attributes : List Attribute) :
    Makes standalone [.empty name attributes] [.element name attributes []] := fun b => by
  simp [Builder.step]

lemma makes_element (name : String) (attributes : List Attribute) (closed : name ∉ standalone)
    {tokens : List MarkupToken} {nodes : List Node} (h : Makes standalone tokens nodes) :
    Makes standalone (.opening name attributes :: tokens ++ [.closing name])
      [.element name attributes nodes] := fun b => by
  rw [List.cons_append, List.foldlM_cons, Builder.step, if_neg closed, Option.bind_eq_bind,
    Option.bind_some, List.foldlM_append, h]
  simp [Builder.step, Builder.add]

end Markup

end FeatureBatch
