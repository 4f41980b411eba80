import Mathlib.Data.List.Basic
import Mathlib.Tactic.Common
import FeatureBatch.Number.Hexadecimal
import FeatureBatch.Proofs.Text.Utf8

/-!
Well-formed documents of XML 1.0, by the productions of its grammar, for documents without a document
type declaration; such documents refer to no entities but the five predefined ones. A well-formed
document has none but the characters that the production of characters allows.
-/

namespace FeatureBatch.Xml

/-! ### Characters and names -/

/-- The character is in one of these ranges. -/
def Within (ranges : List (Nat × Nat)) (n : Nat) : Prop := ∃ range ∈ ranges, range.1 ≤ n ∧ n ≤ range.2

instance (ranges : List (Nat × Nat)) (n : Nat) : Decidable (Within ranges n) :=
  inferInstanceAs (Decidable (∃ range ∈ ranges, range.1 ≤ n ∧ n ≤ range.2))

/-- The numbers of the characters that a document may have. -/
def charRanges : List (Nat × Nat) :=
  [(0x9, 0xA), (0xD, 0xD), (0x20, 0xD7FF), (0xE000, 0xFFFD), (0x10000, 0x10FFFF)]

def IsChar (c : Char) : Prop := Within charRanges c.toNat

instance : DecidablePred IsChar := fun c => inferInstanceAs (Decidable (Within charRanges c.toNat))

def IsSpace (c : Char) : Prop := c ∈ [' ', '\t', '\r', '\n']

instance : DecidablePred IsSpace := fun c => inferInstanceAs (Decidable (c ∈ _))

/-- Letters, and a few other characters. -/
def nameStartRanges : List (Nat × Nat) :=
  [(0x3A, 0x3A), (0x41, 0x5A), (0x5F, 0x5F), (0x61, 0x7A), (0xC0, 0xD6), (0xD8, 0xF6), (0xF8, 0x2FF),
    (0x370, 0x37D), (0x37F, 0x1FFF), (0x200C, 0x200D), (0x2070, 0x218F), (0x2C00, 0x2FEF),
    (0x3001, 0xD7FF), (0xF900, 0xFDCF), (0xFDF0, 0xFFFD), (0x10000, 0xEFFFF)]

/-- What may follow in a name besides. -/
def nameRanges : List (Nat × Nat) :=
  [(0x2D, 0x2E), (0x30, 0x39), (0xB7, 0xB7), (0x300, 0x36F), (0x203F, 0x2040)]

def IsName : List Char → Prop
  | [] => False
  | first :: rest => Within nameStartRanges first.toNat ∧
      ∀ c ∈ rest, Within (nameStartRanges ++ nameRanges) c.toNat

-- goes through the list: Mathlib would go through all the characters there are
instance : DecidablePred IsName
  | [] => instDecidableFalse
  | first :: rest =>
    have : Decidable (∀ c ∈ rest, Within (nameStartRanges ++ nameRanges) c.toNat) :=
      List.decidableBAll _ rest
    inferInstanceAs (Decidable (Within nameStartRanges first.toNat ∧ _))

/-- Spaces, or nothing. -/
def Blank (s : List Char) : Prop := ∀ c ∈ s, IsSpace c

instance : DecidablePred Blank := fun s => List.decidableBAll _ s

def IsQuote (c : Char) : Prop := c = '"' ∨ c = Char.ofNat 39

/-- A text of characters that a document may have. -/
def Legal (s : List Char) : Prop := ∀ c ∈ s, IsChar c

instance : DecidablePred Legal := fun s => List.decidableBAll _ s

/-! ### References, attributes and tags -/

/-- An entity that is predefined, or a character by its number. -/
inductive IsReference : List Char → Prop
  | entity {name : String} (predefined : name ∈ ["amp", "lt", "gt", "quot", "apos"]) :
      IsReference ('&' :: name.toList ++ [';'])
  | decimal {digits : List Char} (some : digits ≠ []) (all : ∀ c ∈ digits, c.isDigit)
      (char : Within charRanges (Nat.ofDigitChars 10 digits 0)) :
      IsReference ('&' :: '#' :: digits ++ [';'])
  | hexadecimal {digits : List Char} {n : Nat} (some : digits ≠ [])
      (all : ∀ c ∈ digits, (Hexadecimal.value c).isSome)
      (number : Hexadecimal.ofDigits? digits = Option.some n) (char : Within charRanges n) :
      IsReference ('&' :: '#' :: 'x' :: digits ++ [';'])

/-- What stands between the quotes of an attribute. -/
inductive IsValue (quote : Char) : List Char → Prop
  | nil : IsValue quote []
  | char {c : Char} {rest : List Char} (char : IsChar c) (plain : c ≠ '<' ∧ c ≠ '&' ∧ c ≠ quote)
      (further : IsValue quote rest) : IsValue quote (c :: rest)
  | reference {r rest : List Char} (h : IsReference r) (further : IsValue quote rest) :
      IsValue quote (r ++ rest)

/-- Attributes of different names, each after a space. -/
inductive Attributes : List (List Char) → List Char → Prop
  | nil : Attributes [] []
  | cons {names : List (List Char)} {space name before after value rest : List Char} {quote : Char}
      (apart : space ≠ [] ∧ Blank space) (isName : IsName name) (new : name ∉ names)
      (blank : Blank before ∧ Blank after) (isQuote : IsQuote quote) (isValue : IsValue quote value)
      (further : Attributes names rest) :
      Attributes (name :: names)
        (space ++ name ++ before ++ '=' :: after ++ quote :: value ++ quote :: rest)

/-- A tag from its bracket up to what ends it. -/
structure TagStart (name text : List Char) : Prop where
  isName : IsName name
  spelled : ∃ names attributes space, Attributes names attributes ∧ Blank space ∧
    text = '<' :: name ++ attributes ++ space

def StartTag (name text : List Char) : Prop := ∃ start, TagStart name start ∧ text = start ++ ['>']

def EmptyTag (name text : List Char) : Prop :=
  ∃ start, TagStart name start ∧ text = start ++ ['/', '>']

def EndTag (name text : List Char) : Prop :=
  ∃ space, Blank space ∧ text = '<' :: '/' :: name ++ space ++ ['>']

/-! ### Content -/

def IsComment (text : List Char) : Prop :=
  ∃ body, Legal body ∧ ¬ "--".toList <:+: body ∧ body.getLast? ≠ some '-' ∧
    text = "<!--".toList ++ body ++ "-->".toList

/-- An instruction to whoever processes the document. -/
def IsInstruction (text : List Char) : Prop :=
  ∃ target content, IsName target ∧ target.map Char.toLower ≠ "xml".toList ∧ Legal content ∧
    (∀ c ∈ content.head?, IsSpace c) ∧ ¬ "?>".toList <:+: content ∧
    text = "<?".toList ++ target ++ content ++ "?>".toList

/-- Text in which nothing is markup. -/
def IsUnparsed (text : List Char) : Prop :=
  ∃ body, Legal body ∧ ¬ "]]>".toList <:+: body ∧
    text = "<![CDATA[".toList ++ body ++ "]]>".toList

/-- What stands between the tags of an element. -/
inductive Content : List Char → Prop
  | nil : Content []
  | char {c : Char} {rest : List Char} (char : IsChar c) (plain : c ≠ '<' ∧ c ≠ '&')
      (inside : ¬ "]]>".toList <+: c :: rest) (further : Content rest) : Content (c :: rest)
  | reference {r rest : List Char} (h : IsReference r) (further : Content rest) : Content (r ++ rest)
  | comment {r rest : List Char} (h : IsComment r) (further : Content rest) : Content (r ++ rest)
  | instruction {r rest : List Char} (h : IsInstruction r) (further : Content rest) :
      Content (r ++ rest)
  | unparsed {r rest : List Char} (h : IsUnparsed r) (further : Content rest) : Content (r ++ rest)
  | empty {name tag rest : List Char} (h : EmptyTag name tag) (further : Content rest) :
      Content (tag ++ rest)
  | element {name start inside stop rest : List Char} (opens : StartTag name start)
      (content : Content inside) (closes : EndTag name stop) (further : Content rest) :
      Content (start ++ inside ++ stop ++ rest)

/-! ### Documents -/

/-- A part of the declaration that a document may begin with. -/
def DeclarationPart (name : String) (allowed : List Char → Prop) (text : List Char) : Prop :=
  ∃ space before after quote value, (space ≠ [] ∧ Blank space) ∧ (Blank before ∧ Blank after) ∧
    IsQuote quote ∧ allowed value ∧
    text = space ++ name.toList ++ before ++ '=' :: after ++ quote :: value ++ [quote]

def IsVersion (s : List Char) : Prop :=
  ∃ digits, digits ≠ [] ∧ (∀ c ∈ digits, c.isDigit) ∧ s = '1' :: '.' :: digits

def IsEncoding (s : List Char) : Prop :=
  ∃ first rest, first.isAlpha ∧ (∀ c ∈ rest, c.isAlphanum ∨ c ∈ ['.', '_', '-']) ∧ s = first :: rest

def Declaration (text : List Char) : Prop :=
  ∃ version encoding alone space, DeclarationPart "version" IsVersion version ∧
    (encoding = [] ∨ DeclarationPart "encoding" IsEncoding encoding) ∧
    (alone = [] ∨ DeclarationPart "standalone" (· ∈ ["yes".toList, "no".toList]) alone) ∧
    Blank space ∧ text = "<?xml".toList ++ version ++ encoding ++ alone ++ space ++ "?>".toList

/-- What may stand before and after the element of a document. -/
inductive Misc : List Char → Prop
  | nil : Misc []
  | space {c : Char} {rest : List Char} (h : IsSpace c) (further : Misc rest) : Misc (c :: rest)
  | comment {r rest : List Char} (h : IsComment r) (further : Misc rest) : Misc (r ++ rest)
  | instruction {r rest : List Char} (h : IsInstruction r) (further : Misc rest) : Misc (r ++ rest)

inductive IsElement : List Char → Prop
  | empty {name tag : List Char} (h : EmptyTag name tag) : IsElement tag
  | element {name start inside stop : List Char} (opens : StartTag name start)
      (content : Content inside) (closes : EndTag name stop) : IsElement (start ++ inside ++ stop)

/-- One element, perhaps after a declaration, and no more than comments, instructions and spaces
around it. -/
def WellFormed (text : List Char) : Prop :=
  ∃ declaration before root after, (declaration = [] ∨ Declaration declaration) ∧ Misc before ∧
    IsElement root ∧ Misc after ∧ text = declaration ++ before ++ root ++ after

/-! ### The characters of well-formed documents -/

@[simp] lemma legal_nil : Legal [] := List.forall_mem_nil _

@[simp] lemma legal_cons {c : Char} {s : List Char} : Legal (c :: s) ↔ IsChar c ∧ Legal s :=
  List.forall_mem_cons

@[simp] lemma legal_append {s t : List Char} : Legal (s ++ t) ↔ Legal s ∧ Legal t :=
  List.forall_mem_append

lemma isChar_of_le {c : Char} (low : 0x20 ≤ c.toNat) (high : c.toNat ≤ 0xD7FF) : IsChar c :=
  ⟨(0x20, 0xD7FF), by simp [charRanges], low, high⟩

lemma isSpace_iff {c : Char} : IsSpace c ↔ c = ' ' ∨ c = '\t' ∨ c = '\r' ∨ c = '\n' := by
  simp [IsSpace]

lemma IsSpace.isChar {c : Char} (h : IsSpace c) : IsChar c := by
  rcases isSpace_iff.mp h with rfl | rfl | rfl | rfl <;> decide

lemma Blank.legal {s : List Char} (h : Blank s) : Legal s := fun c mem => (h c mem).isChar

lemma IsQuote.isChar {c : Char} (h : IsQuote c) : IsChar c := by
  rcases h with rfl | rfl <;> decide

lemma isChar_of_within {ranges : List (Nat × Nat)} {c : Char} (h : Within ranges c.toNat)
    (inside : ∀ range ∈ ranges, ∃ all ∈ charRanges, all.1 ≤ range.1 ∧ range.2 ≤ all.2) :
    IsChar c := by
  obtain ⟨range, mem, low, high⟩ := h
  obtain ⟨all, there, below, above⟩ := inside range mem
  exact ⟨all, there, Nat.le_trans below low, Nat.le_trans high above⟩

lemma IsName.legal {s : List Char} (h : IsName s) : Legal s := by
  cases s with
  | nil => exact h.elim
  | cons first rest =>
    refine legal_cons.mpr ⟨isChar_of_within h.1 (by decide), fun c mem => ?_⟩
    exact isChar_of_within (h.2 c mem) (by decide)

lemma isChar_of_isAlphanum {c : Char} (h : c.isAlphanum) : IsChar c := by
  obtain ⟨low, high⟩ := Text.bounds_of_isAlphanum h
  exact isChar_of_le (by omega) (by omega)

lemma isChar_of_isDigit {c : Char} (h : c.isDigit) : IsChar c :=
  isChar_of_isAlphanum (by simp [Char.isAlphanum, h])

lemma isChar_of_value {c : Char} (h : (Hexadecimal.value c).isSome) : IsChar c := by
  have between {low high : Char} (inside : low ≤ c ∧ c ≤ high) (below : 0x20 ≤ low.toNat)
      (above : high.toNat ≤ 0xD7FF) : IsChar c :=
    isChar_of_le (Nat.le_trans below inside.1) (Nat.le_trans inside.2 above)
  unfold Hexadecimal.value at h
  split_ifs at h with digit small capital
  · exact isChar_of_isDigit digit
  · exact between small (by decide) (by decide)
  · exact between capital (by decide) (by decide)
  · cases h

lemma IsReference.legal {s : List Char} (h : IsReference s) : Legal s := by
  have ends : IsChar '&' ∧ IsChar '#' ∧ IsChar 'x' ∧ IsChar ';' := by decide
  cases h with
  | entity predefined =>
    simp only [List.mem_cons, List.not_mem_nil, or_false] at predefined
    rcases predefined with rfl | rfl | rfl | rfl | rfl <;> decide
  | decimal some all char =>
    have digits : Legal _ := fun c mem => isChar_of_isDigit (all c mem)
    simp [ends, digits]
  | hexadecimal some all number char =>
    have digits : Legal _ := fun c mem => isChar_of_value (all c mem)
    simp [ends, digits]

lemma IsValue.legal {quote : Char} {s : List Char} (h : IsValue quote s) : Legal s := by
  induction h with
  | nil => exact legal_nil
  | char char _ _ ih => exact legal_cons.mpr ⟨char, ih⟩
  | reference h _ ih => exact legal_append.mpr ⟨h.legal, ih⟩

lemma Attributes.legal {names : List (List Char)} {s : List Char} (h : Attributes names s) :
    Legal s := by
  induction h with
  | nil => exact legal_nil
  | cons apart isName new blank isQuote isValue further ih =>
    have equals : IsChar '=' := by decide
    simp [apart.2.legal, isName.legal, blank.1.legal, blank.2.legal, isQuote.isChar, isValue.legal,
      equals, ih]

lemma TagStart.legal {name s : List Char} (h : TagStart name s) : Legal s := by
  obtain ⟨isName, names, attributes, space, spelled, blank, rfl⟩ := h
  have bracket : IsChar '<' := by decide
  simp [isName.legal, spelled.legal, blank.legal, bracket]

lemma StartTag.legal {name s : List Char} (h : StartTag name s) : Legal s := by
  obtain ⟨start, tag, rfl⟩ := h
  exact legal_append.mpr ⟨tag.legal, by decide⟩

lemma EmptyTag.legal {name s : List Char} (h : EmptyTag name s) : Legal s := by
  obtain ⟨start, tag, rfl⟩ := h
  exact legal_append.mpr ⟨tag.legal, by decide⟩

lemma EndTag.legal {name s : List Char} (isName : IsName name) (h : EndTag name s) : Legal s := by
  obtain ⟨space, blank, rfl⟩ := h
  have brackets : IsChar '<' ∧ IsChar '/' ∧ IsChar '>' := by decide
  simp [isName.legal, blank.legal, brackets]

lemma StartTag.isName {name s : List Char} (h : StartTag name s) : IsName name := by
  obtain ⟨start, tag, -⟩ := h
  exact tag.isName

lemma IsComment.legal {s : List Char} (h : IsComment s) : Legal s := by
  obtain ⟨body, legal, -, -, rfl⟩ := h
  exact legal_append.mpr ⟨legal_append.mpr ⟨by decide, legal⟩, by decide⟩

lemma IsInstruction.legal {s : List Char} (h : IsInstruction s) : Legal s := by
  obtain ⟨target, content, isName, -, legal, -, -, rfl⟩ := h
  exact legal_append.mpr ⟨legal_append.mpr ⟨legal_append.mpr ⟨by decide, isName.legal⟩, legal⟩,
    by decide⟩

lemma IsUnparsed.legal {s : List Char} (h : IsUnparsed s) : Legal s := by
  obtain ⟨body, legal, -, rfl⟩ := h
  exact legal_append.mpr ⟨legal_append.mpr ⟨by decide, legal⟩, by decide⟩

lemma Content.legal {s : List Char} (h : Content s) : Legal s := by
  induction h with
  | nil => exact legal_nil
  | char char _ _ _ ih => exact legal_cons.mpr ⟨char, ih⟩
  | reference h _ ih => exact legal_append.mpr ⟨h.legal, ih⟩
  | comment h _ ih => exact legal_append.mpr ⟨h.legal, ih⟩
  | instruction h _ ih => exact legal_append.mpr ⟨h.legal, ih⟩
  | unparsed h _ ih => exact legal_append.mpr ⟨h.legal, ih⟩
  | empty h _ ih => exact legal_append.mpr ⟨h.legal, ih⟩
  | element opens _ closes _ inside after =>
    simp [opens.legal, closes.legal opens.isName, inside, after]

lemma Misc.legal {s : List Char} (h : Misc s) : Legal s := by
  induction h with
  | nil => exact legal_nil
  | space h _ ih => exact legal_cons.mpr ⟨h.isChar, ih⟩
  | comment h _ ih => exact legal_append.mpr ⟨h.legal, ih⟩
  | instruction h _ ih => exact legal_append.mpr ⟨h.legal, ih⟩

lemma IsElement.legal {s : List Char} (h : IsElement s) : Legal s := by
  cases h with
  | empty h => exact h.legal
  | element opens content closes =>
    simp [opens.legal, content.legal, closes.legal opens.isName]

lemma DeclarationPart.legal {name : String} {allowed : List Char → Prop} {s : List Char}
    (plain : Legal name.toList) (legal : ∀ value, allowed value → Legal value)
    (h : DeclarationPart name allowed s) : Legal s := by
  obtain ⟨space, before, after, quote, value, apart, blank, isQuote, isValue, rfl⟩ := h
  have equals : IsChar '=' := by decide
  simp [apart.2.legal, plain, blank.1.legal, blank.2.legal, isQuote.isChar, legal value isValue,
    equals]

lemma IsVersion.legal {s : List Char} (h : IsVersion s) : Legal s := by
  obtain ⟨digits, -, all, rfl⟩ := h
  have start : IsChar '1' ∧ IsChar '.' := by decide
  have digits : Legal digits := fun c mem => isChar_of_isDigit (all c mem)
  simp [start, digits]

lemma IsEncoding.legal {s : List Char} (h : IsEncoding s) : Legal s := by
  obtain ⟨first, rest, alpha, all, rfl⟩ := h
  refine legal_cons.mpr ⟨isChar_of_isAlphanum (by simp [Char.isAlphanum, alpha]), fun c mem => ?_⟩
  rcases all c mem with alphanum | other
  · exact isChar_of_isAlphanum alphanum
  · simp only [List.mem_cons, List.not_mem_nil, or_false] at other
    rcases other with rfl | rfl | rfl <;> decide

lemma Declaration.legal {s : List Char} (h : Declaration s) : Legal s := by
  obtain ⟨version, encoding, alone, space, versions, encodings, standalone, blank, rfl⟩ := h
  have first : Legal version := versions.legal (by decide) fun _ => IsVersion.legal
  have second : Legal encoding := by
    rcases encodings with rfl | part
    · exact legal_nil
    · exact part.legal (by decide) fun _ => IsEncoding.legal
  have third : Legal alone := by
    rcases standalone with rfl | part
    · exact legal_nil
    · refine part.legal (by decide) fun value mem => ?_
      simp only [List.mem_cons, List.not_mem_nil, or_false] at mem
      rcases mem with rfl | rfl <;> decide
  simp only [legal_append]
  exact ⟨⟨⟨⟨⟨by decide, first⟩, second⟩, third⟩, blank.legal⟩, by decide⟩

theorem WellFormed.legal {s : List Char} (h : WellFormed s) : Legal s := by
  obtain ⟨declaration, before, root, after, declared, misc, element, misc', rfl⟩ := h
  have first : Legal declaration := by
    rcases declared with rfl | part
    · exact legal_nil
    · exact part.legal
  simp [first, misc.legal, element.legal, misc'.legal]

end FeatureBatch.Xml
