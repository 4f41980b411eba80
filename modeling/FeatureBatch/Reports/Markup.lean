/-!
Documents with tags, as lists of tokens. Values of attributes and text are escaped by the five
predefined entities, so that no text can begin or end a tag or a value.
-/

namespace FeatureBatch

/-- An attribute of a tag. -/
structure Attribute where
  name : String
  value : String
  deriving DecidableEq, Repr

inductive MarkupToken where
  /-- What stands between the angle brackets is written as it is. -/
  | declaration (body : String)
  | opening (name : String) (attributes : List Attribute)
  /-- An element without content. -/
  | empty (name : String) (attributes : List Attribute)
  | closing (name : String)
  | text (s : String)
  deriving DecidableEq, Repr

namespace Markup

def escapeChar (c : Char) : List Char :=
  if c = '&' then "&amp;".toList
  else if c = '<' then "&lt;".toList
  else if c = '>' then "&gt;".toList
  else if c = '"' then "&quot;".toList
  else if c.toNat = 39 then "&apos;".toList
  else [c]

def escape (s : List Char) : List Char := s.flatMap escapeChar

def renderAttribute (a : Attribute) : List Char :=
  ' ' :: a.name.toList ++ '=' :: '"' :: escape a.value.toList ++ ['"']

def renderToken : MarkupToken → List Char
  | .declaration body => '<' :: body.toList ++ ['>']
  | .opening name attributes => '<' :: name.toList ++ attributes.flatMap renderAttribute ++ ['>']
  | .empty name attributes => '<' :: name.toList ++ attributes.flatMap renderAttribute ++ ['/', '>']
  | .closing name => '<' :: '/' :: name.toList ++ ['>']
  | .text s => escape s.toList

/-- The document as text. -/
def render (tokens : List MarkupToken) : List Char := tokens.flatMap renderToken

end Markup

end FeatureBatch
