import FeatureBatch.Text.Blank

/-!
Choosing scenarios by their tags. A selector is a list of expressions, all of which have to be
satisfied. The alternatives of an expression are separated by commas, and one has to be satisfied:
`@a` where the tag is there, `~@a` where it is not. Blanks around a tag and a missing `@` before it
make no difference, and alternatives without a tag are no alternatives.
-/

namespace FeatureBatch

open Text

/-- A tag without blanks around it and with an `@` before it. -/
def canonicalTag (tag : List Char) : List Char :=
  let tag := trim tag
  if tag.head? = some '@' then tag else '@' :: tag

/-- A tag that has to be there, or one that must not. -/
structure TagAlternative where
  tag : List Char
  negated : Bool
  deriving DecidableEq, Repr

namespace TagAlternative

/-- The alternative that a text spells, unless it names no tag. -/
def ofText? (raw : List Char) : Option TagAlternative :=
  let (negated, tag) := match trim raw with
    | '~' :: rest => (true, trim rest)
    | cs => (false, cs)
  if tag = [] ∨ tag = ['@'] then none else some ⟨canonicalTag tag, negated⟩

/-- The alternative is satisfied by these tags. -/
def satisfied (alt : TagAlternative) (tags : List (List Char)) : Bool :=
  tags.contains alt.tag != alt.negated

def render (alt : TagAlternative) : List Char := if alt.negated then '~' :: alt.tag else alt.tag

end TagAlternative

/-- A selector: clauses of which all have to hold, each a list of alternatives. -/
structure TagSelector where
  clauses : List (List TagAlternative)
  deriving DecidableEq, Repr

namespace TagSelector

/-- The selector that takes everything. -/
def any : TagSelector := ⟨[]⟩

def clauseOfText (expression : List Char) : List TagAlternative :=
  (expression.splitOn ',').filterMap TagAlternative.ofText?

/-- The selector of a list of expressions; one without alternatives does not count. -/
def parse (expressions : List String) : TagSelector :=
  ⟨(expressions.map fun e => clauseOfText e.toList).filter fun clause => !clause.isEmpty⟩

def isEmpty (s : TagSelector) : Bool := s.clauses.isEmpty

/-- Every clause has an alternative that the tags satisfy. -/
def accepts (s : TagSelector) (tags : List String) : Bool :=
  let tags := tags.map fun t => canonicalTag t.toList
  s.clauses.all fun clause => clause.any fun alt => alt.satisfied tags

def renderClause (clause : List TagAlternative) : List Char :=
  List.intercalate [','] (clause.map TagAlternative.render)

/-- The selector as text: `*` if it takes everything, else its clauses with `&&` between them. -/
def render (s : TagSelector) : String :=
  if s.isEmpty then "*"
  else String.ofList (List.intercalate [' ', '&', '&', ' '] (s.clauses.map renderClause))

end TagSelector

end FeatureBatch
