/-!
Blank characters, those with the Unicode property White_Space, and what trimming and splitting
by them means. Everything works on lists of characters, so that the usual list lemmas apply.
-/

namespace FeatureBatch.Text

/-- The characters with the property White_Space. -/
def isBlank (c : Char) : Bool :=
  let n := c.toNat
  (9 ≤ n && n ≤ 13) || n == 0x20 || n == 0x85 || n == 0xA0 || n == 0x1680 ||
    (0x2000 ≤ n && n ≤ 0x200A) || n == 0x2028 || n == 0x2029 || n == 0x202F || n == 0x205F ||
    n == 0x3000

def trimStart (s : List Char) : List Char := s.dropWhile isBlank

def trimEnd (s : List Char) : List Char := (s.reverse.dropWhile isBlank).reverse

def trim (s : List Char) : List Char := trimEnd (trimStart s)

/-- The text holds no character but blank ones. -/
def allBlank (s : List Char) : Bool := s.all isBlank

/-- The longest pieces without a blank character. -/
def words (s : List Char) : List (List Char) := (s.splitOnP isBlank).filter fun w => !w.isEmpty

/-- Small letters for the capital letters A to Z, all else as it is. -/
def foldAscii (s : List Char) : List Char := s.map Char.toLower

/-- A line without the carriage return at its end. -/
def dropReturn (line : List Char) : List Char :=
  if line.getLast? = some '\r' then line.dropLast else line

/-- The lines of a text. A line feed ends a line, with the carriage return before it if there is
one; what stands after the last line feed is a line only if it is not empty. -/
def lines (s : List Char) : List (List Char) :=
  let parts := s.splitOn '\n'
  parts.dropLast.map dropReturn ++ parts.getLast?.toList.filter fun line => !line.isEmpty

end FeatureBatch.Text
