/-!
Text as bytes. Writing is total; reading is either strict, or puts the replacement character
where the bytes are not text: one for each longest run of bytes that begins a character and
does not finish it, and one for each byte that begins none.
-/

namespace FeatureBatch.Text

/-- The bytes of a text. -/
def utf8 (s : List Char) : List UInt8 := s.flatMap String.utf8EncodeChar

/-- What stands in a text for bytes that are no character. -/
def replacement : Char := Char.ofNat 0xFFFD

/-- The bits that a byte after the first one carries. -/
def tailBits (b : UInt8) : Nat := b.toNat - 0x80

/-- The byte lies between two others. -/
def within (lo hi : Nat) (b : UInt8) : Bool := lo ≤ b.toNat && b.toNat ≤ hi

/-- How the first byte `lead` of a longer character goes on: the number of bytes after it, and the
bounds of the first of them, which keep out long spellings, surrogates and numbers too large. -/
def leadShape (lead : UInt8) : Option (Nat × Nat × Nat) :=
  let n := lead.toNat
  if 0xC2 ≤ n && n ≤ 0xDF then some (1, 0x80, 0xBF)
  else if n == 0xE0 then some (2, 0xA0, 0xBF)
  else if n == 0xED then some (2, 0x80, 0x9F)
  else if 0xE1 ≤ n && n ≤ 0xEF then some (2, 0x80, 0xBF)
  else if n == 0xF0 then some (3, 0x90, 0xBF)
  else if 0xF1 ≤ n && n ≤ 0xF3 then some (3, 0x80, 0xBF)
  else if n == 0xF4 then some (3, 0x80, 0x8F)
  else none

/-- Reads `k` bytes of a character whose bits so far are `acc`; the first lies between `lo` and `hi`.
The answer is the character, if all are there, and what is left after those that fit. -/
def readTail (acc : Nat) : Nat → Nat → Nat → List UInt8 → Option Char × List UInt8
  | 0, _, _, rest => (some (Char.ofNat acc), rest)
  | _ + 1, _, _, [] => (none, [])
  | k + 1, lo, hi, b :: rest =>
    if within lo hi b then readTail (acc * 64 + tailBits b) k 0x80 0xBF rest else (none, b :: rest)

/-- Reads one character or one run of bytes that is none. -/
def readChar (lead : UInt8) (rest : List UInt8) : Option Char × List UInt8 :=
  if lead.toNat < 0x80 then (some (Char.ofNat lead.toNat), rest)
  else match leadShape lead with
    | none => (none, rest)
    | some (k, lo, hi) =>
      let bits := if k = 1 then lead.toNat - 0xC0 else if k = 2 then lead.toNat - 0xE0
        else lead.toNat - 0xF0
      readTail bits k lo hi rest

theorem readTail_length_le (acc k lo hi : Nat) (rest : List UInt8) :
    (readTail acc k lo hi rest).2.length ≤ rest.length := by
  induction k generalizing acc lo hi rest with
  | zero => simp [readTail]
  | succ k ih =>
    cases rest with
    | nil => simp [readTail]
    | cons b rest =>
      unfold readTail
      split
      · exact Nat.le_succ_of_le (ih _ _ _ _)
      · simp

theorem readChar_length_le (lead : UInt8) (rest : List UInt8) :
    (readChar lead rest).2.length ≤ rest.length := by
  unfold readChar
  split
  · simp
  · split
    · simp
    · exact readTail_length_le ..

/-- The characters and the runs that are none, in order. -/
def readChars : List UInt8 → List (Option Char)
  | [] => []
  | b :: rest => (readChar b rest).1 :: readChars (readChar b rest).2
termination_by bs => bs.length
decreasing_by exact Nat.lt_succ_of_le (readChar_length_le b rest)

/-- The text of the bytes, if they are text. -/
def ofUtf8? (bytes : List UInt8) : Option (List Char) := (readChars bytes).mapM id

/-- The text of the bytes, with the replacement character for what is none. -/
def ofUtf8Lossy (bytes : List UInt8) : List Char := (readChars bytes).map (·.getD replacement)

end FeatureBatch.Text
