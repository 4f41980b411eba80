import Mathlib.Tactic.Common
import FeatureBatch.Text.Utf8

/-!
Strict reading of bytes as text undoes writing, and it succeeds on nothing else: bytes are read as a
text exactly if they are the bytes of this text. A byte below 128 stands for its character and for no
part of another one, whether bytes are written or read. Texts can be cut off bytes at either end, and
bytes are in the order of the characters.
-/

namespace FeatureBatch.Text

/-! ### One character -/

lemma leadShape_eq (lead : UInt8) : leadShape lead =
    if 0xC2 ≤ lead.toNat ∧ lead.toNat ≤ 0xDF then some (1, 0x80, 0xBF)
    else if 0xE0 ≤ lead.toNat ∧ lead.toNat ≤ 0xEF then
      some (2, if lead.toNat = 0xE0 then 0xA0 else 0x80, if lead.toNat = 0xED then 0x9F else 0xBF)
    else if 0xF0 ≤ lead.toNat ∧ lead.toNat ≤ 0xF4 then
      some (3, if lead.toNat = 0xF0 then 0x90 else 0x80, if lead.toNat = 0xF4 then 0x8F else 0xBF)
    else none := by
  simp only [leadShape, Bool.and_eq_true, decide_eq_true_eq, beq_iff_eq]
  generalize lead.toNat = n
  split_ifs <;> first | rfl | omega

lemma toNat_ofNat_of_lt {n : Nat} (h : n < 256) : (UInt8.ofNat n).toNat = n := by
  rw [UInt8.toNat_ofNat', Nat.mod_eq_of_lt h]

lemma readTail_cons {acc k lo hi v : Nat} (hv : v < 64) (low : lo ≤ v + 0x80) (high : v + 0x80 ≤ hi)
    (rest : List UInt8) : readTail acc (k + 1) lo hi (UInt8.ofNat (v + 0x80) :: rest) =
      readTail (acc * 64 + v) k 0x80 0xBF rest := by
  have byte : (UInt8.ofNat (v + 0x80)).toNat = v + 0x80 := toNat_ofNat_of_lt (by omega)
  generalize UInt8.ofNat (v + 0x80) = b at byte
  have fits : within lo hi b = true := by simp [within, byte, low, high]
  have bits : tailBits b = v := by
    unfold tailBits
    omega
  simp only [readTail, fits, bits, if_true]

lemma readTail_zero {acc lo hi : Nat} {c : Char} {bytes rest : List UInt8}
    (h : readTail acc 0 lo hi bytes = (some c, rest)) : c = Char.ofNat acc ∧ rest = bytes := by
  rw [readTail, Prod.mk.injEq, Option.some.injEq] at h
  exact ⟨h.1.symm, h.2.symm⟩

lemma readTail_eq_some {acc k lo hi : Nat} {c : Char} {bytes rest : List UInt8} (hlo : 0x80 ≤ lo)
    (hhi : hi ≤ 0xBF) (h : readTail acc (k + 1) lo hi bytes = (some c, rest)) :
    ∃ v bytes', v < 64 ∧ lo ≤ v + 0x80 ∧ v + 0x80 ≤ hi ∧
      bytes = UInt8.ofNat (v + 0x80) :: bytes' ∧
      readTail (acc * 64 + v) k 0x80 0xBF bytes' = (some c, rest) := by
  cases bytes with
  | nil => simp [readTail] at h
  | cons b bytes =>
    rw [readTail] at h
    split at h
    · rename_i fits
      obtain ⟨low, high⟩ : lo ≤ b.toNat ∧ b.toNat ≤ hi := by simpa [within] using fits
      refine ⟨b.toNat - 0x80, bytes, by omega, by omega, by omega, ?_, h⟩
      rw [Nat.sub_add_cancel (by omega), UInt8.ofNat_toNat]
    · simp at h

lemma readChar_utf8EncodeChar (c : Char) (rest : List UInt8) :
    ∃ lead tail, String.utf8EncodeChar c = lead :: tail ∧
      readChar lead (tail ++ rest) = (some c, rest) := by
  have valid : c.val.toNat < 0xD800 ∨ 0xDFFF < c.val.toNat ∧ c.val.toNat < 0x110000 := c.valid
  have back : Char.ofNat c.val.toNat = c := Char.ofNat_toNat c
  unfold String.utf8EncodeChar
  generalize c.val.toNat = v at valid back
  dsimp only
  -- one case for each number of bytes
  split
  · refine ⟨_, _, rfl, ?_⟩
    rw [readChar, toNat_ofNat_of_lt (by omega), if_pos (by omega), back, List.nil_append]
  split
  · refine ⟨_, _, rfl, ?_⟩
    rw [readChar, leadShape_eq, toNat_ofNat_of_lt (by omega), if_neg (by omega), if_pos (by omega)]
    simp only [List.cons_append, List.nil_append]
    have number : v / 64 % 0x20 * 64 + v % 64 = v := by omega
    rw [readTail_cons (by omega) (by omega) (by omega), readTail]
    simp [number, back]
  split
  · refine ⟨_, _, rfl, ?_⟩
    rw [readChar, leadShape_eq, toNat_ofNat_of_lt (by omega), if_neg (by omega), if_neg (by omega),
      if_pos (by omega)]
    simp only [List.cons_append, List.nil_append]
    have number : (v / 4096 % 0x10 * 64 + v / 64 % 64) * 64 + v % 64 = v := by omega
    rw [readTail_cons (by omega) (by split <;> omega) (by split <;> omega),
      readTail_cons (by omega) (by omega) (by omega), readTail]
    simp [number, back]
  · refine ⟨_, _, rfl, ?_⟩
    rw [readChar, leadShape_eq, toNat_ofNat_of_lt (by omega), if_neg (by omega), if_neg (by omega),
      if_neg (by omega), if_pos (by omega)]
    simp only [List.cons_append, List.nil_append]
    have number : ((v / 262144 % 0x08 * 64 + v / 4096 % 64) * 64 +
      v / 64 % 64) * 64 + v % 64 = v := by omega
    rw [readTail_cons (by omega) (by split <;> omega) (by split <;> omega),
      readTail_cons (by omega) (by omega) (by omega),
      readTail_cons (by omega) (by omega) (by omega), readTail]
    simp [number, back]

lemma val_toNat_ofNat {v : Nat} (valid : v.isValidChar) : (Char.ofNat v).val.toNat = v := by
  rw [Char.ofNat, dif_pos valid]
  rfl

lemma utf8EncodeChar_ofNat {v : Nat} (valid : v.isValidChar) :
    String.utf8EncodeChar (Char.ofNat v) =
      if v ≤ 0x7F then [UInt8.ofNat v]
      else if v ≤ 0x7FF then [UInt8.ofNat (v / 64 + 0xC0), UInt8.ofNat (v % 64 + 0x80)]
      else if v ≤ 0xFFFF then [UInt8.ofNat (v / 4096 + 0xE0), UInt8.ofNat (v / 64 % 64 + 0x80),
        UInt8.ofNat (v % 64 + 0x80)]
      else [UInt8.ofNat (v / 262144 + 0xF0), UInt8.ofNat (v / 4096 % 64 + 0x80),
        UInt8.ofNat (v / 64 % 64 + 0x80), UInt8.ofNat (v % 64 + 0x80)] := by
  have bound : v < 0x110000 := by rcases valid with h | h <;> omega
  simp only [String.utf8EncodeChar, val_toNat_ofNat valid]
  split
  · rfl
  split
  · rw [Nat.mod_eq_of_lt (by omega : v / 64 < 0x20)]
  split
  · rw [Nat.mod_eq_of_lt (by omega : v / 4096 < 0x10)]
  · rw [Nat.mod_eq_of_lt (by omega : v / 262144 < 0x08)]

lemma utf8EncodeChar_of_lt {v : Nat} (low : v < 0x80) :
    String.utf8EncodeChar (Char.ofNat v) = [UInt8.ofNat v] := by
  rw [utf8EncodeChar_ofNat (.inl (by omega)), if_pos (by omega)]

lemma utf8EncodeChar_two {lead v : Nat} (shape : 0xC2 ≤ lead ∧ lead ≤ 0xDF) (hv : v < 64) :
    String.utf8EncodeChar (Char.ofNat ((lead - 0xC0) * 64 + v)) =
      [UInt8.ofNat lead, UInt8.ofNat (v + 0x80)] := by
  obtain ⟨n, hn⟩ : ∃ n, (lead - 0xC0) * 64 + v = n := ⟨_, rfl⟩
  rw [hn, utf8EncodeChar_ofNat (.inl (by omega)), if_neg (by omega), if_pos (by omega),
    (by omega : n / 64 + 0xC0 = lead), (by omega : n % 64 = v)]

lemma utf8EncodeChar_three {lead v w : Nat} (shape : 0xE0 ≤ lead ∧ lead ≤ 0xEF)
    (low : (if lead = 0xE0 then 0xA0 else 0x80) ≤ v + 0x80)
    (high : v + 0x80 ≤ if lead = 0xED then 0x9F else 0xBF) (hv : v < 64) (hw : w < 64) :
    String.utf8EncodeChar (Char.ofNat (((lead - 0xE0) * 64 + v) * 64 + w)) =
      [UInt8.ofNat lead, UInt8.ofNat (v + 0x80), UInt8.ofNat (w + 0x80)] := by
  obtain ⟨n, hn⟩ : ∃ n, ((lead - 0xE0) * 64 + v) * 64 + w = n := ⟨_, rfl⟩
  have least : 0x7FF < n := by split at low <;> omega
  have most : n < 0xD800 ∨ 0xDFFF < n ∧ n ≤ 0xFFFF := by split at high <;> omega
  have valid : n.isValidChar := by
    unfold Nat.isValidChar
    omega
  rw [hn, utf8EncodeChar_ofNat valid, if_neg (by omega), if_neg (by omega), if_pos (by omega),
    (by omega : n / 4096 + 0xE0 = lead), (by omega : n / 64 % 64 = v), (by omega : n % 64 = w)]

lemma utf8EncodeChar_four {lead v w x : Nat} (shape : 0xF0 ≤ lead ∧ lead ≤ 0xF4)
    (low : (if lead = 0xF0 then 0x90 else 0x80) ≤ v + 0x80)
    (high : v + 0x80 ≤ if lead = 0xF4 then 0x8F else 0xBF) (hv : v < 64) (hw : w < 64)
    (hx : x < 64) :
    String.utf8EncodeChar (Char.ofNat ((((lead - 0xF0) * 64 + v) * 64 + w) * 64 + x)) =
      [UInt8.ofNat lead, UInt8.ofNat (v + 0x80), UInt8.ofNat (w + 0x80),
        UInt8.ofNat (x + 0x80)] := by
  obtain ⟨n, hn⟩ : ∃ n, (((lead - 0xF0) * 64 + v) * 64 + w) * 64 + x = n := ⟨_, rfl⟩
  have least : 0xFFFF < n := by split at low <;> omega
  have most : n < 0x110000 := by split at high <;> omega
  rw [hn, utf8EncodeChar_ofNat (.inr ⟨by omega, most⟩), if_neg (by omega), if_neg (by omega),
    if_neg (by omega), (by omega : n / 262144 + 0xF0 = lead), (by omega : n / 4096 % 64 = v),
    (by omega : n / 64 % 64 = w), (by omega : n % 64 = x)]

lemma utf8EncodeChar_of_readChar {lead : UInt8} {bytes rest : List UInt8} {c : Char}
    (h : readChar lead bytes = (some c, rest)) :
    lead :: bytes = String.utf8EncodeChar c ++ rest := by
  have first : UInt8.ofNat lead.toNat = lead := UInt8.ofNat_toNat
  rw [readChar] at h
  split at h
  · rename_i low
    obtain ⟨rfl, rfl⟩ : Char.ofNat lead.toNat = c ∧ bytes = rest := by simpa using h
    rw [utf8EncodeChar_of_lt low, first]
    rfl
  split at h
  · simp at h
  rename_i k lo hi shape
  rw [leadShape_eq] at shape
  split at shape
  · rename_i two
    obtain ⟨rfl, rfl, rfl⟩ : 1 = k ∧ 0x80 = lo ∧ 0xBF = hi := by simpa using shape
    obtain ⟨v, bytes₁, hv, -, -, rfl, tail₁⟩ := readTail_eq_some (by omega) (by omega) h
    obtain ⟨rfl, rfl⟩ := readTail_zero tail₁
    have encoded := utf8EncodeChar_two two hv
    rw [first] at encoded
    exact congrArg (· ++ rest) encoded.symm
  split at shape
  · rename_i three
    obtain ⟨rfl, rfl, rfl⟩ : 2 = k ∧ (if lead.toNat = 0xE0 then 0xA0 else 0x80) = lo ∧
      (if lead.toNat = 0xED then 0x9F else 0xBF) = hi := by simpa using shape
    obtain ⟨v, bytes₁, hv, low, high, rfl, tail₁⟩ :=
      readTail_eq_some (by split <;> omega) (by split <;> omega) h
    obtain ⟨w, bytes₂, hw, -, -, rfl, tail₂⟩ := readTail_eq_some (by omega) (by omega) tail₁
    obtain ⟨rfl, rfl⟩ := readTail_zero tail₂
    have encoded := utf8EncodeChar_three three low high hv hw
    rw [first] at encoded
    exact congrArg (· ++ rest) encoded.symm
  split at shape
  · rename_i four
    obtain ⟨rfl, rfl, rfl⟩ : 3 = k ∧ (if lead.toNat = 0xF0 then 0x90 else 0x80) = lo ∧
      (if lead.toNat = 0xF4 then 0x8F else 0xBF) = hi := by simpa using shape
    obtain ⟨v, bytes₁, hv, low, high, rfl, tail₁⟩ :=
      readTail_eq_some (by split <;> omega) (by split <;> omega) h
    obtain ⟨w, bytes₂, hw, -, -, rfl, tail₂⟩ := readTail_eq_some (by omega) (by omega) tail₁
    obtain ⟨x, bytes₃, hx, -, -, rfl, tail₃⟩ := readTail_eq_some (by omega) (by omega) tail₂
    obtain ⟨rfl, rfl⟩ := readTail_zero tail₃
    have encoded := utf8EncodeChar_four four low high hv hw hx
    rw [first] at encoded
    exact congrArg (· ++ rest) encoded.symm
  · simp at shape

/-! ### Texts -/

lemma utf8_append (s t : List Char) : utf8 (s ++ t) = utf8 s ++ utf8 t := List.flatMap_append

lemma readChars_utf8_append (s : List Char) (bytes : List UInt8) :
    readChars (utf8 s ++ bytes) = s.map some ++ readChars bytes := by
  induction s with
  | nil => rfl
  | cons c s ih =>
    obtain ⟨lead, tail, encoded, read⟩ := readChar_utf8EncodeChar c (utf8 s ++ bytes)
    have whole : utf8 (c :: s) ++ bytes = lead :: (tail ++ (utf8 s ++ bytes)) := by
      rw [utf8, List.flatMap_cons, encoded, List.append_assoc]
      rfl
    rw [whole, readChars, read, ih, List.map_cons, List.cons_append]

lemma readChars_utf8 (s : List Char) : readChars (utf8 s) = s.map some := by
  simpa [readChars] using readChars_utf8_append s []

lemma utf8_of_readChars {bytes : List UInt8} {s : List Char} (h : readChars bytes = s.map some) :
    utf8 s = bytes := by
  induction s generalizing bytes with
  | nil =>
    cases bytes with
    | nil => rfl
    | cons b bytes => simp [readChars] at h
  | cons c s ih =>
    cases bytes with
    | nil => simp [readChars] at h
    | cons b bytes =>
      rw [readChars, List.map_cons, List.cons.injEq] at h
      have read : readChar b bytes = (some c, (readChar b bytes).2) := Prod.ext h.1 rfl
      rw [utf8EncodeChar_of_readChar read, utf8, List.flatMap_cons, ← utf8, ih h.2]

lemma mapM_id_eq_some {chars : List (Option Char)} {s : List Char} :
    chars.mapM id = some s ↔ chars = s.map some := by
  induction chars generalizing s with
  | nil => cases s <;> simp [List.mapM_nil]
  | cons c chars ih =>
    rw [List.mapM_cons]
    cases c with
    | none => cases s <;> simp
    | some c => cases s <;> simp [Option.bind_eq_some_iff, ih, and_comm]

theorem ofUtf8?_eq_some {bytes : List UInt8} {s : List Char} :
    ofUtf8? bytes = some s ↔ utf8 s = bytes := by
  rw [ofUtf8?, mapM_id_eq_some]
  exact ⟨utf8_of_readChars, fun eq => eq ▸ readChars_utf8 s⟩

lemma utf8_inj {s t : List Char} : utf8 s = utf8 t ↔ s = t := by
  refine ⟨fun same => ?_, fun same => by rw [same]⟩
  have read : t.map some = s.map some := by rw [← readChars_utf8, ← readChars_utf8, same]
  exact ((List.map_inj_right fun _ _ => Option.some.inj).mp read).symm

/-! ### Bytes below 128 -/

lemma eq_of_mem_utf8EncodeChar {b : UInt8} {c : Char} (low : b.toNat < 0x80)
    (mem : b ∈ String.utf8EncodeChar c) : c = Char.ofNat b.toNat := by
  have back : Char.ofNat c.val.toNat = c := Char.ofNat_toNat c
  have high {n : Nat} (least : 0x80 ≤ n) (most : n < 0x100) : b ≠ UInt8.ofNat n := by
    rintro rfl
    rw [toNat_ofNat_of_lt most] at low
    omega
  unfold String.utf8EncodeChar at mem
  generalize c.val.toNat = v at back mem
  dsimp only at mem
  -- Only the first of the four forms has a byte that is low.
  split_ifs at mem
  · rw [List.mem_singleton.mp mem, toNat_ofNat_of_lt (by omega), back]
  all_goals simp only [List.mem_cons, List.not_mem_nil, or_false] at mem
  · rcases mem with byte | byte <;> exact absurd byte (high (by omega) (by omega))
  · rcases mem with byte | byte | byte <;> exact absurd byte (high (by omega) (by omega))
  · rcases mem with byte | byte | byte | byte <;> exact absurd byte (high (by omega) (by omega))

lemma le_of_mem_utf8EncodeChar {c : Char} (high : 0x80 ≤ c.toNat) {b : UInt8}
    (mem : b ∈ String.utf8EncodeChar c) : 0x80 ≤ b.toNat := by
  by_contra low
  have same := eq_of_mem_utf8EncodeChar (Nat.lt_of_not_le low) mem
  have number := val_toNat_ofNat (v := b.toNat) (.inl (by omega))
  rw [← same] at number
  exact low (number ▸ high)

lemma mem_utf8 {b : UInt8} (low : b.toNat < 0x80) {s : List Char} :
    b ∈ utf8 s ↔ Char.ofNat b.toNat ∈ s := by
  rw [utf8, List.mem_flatMap]
  constructor
  · rintro ⟨c, mem, byte⟩
    rwa [← eq_of_mem_utf8EncodeChar low byte]
  · intro mem
    refine ⟨_, mem, ?_⟩
    rw [utf8EncodeChar_of_lt low, UInt8.ofNat_toNat]
    exact List.mem_singleton_self b

lemma bounds_of_isAlphanum {c : Char} (h : c.isAlphanum) : 0x30 ≤ c.toNat ∧ c.toNat ≤ 0x7A := by
  change ((decide (c.val ≥ 'A'.val ∧ c.val ≤ 'Z'.val) ||
    (decide (c.val ≥ 'a'.val) && decide (c.val ≤ 'z'.val))) ||
    (decide (c.val ≥ '0'.val) && decide (c.val ≤ '9'.val))) = true at h
  simp only [Bool.or_eq_true, Bool.and_eq_true, decide_eq_true_eq, ge_iff_le,
    UInt32.le_iff_toNat_le, Char.toNat_val, Char.reduceToNat] at h
  omega

lemma readTail_suffix (acc k lo hi : Nat) (bytes : List UInt8) :
    (readTail acc k lo hi bytes).2 <:+ bytes := by
  induction k generalizing acc lo hi bytes with
  | zero => exact List.suffix_rfl
  | succ k ih =>
    cases bytes with
    | nil => exact List.suffix_rfl
    | cons b bytes =>
      rw [readTail]
      split
      · exact (ih _ _ _ _).trans (List.suffix_cons b bytes)
      · exact List.suffix_rfl

lemma readChar_suffix (lead : UInt8) (bytes : List UInt8) :
    (readChar lead bytes).2 <:+ bytes := by
  rw [readChar]
  split
  · exact List.suffix_rfl
  · split
    · exact List.suffix_rfl
    · exact readTail_suffix ..

lemma mem_of_mem_readChars {bytes : List UInt8} {c : Char} (h : some c ∈ readChars bytes) :
    ∀ b ∈ String.utf8EncodeChar c, b ∈ bytes := by
  induction bytes using readChars.induct with
  | case1 => simp [readChars] at h
  | case2 lead bytes ih =>
    intro b hb
    rw [readChars, List.mem_cons] at h
    rcases h with here | later
    · have read : readChar lead bytes = (some c, (readChar lead bytes).2) := Prod.ext here.symm rfl
      rw [utf8EncodeChar_of_readChar read]
      exact List.mem_append_left _ hb
    · exact List.mem_cons_of_mem lead ((readChar_suffix lead bytes).subset (ih later b hb))

lemma not_mem_ofUtf8Lossy {b : UInt8} (low : b.toNat < 0x80) {bytes : List UInt8} (h : b ∉ bytes) :
    Char.ofNat b.toNat ∉ ofUtf8Lossy bytes := by
  rw [ofUtf8Lossy, List.mem_map]
  rintro ⟨read, mem, same⟩
  cases read with
  | none =>
    have number := val_toNat_ofNat (v := b.toNat) (.inl (by omega))
    rw [← same, Option.getD_none, show replacement.val.toNat = 0xFFFD from rfl] at number
    omega
  | some c =>
    refine h (mem_of_mem_readChars mem b ?_)
    rw [show c = Char.ofNat b.toNat from same, utf8EncodeChar_of_lt low, UInt8.ofNat_toNat]
    exact List.mem_singleton_self b

/-! ### Texts inside bytes -/

lemma eq_nil_of_begins {c d : Char} {before rest more more' : List UInt8} {b : UInt8}
    (inside : String.utf8EncodeChar c = before ++ b :: rest)
    (begins : String.utf8EncodeChar d ++ more = b :: more') : before = [] := by
  obtain ⟨tail, first⟩ : ∃ tail, String.utf8EncodeChar d = b :: tail := by
    rcases List.append_eq_cons_iff.mp begins with ⟨none, -⟩ | ⟨tail, first, -⟩
    · exact absurd none String.utf8EncodeChar_ne_nil
    · exact ⟨tail, first⟩
  have lead : b.IsUTF8FirstByte := by
    have here := UInt8.isUTF8FirstByte_getElem_zero_utf8EncodeChar (c := d)
    simpa only [first, List.getElem_cons_zero] using here
  have place : before.length < (String.utf8EncodeChar c).length := by
    rw [inside, List.length_append, List.length_cons]
    omega
  have there : (String.utf8EncodeChar c)[before.length] = b := by simp [inside]
  rw [← there, UInt8.isUTF8FirstByte_getElem_utf8EncodeChar] at lead
  exact List.length_eq_zero_iff.mp lead

lemma exists_utf8_of_append_right {u t : List Char} {bytes : List UInt8}
    (whole : utf8 t = utf8 u ++ bytes) : ∃ s, utf8 s = bytes := by
  have read : t.map some = u.map some ++ readChars bytes := by
    rw [← readChars_utf8_append, ← whole, readChars_utf8]
  obtain ⟨-, s, -, -, rest⟩ := List.map_eq_append_iff.mp read
  exact ⟨s, utf8_of_readChars rest.symm⟩

/-- What stands before a text in a text is one. The induction takes characters off the whole text
until the rest of one would have to lie in the text at the end. -/
lemma exists_utf8_of_append_left {v t : List Char} {bytes : List UInt8}
    (whole : utf8 t = bytes ++ utf8 v) : ∃ s, utf8 s = bytes := by
  induction t generalizing bytes with
  | nil =>
    obtain ⟨rfl, -⟩ := List.append_eq_nil_iff.mp whole.symm
    exact ⟨[], rfl⟩
  | cons c t ih =>
    rw [utf8, List.flatMap_cons, ← utf8] at whole
    rcases List.append_eq_append_iff.mp whole with ⟨rest, rfl, later⟩ | ⟨rest, inside, later⟩
    · obtain ⟨s, rfl⟩ := ih later
      exact ⟨c :: s, rfl⟩
    · cases rest with
      | nil => exact ⟨[c], by rw [utf8, List.flatMap_singleton, inside, List.append_nil]⟩
      | cons b rest =>
        cases v with
        | nil => cases later
        | cons d v =>
          rw [utf8, List.flatMap_cons] at later
          exact ⟨[], (eq_nil_of_begins inside later).symm⟩

lemma ofUtf8?_between (u v : List Char) (bytes : List UInt8) :
    ofUtf8? (utf8 u ++ bytes ++ utf8 v) = (ofUtf8? bytes).map fun s => u ++ s ++ v := by
  cases read : ofUtf8? bytes with
  | some s =>
    obtain rfl := ofUtf8?_eq_some.mp read
    rw [← utf8_append, ← utf8_append, ofUtf8?_eq_some.mpr rfl, Option.map_some]
  | none =>
    rw [Option.map_none, Option.eq_none_iff_forall_not_mem]
    intro t whole
    obtain ⟨front, before⟩ := exists_utf8_of_append_left (ofUtf8?_eq_some.mp whole)
    obtain ⟨s, rfl⟩ := exists_utf8_of_append_right before
    rw [ofUtf8?_eq_some.mpr rfl] at read
    cases read

/-! ### The order of bytes -/

lemma lt_six_bits {m n : Nat} (lt : m < n) :
    m / 64 < n / 64 ∨ m / 64 = n / 64 ∧ m % 64 < n % 64 := by
  omega

lemma utf8EncodeChar_append_lt {c d : Char} (lt : c < d) (x y : List UInt8) :
    String.utf8EncodeChar c ++ x < String.utf8EncodeChar d ++ y := by
  have numbers : c.toNat < d.toNat := lt
  have valid : c.toNat.isValidChar := c.valid
  have valid' : d.toNat.isValidChar := d.valid
  have bound : d.toNat < 0x110000 := by rcases valid' with h | h <;> omega
  rw [← Char.ofNat_toNat c, ← Char.ofNat_toNat d, utf8EncodeChar_ofNat valid,
    utf8EncodeChar_ofNat valid']
  generalize c.toNat = m at numbers
  generalize d.toNat = n at numbers bound
  have last := lt_six_bits numbers
  have middle := @lt_six_bits (m / 64) (n / 64)
  have first := @lt_six_bits (m / 64 / 64) (n / 64 / 64)
  simp only [Nat.div_div_eq_div_mul, Nat.reduceMul] at middle first
  -- one case for each pair of numbers of bytes
  split_ifs <;>
    simp (disch := omega) only [List.cons_append, List.nil_append, List.cons_lt_cons_iff,
      UInt8.lt_iff_toNat_lt, ← UInt8.toNat_inj, toNat_ofNat_of_lt] <;>
    omega

theorem utf8_lt_utf8 {s t : List Char} (lt : s < t) : utf8 s < utf8 t := by
  induction s generalizing t with
  | nil =>
    cases t with
    | nil => exact absurd lt (List.lt_irrefl [])
    | cons d t =>
      obtain ⟨lead, tail, encoded, -⟩ := readChar_utf8EncodeChar d []
      rw [utf8, utf8, List.flatMap_cons, encoded]
      exact List.nil_lt_cons ..
  | cons c s ih =>
    cases t with
    | nil => exact absurd lt (List.not_lt_nil _)
    | cons d t =>
      rw [utf8, utf8, List.flatMap_cons, List.flatMap_cons]
      rcases List.cons_lt_cons_iff.mp lt with less | ⟨rfl, less⟩
      · exact utf8EncodeChar_append_lt less _ _
      · exact List.append_left_lt (ih less)

end FeatureBatch.Text
