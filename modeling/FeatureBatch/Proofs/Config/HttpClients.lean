import Mathlib.Data.List.Basic
import FeatureBatch.Config.HttpClients
import FeatureBatch.Proofs.Config.Dictionary
import FeatureBatch.Proofs.Text.Utf8

/-!
What clients can be created. Of the calls that make settings only the last value for each header and
the last user agent count. A client is created if these follow the rules for their bytes; if not, the
error is about the first header that breaks them, in the order of the bytes of names, and about the
user agent only if all headers follow them. Headers are taken to be no more than a client can hold.
-/

namespace FeatureBatch

/-! ### Checks in a row -/

section Checks

variable {α ε : Type} {check : α → Except ε Unit}

lemma forM_eq_ok {l : List α} : l.forM check = .ok () ↔ ∀ x ∈ l, check x = .ok () := by
  induction l with
  | nil => exact ⟨fun _ _ mem => (List.not_mem_nil mem).elim, fun _ => rfl⟩
  | cons a l ih =>
    rw [List.forall_mem_cons, ← ih, List.forM]
    cases check a with
    | error e => exact ⟨fun h => (by cases h), fun h => (by cases h.1)⟩
    | ok u => exact ⟨fun h => ⟨rfl, h⟩, fun h => h.2⟩

lemma exists_of_forM_eq_error {l : List α} {e : ε} (failed : l.forM check = .error e) :
    ∃ before x after, l = before ++ x :: after ∧ (∀ y ∈ before, check y = .ok ()) ∧
      check x = .error e := by
  induction l with
  | nil => cases failed
  | cons a l ih =>
    rw [List.forM] at failed
    cases first : check a with
    | error e' =>
      rw [first] at failed
      obtain rfl := Except.error.inj failed
      exact ⟨[], a, l, rfl, fun _ mem => (List.not_mem_nil mem).elim, first⟩
    | ok u =>
      rw [first] at failed
      obtain ⟨before, x, after, rfl, passed, here⟩ := ih failed
      exact ⟨a :: before, x, after, rfl, List.forall_mem_cons.mpr ⟨first, passed⟩, here⟩

end Checks

namespace HttpClients

/-! ### The rules for bytes -/

/-- The signs of tokens. -/
def tokenSigns : List UInt8 :=
  [0x21, 0x23, 0x24, 0x25, 0x26, 0x27, 0x2A, 0x2B, 0x2D, 0x2E, 0x5E, 0x5F, 0x60, 0x7C, 0x7E]

/-- The bytes of tokens: digits, letters and signs. -/
def IsTokenByte (b : UInt8) : Prop :=
  (0x30 ≤ b ∧ b ≤ 0x39) ∨ (0x41 ≤ b ∧ b ≤ 0x5A) ∨ (0x61 ≤ b ∧ b ≤ 0x7A) ∨ b ∈ tokenSigns

instance : DecidablePred IsTokenByte := fun _ => inferInstanceAs (Decidable (_ ∨ _))

/-- What names of headers have to be. -/
structure IsToken (name : String) : Prop where
  length_pos : 1 ≤ name.length
  length_le : name.length ≤ 65535
  bytes : ∀ b ∈ Text.utf8 name.toList, IsTokenByte b

/-- The bytes of values: none below the blank but the tab, and no delete. -/
def IsValueByte (b : UInt8) : Prop := (b < 0x20 → b = 0x09) ∧ b ≠ 0x7F

instance : DecidablePred IsValueByte := fun _ => inferInstanceAs (Decidable (_ ∧ _))

/-- What values of headers and user agents have to be. -/
def IsFieldText (value : String) : Prop := ∀ b ∈ Text.utf8 value.toList, IsValueByte b

lemma lt_of_isTokenByte {b : UInt8} (h : IsTokenByte b) : b.toNat < 0x80 := by
  have signs : tokenSigns.all (·.toNat < 0x80) = true := by decide
  rcases h with ⟨-, le⟩ | ⟨-, le⟩ | ⟨-, le⟩ | sign
  · exact Nat.lt_of_le_of_lt (UInt8.le_iff_toNat_le.mp le) (by decide)
  · exact Nat.lt_of_le_of_lt (UInt8.le_iff_toNat_le.mp le) (by decide)
  · exact Nat.lt_of_le_of_lt (UInt8.le_iff_toNat_le.mp le) (by decide)
  · exact of_decide_eq_true (List.all_eq_true.mp signs b sign)

lemma lt_of_isTokenChar {c : Char} (h : isTokenChar c = true) : c.toNat < 0x80 := by
  rw [isTokenChar, Bool.or_eq_true] at h
  rcases h with alphanum | sign
  · have bounds := Text.bounds_of_isAlphanum alphanum
    omega
  · have signs : "!#$%&\x27*+-.^_\x60|~".toList.all (·.toNat < 0x80) = true := by decide
    exact of_decide_eq_true (List.all_eq_true.mp signs c (List.contains_iff_mem.mp sign))

/-- A character below 128 is one byte, so that a test of characters is compared with a rule for bytes
number by number. -/
lemma test_iff_of_lt {test : Char → Bool} {rule : UInt8 → Prop} [DecidablePred rule]
    (same : (List.range 0x80).all
      (fun n => test (Char.ofNat n) == decide (rule (UInt8.ofNat n))) = true)
    {c : Char} (low : c.toNat < 0x80) :
    test c = true ↔ ∀ b ∈ String.utf8EncodeChar c, rule b := by
  have here := List.all_eq_true.mp same c.toNat (List.mem_range.mpr low)
  rw [beq_iff_eq, Char.ofNat_toNat] at here
  have byte := Text.utf8EncodeChar_of_lt low
  rw [Char.ofNat_toNat] at byte
  rw [byte, List.forall_mem_singleton, here, decide_eq_true_iff]

lemma isTokenChar_iff (c : Char) :
    isTokenChar c = true ↔ ∀ b ∈ String.utf8EncodeChar c, IsTokenByte b := by
  by_cases low : c.toNat < 0x80
  · exact test_iff_of_lt (by decide +kernel) low
  · refine ⟨fun h => absurd (lt_of_isTokenChar h) low, fun bytes => ?_⟩
    obtain ⟨b, mem⟩ := List.exists_mem_of_ne_nil _ (String.utf8EncodeChar_ne_nil (c := c))
    have small := lt_of_isTokenByte (bytes b mem)
    have large := Text.le_of_mem_utf8EncodeChar (Nat.le_of_not_lt low) mem
    omega

lemma isValueChar_iff (c : Char) :
    isValueChar c = true ↔ ∀ b ∈ String.utf8EncodeChar c, IsValueByte b := by
  by_cases low : c.toNat < 0x80
  · exact test_iff_of_lt (by decide +kernel) low
  · have high : isValueChar c = true := by
      rw [isValueChar, Bool.or_eq_true, Bool.and_eq_true, decide_eq_true_eq, decide_eq_true_eq]
      omega
    refine ⟨fun _ b mem => ?_, fun _ => high⟩
    have large := Text.le_of_mem_utf8EncodeChar (Nat.le_of_not_lt low) mem
    refine ⟨fun lt => ?_, ?_⟩
    · have lt : b.toNat < 0x20 := UInt8.lt_iff_toNat_lt.mp lt
      omega
    · rintro rfl
      exact absurd large (by decide)

lemma isHeaderName_iff {name : String} : isHeaderName name = true ↔ IsToken name := by
  have bytes : name.toList.all isTokenChar = true ↔
      ∀ b ∈ Text.utf8 name.toList, IsTokenByte b := by
    simp only [List.all_eq_true, isTokenChar_iff, Text.utf8, List.forall_mem_flatMap]
  have some_char : (!name.toList.isEmpty) = true ↔ 1 ≤ name.length := by
    rw [← String.length_toList, Bool.not_eq_true', List.isEmpty_eq_false_iff, ne_eq,
      ← List.length_eq_zero_iff]
    omega
  simp only [isHeaderName, Bool.and_eq_true, bytes, some_char, decide_eq_true_eq,
    String.length_toList]
  exact ⟨fun h => ⟨h.1.1, h.1.2, h.2⟩, fun h => ⟨⟨h.length_pos, h.length_le⟩, h.bytes⟩⟩

lemma isHeaderValue_iff {value : String} : isHeaderValue value = true ↔ IsFieldText value := by
  simp only [isHeaderValue, IsFieldText, List.all_eq_true, isValueChar_iff, Text.utf8,
    List.forall_mem_flatMap]

instance : DecidablePred IsToken := fun _ => decidable_of_iff _ isHeaderName_iff

instance : DecidablePred IsFieldText := fun _ => decidable_of_iff _ isHeaderValue_iff

/-! ### What the checks find -/

/-- A header that follows the rules. -/
def IsHeader (name value : String) : Prop := IsToken name ∧ IsFieldText value

/-- Of the headers that break the rules, the one whose name comes first in the order of bytes. -/
structure FirstOffender (find : String → Option String) (name value : String) : Prop where
  found : find name = some value
  offends : ¬IsHeader name value
  least : ∀ name' value', find name' = some value' → ¬IsHeader name' value' → name' ≠ name →
    Text.utf8 name.toList < Text.utf8 name'.toList

lemma checkHeader_eq (name value : String) : checkHeader (name, value) =
    if IsToken name then if IsFieldText value then .ok () else .error (.headerValue name)
    else .error (.headerName name) := by
  simp only [checkHeader, Bool.not_eq_true', ← Bool.not_eq_true, isHeaderName_iff,
    isHeaderValue_iff, ite_not]

lemma checkHeader_eq_ok {name value : String} :
    checkHeader (name, value) = .ok () ↔ IsHeader name value := by
  rw [checkHeader_eq]
  split_ifs with token text
  · exact ⟨fun _ => ⟨token, text⟩, fun _ => rfl⟩
  · exact ⟨fun failed => (by cases failed), fun fine => absurd fine.2 text⟩
  · exact ⟨fun failed => (by cases failed), fun fine => absurd fine.1 token⟩

lemma message_of_checkHeader {name value : String} {e : HttpError}
    (failed : checkHeader (name, value) = .error e) :
    e.message = if IsToken name then "Invalid header value for " ++ name
      else "Invalid header name: " ++ name := by
  rw [checkHeader_eq] at failed
  split_ifs at failed with token
  · obtain rfl := Except.error.inj failed
    rw [if_pos token]
    rfl
  · obtain rfl := Except.error.inj failed
    rw [if_neg token]
    rfl

lemma forM_headers_eq_ok {d : Dictionary} : d.toList.forM checkHeader = .ok () ↔
    ∀ name value, d.get? name = some value → IsHeader name value := by
  rw [forM_eq_ok]
  constructor
  · exact fun passed name value found =>
      checkHeader_eq_ok.mp (passed (name, value) (Dictionary.mem_toList.mpr found))
  · exact fun fine p mem => checkHeader_eq_ok.mpr (fine p.1 p.2 (Dictionary.mem_toList.mp mem))

/-- The names come in their order, which is that of their bytes, so that the first error is about the
least of those that offend. -/
lemma exists_firstOffender {d : Dictionary} {e : HttpError}
    (failed : d.toList.forM checkHeader = .error e) :
    ∃ name value, FirstOffender d.get? name value ∧ checkHeader (name, value) = .error e := by
  obtain ⟨before, ⟨name, value⟩, after, split, passed, here⟩ := exists_of_forM_eq_error failed
  have offends : ¬IsHeader name value := fun fine => by
    have passes := checkHeader_eq_ok.mpr fine
    rw [here] at passes
    cases passes
  have mem : (name, value) ∈ d.toList := by
    rw [split]
    exact List.mem_append_right before List.mem_cons_self
  refine ⟨name, value, ⟨Dictionary.mem_toList.mp mem, offends, ?_⟩, here⟩
  intro name' value' found offends' other
  have place := Dictionary.mem_toList.mpr found
  rw [split, List.mem_append, List.mem_cons] at place
  rcases place with earlier | same | later
  · exact absurd (checkHeader_eq_ok.mp (passed _ earlier)) offends'
  · exact absurd (congrArg Prod.fst same) other
  · have sorted : KeysSorted (before ++ (name, value) :: after) := split ▸ d.sorted
    have behind := (List.pairwise_cons.mp (List.pairwise_append.mp sorted).2.1).1
    exact Text.utf8_lt_utf8 (String.lt_iff.mp (behind _ later))

variable {h : HttpClients}

lemma check_of_error {e : HttpError} (failed : h.headers.toList.forM checkHeader = .error e) :
    h.check = .error e := by
  rw [check, failed]
  rfl

lemma check_of_ok (passed : h.headers.toList.forM checkHeader = .ok ()) : h.check =
    if ∃ agent, h.userAgent = some agent ∧ ¬IsFieldText agent then .error .client else .ok () := by
  rw [check, passed]
  cases h.userAgent with
  | none => simp [bind, Except.bind]
  | some agent => simp [bind, Except.bind, isHeaderValue_iff]

lemma check_eq_ok : h.check = .ok () ↔
    (∀ name value, h.headers.get? name = some value → IsHeader name value) ∧
      ∀ agent, h.userAgent = some agent → IsFieldText agent := by
  rw [← forM_headers_eq_ok]
  cases first : h.headers.toList.forM checkHeader with
  | error e =>
    rw [check_of_error first]
    exact ⟨fun failed => (by cases failed), fun passed => (by cases passed.1)⟩
  | ok u =>
    rw [check_of_ok first]
    split_ifs with bad
    · obtain ⟨agent, given, breaks⟩ := bad
      exact ⟨fun failed => (by cases failed), fun fine => absurd (fine.2 agent given) breaks⟩
    · refine ⟨fun _ => ⟨rfl, fun agent given => ?_⟩, fun _ => rfl⟩
      by_contra breaks
      exact bad ⟨agent, given, breaks⟩

lemma create_fst (h : HttpClients) : h.create.1 = h.check := by
  unfold create
  cases h.check <;> rfl

/-! ### Calls -/

/-- The header that a call adds. -/
def Call.header? : Call → Option (String × String)
  | header name value => some (name, value)
  | _ => none

/-- The user agent that a call gives. -/
def Call.agent? : Call → Option String
  | userAgent agent => some agent
  | _ => none

/-- The last value that calls give for a header. -/
def lastHeader? (calls : List Call) (name : String) : Option String :=
  lastValue? (calls.filterMap Call.header?) name

def lastAgent? (calls : List Call) : Option String := (calls.filterMap Call.agent?).getLast?

lemma ofCalls_snoc (calls : List Call) (c : Call) :
    ofCalls (calls ++ [c]) = (ofCalls calls).call c :=
  List.foldl_append

lemma get?_ofCalls (calls : List Call) (name : String) :
    (ofCalls calls).headers.get? name = lastHeader? calls name := by
  induction calls using List.reverseRecOn with
  | nil => rfl
  | append_singleton calls c ih =>
    rw [ofCalls_snoc, lastHeader?, List.filterMap_append]
    cases c with
    | header key value =>
      exact (Dictionary.get?_insert ..).trans (ih ▸ (lastValue?_snoc ..).symm)
    | _ => exact ih.trans (congrArg (lastValue? · name) (List.append_nil _).symm)

lemma userAgent_ofCalls (calls : List Call) : (ofCalls calls).userAgent = lastAgent? calls := by
  induction calls using List.reverseRecOn with
  | nil => rfl
  | append_singleton calls c ih =>
    rw [ofCalls_snoc, lastAgent?, List.filterMap_append]
    cases c with
    | userAgent agent => exact List.getLast?_concat.symm
    | _ => exact ih.trans (congrArg List.getLast? (List.append_nil _).symm)

lemma check_congr {h h' : HttpClients} (headers : ∀ name, h'.headers.get? name = h.headers.get? name)
    (agent : h'.userAgent = h.userAgent) : h'.check = h.check := by
  rw [check, check, Dictionary.ext_get? headers, agent]

/-- **Creating a client** after any calls that make settings. It succeeds exactly if all headers and
the user agent that are left follow the rules. Where it fails, the error names the header that breaks
them and comes first in the order of bytes, for its name if that is no token and else for its value;
only if no header breaks them it is about the user agent. Nothing counts but the last value for each
header and the last user agent, whatever the order of the calls. -/
theorem create_ofCalls (calls : List Call) :
    ((ofCalls calls).create.1 = .ok () ↔
      (∀ name value, lastHeader? calls name = some value → IsHeader name value) ∧
        ∀ agent, lastAgent? calls = some agent → IsFieldText agent) ∧
    (∀ e, (ofCalls calls).create.1 = .error e →
      (∃ name value, FirstOffender (lastHeader? calls) name value ∧ e.message =
        if IsToken name then "Invalid header value for " ++ name
        else "Invalid header name: " ++ name) ∨
      (∀ name value, lastHeader? calls name = some value → IsHeader name value) ∧
        (∃ agent, lastAgent? calls = some agent ∧ ¬IsFieldText agent) ∧
        e.message = "Failed to create HTTP client") ∧
    ∀ calls', (∀ name, lastHeader? calls' name = lastHeader? calls name) →
      lastAgent? calls' = lastAgent? calls →
      (ofCalls calls').create.1 = (ofCalls calls).create.1 := by
  have left : (ofCalls calls).headers.get? = lastHeader? calls := funext (get?_ofCalls calls)
  have agent := userAgent_ofCalls calls
  refine ⟨?_, fun e failed => ?_, fun calls' same same_agent => ?_⟩
  · rw [create_fst, check_eq_ok, left, agent]
  · rw [create_fst] at failed
    cases first : (ofCalls calls).headers.toList.forM checkHeader with
    | error e' =>
      rw [check_of_error first] at failed
      obtain rfl := Except.error.inj failed
      obtain ⟨name, value, offender, here⟩ := exists_firstOffender first
      exact .inl ⟨name, value, left ▸ offender, message_of_checkHeader here⟩
    | ok u =>
      rw [check_of_ok first, agent] at failed
      split_ifs at failed with bad
      obtain rfl := Except.error.inj failed
      exact .inr ⟨left ▸ forM_headers_eq_ok.mp first, bad, rfl⟩
  · rw [create_fst, create_fst]
    refine check_congr (fun name => ?_) ?_
    · rw [get?_ofCalls, get?_ofCalls, same]
    · rw [userAgent_ofCalls, userAgent_ofCalls, same_agent]

example : (ofCalls [.userAgent "\n", .header "b c" "v", .header "z" "\x7f", .header "a" "\n",
    .header "a" "ok"]).create.1 = .error (.headerName "b c") := by decide +kernel

end HttpClients

end FeatureBatch
