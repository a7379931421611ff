import Mathlib.Data.List.Basic
import Mathlib.Tactic.ByContra

/-!
# C strings in arrays

The contents of an array are a list of characters, and a string is what stands in
front of the first NUL. The functions of `string.h` have no result where they read
behind the array, for want of a NUL, or write behind it. `isspace` and `atoi` are those
of the C locale on a machine with a 64-bit `long`.
-/

namespace Evlpc.Library.CStrings

/-- The string at the start of an array. -/
def text : List UInt8 → Option (List UInt8)
  | [] => none
  | char :: rest => if char = 0 then some [] else (text rest).map (char :: ·)

/-- The characters that a copy takes from a string, at most so many. -/
def taken : Nat → List UInt8 → Option (List UInt8)
  | 0, _ => some []
  | _ + 1, [] => none
  | count + 1, char :: rest => if char = 0 then some [] else (taken count rest).map (char :: ·)

/-- The characters of a C string. -/
structure CString where
  chars : List UInt8
  noNul : 0 ∉ chars

/-- The array that a string is read from. -/
def CString.array (string : CString) : List UInt8 := string.chars ++ [0]

/-- The array with some characters written at an offset. -/
def put (array : List UInt8) (offset : Nat) (chars : List UInt8) : Option (List UInt8) :=
  if offset + chars.length ≤ array.length then
    some (array.take offset ++ chars ++ array.drop (offset + chars.length))
  else none

/-- The characters of a string cut to a length and padded with NULs to it. -/
def padded (chars : List UInt8) (count : Nat) : List UInt8 :=
  chars.take count ++ List.replicate (count - chars.length) 0

/-- `strncpy`, to an offset of an object. -/
def strncpy (array : List UInt8) (offset : Nat) (source : List UInt8) (count : Nat) :
    Option (List UInt8) :=
  (taken count source).bind fun chars => put array offset (padded chars count)

/-- `strncat`. -/
def strncat (array source : List UInt8) (count : Nat) : Option (List UInt8) :=
  (text array).bind fun old =>
    (taken count source).bind fun chars => put array old.length (chars ++ [0])

/-- `strncmp` finds no difference between two strings. -/
def sameUpTo (left right : List UInt8) (count : Nat) : Bool := left.take count = right.take count

/-- `isspace`. -/
def isspace (char : UInt8) : Bool := char = 32 || (9 ≤ char && char ≤ 13)

/-- The number that some digits continue. -/
def continueDigits (number : Nat) : List UInt8 → Nat
  | [] => number
  | char :: rest =>
    if 48 ≤ char && char ≤ 57 then continueDigits (10 * number + (char.toNat - 48)) rest
    else number

/-- `strtol` to the base 10: white space, a sign, and digits, within the range of
`long`. -/
def strtol (chars : List UInt8) : Int :=
  match chars.dropWhile isspace with
  | [] => 0
  | char :: rest =>
    if char = 45 then max (-(continueDigits 0 rest : Int)) (-9223372036854775808)
    else if char = 43 then min (continueDigits 0 rest : Int) 9223372036854775807
    else min (continueDigits 0 (char :: rest) : Int) 9223372036854775807

/-- `atoi`: the result of `strtol` as an `int`. -/
def atoi (chars : List UInt8) : Int32 := Int32.ofInt (strtol chars)

/-- What stands in front of a NUL is read. -/
theorem text_terminated (chars rest : List UInt8) (noNul : 0 ∉ chars) :
    text (chars ++ 0 :: rest) = some chars := by
  induction chars with
  | nil => rfl
  | cons char chars inductionHypothesis =>
    have notNul : char ≠ 0 := fun same => noNul (same ▸ List.mem_cons_self)
    have later := inductionHypothesis fun member => noNul (List.mem_cons_of_mem char member)
    rw [List.cons_append, text, if_neg notNul, later]
    rfl

/-- A string is empty in front of a NUL, or goes on behind its first character. -/
theorem text_cons (char : UInt8) (rest chars : List UInt8)
    (holds : text (char :: rest) = some chars) :
    (char = 0 ∧ chars = []) ∨
      (char ≠ 0 ∧ ∃ later, text rest = some later ∧ chars = char :: later) := by
  by_cases nul : char = 0
  · rw [text, if_pos nul] at holds
    exact Or.inl ⟨nul, (Option.some.inj holds).symm⟩
  · rw [text, if_neg nul] at holds
    obtain ⟨later, found, same⟩ := Option.map_eq_some_iff.mp holds
    exact Or.inr ⟨nul, later, found, same.symm⟩

/-- A string has no NUL, and one follows it. -/
theorem text_split (array chars : List UInt8) (holds : text array = some chars) :
    0 ∉ chars ∧ ∃ rest, array = chars ++ 0 :: rest := by
  induction array generalizing chars with
  | nil => cases holds
  | cons char array inductionHypothesis =>
    rcases text_cons char array chars holds with ⟨rfl, rfl⟩ | ⟨nul, later, found, rfl⟩
    · exact ⟨List.not_mem_nil, array, rfl⟩
    · obtain ⟨noNul, rest, rfl⟩ := inductionHypothesis later found
      refine ⟨?_, rest, rfl⟩
      intro member
      rcases List.mem_cons.mp member with same | inLater
      · exact nul same.symm
      · exact noNul inLater

/-- Without a NUL there is no string. -/
theorem text_unterminated (array : List UInt8) (noNul : 0 ∉ array) : text array = none := by
  cases holds : text array with
  | none => rfl
  | some chars =>
    obtain ⟨-, rest, rfl⟩ := text_split array chars holds
    exact absurd (List.mem_append_right chars List.mem_cons_self) noNul

/-- A string is shorter than its array. -/
theorem text_length (array chars : List UInt8) (holds : text array = some chars) :
    chars.length < array.length := by
  obtain ⟨-, rest, rfl⟩ := text_split array chars holds
  rw [List.length_append, List.length_cons]
  omega

/-- What is copied of a string is its start. -/
theorem taken_text (count : Nat) (array chars : List UInt8) (holds : text array = some chars) :
    taken count array = some (chars.take count) := by
  induction array generalizing count chars with
  | nil => cases holds
  | cons char array inductionHypothesis =>
    cases count with
    | zero => rfl
    | succ count =>
      rcases text_cons char array chars holds with ⟨nul, rfl⟩ | ⟨nul, later, found, rfl⟩
      · rw [taken, if_pos nul]
        rfl
      · rw [taken, if_neg nul, inductionHypothesis count later found]
        rfl

/-- A padded string has the length it is padded to. -/
theorem padded_length (chars : List UInt8) (count : Nat) : (padded chars count).length = count := by
  rw [padded, List.length_append, List.length_take, List.length_replicate]
  omega

/-- Only the characters that are copied matter. -/
theorem padded_take (chars : List UInt8) (count : Nat) :
    padded (chars.take count) count = padded chars count := by
  rw [padded, padded, List.take_take, Nat.min_self, List.length_take]
  congr 2
  omega

/-- The start of what was padded is padded to its own length. -/
theorem take_padded (chars : List UInt8) (count fewer : Nat) (within : fewer ≤ count) :
    (padded chars count).take fewer = padded chars fewer := by
  rw [padded, padded, List.take_append, List.take_take, List.take_replicate, List.length_take,
    Nat.min_eq_left within]
  congr 2
  omega

/-- A string that is shorter than the count is read back from what was padded. -/
theorem text_padded (chars : List UInt8) (count : Nat) (rest : List UInt8) (noNul : 0 ∉ chars)
    (shorter : chars.length < count) : text (padded chars count ++ rest) = some chars := by
  obtain ⟨more, same⟩ := Nat.exists_eq_add_of_lt shorter
  have pads : count - chars.length = more + 1 := by omega
  rw [padded, List.take_of_length_le (Nat.le_of_lt shorter), pads, List.replicate_succ,
    List.append_assoc, List.cons_append]
  exact text_terminated chars _ noNul

/-- A string that is not longer than the count is read back if a NUL follows. -/
theorem text_padded_nul (chars : List UInt8) (count : Nat) (rest : List UInt8) (noNul : 0 ∉ chars)
    (within : chars.length ≤ count) : text (padded chars count ++ 0 :: rest) = some chars := by
  rcases Nat.lt_or_eq_of_le within with shorter | whole
  · exact text_padded chars count (0 :: rest) noNul shorter
  · have noPadding : padded chars count = chars := by
      rw [padded, ← whole, List.take_length, Nat.sub_self, List.replicate_zero, List.append_nil]
    rw [noPadding]
    exact text_terminated chars rest noNul

/-- A comparison with a string that is shorter than the count is one of the whole
strings. -/
theorem sameUpTo_shorter (left right : List UInt8) (count : Nat) (shorter : right.length < count) :
    sameUpTo left right count = true ↔ left = right := by
  rw [sameUpTo, decide_eq_true_iff, List.take_of_length_le (Nat.le_of_lt shorter)]
  constructor
  · intro same
    have length := congrArg List.length same
    rw [List.length_take] at length
    rwa [List.take_of_length_le (by omega)] at same
  · rintro rfl
    exact List.take_of_length_le (Nat.le_of_lt shorter)

/-- Characters that fit are written. -/
theorem put_within (array : List UInt8) (offset : Nat) (chars : List UInt8)
    (within : offset + chars.length ≤ array.length) :
    put array offset chars =
      some (array.take offset ++ chars ++ array.drop (offset + chars.length)) :=
  if_pos within

/-- A write does not change the size of the array. -/
theorem put_length (array : List UInt8) (offset : Nat) (chars written : List UInt8)
    (done : put array offset chars = some written) : written.length = array.length := by
  by_cases within : offset + chars.length ≤ array.length
  · rw [put_within array offset chars within] at done
    obtain rfl := Option.some.inj done
    rw [List.length_append, List.length_append, List.length_take, List.length_drop]
    omega
  · rw [put, if_neg within] at done
    cases done

/-- A NUL written into a string cuts it there. -/
theorem put_nul (array : List UInt8) (offset stop : Nat) (chars : List UInt8)
    (holds : text (array.drop offset) = some chars) (within : stop ≤ chars.length) :
    ∃ written, put array (offset + stop) [0] = some written ∧
      text (written.drop offset) = some (chars.take stop) := by
  have inside := text_length _ _ holds
  rw [List.length_drop] at inside
  have fits : offset + stop + [(0 : UInt8)].length ≤ array.length := by
    rw [List.length_singleton]
    omega
  refine ⟨_, put_within array (offset + stop) [0] fits, ?_⟩
  obtain ⟨noNul, behind, split⟩ := text_split _ chars holds
  have front : (array.take (offset + stop)).drop offset = chars.take stop := by
    rw [← List.take_drop, split, List.take_append_of_le_length within]
  rw [List.append_assoc, List.drop_append_of_le_length (by rw [List.length_take]; omega), front]
  exact text_terminated _ _ fun member => noNul (List.mem_of_mem_take member)

/-- `strncpy` writes as many characters as it is told, whatever the string. -/
theorem strncpy_text (array : List UInt8) (offset : Nat) (source chars : List UInt8) (count : Nat)
    (holds : text source = some chars) (within : offset + count ≤ array.length) :
    strncpy array offset source count =
      some (array.take offset ++ padded chars count ++ array.drop (offset + count)) := by
  rw [strncpy, taken_text count source chars holds, Option.bind_some, padded_take,
    put_within _ _ _ (by rw [padded_length]; exact within), padded_length]

/-- A copy into an array that ends with a NUL of its own. -/
theorem strncpy_again (old chars : List UInt8) (count : Nat) (noNul : 0 ∉ chars) :
    strncpy (padded old count ++ [0]) 0 (chars ++ [0]) count =
      some (padded chars count ++ [0]) := by
  have within : 0 + count ≤ (padded old count ++ [0]).length := by
    rw [List.length_append, padded_length]
    omega
  rw [strncpy_text _ 0 _ chars count (text_terminated chars [] noNul) within, Nat.zero_add,
    List.drop_left' (padded_length old count), List.take_zero, List.nil_append]

/-- A string that is shorter than the count is read back from the array. -/
theorem strncpy_shorter (array source chars : List UInt8) (count : Nat)
    (holds : text source = some chars) (within : count ≤ array.length)
    (shorter : chars.length < count) :
    ∃ written, strncpy array 0 source count = some written ∧ text written = some chars ∧
      written.length = array.length := by
  refine ⟨padded chars count ++ array.drop count, ?_, ?_, ?_⟩
  · rw [strncpy_text array 0 source chars count holds (by omega), List.take_zero, List.nil_append,
      Nat.zero_add]
  · exact text_padded chars count _ (text_split source chars holds).1 shorter
  · rw [List.length_append, padded_length, List.length_drop]
    omega

/-- `strncat` has a result exactly if both strings and a NUL fit the array, and then
they stand behind each other. -/
theorem strncat_text (array old source chars : List UInt8) (count : Nat)
    (present : text array = some old) (holds : text source = some chars) :
    (old.length + (chars.take count).length + 1 ≤ array.length →
      ∃ written, strncat array source count = some written ∧
        text written = some (old ++ chars.take count) ∧ written.length = array.length) ∧
    (¬ old.length + (chars.take count).length + 1 ≤ array.length →
      strncat array source count = none) := by
  have appended : strncat array source count = put array old.length (chars.take count ++ [0]) := by
    rw [strncat, present, Option.bind_some, taken_text count source chars holds, Option.bind_some]
  have length : (chars.take count ++ [0]).length = (chars.take count).length + 1 := by
    rw [List.length_append, List.length_singleton]
  rw [appended]
  constructor
  · intro fits
    have within : old.length + (chars.take count ++ [0]).length ≤ array.length := by omega
    have done := put_within array old.length (chars.take count ++ [0]) within
    refine ⟨_, done, ?_, put_length _ _ _ _ done⟩
    obtain ⟨noNul, rest, rfl⟩ := text_split array old present
    have front : (old ++ 0 :: rest).take old.length = old := List.take_left
    rw [front, ← List.append_assoc, List.append_assoc _ [0], List.singleton_append]
    apply text_terminated
    intro member
    rcases List.mem_append.mp member with inOld | inNew
    · exact noNul inOld
    · exact (text_split source chars holds).1 (List.mem_of_mem_take inNew)
  · intro tooLong
    exact if_neg (by omega)

/-- `strncat` of a whole string. -/
theorem strncat_whole (array old source chars : List UInt8) (count : Nat)
    (present : text array = some old) (holds : text source = some chars)
    (whole : chars.length ≤ count) :
    (old.length + chars.length + 1 ≤ array.length →
      ∃ written, strncat array source count = some written ∧
        text written = some (old ++ chars) ∧ written.length = array.length) ∧
    (¬ old.length + chars.length + 1 ≤ array.length → strncat array source count = none) := by
  have appends := strncat_text array old source chars count present holds
  rwa [List.take_of_length_le whole] at appends

/-- A string as long as the count keeps the NUL away from the copy. -/
theorem strncpy_unterminated (array source chars written old : List UInt8) (count : Nat)
    (holds : text source = some chars) (within : count ≤ array.length)
    (whole : count ≤ chars.length) (copied : strncpy array 0 source count = some written)
    (present : text written = some old) : count ≤ old.length := by
  obtain ⟨noNul, -⟩ := text_split source chars holds
  rw [strncpy_text array 0 source chars count holds (by omega)] at copied
  obtain rfl := Option.some.inj copied
  have noPadding : padded chars count = chars.take count := by
    rw [padded, Nat.sub_eq_zero_of_le whole, List.replicate_zero, List.append_nil]
  obtain ⟨-, rest, split⟩ := text_split _ old present
  rw [List.take_zero, List.nil_append, noPadding, Nat.zero_add] at split
  by_contra shorter
  have inCopy : 0 ∈ chars.take count := by
    have here : (chars.take count ++ array.drop count)[old.length]? = some 0 := by
      rw [split, List.getElem?_append_right (Nat.le_refl _), Nat.sub_self]
      rfl
    have length : (chars.take count).length = count := by
      rw [List.length_take, Nat.min_eq_left whole]
    rw [List.getElem?_append_left (by omega)] at here
    exact List.mem_of_getElem? here
  exact noNul (List.mem_of_mem_take inCopy)

/-- An array of a given size with a string in it. -/
structure CharArray (size : Nat) where
  contents : List UInt8
  length : contents.length = size
  terminated : (text contents).isSome = true

/-- The string in the array. -/
def CharArray.string {size : Nat} (array : CharArray size) : List UInt8 :=
  (text array.contents).get array.terminated

/-- The array holds its string. -/
theorem CharArray.holds {size : Nat} (array : CharArray size) :
    text array.contents = some array.string :=
  (Option.some_get array.terminated).symm

/-- The string leaves room for its NUL. -/
theorem CharArray.shorter {size : Nat} (array : CharArray size) : array.string.length < size := by
  have shorter := text_length array.contents array.string array.holds
  rwa [array.length] at shorter

/-- A string that leaves room for a NUL, in an array filled up with NULs. -/
def CharArray.ofString (size : Nat) (chars : List UInt8) (noNul : 0 ∉ chars)
    (shorter : chars.length < size) : CharArray size where
  contents := padded chars size
  length := padded_length chars size
  terminated := by
    have holds := text_padded chars size [] noNul shorter
    rw [List.append_nil] at holds
    rw [holds]
    rfl

/-- No NUL is among no characters. -/
theorem nil_noNul : (0 : UInt8) ∉ [] := List.not_mem_nil

/-- An array that is filled with NULs, up to its last index. -/
def CharArray.cleared (last : Nat) : CharArray (last + 1) :=
  .ofString (last + 1) [] nil_noNul (Nat.succ_pos last)

/-- An array that is made of a string holds it. -/
theorem CharArray.ofString_string (size : Nat) (chars : List UInt8) (noNul : 0 ∉ chars)
    (shorter : chars.length < size) :
    (CharArray.ofString size chars noNul shorter).string = chars := by
  have holds := text_padded chars size [] noNul shorter
  rw [List.append_nil] at holds
  exact Option.some.inj ((CharArray.holds _).symm.trans holds)

end Evlpc.Library.CStrings
