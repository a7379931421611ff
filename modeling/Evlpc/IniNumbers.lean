import Evlpc.IniReader
import Evlpc.Library.Numerals

/-!
# Numbers and switches of a configuration file

`GetInteger` reads a number at the start of what a lookup finds, and `GetBoolean` compares
all of it with some words. What several lines give is joined, so that a repeated key is read
as its first value by the one and not at all by the other.
-/

namespace Evlpc.Inih

open Library CStrings Scanning Numerals

/-- `GetInteger`. -/
def Reader.getInteger (reader : Reader) (sectionName name : List UInt8) (defaultValue : Int) :
    Int :=
  let value := reader.get sectionName name []
  let parsed := strtolPrefixed value
  if 0 < parsed.2 then parsed.1 else defaultValue

/-- `true`, `yes`, `on` and `1`. -/
def trueWords : List (List UInt8) :=
  [[116, 114, 117, 101], [121, 101, 115], [111, 110], [49]]

/-- `false`, `no`, `off` and `0`. -/
def falseWords : List (List UInt8) :=
  [[102, 97, 108, 115, 101], [110, 111], [111, 102, 102], [48]]

/-- What a word in lower case switches to. -/
def switchTo (lower : List UInt8) (defaultValue : Bool) : Bool :=
  if lower ∈ trueWords then true else if lower ∈ falseWords then false else defaultValue

/-- `GetBoolean`. -/
def Reader.getBoolean (reader : Reader) (sectionName name : List UInt8) (defaultValue : Bool) :
    Bool :=
  switchTo ((reader.get sectionName name []).map tolower) defaultValue

/-- The first value that is not empty. -/
def firstValue (values : List (List UInt8)) : List UInt8 := (values.dropWhile List.isEmpty).headD []

/-- The only value, but for empty ones in front of it. -/
def onlyValue (values : List (List UInt8)) : Option (List UInt8) :=
  match values.dropWhile List.isEmpty with
  | [value] => some value
  | _ => none

section Joined

variable (values : List (List UInt8))

/-- Joined values are nothing, the first of them, or this one and further lines. -/
theorem joinedValues_cases :
    (joinedValues values = [] ∧ firstValue values = [] ∧ onlyValue values = none) ∨
      firstValue values ≠ [] ∧ firstValue values ∈ values ∧
        ((joinedValues values = firstValue values ∧
            onlyValue values = some (firstValue values)) ∨
          ∃ later, joinedValues values = firstValue values ++ lineFeed :: later ∧
            onlyValue values = none) := by
  have members : ∀ value ∈ values.dropWhile List.isEmpty, value ∈ values :=
    fun value member => (List.dropWhile_sublist _).mem member
  have solid := solidStart_dropWhile List.isEmpty values
  rw [joinedValues, firstValue, onlyValue]
  generalize values.dropWhile List.isEmpty = kept at members solid ⊢
  cases kept with
  | nil => exact Or.inl ⟨rfl, rfl, rfl⟩
  | cons value kept =>
    have notEmpty : value ≠ [] := by
      rintro rfl
      cases solid [] rfl
    refine Or.inr ⟨notEmpty, members value List.mem_cons_self, ?_⟩
    cases kept with
    | nil => exact Or.inl ⟨List.append_nil value, rfl⟩
    | cons next later =>
      refine Or.inr ⟨List.intercalate [lineFeed] (next :: later), ?_, rfl⟩
      simp [List.intercalate]

/-- Joined values have the number of the first one. -/
theorem strtolPrefixed_joined (solid : ∀ value ∈ values, SolidStart isspace value) :
    strtolPrefixed (joinedValues values) = strtolPrefixed (firstValue values) := by
  rcases joinedValues_cases values with ⟨joined, first, -⟩ | ⟨notEmpty, member, single | several⟩
  · rw [joined, first]
  · rw [single.1]
  · obtain ⟨later, joined, -⟩ := several
    rw [joined]
    exact strtolPrefixed_before lineFeed rfl later _ notEmpty (solid _ member)

/-- No word of a switch has a line feed in it, and none is empty. -/
theorem switchTo_unknown (lower : List UInt8) (defaultValue : Bool)
    (unknown : lower = [] ∨ lineFeed ∈ lower) : switchTo lower defaultValue = defaultValue := by
  have words : ∀ word ∈ trueWords ++ falseWords, word ≠ [] ∧ lineFeed ∉ word := by
    decide
  have notWord : lower ∉ trueWords ++ falseWords := by
    intro member
    obtain ⟨notEmpty, noLineFeed⟩ := words lower member
    exact unknown.elim notEmpty noLineFeed
  obtain ⟨notTrue, notFalse⟩ := not_or.mp fun either => notWord (List.mem_append.mpr either)
  rw [switchTo, if_neg notTrue, if_neg notFalse]

/-- Joined values switch only as an only value does. -/
theorem switchTo_joined (defaultValue : Bool) :
    switchTo ((joinedValues values).map tolower) defaultValue =
      (onlyValue values).elim defaultValue fun value =>
        switchTo (value.map tolower) defaultValue := by
  rcases joinedValues_cases values with ⟨joined, -, only⟩ | ⟨-, -, ⟨joined, only⟩ | several⟩
  · rw [joined, only]
    exact switchTo_unknown [] defaultValue (Or.inl rfl)
  · rw [joined, only]
    rfl
  · obtain ⟨later, joined, only⟩ := several
    rw [joined, only]
    refine switchTo_unknown _ defaultValue (Or.inr ?_)
    rw [List.map_append, List.map_cons]
    exact List.mem_append_right _ List.mem_cons_self

end Joined

section Reading

variable (file sectionName name : List UInt8)

/-- The values of a file start with something that is no white space. -/
theorem valuesOf_solid :
    ∀ value ∈ valuesOf (entries file) sectionName name, SolidStart isspace value := by
  intro value member
  obtain ⟨entry, given, rfl⟩ := List.mem_map.mp member
  exact (entries_wellFormed file entry (List.mem_filter.mp given).1).value.solidStart

/-- An unknown key reads as an empty string. -/
theorem get_empty (reader : Reader) (holds : reader.Holds file) (noSeparator : equalsSign ∉ name) :
    reader.get sectionName name [] = joinedValues (valuesOf (entries file) sectionName name) := by
  rw [holds sectionName name [] noSeparator]
  split
  · next none =>
    rw [none]
    rfl
  · rfl

/-- `GetInteger` finds the number at the start of the first value that is not empty, whatever
values follow, or else the default. Numbers in every base are read, as far as a `long` can
hold them. -/
theorem get_integer (noSeparator : equalsSign ∉ name) :
    ∃ reader, openReader (some file) = some reader ∧
      (∀ defaultValue, reader.getInteger sectionName name defaultValue =
        if 0 < (strtolPrefixed (firstValue (valuesOf (entries file) sectionName name))).2 then
          (strtolPrefixed (firstValue (valuesOf (entries file) sectionName name))).1
        else defaultValue) ∧
      ∀ (negative : Bool) (radix : Radix) (number : Nat) (defaultValue : Int),
        firstValue (valuesOf (entries file) sectionName name) =
          signMark negative ++ (radix.mark ++ numeral radix.base number) →
        reader.getInteger sectionName name defaultValue = longOf negative number := by
  obtain ⟨reader, opened, holds, -⟩ := openReader_holds file
  have read (defaultValue : Int) : reader.getInteger sectionName name defaultValue =
      if 0 < (strtolPrefixed (firstValue (valuesOf (entries file) sectionName name))).2 then
        (strtolPrefixed (firstValue (valuesOf (entries file) sectionName name))).1
      else defaultValue := by
    simp only [Reader.getInteger]
    rw [get_empty file sectionName name reader holds noSeparator,
      strtolPrefixed_joined _ (valuesOf_solid file sectionName name)]
  refine ⟨reader, opened, read, ?_⟩
  intro negative radix number defaultValue written
  obtain ⟨digit, rest, marked, -⟩ := marked_first radix number
  rw [read, written, strtolPrefixed_numeral]
  have notEmpty : 0 < (signMark negative ++ (radix.mark ++ numeral radix.base number)).length := by
    rw [marked, List.length_append, List.length_cons]
    omega
  exact if_pos notEmpty

/-- `GetBoolean` finds a switch only in an only value, and else the default, also for a key
that is repeated with the same word. -/
theorem get_boolean (noSeparator : equalsSign ∉ name) :
    ∃ reader, openReader (some file) = some reader ∧
      ∀ defaultValue, reader.getBoolean sectionName name defaultValue =
        (onlyValue (valuesOf (entries file) sectionName name)).elim defaultValue fun value =>
          switchTo (value.map tolower) defaultValue := by
  obtain ⟨reader, opened, holds, -⟩ := openReader_holds file
  refine ⟨reader, opened, fun defaultValue => ?_⟩
  rw [Reader.getBoolean, get_empty file sectionName name reader holds noSeparator,
    switchTo_joined]

end Reading

/-- `[a]`, `B=-0x1f` and `b=on`. -/
def repeatedFile : List UInt8 :=
  [91, 97, 93, 10, 66, 61, 45, 48, 120, 49, 102, 10, 98, 61, 111, 110, 10]

/-- The repeated key is a number but no switch. -/
theorem get_integer_repeated :
    ∃ reader, openReader (some repeatedFile) = some reader ∧
      reader.getInteger [97] [98] 5 = -31 := by
  obtain ⟨reader, opened, -, written⟩ := get_integer repeatedFile [97] [98] (by decide)
  exact ⟨reader, opened, written true .hexadecimal 31 5 (by decide +kernel)⟩

/-- The value is given twice, and so it reads as the default. -/
theorem get_boolean_repeated :
    ∃ reader, openReader (some repeatedFile) = some reader ∧
      reader.getBoolean [97] [98] false = false := by
  obtain ⟨reader, opened, switches⟩ := get_boolean repeatedFile [97] [98] (by decide)
  have none : onlyValue (valuesOf (entries repeatedFile) [97] [98]) = none := by
    decide +kernel
  refine ⟨reader, opened, ?_⟩
  rw [switches, none]
  rfl

end Evlpc.Inih
