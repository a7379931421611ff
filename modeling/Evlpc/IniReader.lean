import Evlpc.IniDump
import Evlpc.Library.Folds

/-!
# Looking up values of a configuration file

`INIReader` keeps the values of a file under keys made of the section and the name in lower
case, and joins the values of one key with line feeds. Names have no `=`, so the keys tell
sections and names apart, and a lookup finds what the entries of the file give, whatever
the case of the letters.
-/

namespace Evlpc.Inih

open Library CStrings Scanning

/-- `tolower`. -/
def tolower (char : UInt8) : UInt8 := if 65 ≤ char && char ≤ 90 then char + 32 else char

/-- `MakeKey`. -/
def makeKey (sectionName name : List UInt8) : List UInt8 :=
  (sectionName ++ equalsSign :: name).map tolower

/-- `_values`: what the keys of a `std::map` are mapped to. -/
abbrev Values := List UInt8 → Option (List UInt8)

/-- What stands under a key when a value is joined to it. -/
def joinValue (held value : List UInt8) : List UInt8 :=
  (if 0 < held.length then held ++ [lineFeed] else held) ++ value

/-- The values with that of an entry. A key that is not there yet is inserted with an empty
string. -/
def storeValue (values : Values) (entry : IniEntry) : Values :=
  let key := makeKey entry.sectionName.chars entry.name.chars
  fun other =>
    if other = key then some (joinValue ((values key).getD []) entry.value.chars)
    else values other

/-- `ValueHandler`. -/
def valueHandler : Handler Values := fun values entry => some (storeValue values entry, 1)

/-- `INIReader`. -/
structure Reader where
  error : Int
  values : Values

/-- The constructor, with the file if it can be opened. -/
def openReader (file : Option (List UInt8)) : Option Reader :=
  (iniParse valueHandler file fun _ => none).map fun parsed => ⟨parsed.1, parsed.2⟩

/-- `Get`. -/
def Reader.get (reader : Reader) (sectionName name defaultValue : List UInt8) : List UInt8 :=
  (reader.values (makeKey sectionName name)).getD defaultValue

/-- The entry has this section and name but for the case of letters. -/
def Named (sectionName name : List UInt8) (entry : IniEntry) : Prop :=
  entry.sectionName.chars.map tolower = sectionName.map tolower ∧
    entry.name.chars.map tolower = name.map tolower

instance (sectionName name : List UInt8) : DecidablePred (Named sectionName name) := fun _ =>
  inferInstanceAs (Decidable (_ ∧ _))

/-- The values that a file gives a section and a name. -/
def valuesOf (given : List IniEntry) (sectionName name : List UInt8) : List (List UInt8) :=
  (given.filter (Named sectionName name ·)).map fun entry => entry.value.chars

/-- Values on lines of their own, without the empty ones in front. -/
def joinedValues (values : List (List UInt8)) : List UInt8 :=
  List.intercalate [lineFeed] (values.dropWhile List.isEmpty)

section Keys

/-- Only the equals sign becomes one in lower case. -/
theorem tolower_equalsSign (char : UInt8) (same : tolower char = equalsSign) :
    char = equalsSign := by
  by_cases upper : (65 ≤ char && char ≤ 90) = true
  · rw [tolower, if_pos upper] at same
    rw [Bool.and_eq_true, decide_eq_true_iff, decide_eq_true_iff, UInt8.le_iff_toNat_le,
      UInt8.le_iff_toNat_le] at upper
    have number := congrArg UInt8.toNat same
    rw [UInt8.toNat_add] at number
    have least : (65 : UInt8).toNat = 65 := rfl
    have most : (90 : UInt8).toNat = 90 := rfl
    have distance : (32 : UInt8).toNat = 32 := rfl
    have separator : equalsSign.toNat = 61 := rfl
    omega
  · rwa [tolower, if_neg upper] at same

/-- Text around the last separator is told apart. -/
theorem separated_inj (left right otherLeft otherRight : List UInt8)
    (last : equalsSign ∉ right) (otherLast : equalsSign ∉ otherRight)
    (same : left ++ equalsSign :: right = otherLeft ++ equalsSign :: otherRight) :
    left = otherLeft ∧ right = otherRight := by
  rcases List.append_eq_append_iff.mp same with ⟨more, whole, rest⟩ | ⟨more, whole, rest⟩
  · cases more with
    | nil =>
      rw [List.nil_append] at rest
      rw [List.append_nil] at whole
      exact ⟨whole.symm, (List.cons.inj rest).2⟩
    | cons char more =>
      have inside : equalsSign ∈ right := by
        rw [(List.cons.inj rest).2]
        exact List.mem_append_right more List.mem_cons_self
      exact absurd inside last
  · cases more with
    | nil =>
      rw [List.nil_append] at rest
      rw [List.append_nil] at whole
      exact ⟨whole, (List.cons.inj rest).2.symm⟩
    | cons char more =>
      have inside : equalsSign ∈ otherRight := by
        rw [(List.cons.inj rest).2]
        exact List.mem_append_right more List.mem_cons_self
      exact absurd inside otherLast

/-- A name without an equals sign has none in lower case. -/
theorem lower_unseparated (name : List UInt8) (noSeparator : equalsSign ∉ name) :
    equalsSign ∉ name.map tolower := by
  intro member
  obtain ⟨char, inName, same⟩ := List.mem_map.mp member
  exact noSeparator (tolower_equalsSign char same ▸ inName)

/-- Names without a separator have the same key exactly if they are the same in lower
case, in sections that are. -/
theorem makeKey_iff (entry : IniEntry) (sectionName name : List UInt8)
    (noSeparator : equalsSign ∉ entry.name.chars) (alsoNone : equalsSign ∉ name) :
    makeKey sectionName name = makeKey entry.sectionName.chars entry.name.chars ↔
      Named sectionName name entry := by
  have separator : tolower equalsSign = equalsSign := rfl
  rw [makeKey, makeKey, List.map_append, List.map_append, List.map_cons, List.map_cons, separator]
  constructor
  · intro same
    obtain ⟨sections, names⟩ := separated_inj _ _ _ _ (lower_unseparated name alsoNone)
      (lower_unseparated _ noSeparator) same
    exact ⟨sections.symm, names.symm⟩
  · rintro ⟨sections, names⟩
    rw [sections, names]

/-- The names that the parser gives have no separator. -/
theorem entries_unseparated (file : List UInt8) :
    ∀ entry ∈ entries file, equalsSign ∉ entry.name.chars := by
  intro entry member
  have name := (entries_wellFormed file entry member).name
  refine not_mem_free _ _ _ _ name.opened equalsSign fun after => ?_
  rw [stopsAt, Bool.or_eq_true]
  exact Or.inl (decide_eq_true rfl)

end Keys

section Joining

/-- Values behind one that is not empty stand on lines of their own. -/
theorem foldl_joinValue (held : List UInt8) (values : List (List UInt8)) (notEmpty : held ≠ []) :
    values.foldl joinValue held = List.intercalate [lineFeed] (held :: values) := by
  induction values generalizing held with
  | nil => exact (List.append_nil held).symm
  | cons value values inductionHypothesis =>
    have joined : joinValue held value = held ++ [lineFeed] ++ value := by
      rw [joinValue, if_pos (List.length_pos_iff.mpr notEmpty)]
    have goesOn : held ++ [lineFeed] ++ value ≠ [] := by
      intro empty
      exact notEmpty (List.append_eq_nil_iff.mp (List.append_eq_nil_iff.mp empty).1).1
    rw [List.foldl_cons, joined, inductionHypothesis _ goesOn]
    cases values with
    | nil => simp [List.intercalate]
    | cons next values => simp [List.intercalate]

/-- Storing one value after the other joins them. -/
theorem foldl_joined (values : List (List UInt8)) :
    values.foldl joinValue [] = joinedValues values := by
  induction values with
  | nil => rfl
  | cons value values inductionHypothesis =>
    by_cases empty : value = []
    · rw [empty]
      exact inductionHypothesis
    · have solid : ¬ value.isEmpty = true := fun none => empty (List.isEmpty_iff.mp none)
      rw [List.foldl_cons, joinedValues, List.dropWhile_cons_of_neg solid]
      exact foldl_joinValue value values empty

/-- What stands under a key when values are joined to it one after the other. -/
theorem foldl_stored (given : List IniEntry) :
    given.foldl (fun held entry => some (joinValue (Option.getD held []) entry.value.chars)) none =
      if given = [] then none
      else some (joinedValues (given.map fun entry => entry.value.chars)) := by
  have stored (held : List UInt8) (given : List IniEntry) :
      given.foldl (fun held entry => some (joinValue (Option.getD held []) entry.value.chars))
          (some held) = some ((given.map fun entry => entry.value.chars).foldl joinValue held) := by
    induction given generalizing held with
    | nil => rfl
    | cons entry later inductionHypothesis => exact inductionHypothesis _
  cases given with
  | nil => rfl
  | cons entry later =>
    rw [if_neg (List.cons_ne_nil entry later), ← foldl_joined, List.foldl_cons]
    exact stored _ later

end Joining

section Looking

/-- The handler of the reader takes every entry. -/
theorem handleAll_values (values : Values) (given : List IniEntry) :
    handleAll valueHandler values given =
      some (given.foldl storeValue values, List.replicate given.length 1) := by
  induction given generalizing values with
  | nil => rfl
  | cons entry later inductionHypothesis =>
    simp only [handleAll, valueHandler, Option.bind_eq_bind, Option.bind_some]
    rw [inductionHypothesis]
    rfl

/-- What stands under a key is joined of the values whose entries have it. -/
theorem stored_values (given : List IniEntry) (sectionName name : List UInt8)
    (noSeparators : ∀ entry ∈ given, equalsSign ∉ entry.name.chars)
    (noSeparator : equalsSign ∉ name) :
    given.foldl storeValue (fun _ => none) (makeKey sectionName name) =
      if valuesOf given sectionName name = [] then none
      else some (joinedValues (valuesOf given sectionName name)) := by
  have folded := foldl_view storeValue
    (fun values : Values => values (makeKey sectionName name))
    (fun held entry => some (joinValue (held.getD []) entry.value.chars))
    (fun entry => makeKey sectionName name = makeKey entry.sectionName.chars entry.name.chars)
    (fun values entry same => (if_pos same).trans (by rw [same]))
    (fun values entry different => if_neg different) (fun _ => none) given
  refine folded.trans ?_
  have relevant : given.filter (fun entry =>
      decide (makeKey sectionName name = makeKey entry.sectionName.chars entry.name.chars)) =
      given.filter (Named sectionName name ·) :=
    List.filter_congr fun entry member => decide_eq_decide.mpr
      (makeKey_iff entry sectionName name (noSeparators entry member) noSeparator)
  rw [relevant, foldl_stored, valuesOf]
  simp only [List.map_eq_nil_iff]

/-- What an opened file gives a lookup: the joined values, or the default. -/
def Reader.Holds (reader : Reader) (file : List UInt8) : Prop :=
  ∀ sectionName name defaultValue, equalsSign ∉ name →
    reader.get sectionName name defaultValue =
      if valuesOf (entries file) sectionName name = [] then defaultValue
      else joinedValues (valuesOf (entries file) sectionName name)

/-- A file that can be opened is held with all its values. -/
theorem openReader_holds (file : List UInt8) :
    ∃ reader, openReader (some file) = some reader ∧ reader.Holds file ∧
      (reader.error = 0 ↔ Clean file) := by
  have handled := handleAll_values (fun _ => none) (entries file)
  have parsed : iniParse valueHandler (some file) (fun _ => none) =
      some ((firstError (fileEvents file) (List.replicate (entries file).length 1) : Int),
        (entries file).foldl storeValue fun _ => none) := by
    rw [iniParse, iniParseFile_events, handleEvents]
    refine (congrArg (Option.map _) ((congrArg (Option.map _) handled).trans
      (Option.map_some ..))).trans ?_
    rfl
  refine ⟨_, congrArg (Option.map _) parsed, ?_, ?_⟩
  · intro sectionName name defaultValue noSeparator
    have stored := stored_values (entries file) sectionName name (entries_unseparated file)
      noSeparator
    simp only [Reader.get]
    rw [stored]
    split <;> rfl
  · have zero := firstError_zero (fileEvents file) (List.replicate (entries file).length 1)
      List.length_replicate (fun event member =>
        Nat.ne_of_gt (events_numbered fileStart 0 (fileLines file) event member).1)
    have accepted : ∀ result ∈ List.replicate (entries file).length (1 : Int32), result ≠ 0 := by
      intro result member
      rw [List.eq_of_mem_replicate member]
      decide
    constructor
    · intro noError
      exact (zero.mp (Int.natCast_eq_zero.mp noError)).1
    · intro clean
      exact Int.natCast_eq_zero.mpr (zero.mpr ⟨clean, accepted⟩)

/-- A lookup in an opened file finds the values of all entries with the section and the
name, in any case, one on each line from the first that is not empty, or else the default.
The error is the number of the first malformed line, if there is one. -/
theorem reader_get (file sectionName name defaultValue : List UInt8)
    (noSeparator : equalsSign ∉ name) :
    ∃ reader, openReader (some file) = some reader ∧
      reader.get sectionName name defaultValue =
        (if valuesOf (entries file) sectionName name = [] then defaultValue
          else joinedValues (valuesOf (entries file) sectionName name)) ∧
      (reader.error = 0 ↔ Clean file) := by
  obtain ⟨reader, opened, holds, clean⟩ := openReader_holds file
  exact ⟨reader, opened, holds sectionName name defaultValue noSeparator, clean⟩

end Looking

/-- `F` of the section `e` in a file with `b=c ;d`, an empty line, `[e]` and `f: g`. The
name `b` stands in another section. -/
theorem reader_get_commented :
    (∃ reader, openReader (some commentedFile) = some reader ∧
      reader.get [101] [70] [] = [103] ∧ reader.error = 0) ∧
    ∃ reader, openReader (some commentedFile) = some reader ∧
      reader.get [101] [98] [45] = [45] := by
  obtain ⟨same, clean⟩ := calls_of_events _ _ commentedFile_events
  constructor
  · obtain ⟨reader, opened, found, noError⟩ := reader_get commentedFile [101] [70] [] (by decide)
    rw [entries, same] at found
    exact ⟨reader, opened, found.trans (by decide), noError.mpr clean⟩
  · obtain ⟨reader, opened, found, -⟩ := reader_get commentedFile [101] [98] [45] (by decide)
    rw [entries, same] at found
    exact ⟨reader, opened, found.trans (by decide)⟩

end Evlpc.Inih
