import Evlpc.Library.CStrings

/-!
# Command lines

For each process the service monitor builds its arguments in two arrays on the stack
and the path of its binary in a third one, before it launches it. The strings it puts
together are fields that were read from the configuration, each terminated within its
own size.

`strncat` is given the size of the destination, not the space that is left in it, so
it does not keep the result within the array.
-/

namespace Evlpc

open Library CStrings

/-- The strings of a process that the configuration gives: the fields of
`ProcessInfoNode_t` that `read_processes` reads. -/
structure ProcessStrings where
  name : CharArray 32
  instanceId : CharArray 8
  defaultPort : CharArray 8
  binary : CharArray 64
  dir : CharArray 128
  args : CharArray 128
  overrideArgs : CharArray 128

/-- The arrays of a launch: `args`, `pargs` and `fullpath`. -/
structure LaunchArrays where
  args : List UInt8
  pargs : List UInt8
  fullpath : List UInt8

/-- The size of each of them. -/
def launchArraySize : Nat := 256

/-- `" "` and `"/"`. -/
def space : List UInt8 := [32, 0]

/-- `"/"`. -/
def slash : List UInt8 := [47, 0]

/-- The characters that the `sprintf` of `read_processes` puts into `primary_args`. -/
def primaryArgsString (strings : ProcessStrings) : List UInt8 :=
  strings.name.string ++ 32 :: strings.instanceId.string ++ 32 :: strings.defaultPort.string

/-- `primary_args`, which `memset` has cleared, after the `sprintf`. -/
def sprintfPrimaryArgs (strings : ProcessStrings) : Option (List UInt8) :=
  put (List.replicate 128 0) 0 (primaryArgsString strings ++ [0])

/-- The override arguments, or the common ones if these are empty, in `args`. -/
def copyLeadingArgs (args : List UInt8) (strings : ProcessStrings) (commonArgs : CharArray 256) :
    Option (List UInt8) := do
  let args ← strncpy args 0 strings.overrideArgs.contents (launchArraySize - 1)
  let overriding ← text args
  if overriding.length = 0 then strncpy args 0 commonArgs.contents (launchArraySize - 1)
  else some args

/-- `args`: the leading arguments and those of the process. -/
def buildArgs (args : List UInt8) (strings : ProcessStrings) (commonArgs : CharArray 256) :
    Option (List UInt8) := do
  let args ← copyLeadingArgs args strings commonArgs
  let args ← strncat args space (launchArraySize - 1)
  strncat args strings.args.contents (launchArraySize - 1)

/-- `pargs`: the primary arguments and `args`. -/
def buildPargs (pargs primaryArgs args : List UInt8) : Option (List UInt8) := do
  let pargs ← strncpy pargs 0 primaryArgs (launchArraySize - 1)
  let pargs ← strncat pargs space (launchArraySize - 1)
  strncat pargs args (launchArraySize - 1)

/-- A slash behind a directory that does not end with one. -/
def addSlash (fullpath : List UInt8) : Option (List UInt8) := do
  let dir ← text fullpath
  if 0 < dir.length then
    if fullpath[dir.length - 1]? ≠ some 47 then strncat fullpath slash (launchArraySize - 1)
    else some fullpath
  else some fullpath

/-- `fullpath`: the directory and the binary. -/
def buildFullpath (fullpath : List UInt8) (strings : ProcessStrings) : Option (List UInt8) := do
  let fullpath ← strncpy fullpath 0 strings.dir.contents (launchArraySize - 1)
  let fullpath ← addSlash fullpath
  strncat fullpath strings.binary.contents (launchArraySize - 1)

/-- The strings built for a launch, in arrays with any contents. -/
def buildStrings (arrays : LaunchArrays) (primaryArgs : List UInt8) (strings : ProcessStrings)
    (commonArgs : CharArray 256) : Option LaunchArrays := do
  let args ← buildArgs arrays.args strings commonArgs
  let pargs ← buildPargs arrays.pargs primaryArgs args
  let fullpath ← buildFullpath arrays.fullpath strings
  some ⟨args, pargs, fullpath⟩

/-- The part of `launch_processes` that builds the strings for a node. -/
def launchProcessesStrings (arrays : LaunchArrays) (primaryArgs : List UInt8)
    (strings : ProcessStrings) (commonArgs : CharArray 256) : Option LaunchArrays :=
  buildStrings arrays primaryArgs strings commonArgs

/-- The same part of `launch_processes_custom_fork`. -/
def launchProcessesCustomForkStrings (arrays : LaunchArrays) (primaryArgs : List UInt8)
    (strings : ProcessStrings) (commonArgs : CharArray 256) : Option LaunchArrays :=
  buildStrings arrays primaryArgs strings commonArgs

/-- The arrays have their size. -/
structure LaunchArrays.Sized (arrays : LaunchArrays) : Prop where
  args : arrays.args.length = launchArraySize
  pargs : arrays.pargs.length = launchArraySize
  fullpath : arrays.fullpath.length = launchArraySize

/-- The `sprintf` fits `primary_args`, and with its result both launches build all
their strings within the arrays, whatever these hold before. -/
structure StaysInBuffers (strings : ProcessStrings) (commonArgs : CharArray 256) : Prop where
  primary : (sprintfPrimaryArgs strings).isSome
  launch : ∀ primaryArgs, sprintfPrimaryArgs strings = some primaryArgs →
    ∀ arrays : LaunchArrays, arrays.Sized →
      (launchProcessesStrings arrays primaryArgs strings commonArgs).isSome ∧
        (launchProcessesCustomForkStrings arrays primaryArgs strings commonArgs).isSome

/-- The arguments that precede those of the process. -/
def leadingArgs (strings : ProcessStrings) (commonArgs : CharArray 256) : List UInt8 :=
  if strings.overrideArgs.string.length = 0 then commonArgs.string else strings.overrideArgs.string

/-- The primary arguments, the leading ones and those of the process are together
shorter than an array, with a space between them. -/
def FitsCommandLine (strings : ProcessStrings) (commonArgs : CharArray 256) : Prop :=
  (primaryArgsString strings).length + 1 + (leadingArgs strings commonArgs).length + 1 +
    strings.args.string.length < launchArraySize

section Assembly

variable (strings : ProcessStrings) (commonArgs : CharArray 256)

/-- The primary arguments are short. -/
theorem primaryArgs_short : (primaryArgsString strings).length < 48 := by
  have name := strings.name.shorter
  have instanceId := strings.instanceId.shorter
  have defaultPort := strings.defaultPort.shorter
  simp only [primaryArgsString, List.length_append, List.length_cons]
  omega

/-- There is no NUL in the arguments of a process. -/
theorem primaryArgs_noNul : 0 ∉ primaryArgsString strings := by
  have noNul : ∀ {size : Nat} (array : CharArray size), 0 ∉ array.string := fun array =>
    (text_split _ _ array.holds).1
  simp [primaryArgsString, noNul]

/-- `primary_args` as an array with a string in it. -/
def primaryArgsArray : CharArray 128 :=
  .ofString 128 (primaryArgsString strings) (primaryArgs_noNul strings)
    (Nat.lt_trans (primaryArgs_short strings) (Nat.lt_of_sub_eq_succ rfl))

/-- This array is what `sprintf` writes. -/
theorem sprintfPrimaryArgs_array :
    sprintfPrimaryArgs strings = some (primaryArgsArray strings).contents := by
  have short := primaryArgs_short strings
  have length : (primaryArgsString strings ++ [0]).length =
      (primaryArgsString strings).length + 1 := List.length_append
  have within : 0 + (primaryArgsString strings ++ [0]).length ≤
      (List.replicate 128 (0 : UInt8)).length := by
    rw [length, List.length_replicate]
    omega
  have pads : 128 - (primaryArgsString strings).length =
      (128 - (0 + ((primaryArgsString strings).length + 1))) + 1 := by omega
  have contents : (primaryArgsArray strings).contents = padded (primaryArgsString strings) 128 :=
    rfl
  rw [sprintfPrimaryArgs, put_within _ 0 _ within, length, List.take_zero, List.nil_append,
    List.drop_replicate, List.append_assoc, List.singleton_append, ← List.replicate_succ, ← pads,
    contents, padded, List.take_of_length_le (Nat.le_trans (Nat.le_of_lt short) (by decide))]

/-- The array holds these arguments. -/
theorem primaryArgsArray_text :
    text (primaryArgsArray strings).contents = some (primaryArgsString strings) := by
  rw [CharArray.holds, primaryArgsArray, CharArray.ofString_string]

/-- What is in `args` before the first space: the leading arguments, or, if they leave
no room for a NUL, nothing shorter. -/
theorem leading_copied (array : List UInt8) (length : array.length = launchArraySize) :
    ∃ leading, copyLeadingArgs array strings commonArgs = some leading ∧
      leading.length = launchArraySize ∧
      (text leading = some (leadingArgs strings commonArgs) ∨
        launchArraySize - 1 ≤ (leadingArgs strings commonArgs).length ∧
          ∀ old, text leading = some old → launchArraySize - 1 ≤ old.length) := by
  have size : launchArraySize = 256 := rfl
  have overrideShort := strings.overrideArgs.shorter
  obtain ⟨copied, done, present, copiedLength⟩ := strncpy_shorter array _ _ (launchArraySize - 1)
    strings.overrideArgs.holds (by omega) (by omega)
  rw [length] at copiedLength
  simp only [copyLeadingArgs, done, Option.bind_eq_bind, Option.bind_some, present]
  by_cases empty : strings.overrideArgs.string.length = 0
  · rw [leadingArgs, if_pos empty, if_pos empty]
    by_cases short : commonArgs.string.length < launchArraySize - 1
    · obtain ⟨leading, again, common, leadingLength⟩ := strncpy_shorter copied _ _
        (launchArraySize - 1) commonArgs.holds (by omega) short
      exact ⟨leading, again, by omega, Or.inl common⟩
    · have again := strncpy_text copied 0 _ _ (launchArraySize - 1) commonArgs.holds (by omega)
      refine ⟨_, again, ?_, Or.inr ⟨by omega, ?_⟩⟩
      · rw [List.length_append, List.length_append, List.length_take, List.length_drop,
          padded_length]
        omega
      · intro old found
        exact strncpy_unterminated copied _ _ _ old _ commonArgs.holds (by omega) (by omega) again
          found
  · rw [leadingArgs, if_neg empty, if_neg empty]
    exact ⟨copied, rfl, copiedLength, Or.inl present⟩

/-- `args` is built if the leading arguments and those of the process fit it. -/
theorem buildArgs_fits (array : List UInt8) (length : array.length = launchArraySize) :
    ((leadingArgs strings commonArgs).length + 1 + strings.args.string.length < launchArraySize →
      ∃ args, buildArgs array strings commonArgs = some args ∧
        text args = some (leadingArgs strings commonArgs ++ 32 :: strings.args.string) ∧
        args.length = launchArraySize) ∧
    (¬ (leadingArgs strings commonArgs).length + 1 + strings.args.string.length <
        launchArraySize → buildArgs array strings commonArgs = none) := by
  have size : launchArraySize = 256 := rfl
  have short := strings.args.shorter
  have one : ([32] : List UInt8).length = 1 := rfl
  obtain ⟨leading, copied, leadingLength, held⟩ := leading_copied strings commonArgs array length
  have built : buildArgs array strings commonArgs =
      (strncat leading space (launchArraySize - 1)).bind fun args =>
        strncat args strings.args.contents (launchArraySize - 1) := by
    simp only [buildArgs, copied, Option.bind_eq_bind, Option.bind_some]
  rw [built]
  rcases held with whole | ⟨tooLong, noShorter⟩
  · obtain ⟨room, noRoom⟩ := strncat_whole leading _ space [32] (launchArraySize - 1) whole rfl
      (by decide)
    by_cases spaced : (leadingArgs strings commonArgs).length + 1 + 1 ≤ launchArraySize
    · obtain ⟨separated, put, separatedText, separatedLength⟩ := room (by omega)
      obtain ⟨fits, tooMuch⟩ := strncat_whole separated _ strings.args.contents _
        (launchArraySize - 1) separatedText strings.args.holds (by omega)
      have total : (leadingArgs strings commonArgs ++ [32]).length =
          (leadingArgs strings commonArgs).length + 1 := List.length_append
      rw [put, Option.bind_some]
      constructor
      · intro within
        obtain ⟨args, appended, argsText, argsLength⟩ := fits (by omega)
        refine ⟨args, appended, ?_, by omega⟩
        rwa [List.append_assoc, List.singleton_append] at argsText
      · intro outside
        exact tooMuch (by omega)
    · rw [noRoom (by omega)]
      exact ⟨fun within => absurd within (by omega), fun _ => rfl⟩
  · refine ⟨fun within => absurd within (by omega), fun _ => ?_⟩
    cases found : text leading with
    | none =>
      rw [strncat, found]
      rfl
    | some old =>
      have long := noShorter old found
      have noRoom := (strncat_whole leading old space [32] (launchArraySize - 1) found rfl
        (by decide)).2
      rw [noRoom (by omega)]
      rfl

/-- `pargs` is built exactly if the primary arguments and `args` fit it. -/
theorem buildPargs_fits (array primaryArgs primary args line : List UInt8)
    (length : array.length = launchArraySize) (primaryText : text primaryArgs = some primary)
    (short : primary.length < launchArraySize - 2) (argsText : text args = some line)
    (argsLength : args.length = launchArraySize) :
    (buildPargs array primaryArgs args).isSome ↔
      primary.length + 1 + line.length < launchArraySize := by
  have size : launchArraySize = 256 := rfl
  have one : ([32] : List UInt8).length = 1 := rfl
  have lineShort := text_length args line argsText
  obtain ⟨copied, done, present, copiedLength⟩ := strncpy_shorter array primaryArgs primary
    (launchArraySize - 1) primaryText (by omega) (by omega)
  obtain ⟨separated, put, separatedText, separatedLength⟩ := (strncat_whole copied primary space
    [32] (launchArraySize - 1) present rfl (by decide)).1 (by omega)
  obtain ⟨fits, tooMuch⟩ := strncat_whole separated _ args line (launchArraySize - 1)
    separatedText argsText (by omega)
  have total : (primary ++ [32]).length = primary.length + 1 := List.length_append
  have built :
      buildPargs array primaryArgs args = strncat separated args (launchArraySize - 1) := by
    simp only [buildPargs, done, Option.bind_eq_bind, Option.bind_some, put]
  rw [built]
  by_cases within : primary.length + 1 + line.length < launchArraySize
  · obtain ⟨pargs, appended, -, -⟩ := fits (by omega)
    rw [appended]
    exact iff_of_true rfl within
  · rw [tooMuch (by omega)]
    exact iff_of_false (by decide) within

/-- With or without a slash, a short directory stays short. -/
theorem addSlash_fits (array dir : List UInt8) (length : array.length = launchArraySize)
    (present : text array = some dir) (short : dir.length < 128) :
    ∃ slashed path, addSlash array = some slashed ∧ text slashed = some path ∧
      path.length ≤ 128 ∧ slashed.length = launchArraySize := by
  have size : launchArraySize = 256 := rfl
  have one : ([47] : List UInt8).length = 1 := rfl
  simp only [addSlash, Option.bind_eq_bind, present, Option.bind_some]
  split
  · split
    · obtain ⟨slashed, put, slashedText, slashedLength⟩ := (strncat_whole array dir slash [47]
        (launchArraySize - 1) present rfl (by decide)).1 (by omega)
      exact ⟨slashed, _, put, slashedText, by rw [List.length_append]; omega, by omega⟩
    · exact ⟨array, dir, rfl, present, by omega, length⟩
  · exact ⟨array, dir, rfl, present, by omega, length⟩

/-- `fullpath` is always built. -/
theorem buildFullpath_fits (array : List UInt8) (length : array.length = launchArraySize) :
    (buildFullpath array strings).isSome := by
  have size : launchArraySize = 256 := rfl
  have dirShort := strings.dir.shorter
  have binaryShort := strings.binary.shorter
  obtain ⟨copied, done, present, copiedLength⟩ := strncpy_shorter array _ _ (launchArraySize - 1)
    strings.dir.holds (by omega) (by omega)
  obtain ⟨directory, old, stepped, directoryText, oldShort, directoryLength⟩ :=
    addSlash_fits copied _ (by omega) present dirShort
  obtain ⟨fullpath, appended, -, -⟩ := (strncat_whole directory old strings.binary.contents _
    (launchArraySize - 1) directoryText strings.binary.holds (by omega)).1 (by omega)
  have built : buildFullpath array strings = some fullpath := by
    simp only [buildFullpath, done, Option.bind_eq_bind, Option.bind_some, stepped, appended]
  rw [built]
  rfl

/-- In arrays of their size, the strings are built exactly if the command line fits. -/
theorem buildStrings_fits (arrays : LaunchArrays) (sized : arrays.Sized)
    (primaryArgs : List UInt8) (primaryText : text primaryArgs = some (primaryArgsString strings)) :
    (buildStrings arrays primaryArgs strings commonArgs).isSome ↔
      FitsCommandLine strings commonArgs := by
  have size : launchArraySize = 256 := rfl
  have primaryShort := primaryArgs_short strings
  obtain ⟨fits, tooLong⟩ := buildArgs_fits strings commonArgs arrays.args sized.args
  rw [FitsCommandLine]
  by_cases within : (leadingArgs strings commonArgs).length + 1 + strings.args.string.length <
      launchArraySize
  · obtain ⟨args, built, argsText, argsLength⟩ := fits within
    have pargs := buildPargs_fits arrays.pargs primaryArgs _ args _ sized.pargs primaryText
      (by omega) argsText argsLength
    obtain ⟨fullpath, path⟩ := Option.isSome_iff_exists.mp
      (buildFullpath_fits strings arrays.fullpath sized.fullpath)
    have line : (leadingArgs strings commonArgs ++ 32 :: strings.args.string).length =
        (leadingArgs strings commonArgs).length + 1 + strings.args.string.length := by
      rw [List.length_append, List.length_cons]
      omega
    rw [line] at pargs
    simp only [buildStrings, built, Option.bind_eq_bind, Option.bind_some, path]
    cases result : buildPargs arrays.pargs primaryArgs args with
    | none =>
      rw [result] at pargs
      have outside := mt pargs.mpr (by decide)
      exact iff_of_false (by simp) (by omega)
    | some written =>
      rw [result] at pargs
      have inside := pargs.mp rfl
      exact iff_of_true (by simp) (by omega)
  · simp only [buildStrings, tooLong within, Option.bind_eq_bind, Option.bind_none]
    exact iff_of_false (by simp) (by omega)

/-- A command line that stays within the arrays fits them. -/
theorem fits_of_stays (stays : StaysInBuffers strings commonArgs) :
    FitsCommandLine strings commonArgs := by
  have written := sprintfPrimaryArgs_array strings
  have primaryText := primaryArgsArray_text strings
  have zeroed : LaunchArrays.Sized ⟨List.replicate launchArraySize 0,
      List.replicate launchArraySize 0, List.replicate launchArraySize 0⟩ :=
    ⟨List.length_replicate, List.length_replicate, List.length_replicate⟩
  have launched := (stays.launch _ written _ zeroed).1
  exact (buildStrings_fits strings commonArgs _ zeroed _ primaryText).mp launched

/-- Everything stays within its array if and only if the command line fits. -/
theorem stays_in_buffers_iff :
    StaysInBuffers strings commonArgs ↔ FitsCommandLine strings commonArgs := by
  constructor
  · exact fits_of_stays strings commonArgs
  · intro fits
    have written := sprintfPrimaryArgs_array strings
    have primaryText := primaryArgsArray_text strings
    refine ⟨by rw [written]; rfl, ?_⟩
    intro other again arrays sized
    obtain rfl := Option.some.inj (written.symm.trans again)
    have built := (buildStrings_fits strings commonArgs arrays sized _ primaryText).mpr fits
    exact ⟨built, built⟩

end Assembly

/-- There is no NUL in a string of `x`. -/
theorem filled_noNul (last : Nat) : 0 ∉ List.replicate last (120 : UInt8) := by
  intro member
  have same := List.eq_of_mem_replicate member
  revert same
  decide

/-- Such a string can fill its array up to the NUL. -/
theorem filled_shorter (last : Nat) : (List.replicate last (120 : UInt8)).length < last + 1 := by
  rw [List.length_replicate]
  exact Nat.lt_succ_self last

/-- An array that is filled with a character, up to a NUL at its last index. -/
def filledArray (last : Nat) : CharArray (last + 1) :=
  .ofString (last + 1) (List.replicate last 120) (filled_noNul last) (filled_shorter last)

/-- A process with 127 characters of arguments of its own and as many in the place of
the common ones. -/
def longArguments : ProcessStrings where
  name := .cleared 31
  instanceId := .cleared 7
  defaultPort := .cleared 7
  binary := .cleared 63
  dir := .cleared 127
  args := filledArray 127
  overrideArgs := filledArray 127

/-- Both fields are as `read_processes` leaves them, and do not fit one array. -/
theorem long_arguments_overflow :
    ¬ StaysInBuffers longArguments (.cleared 255) := by
  intro stays
  have filled : (filledArray 127).string.length = 127 := by
    rw [filledArray, CharArray.ofString_string, List.length_replicate]
  have own : longArguments.args.string.length = 127 := filled
  have overriding : longArguments.overrideArgs.string.length = 127 := filled
  have notEmpty : longArguments.overrideArgs.string.length ≠ 0 := by
    rw [overriding]
    decide
  have fits := fits_of_stays _ _ stays
  have size : launchArraySize = 256 := rfl
  rw [FitsCommandLine, leadingArgs, if_neg notEmpty] at fits
  omega

end Evlpc
