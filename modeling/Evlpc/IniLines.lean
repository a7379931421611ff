import Evlpc.IniParser

/-!
# What the lines of a configuration file mean

A line is read at a place: in a section, behind a name. It is a call of the handler, or
malformed, or neither, and gives the next place. None of this depends on what the handler
does: `ini_parse_file` calls it with the entries of the file in their order, whatever it
answers, and gives the number of the first line that is malformed or refused.
-/

namespace Evlpc.Inih

open Library CStrings Scanning

/-- Where a line stands. -/
structure Place where
  sectionName : CString
  prevName : CString

/-- What is told of a line. -/
inductive Event where
  | call (entry : IniEntry)
  | malformed

/-- What a line does: the place behind it, and what is told. -/
structure Reading where
  place : Place
  event : Option Event

/-- A heading, from the bracket on. -/
def Place.heading (place : Place) (start : CString) : Reading :=
  let found := findCharOrComment (advance start) closeBracket
  if found.2.chars.head? = some closeBracket then
    ⟨⟨strncpy0 found.1 maxSection, emptyString⟩, none⟩
  else ⟨place, some .malformed⟩

/-- A name and a value. -/
def Place.pair (place : Place) (start : CString) : Reading :=
  let found := findSeparator start
  if found.2.chars.head? = some equalsSign ∨ found.2.chars.head? = some colon then
    let name := rstrip found.1
    ⟨{ place with prevName := strncpy0 name maxName },
      some (.call ⟨place.sectionName, name, parseValue found.2⟩)⟩
  else ⟨place, some .malformed⟩

/-- A line from its first solid character on, given whether something in front of it was
skipped. -/
def Place.readStart (place : Place) (indented : Bool) (start : CString) : Reading :=
  match start.chars with
  | [] => ⟨place, none⟩
  | first :: _ =>
    if first = semicolon ∨ first = hash then ⟨place, none⟩
    else if place.prevName.chars ≠ [] ∧ indented then
      ⟨place, some (.call ⟨place.sectionName, place.prevName, start⟩)⟩
    else if first = openBracket then place.heading start
    else place.pair start

/-- A line with its number. -/
def Place.read (place : Place) (lineno : Nat) (line : CString) : Reading :=
  place.readStart (startBehindLine lineno line) (lineStart lineno line)

/-- What is told of lines, each event with the number of its line, behind so many
others. -/
def events (place : Place) (lineno : Nat) : List (List UInt8) → List (Nat × Event)
  | [] => []
  | line :: later =>
    let reading := place.read (lineno + 1) (lineText line)
    (reading.event.toList.map fun event => (lineno + 1, event)) ++
      events reading.place (lineno + 1) later

/-- The place where a file starts. -/
def fileStart : Place := ⟨emptyString, emptyString⟩

/-- A line has room for some characters. -/
theorem lineRoom : 0 < iniMaxLine - 1 := by decide

/-- The lines of a file as the buffer takes them. -/
def fileLines (file : List UInt8) : List (List UInt8) :=
  lines lineFeed (iniMaxLine - 1) lineRoom file

/-- What is told of a file. -/
def fileEvents (file : List UInt8) : List (Nat × Event) := events fileStart 0 (fileLines file)

/-- The entry of a call. -/
def Event.toEntry : Event → Option IniEntry
  | .call entry => some entry
  | .malformed => none

/-- The calls among events. -/
def calls (told : List (Nat × Event)) : List IniEntry := told.filterMap fun event => event.2.toEntry

/-- The entries of a file. -/
def entries (file : List UInt8) : List IniEntry := calls (fileEvents file)

/-- No line of the file is malformed. -/
def Clean (file : List UInt8) : Prop := ∀ event ∈ fileEvents file, event.2 ≠ .malformed

section Handling

variable {User : Type} (handler : Handler User)

/-- The handler is called with one entry after the other: its data afterwards, and its
results. -/
def handleAll (user : User) : List IniEntry → Option (User × List Int32)
  | [] => some (user, [])
  | entry :: later => do
    let handled ← handler user entry
    let rest ← handleAll handled.1 later
    some (rest.1, handled.2 :: rest.2)

/-- The number of the first line that is malformed or whose call is refused, and 0 without
one. -/
def firstError : List (Nat × Event) → List Int32 → Nat
  | [], _ => 0
  | (lineno, .malformed) :: _, _ => lineno
  | (_, .call _) :: _, [] => 0
  | (lineno, .call _) :: later, result :: results =>
    if result = 0 then lineno else firstError later results

/-- The first error stays. -/
def keepError (error next : Nat) : Nat := if error = 0 then next else error

/-- The error in which the calls and the malformed lines of a file end. -/
def Parser.after (parser : Parser User) (reading : Reading) : Option (Parser User) :=
  let moved := { parser with
    sectionName := reading.place.sectionName
    prevName := reading.place.prevName }
  match reading.event with
  | none => some moved
  | some .malformed => some moved.fail
  | some (.call entry) => do
    let handled ← handler parser.user entry
    let answered := { moved with user := handled.1 }
    some (if handled.2 = 0 then answered.fail else answered)

/-- The place of a parser. -/
def Parser.place (parser : Parser User) : Place := ⟨parser.sectionName, parser.prevName⟩

variable (parser : Parser User)

/-- The branch for headings does what the heading tells. -/
theorem parseSection_reading (start : CString) :
    some (parseSection parser start) = parser.after handler (parser.place.heading start) := by
  simp only [parseSection, Place.heading]
  by_cases closed :
      (findCharOrComment (advance start) closeBracket).2.chars.head? = some closeBracket
  · rw [if_pos closed, if_pos closed]
    rfl
  · rw [if_neg closed, if_neg closed]
    rfl

/-- The branch for pairs does what the pair tells. -/
theorem parsePair_reading (start : CString) :
    parsePair handler parser start = parser.after handler (parser.place.pair start) := by
  simp only [parsePair, Place.pair]
  by_cases separated : (findSeparator start).2.chars.head? = some equalsSign ∨
      (findSeparator start).2.chars.head? = some colon
  · rw [if_pos separated, if_pos separated]
    rfl
  · rw [if_neg separated, if_neg separated]
    rfl

/-- The body of the loop does what the line means. -/
theorem parseLine_reading (line : CString) :
    parseLine handler parser line =
      { parser with lineno := parser.lineno + 1 }.after handler
        (parser.place.read (parser.lineno + 1) line) := by
  simp only [parseLine, Place.read, Place.readStart]
  cases (lineStart (parser.lineno + 1) line).chars with
  | nil => rfl
  | cons first rest =>
    simp only []
    by_cases comment : first = semicolon ∨ first = hash
    · rw [if_pos comment, if_pos comment]
      rfl
    rw [if_neg comment, if_neg comment]
    by_cases continues : parser.prevName.chars ≠ [] ∧
        startBehindLine (parser.lineno + 1) line = true
    · have there : parser.place.prevName.chars ≠ [] ∧ _ := continues
      rw [if_pos continues, if_pos there]
      rfl
    · have there : ¬ (parser.place.prevName.chars ≠ [] ∧ _) := continues
      rw [if_neg continues, if_neg there]
      by_cases bracket : first = openBracket
      · rw [if_pos bracket, if_pos bracket]
        exact parseSection_reading handler { parser with lineno := parser.lineno + 1 } _
      · rw [if_neg bracket, if_neg bracket]
        exact parsePair_reading handler { parser with lineno := parser.lineno + 1 } _

/-- A line without an error does not change the error. -/
theorem keepError_zero (error : Nat) : keepError error 0 = error := by
  by_cases none : error = 0
  · rw [keepError, if_pos none, none]
  · rw [keepError, if_neg none]

/-- A failed line sets the error unless it is set. -/
theorem fail_error : parser.fail.error = keepError parser.error parser.lineno := by
  by_cases none : parser.error = 0
  · rw [Parser.fail, if_pos none, keepError, if_pos none]
  · rw [Parser.fail, if_neg none, keepError, if_neg none]

/-- A failed line leaves the place as it is. -/
theorem fail_place : parser.fail.place = parser.place := by
  by_cases none : parser.error = 0
  · rw [Parser.fail, if_pos none]
    rfl
  · rw [Parser.fail, if_neg none]

/-- A failed line is counted like any other. -/
theorem fail_lineno : parser.fail.lineno = parser.lineno := by
  by_cases none : parser.error = 0
  · rw [Parser.fail, if_pos none]
  · rw [Parser.fail, if_neg none]

/-- A failed line leaves the data of the handler as they are. -/
theorem fail_user : parser.fail.user = parser.user := by
  by_cases none : parser.error = 0
  · rw [Parser.fail, if_pos none]
  · rw [Parser.fail, if_neg none]

/-- At the end of the file the parser stays as it is. -/
theorem parseLoop_nil : parseLoop handler parser [] = some parser := by
  rw [parseLoop]
  rfl

/-- The loop reads the next line and goes on behind it. -/
theorem parseLoop_step (file : List UInt8) (notEmpty : file ≠ []) :
    parseLoop handler parser file =
      (parseLine handler parser (lineText (takeLine lineFeed (iniMaxLine - 1) file).1)).bind
        fun next => parseLoop handler next (takeLine lineFeed (iniMaxLine - 1) file).2 := by
  have taken : fgets iniMaxLine file = some (takeLine lineFeed (iniMaxLine - 1) file) :=
    if_neg notEmpty
  rw [parseLoop]
  split
  · next reads =>
    rw [taken] at reads
    cases reads
  · next read reads =>
    rw [taken] at reads
    obtain rfl := Option.some.inj reads
    rfl

/-- What the loop does to the error and the data of the handler: it calls the handler with
the entries, and the first error stays. -/
def handleEvents (error : Nat) (user : User) (told : List (Nat × Event)) : Option (Nat × User) :=
  (handleAll handler user (calls told)).map fun handled =>
    (keepError error (firstError told handled.2), handled.1)

/-- Without events, the error and the data are what they were. -/
theorem handleEvents_nil (error : Nat) (user : User) :
    handleEvents handler error user [] = some (error, user) := by
  have stays := keepError_zero error
  exact congrArg some (Prod.ext stays rfl)

/-- An error that is set stays. -/
theorem keepError_twice (error lineno next : Nat) (numbered : lineno ≠ 0) :
    keepError (keepError error lineno) next = keepError error lineno := by
  by_cases none : error = 0
  · rw [keepError, keepError, if_pos none, if_neg numbered]
  · rw [keepError, keepError, if_neg none, if_neg none]

/-- A malformed line only sets the error. -/
theorem handleEvents_malformed (error : Nat) (user : User) (lineno : Nat)
    (numbered : lineno ≠ 0) (later : List (Nat × Event)) :
    handleEvents handler error user ((lineno, .malformed) :: later) =
      handleEvents handler (keepError error lineno) user later := by
  apply Option.map_congr
  intro handled _
  exact Prod.ext (keepError_twice error lineno _ numbered).symm rfl

/-- A call changes the data, and sets the error if the handler refuses the entry. -/
theorem handleEvents_call (error : Nat) (user : User) (lineno : Nat) (numbered : lineno ≠ 0)
    (entry : IniEntry) (later : List (Nat × Event)) :
    handleEvents handler error user ((lineno, .call entry) :: later) =
      (handler user entry).bind fun handled =>
        handleEvents handler (if handled.2 = 0 then keepError error lineno else error) handled.1
          later := by
  have called : calls ((lineno, .call entry) :: later) = entry :: calls later := rfl
  rw [handleEvents, called, handleAll, Option.bind_eq_bind, Option.map_bind]
  refine Option.bind_congr fun handled _ => ?_
  simp only [Function.comp, Option.bind_eq_bind, Option.map_bind, Option.map_some]
  rw [handleEvents, Option.map_eq_bind]
  refine Option.bind_congr fun rest _ => congrArg some (Prod.ext ?_ rfl)
  simp only [firstError]
  by_cases refused : handled.2 = 0
  · rw [if_pos refused, if_pos refused]
    exact (keepError_twice error lineno _ numbered).symm
  · rw [if_neg refused, if_neg refused]

/-- The rest of a file is handled from its place on. -/
theorem parseLoop_events (file : List UInt8) :
    (parseLoop handler parser file).map (fun parsed => (parsed.error, parsed.user)) =
      handleEvents handler parser.error parser.user
        (events parser.place parser.lineno (fileLines file)) := by
  induction file using lines_induction lineFeed (iniMaxLine - 1) lineRoom generalizing parser with
  | nothing =>
    have noLines : fileLines [] = [] := lines_nil lineFeed (iniMaxLine - 1) lineRoom
    rw [parseLoop_nil, noLines]
    exact (handleEvents_nil handler parser.error parser.user).symm
  | step file notEmpty inductionHypothesis =>
    have first : fileLines file = (takeLine lineFeed (iniMaxLine - 1) file).1 ::
        fileLines (takeLine lineFeed (iniMaxLine - 1) file).2 :=
      lines_step lineFeed (iniMaxLine - 1) lineRoom file notEmpty
    rw [parseLoop_step handler parser file notEmpty, first, events, parseLine_reading]
    have numbered : parser.lineno + 1 ≠ 0 := Nat.succ_ne_zero parser.lineno
    generalize parser.place.read (parser.lineno + 1) _ = reading
    obtain ⟨place, event⟩ := reading
    cases event with
    | none =>
      exact inductionHypothesis
        ⟨parser.lineno + 1, place.sectionName, place.prevName, parser.error, parser.user⟩
    | some event =>
      cases event with
      | malformed =>
        have goesOn := inductionHypothesis (Parser.fail
          ⟨parser.lineno + 1, place.sectionName, place.prevName, parser.error, parser.user⟩)
        rw [fail_error, fail_place, fail_lineno, fail_user] at goesOn
        exact goesOn.trans (handleEvents_malformed handler _ _ _ numbered _).symm
      | call entry =>
        refine Eq.trans ?_ (handleEvents_call handler _ _ _ numbered entry _).symm
        simp only [Parser.after, Option.bind_eq_bind, Option.bind_assoc, Option.map_bind]
        refine Option.bind_congr fun handled _ => ?_
        have goesOn := inductionHypothesis (if handled.2 = 0 then Parser.fail
            ⟨parser.lineno + 1, place.sectionName, place.prevName, parser.error, handled.1⟩
          else ⟨parser.lineno + 1, place.sectionName, place.prevName, parser.error, handled.1⟩)
        by_cases refused : handled.2 = 0
        · rw [if_pos refused, fail_error, fail_place, fail_lineno, fail_user] at goesOn
          rw [Function.comp, if_pos refused, if_pos refused, Option.bind_some]
          exact goesOn
        · rw [if_neg refused] at goesOn
          rw [Function.comp, if_neg refused, if_neg refused, Option.bind_some]
          exact goesOn

/-- A file is handled as its events say. -/
theorem iniParseFile_events (file : List UInt8) (user : User) :
    iniParseFile handler file user = handleEvents handler 0 user (fileEvents file) := by
  have handled := parseLoop_events handler ⟨0, emptyString, emptyString, 0, user⟩ file
  rw [Option.map_eq_bind] at handled
  exact handled

/-- The handler gives one result for each entry. -/
theorem handleAll_length (user : User) (given : List IniEntry) (handled : User × List Int32)
    (done : handleAll handler user given = some handled) : handled.2.length = given.length := by
  induction given generalizing user handled with
  | nil =>
    obtain rfl := Option.some.inj done
    rfl
  | cons entry later inductionHypothesis =>
    obtain ⟨first, _, rest⟩ := Option.bind_eq_some_iff.mp done
    obtain ⟨others, answered, same⟩ := Option.bind_eq_some_iff.mp rest
    obtain rfl := Option.some.inj same
    exact congrArg Nat.succ (inductionHypothesis first.1 others answered)

/-- Lines are numbered from one on. -/
theorem events_numbered (place : Place) (lineno : Nat) (given : List (List UInt8)) :
    ∀ event ∈ events place lineno given,
      lineno < event.1 ∧ event.1 ≤ lineno + given.length := by
  induction given generalizing place lineno with
  | nil =>
    intro event member
    cases member
  | cons line later inductionHypothesis =>
    intro event member
    rw [events] at member
    rw [List.length_cons]
    rcases List.mem_append.mp member with ofLine | ofLater
    · obtain ⟨told, _, rfl⟩ := List.mem_map.mp ofLine
      exact ⟨Nat.lt_succ_self lineno, by omega⟩
    · have numbered := inductionHypothesis _ (lineno + 1) event ofLater
      omega

/-- There is no error exactly if no line is malformed and no call is refused. -/
theorem firstError_zero (told : List (Nat × Event)) (results : List Int32)
    (answered : results.length = (calls told).length) (numbered : ∀ event ∈ told, event.1 ≠ 0) :
    firstError told results = 0 ↔
      (∀ event ∈ told, event.2 ≠ .malformed) ∧ ∀ result ∈ results, result ≠ 0 := by
  induction told generalizing results with
  | nil =>
    obtain rfl := List.eq_nil_of_length_eq_zero answered
    exact ⟨fun _ => ⟨fun _ member => (List.not_mem_nil member).elim,
      fun _ member => (List.not_mem_nil member).elim⟩, fun _ => rfl⟩
  | cons first later inductionHypothesis =>
    obtain ⟨lineno, event⟩ := first
    have here : lineno ≠ 0 := numbered (lineno, event) List.mem_cons_self
    have there : ∀ event ∈ later, event.1 ≠ 0 := fun event member =>
      numbered event (List.mem_cons_of_mem _ member)
    rw [List.forall_mem_cons]
    cases event with
    | malformed =>
      rw [firstError]
      exact ⟨fun zero => absurd zero here, fun both => absurd rfl both.1.1⟩
    | call entry =>
      cases results with
      | nil => cases answered
      | cons result results =>
        rw [firstError, List.forall_mem_cons]
        have rest := inductionHypothesis results (Nat.succ.inj answered) there
        by_cases refused : result = 0
        · rw [if_pos refused]
          exact ⟨fun zero => absurd zero here, fun both => absurd refused both.2.1⟩
        · rw [if_neg refused, rest]
          constructor
          · rintro ⟨clean, accepted⟩
            exact ⟨⟨Event.noConfusion, clean⟩, refused, accepted⟩
          · rintro ⟨⟨-, clean⟩, -, accepted⟩
            exact ⟨clean, accepted⟩

/-- An error is the number of a line. -/
theorem firstError_le (told : List (Nat × Event)) (results : List Int32) (most : Nat)
    (numbered : ∀ event ∈ told, event.1 ≤ most) : firstError told results ≤ most := by
  induction told generalizing results with
  | nil => exact Nat.zero_le most
  | cons first later inductionHypothesis =>
    obtain ⟨lineno, event⟩ := first
    have here : lineno ≤ most := numbered (lineno, event) List.mem_cons_self
    have there := fun results => inductionHypothesis results fun event member =>
      numbered event (List.mem_cons_of_mem _ member)
    cases event with
    | malformed => exact here
    | call entry =>
      cases results with
      | nil => exact Nat.zero_le most
      | cons result results =>
        rw [firstError]
        by_cases refused : result = 0
        · rw [if_pos refused]
          exact here
        · rw [if_neg refused]
          exact there results

/-- A line gives one event at most, and the events stand in the order of the lines. -/
theorem events_increase (place : Place) (lineno : Nat) (given : List (List UInt8)) :
    (events place lineno given).Pairwise fun earlier later => earlier.1 < later.1 := by
  induction given generalizing place lineno with
  | nil => exact List.Pairwise.nil
  | cons line later inductionHypothesis =>
    rw [events]
    refine List.pairwise_append.mpr ⟨?_, inductionHypothesis _ (lineno + 1), ?_⟩
    · cases (place.read (lineno + 1) (lineText line)).event with
      | none => exact List.Pairwise.nil
      | some event => exact List.pairwise_singleton _ _
    · intro here ofLine there ofLater
      obtain ⟨told, _, rfl⟩ := List.mem_map.mp ofLine
      exact (events_numbered _ (lineno + 1) later there ofLater).1

/-- `ini_parse` calls the handler with the entries, and gives the first error. -/
theorem iniParse_handled (file : List UInt8) (user : User) :
    iniParse handler (some file) user =
      (handleAll handler user (entries file)).map fun handled =>
        ((firstError (fileEvents file) handled.2 : Int), handled.1) := by
  rw [iniParse, iniParseFile_events, handleEvents, Option.map_map]
  rfl

/-- `ini_parse` calls the handler with the entries of the file in their order, whatever it
answers, and gives the number of the first line that is malformed or refused: 0 exactly if
no line is. -/
theorem ini_parse_calls (file : List UInt8) (user : User) :
    (fileEvents file).Pairwise (fun earlier later => earlier.1 < later.1) ∧
    iniParse handler (some file) user =
      (handleAll handler user (entries file)).map (fun handled =>
        ((firstError (fileEvents file) handled.2 : Int), handled.1)) ∧
    ∀ handled, handleAll handler user (entries file) = some handled →
      firstError (fileEvents file) handled.2 ≤ (fileLines file).length ∧
      (firstError (fileEvents file) handled.2 = 0 ↔
        Clean file ∧ ∀ result ∈ handled.2, result ≠ 0) := by
  have numbered := events_numbered fileStart 0 (fileLines file)
  refine ⟨events_increase fileStart 0 (fileLines file), iniParse_handled handler file user, ?_⟩
  intro handled done
  have answered := handleAll_length handler user (entries file) handled done
  constructor
  · refine firstError_le _ _ _ fun event member => ?_
    have within := (numbered event member).2
    rwa [Nat.zero_add] at within
  · exact firstError_zero _ _ answered fun event member =>
      Nat.ne_of_gt (numbered event member).1

end Handling

end Evlpc.Inih
