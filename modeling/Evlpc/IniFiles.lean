import Evlpc.IniComments
import Evlpc.IniDump

/-!
# Joining files, and blanks at the ends of lines

A file whose first line is a heading means the same behind another one as it does alone, if
nothing stands in front of the heading's bracket: the heading ends whatever section and name
the other file left. So the two files can be parsed one after the other, with the data of
the handler handed on, and an error of the second one is reported behind the lines of the
first.

Blanks at the ends of lines mean nothing. Carriage returns are blanks, so a file with the
line ends of another system is parsed like the same file without them.
-/

namespace Evlpc.Inih

open Library CStrings Scanning

section Joining

/-- Behind the first line, lines mean the same so many lines later. -/
theorem events_moved (place : Place) (lineno more : Nat) (behind : lineno ≠ 0)
    (given : List (List UInt8)) :
    events place (lineno + more) given =
      (events place lineno given).map fun event => (event.1 + more, event.2) := by
  induction more with
  | zero => exact (List.map_id' _).symm
  | succ more inductionHypothesis =>
    rw [← Nat.add_assoc, events_later place (lineno + more) given (fun atStart => by omega),
      inductionHypothesis, List.map_map]
    rfl

section Handling

variable {User : Type} (handler : Handler User)

/-- The handler is called with the entries of one list and then with those of the other. -/
theorem handleAll_append (user : User) (first second : List IniEntry) :
    handleAll handler user (first ++ second) =
      (handleAll handler user first).bind fun handled =>
        (handleAll handler handled.1 second).map fun later =>
          (later.1, handled.2 ++ later.2) := by
  induction first generalizing user with
  | nil =>
    rw [List.nil_append, handleAll, Option.bind_some]
    exact Option.map_id'.symm
  | cons entry first inductionHypothesis =>
    rw [List.cons_append, handleAll, handleAll]
    simp only [Option.bind_eq_bind, Option.bind_assoc, Option.bind_some]
    refine Option.bind_congr fun handled _ => ?_
    rw [inductionHypothesis, Option.bind_assoc]
    refine Option.bind_congr fun rest _ => ?_
    rw [Option.map_eq_bind, Option.map_eq_bind, Option.bind_assoc]
    rfl

/-- The first error of two lists of events is that of the first, or else of the second. -/
theorem firstError_append (first second : List (Nat × Event)) (results later : List Int32)
    (answered : results.length = (calls first).length) (numbered : ∀ event ∈ first, event.1 ≠ 0) :
    firstError (first ++ second) (results ++ later) =
      keepError (firstError first results) (firstError second later) := by
  induction first generalizing results with
  | nil =>
    obtain rfl := List.eq_nil_of_length_eq_zero answered
    rfl
  | cons told first inductionHypothesis =>
    obtain ⟨lineno, event⟩ := told
    have here : lineno ≠ 0 := numbered (lineno, event) List.mem_cons_self
    have there : ∀ event ∈ first, event.1 ≠ 0 := fun event member =>
      numbered event (List.mem_cons_of_mem _ member)
    cases event with
    | malformed => exact (if_neg here).symm
    | call entry =>
      cases results with
      | nil => cases answered
      | cons result results =>
        rw [List.cons_append, List.cons_append, firstError, firstError]
        by_cases refused : result = 0
        · rw [if_pos refused, if_pos refused]
          exact (if_neg here).symm
        · rw [if_neg refused, if_neg refused]
          exact inductionHypothesis results (Nat.succ.inj answered) there

/-- An error, or its absence, so many lines later. -/
def moveError (more : Nat) (error : Int) : Int := if error = 0 then 0 else error + more

/-- An error moves along with the lines. -/
theorem firstError_moved (more : Nat) (told : List (Nat × Event)) (results : List Int32)
    (numbered : ∀ event ∈ told, event.1 ≠ 0) :
    (firstError (told.map fun event => (event.1 + more, event.2)) results : Int) =
      moveError more (firstError told results) := by
  induction told generalizing results with
  | nil => rfl
  | cons event told inductionHypothesis =>
    obtain ⟨lineno, event⟩ := event
    have here : (lineno : Int) ≠ 0 :=
      fun zero => numbered (lineno, event) List.mem_cons_self (Int.ofNat.inj zero)
    have there : ∀ event ∈ told, event.1 ≠ 0 := fun event member =>
      numbered event (List.mem_cons_of_mem _ member)
    cases event with
    | malformed => exact (if_neg here).symm
    | call entry =>
      cases results with
      | nil => rfl
      | cons result results =>
        rw [List.map_cons, firstError, firstError]
        by_cases refused : result = 0
        · rw [if_pos refused, if_pos refused]
          exact (if_neg here).symm
        · rw [if_neg refused, if_neg refused]
          exact inductionHypothesis results there

end Handling

/-- The first line of the file is a heading: a bracket opens it, with nothing in front, and one
closes it in front of any comment. -/
def StartsWithHeading (file : List UInt8) : Prop :=
  ∃ line later, fileLines file = line :: later ∧ line.head? = some openBracket ∧
    (findCharOrComment (advance (rstrip (lineText line))) closeBracket).2.chars.head? =
      some closeBracket

/-- A line that starts with a bracket is read from the bracket on, with any number and at any
place. -/
theorem read_bracket (place : Place) (lineno : Nat) (line : List UInt8)
    (opens : line.head? = some openBracket) :
    place.read lineno (lineText line) = place.heading (rstrip (lineText line)) := by
  obtain ⟨behind, rfl⟩ : ∃ behind, line = openBracket :: behind := by
    cases line with
    | nil => cases opens
    | cons first behind => exact ⟨behind, congrArg (· :: behind) (Option.some.inj opens)⟩
  have text : (lineText (openBracket :: behind)).chars =
      openBracket :: behind.takeWhile (· ≠ 0) := rfl
  have noMark : (lineText (openBracket :: behind)).chars.take 3 ≠ [239, 187, 191] := by
    rw [text, List.take_succ_cons]
    intro mark
    exact absurd (List.cons.inj mark).1 (by decide)
  obtain ⟨rest, start⟩ := rdropWhile_first isspace openBracket (behind.takeWhile (· ≠ 0)) rfl
  rw [← text] at start
  change (rstrip (lineText (openBracket :: behind))).chars = openBracket :: rest at start
  have same : lineStart lineno (lineText (openBracket :: behind)) =
      rstrip (lineText (openBracket :: behind)) := by
    apply string_ext
    rw [lineStart, skipMark_none lineno _ noMark]
    exact dropWhile_solid isspace _ fun first isFirst => by
      rw [start] at isFirst
      obtain rfl := Option.some.inj isFirst
      rfl
  have atStart : startBehindLine lineno (lineText (openBracket :: behind)) = false := by
    rw [startBehindLine, same, skipMark_none lineno _ noMark, Bool.or_eq_false_iff,
      decide_eq_false_iff_not, decide_eq_false_iff_not]
    exact ⟨Nat.lt_irrefl _, Nat.lt_irrefl _⟩
  rw [Place.read, same, atStart, readStart_plain place _ _ _ start (by decide), if_pos rfl]

/-- What follows a heading at the start of a file does not depend on the place in front of
it. -/
theorem events_started (file : List UInt8) (heading : StartsWithHeading file) :
    ∃ behind later, ∀ place lineno,
      events place lineno (fileLines file) = events behind (lineno + 1) later := by
  obtain ⟨line, later, lines, opens, closes⟩ := heading
  refine ⟨⟨strncpy0 (findCharOrComment (advance (rstrip (lineText line))) closeBracket).1
    maxSection, emptyString⟩, later, ?_⟩
  intro place lineno
  have read : place.read (lineno + 1) (lineText line) = ⟨⟨strncpy0 (findCharOrComment
      (advance (rstrip (lineText line))) closeBracket).1 maxSection, emptyString⟩, none⟩ := by
    rw [read_bracket place (lineno + 1) line opens, Place.heading, if_pos closes]
  rw [lines, events_step place lineno line later _ read]
  rfl

variable (front back : List UInt8) (closed : Closed front) (heading : StartsWithHeading back)
include closed heading

/-- What is told of two files behind each other. -/
theorem fileEvents_joined :
    fileEvents (front ++ back) = fileEvents front ++ (fileEvents back).map fun event =>
      (event.1 + (fileLines front).length, event.2) := by
  obtain ⟨behind, later, started⟩ := events_started back heading
  rw [fileEvents, fileEvents, fileEvents, fileLines_append front _ closed, events_append,
    started, started, Nat.add_comm (0 + (fileLines front).length) 1, Nat.zero_add,
    ← events_moved _ (0 + 1) _ (by omega), Nat.zero_add]

/-- A file that starts with a heading, behind a file that ends with a line end: the handler
is called with the entries of the one and then of the other, and the error is that of the
first file, or else of the second, behind the lines of the first. -/
theorem files_joined {User : Type} (handler : Handler User) (user : User) :
    entries (front ++ back) = entries front ++ entries back ∧
    iniParse handler (some (front ++ back)) user =
      (iniParse handler (some front) user).bind fun first =>
        (iniParse handler (some back) first.2).map fun second =>
          (if first.1 = 0 then moveError (fileLines front).length second.1 else first.1,
            second.2) := by
  have told := fileEvents_joined front back closed heading
  have same : entries (front ++ back) = entries front ++ entries back := by
    rw [entries, told, calls, List.filterMap_append, List.filterMap_map]
    rfl
  have frontNumbered : ∀ event ∈ fileEvents front, event.1 ≠ 0 := fun event member =>
    Nat.ne_of_gt (events_numbered fileStart 0 (fileLines front) event member).1
  have backNumbered : ∀ event ∈ fileEvents back, event.1 ≠ 0 :=
    fun event member => Nat.ne_of_gt (events_numbered fileStart 0 _ event member).1
  refine ⟨same, ?_⟩
  rw [iniParse_handled, iniParse_handled, same, handleAll_append, Option.map_bind,
    Option.bind_map]
  refine Option.bind_congr fun first done => ?_
  have answered := handleAll_length handler user (entries front) first done
  rw [Function.comp, Function.comp, iniParse_handled, Option.map_map, Option.map_map]
  refine Option.map_congr fun second _ => Prod.ext ?_ rfl
  have error := firstError_append (fileEvents front)
    ((fileEvents back).map fun event =>
      (event.1 + (fileLines front).length, event.2)) first.2 second.2 answered frontNumbered
  have moved := firstError_moved (fileLines front).length _ second.2 backNumbered
  simp only [Function.comp, told, error, keepError]
  by_cases none : firstError (fileEvents front) first.2 = 0
  · rw [if_pos none, if_pos (Int.ofNat_eq_zero.mpr none)]
    exact moved
  · rw [if_neg none, if_neg fun zero => none (Int.ofNat_eq_zero.mp zero)]

end Joining

/-- `a=b`. -/
def frontFile : List UInt8 := [97, 61, 98, 10]

/-- The heading of the section `s` with a comment behind it, `c=d`, and a line that is
malformed. -/
def sectionFile : List UInt8 :=
  [91, 115, 93, 32, 59, 120] ++ [lineFeed] ++ [99, 61, 100, 10, 101, 10]

/-- The entries of both files, and the error of the second one behind the lines of the
first. -/
theorem files_joined_section :
    entries (frontFile ++ sectionFile) = entries frontFile ++ entries sectionFile ∧
    iniParse dumper (some (frontFile ++ sectionFile)) dumpStart =
      (iniParse dumper (some frontFile) dumpStart).bind fun first =>
        (iniParse dumper (some sectionFile) first.2).map fun second =>
          (if first.1 = 0 then moveError (fileLines frontFile).length second.1 else first.1,
            second.2) :=
  files_joined frontFile sectionFile (Or.inr ⟨[97, 61, 98], rfl⟩)
    ⟨_, _, fileLines_cons _ _ (by decide) (by decide), rfl, by decide⟩ dumper dumpStart

section Blanks

/-- A line of a file: its text, and the blanks behind it. -/
structure Row where
  text : List UInt8
  blanks : List UInt8

/-- A row fits one line, and nothing but blanks stand behind its text. -/
structure Row.OneLine (row : Row) : Prop where
  text : lineFeed ∉ row.text
  blanks : ∀ char ∈ row.blanks, isspace char = true ∧ char ≠ lineFeed
  fits : row.text.length + row.blanks.length < iniMaxLine - 1

/-- The file with the blanks at the ends of its lines. -/
def blankedFile (rows : List Row) : List UInt8 :=
  (rows.map fun row => row.text ++ row.blanks ++ [lineFeed]).flatten

/-- The file without the blanks. -/
def plainFile (rows : List Row) : List UInt8 :=
  (rows.map fun row => row.text ++ [lineFeed]).flatten

section Ends

variable (text blanks : List UInt8) (areBlank : ∀ char ∈ blanks, isspace char = true)
include areBlank

/-- The mark at the start of a line does not reach into the blanks at its end. -/
theorem mark_in_text :
    (text ++ blanks).take 3 = [239, 187, 191] ↔ text.take 3 = [239, 187, 191] := by
  have notBlank : ∀ char ∈ ([239, 187, 191] : List UInt8), isspace char = false :=
    List.forall_mem_cons.mpr ⟨rfl, List.forall_mem_cons.mpr
      ⟨rfl, List.forall_mem_singleton.mpr rfl⟩⟩
  constructor
  · intro mark
    rw [List.take_append] at mark
    have none : blanks.take (3 - text.length) = [] := by
      apply List.eq_nil_iff_forall_not_mem.mpr
      intro char member
      have inMark : char ∈ ([239, 187, 191] : List UInt8) := mark ▸ List.mem_append_right _ member
      have isBlank := areBlank char (List.mem_of_mem_take member)
      rw [notBlank char inMark] at isBlank
      cases isBlank
    rw [none, List.append_nil] at mark
    exact mark
  · intro mark
    have length := congrArg List.length mark
    have size : ([239, 187, 191] : List UInt8).length = 3 := rfl
    rw [List.length_take, size] at length
    rw [List.take_append_of_le_length (by omega)]
    exact mark

/-- The blanks are in the buffer too, unless a NUL ends the string in front of them. -/
theorem lineText_blanks :
    (lineText (text ++ blanks)).chars = (lineText text).chars ∨
      (lineText (text ++ blanks)).chars = (lineText text).chars ++ blanks := by
  have noNul : ∀ char ∈ blanks, decide (char ≠ 0) = true := by
    intro char member
    apply decide_eq_true
    rintro rfl
    exact absurd (areBlank 0 member) (by decide)
  have cut : (lineText (text ++ blanks)).chars = (text ++ blanks).takeWhile (· ≠ 0) := rfl
  have same : (lineText text).chars = text.takeWhile (· ≠ 0) := rfl
  rw [cut, same, List.takeWhile_append]
  by_cases whole : (text.takeWhile (· ≠ 0)).length = text.length
  · rw [if_pos whole, List.takeWhile_eq_self_iff.mpr noNul]
    exact Or.inr (congrArg (· ++ blanks) ((List.takeWhile_prefix _).eq_of_length whole).symm)
  · rw [if_neg whole]
    exact Or.inl rfl

end Ends

/-- The blanks at the end of a string are dropped with the other blanks there. -/
theorem rstrip_blanks (whole text : CString) (blanks : List UInt8)
    (areBlank : ∀ char ∈ blanks, isspace char = true) (ends : whole.chars = text.chars ++ blanks) :
    rstrip whole = rstrip text := by
  apply string_ext
  change whole.chars.rdropWhile isspace = text.chars.rdropWhile isspace
  rw [ends, rdropWhile_append_blanks isspace text.chars blanks areBlank]

/-- The blanks do not change whether a mark is skipped. -/
theorem skipMark_blanks (lineno : Nat) (whole text : CString) (blanks : List UInt8)
    (areBlank : ∀ char ∈ blanks, isspace char = true) (ends : whole.chars = text.chars ++ blanks) :
    (skipMark lineno whole).chars = (skipMark lineno text).chars ++ blanks := by
  have mark := mark_in_text text.chars blanks areBlank
  rw [← ends] at mark
  by_cases marked : lineno = 1 ∧ text.chars.take 3 = [239, 187, 191]
  · rw [skipMark, skipMark, if_pos ⟨marked.1, mark.mpr marked.2⟩, if_pos marked]
    have length := congrArg List.length marked.2
    have size : ([239, 187, 191] : List UInt8).length = 3 := rfl
    rw [List.length_take, size] at length
    change whole.chars.drop 3 = text.chars.drop 3 ++ blanks
    rw [ends, List.drop_append_of_le_length (by omega)]
  · rw [skipMark, skipMark, if_neg fun whole => marked ⟨whole.1, mark.mp whole.2⟩, if_neg marked]
    exact ends

/-- A line means the same without the blanks at its end. -/
theorem read_blanks (place : Place) (lineno : Nat) (text blanks : List UInt8)
    (areBlank : ∀ char ∈ blanks, isspace char = true) :
    place.read lineno (lineText (text ++ blanks)) = place.read lineno (lineText text) := by
  rcases lineText_blanks text blanks areBlank with same | ends
  · rw [string_ext _ _ same]
  · have skipped := skipMark_blanks lineno _ _ blanks areBlank ends
    have stripped := rstrip_blanks _ _ blanks areBlank skipped
    have shorter : (skipMark lineno (lineText (text ++ blanks))).chars.length <
        (lineText (text ++ blanks)).chars.length ↔
        (skipMark lineno (lineText text)).chars.length < (lineText text).chars.length := by
      rw [skipped, ends, List.length_append, List.length_append]
      omega
    rw [Place.read, Place.read, startBehindLine, startBehindLine, lineStart, lineStart, stripped,
      decide_eq_decide.mpr shorter]

/-- One row in front of a file. -/
theorem events_row (place : Place) (lineno : Nat) (row : Row) (oneLine : row.OneLine)
    (later plain : List UInt8)
    (rest : ∀ place, events place (lineno + 1) (fileLines later) =
      events place (lineno + 1) (fileLines plain)) :
    events place lineno (fileLines (row.text ++ row.blanks ++ [lineFeed] ++ later)) =
      events place lineno (fileLines (row.text ++ [lineFeed] ++ plain)) := by
  have noEnd : lineFeed ∉ row.text ++ row.blanks := by
    intro member
    rcases List.mem_append.mp member with inText | inBlanks
    · exact oneLine.text inText
    · exact (oneLine.blanks lineFeed inBlanks).2 rfl
  have fits := oneLine.fits
  have blanks : ∀ char ∈ row.blanks ++ [lineFeed], isspace char = true := by
    intro char member
    rcases List.mem_append.mp member with inBlanks | isEnd
    · exact (oneLine.blanks char inBlanks).1
    · rw [List.mem_singleton.mp isEnd]
      rfl
  have lineEnd : ∀ char ∈ [lineFeed], isspace char = true := List.forall_mem_singleton.mpr rfl
  have read := (read_blanks place (lineno + 1) row.text _ blanks).trans
    (read_blanks place (lineno + 1) row.text _ lineEnd).symm
  rw [fileLines_cons _ later noEnd (by rw [List.length_append]; exact fits),
    fileLines_cons _ plain oneLine.text (by omega), events, events, List.append_assoc row.text,
    read, rest]

/-- What is told of a file is told of it without the blanks at the ends of its lines. -/
theorem events_plain (place : Place) (lineno : Nat) (rows : List Row)
    (oneLines : ∀ row ∈ rows, row.OneLine) :
    events place lineno (fileLines (blankedFile rows)) =
      events place lineno (fileLines (plainFile rows)) := by
  induction rows generalizing place lineno with
  | nil => rfl
  | cons row rows inductionHypothesis =>
    have here := oneLines row List.mem_cons_self
    have there := fun row member => oneLines row (List.mem_cons_of_mem _ member)
    exact events_row place lineno row here (blankedFile rows) (plainFile rows)
      fun place => inductionHypothesis place (lineno + 1) there

/-- The blanks at the ends of lines change nothing of what the handler is called with and
leaves behind, nor the line of an error. -/
theorem trailing_blanks_ignored {User : Type} (handler : Handler User) (user : User)
    (rows : List Row) (oneLines : ∀ row ∈ rows, row.OneLine) :
    entries (blankedFile rows) = entries (plainFile rows) ∧
    iniParse handler (some (blankedFile rows)) user =
      iniParse handler (some (plainFile rows)) user := by
  have told : fileEvents (blankedFile rows) = fileEvents (plainFile rows) :=
    events_plain fileStart 0 rows oneLines
  refine ⟨congrArg calls told, ?_⟩
  rw [iniParse_handled, iniParse_handled, told, entries, entries, told]

end Blanks

/-- `[s]`, `a=b` and a line that continues the value, as another system ends them. -/
def returnedRows : List Row :=
  [⟨[91, 115, 93], [13]⟩, ⟨[97, 61, 98], [13]⟩, ⟨[32, 99], [32, 13]⟩]

/-- The file with carriage returns is parsed like the one without. -/
theorem trailing_blanks_ignored_returns :
    entries (blankedFile returnedRows) = entries (plainFile returnedRows) ∧
    iniParse dumper (some (blankedFile returnedRows)) dumpStart =
      iniParse dumper (some (plainFile returnedRows)) dumpStart :=
  trailing_blanks_ignored dumper dumpStart returnedRows (by
    have returned : isspace 13 = true ∧ (13 : UInt8) ≠ lineFeed := ⟨rfl, by decide⟩
    have blank : isspace 32 = true ∧ (32 : UInt8) ≠ lineFeed := ⟨rfl, by decide⟩
    intro row member
    rcases List.mem_cons.mp member with rfl | member
    · exact ⟨by decide, List.forall_mem_singleton.mpr returned, by decide⟩
    rcases List.mem_cons.mp member with rfl | member
    · exact ⟨by decide, List.forall_mem_singleton.mpr returned, by decide⟩
    obtain rfl := List.mem_singleton.mp member
    exact ⟨by decide, List.forall_mem_cons.mpr ⟨blank, List.forall_mem_singleton.mpr returned⟩,
      by decide⟩)

end Evlpc.Inih
