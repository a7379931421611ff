import Evlpc.IniEntries

/-!
# Comments and empty lines

A comment or an empty line that is put between two lines of a file changes nothing but
the numbers of the lines behind it, unless it pushes the mark of UTF-8 away from the start
of the file.
-/

namespace Evlpc.Inih

open Library CStrings Scanning

/-- The line is empty, or a comment, when its blanks are skipped. -/
def CommentLine (line : List UInt8) : Prop :=
  ∀ first ∈ (line.dropWhile isspace).head?, first = semicolon ∨ first = hash

instance (line : List UInt8) : Decidable (CommentLine line) :=
  Option.decidableForallMem (line.dropWhile isspace).head?

/-- The text ends with a line end, if it has any characters. -/
def Closed (front : List UInt8) : Prop := front = [] ∨ ∃ text, front = text ++ [lineFeed]

/-- The number of a line when one more stands behind the first ones. -/
def shifted (first lineno : Nat) : Nat := if lineno ≤ first then lineno else lineno + 1

/-- An error, or its absence, when one more line stands behind the first ones. -/
def shiftError (first : Nat) (error : Int) : Int :=
  if error ≤ first then error else error + 1

/-- An event at its new line. -/
def shiftEvent (first : Nat) (event : Nat × Event) : Nat × Event :=
  (shifted first event.1, event.2)

/-- The place behind some lines. -/
def placeAfter (place : Place) (lineno : Nat) : List (List UInt8) → Place
  | [] => place
  | line :: later =>
    placeAfter (place.read (lineno + 1) (lineText line)).place (lineno + 1) later

section Placing

/-- The lines of a text are read in front of the lines behind it. -/
theorem events_append (place : Place) (lineno : Nat) (front back : List (List UInt8)) :
    events place lineno (front ++ back) =
      events place lineno front ++
        events (placeAfter place lineno front) (lineno + front.length) back := by
  induction front generalizing place lineno with
  | nil => rfl
  | cons line front inductionHypothesis =>
    rw [List.cons_append, events, events, inductionHypothesis, placeAfter, List.append_assoc,
      List.length_cons, Nat.add_comm front.length, Nat.add_assoc]

/-- A line without the mark is read the same wherever it stands. -/
theorem read_unmarked (place : Place) (lineno other : Nat) (line : CString)
    (noMark : line.chars.take 3 ≠ [239, 187, 191]) :
    place.read lineno line = place.read other line := by
  have same : skipMark lineno line = skipMark other line :=
    (if_neg fun marked => noMark marked.2).trans (if_neg fun marked => noMark marked.2).symm
  rw [Place.read, Place.read, startBehindLine, startBehindLine, lineStart, lineStart, same]

/-- Behind the first line the mark is not looked for. -/
theorem read_later (place : Place) (lineno other : Nat) (line : CString) (behind : lineno ≠ 1)
    (alsoBehind : other ≠ 1) : place.read lineno line = place.read other line := by
  have same : skipMark lineno line = skipMark other line :=
    (if_neg fun marked => behind marked.1).trans (if_neg fun marked => alsoBehind marked.1).symm
  rw [Place.read, Place.read, startBehindLine, startBehindLine, lineStart, lineStart, same]

/-- Lines mean the same one line later, if the mark is not looked for at the first of
them or is not there. -/
theorem events_later (place : Place) (lineno : Nat) (given : List (List UInt8))
    (noMark : lineno = 0 →
      ∀ first ∈ given.head?, (lineText first).chars.take 3 ≠ [239, 187, 191]) :
    events place (lineno + 1) given =
      (events place lineno given).map fun event => (event.1 + 1, event.2) := by
  induction given generalizing place lineno with
  | nil => rfl
  | cons line later inductionHypothesis =>
    have read : place.read (lineno + 1 + 1) (lineText line) =
        place.read (lineno + 1) (lineText line) := by
      by_cases atStart : lineno = 0
      · exact read_unmarked place _ _ _ (noMark atStart line rfl)
      · exact read_later place _ _ _ (by omega) (by omega)
    have rest := inductionHypothesis (place.read (lineno + 1) (lineText line)).place (lineno + 1)
      (fun atStart => absurd atStart (Nat.succ_ne_zero lineno))
    rw [events, events, read, rest, List.map_append, List.map_map]
    rfl

end Placing

section CommentLines

/-- What is skipped at the start of a text is skipped of what it starts with. -/
theorem dropWhile_begins (front whole : List UInt8) (isPrefix : front <+: whole) :
    front.dropWhile isspace <+: whole.dropWhile isspace := by
  obtain ⟨back, rfl⟩ := isPrefix
  rw [List.dropWhile_append]
  by_cases empty : (front.dropWhile isspace).isEmpty = true
  · rw [if_pos empty, List.isEmpty_iff.mp empty]
    exact List.nil_prefix
  · rw [if_neg empty]
    exact List.prefix_append _ _

/-- With its end, the line still is empty or a comment. -/
theorem commentLine_ended (line : List UInt8) (comment : CommentLine line) :
    CommentLine (line ++ [lineFeed]) := by
  intro first isFirst
  rw [List.dropWhile_append] at isFirst
  by_cases empty : (line.dropWhile isspace).isEmpty = true
  · rw [if_pos empty] at isFirst
    cases isFirst
  · rw [if_neg empty] at isFirst
    apply comment
    obtain ⟨char, rest, chars⟩ := List.exists_cons_of_ne_nil
      (fun nothing => empty (List.isEmpty_iff.mpr nothing))
    rw [chars] at isFirst ⊢
    exact isFirst

/-- Nothing but the line number changes. -/
theorem read_comment (place : Place) (lineno : Nat) (line : List UInt8)
    (comment : CommentLine line) : place.read lineno (lineText line) = ⟨place, none⟩ := by
  have noMark : (lineText line).chars.take 3 ≠ [239, 187, 191] := by
    intro mark
    have parts := List.take_append_drop 3 (lineText line).chars
    obtain ⟨behind, whole⟩ := lineText_begins line
    rw [← parts, mark] at whole
    have solid : isspace 239 = false := rfl
    have first := comment 239 (by
      rw [← whole, List.cons_append, List.cons_append,
        List.dropWhile_cons_of_neg (by rw [solid]; exact Bool.false_ne_true)]
      rfl)
    exact absurd first (by decide)
  have unmarked : skipMark lineno (lineText line) = lineText line :=
    if_neg fun marked => noMark marked.2
  have within : (lineStart lineno (lineText line)).chars <+: line.dropWhile isspace := by
    rw [lineStart, unmarked]
    exact dropWhile_begins _ _
      ((List.rdropWhile_prefix isspace _).trans (lineText_begins line))
  rw [Place.read, Place.readStart]
  cases chars : (lineStart lineno (lineText line)).chars with
  | nil => rfl
  | cons first rest =>
    rw [chars] at within
    obtain ⟨behind, whole⟩ := within
    exact if_pos (comment first (by rw [← whole]; rfl))

end CommentLines

section Shifting

/-- Moved lines tell the same calls. -/
theorem calls_shifted (first : Nat) (told : List (Nat × Event)) :
    calls (told.map (shiftEvent first)) = calls told := by
  rw [calls, List.filterMap_map]
  rfl

/-- The absence of an error does not move. -/
theorem shifted_zero (first : Nat) : shifted first 0 = 0 := if_pos (Nat.zero_le first)

/-- The first error is at its new line. -/
theorem firstError_shifted (first : Nat) (told : List (Nat × Event)) (results : List Int32) :
    firstError (told.map (shiftEvent first)) results =
      shifted first (firstError told results) := by
  induction told generalizing results with
  | nil => exact (shifted_zero first).symm
  | cons event later inductionHypothesis =>
    obtain ⟨lineno, event⟩ := event
    cases event with
    | malformed => rfl
    | call entry =>
      cases results with
      | nil => exact (shifted_zero first).symm
      | cons result results =>
        rw [List.map_cons, shiftEvent, firstError, firstError]
        by_cases refused : result = 0
        · rw [if_pos refused, if_pos refused]
        · rw [if_neg refused, if_neg refused]
          exact inductionHypothesis results

end Shifting

section Inserting

variable (front comment back : List UInt8)

/-- The file with a line between two of its lines. -/
def inserted : List UInt8 := front ++ (comment ++ [lineFeed] ++ back)

/-- Behind a line end, lines begin anew. -/
theorem fileLines_append (closed : Closed front) :
    fileLines (front ++ back) = fileLines front ++ fileLines back :=
  lines_append lineFeed (iniMaxLine - 1) lineRoom front back closed

/-- The first line of a file without the mark does not have it. -/
theorem first_unmarked (noMark : back.take 3 ≠ [239, 187, 191]) :
    ∀ first ∈ (fileLines back).head?, (lineText first).chars.take 3 ≠ [239, 187, 191] := by
  intro first isFirst mark
  by_cases empty : back = []
  · have noLines : fileLines [] = [] := lines_nil lineFeed (iniMaxLine - 1) lineRoom
    rw [empty, noLines] at isFirst
    cases isFirst
  · have step : fileLines back = _ := lines_step lineFeed (iniMaxLine - 1) lineRoom back empty
    rw [step] at isFirst
    obtain rfl := Option.some.inj isFirst
    apply noMark
    have start : (lineText (takeLine lineFeed (iniMaxLine - 1) back).1).chars <+: back :=
      (lineText_begins _).trans ⟨_, takeLine_append lineFeed (iniMaxLine - 1) back⟩
    obtain ⟨behind, whole⟩ := start
    have parts := List.take_append_drop 3
      (lineText (takeLine lineFeed (iniMaxLine - 1) back).1).chars
    rw [← whole, ← parts, mark]
    rfl

variable (closed : Closed front) (oneLine : lineFeed ∉ comment)
  (fits : comment.length < iniMaxLine - 1) (isComment : CommentLine comment)
  (noMark : front = [] → back.take 3 ≠ [239, 187, 191])
include closed oneLine fits isComment noMark

/-- What is told of the file is told of it with the line, from their new lines on. -/
theorem fileEvents_inserted :
    fileEvents (inserted front comment back) =
      (fileEvents (front ++ back)).map (shiftEvent (fileLines front).length) := by
  have line := lines_cons lineFeed (iniMaxLine - 1) lineRoom comment back oneLine fits
  have behind : fileLines (comment ++ [lineFeed] ++ back) =
      (comment ++ [lineFeed]) :: fileLines back := by
    rw [List.append_assoc]
    exact line
  have empty := read_comment (placeAfter fileStart 0 (fileLines front))
    (0 + (fileLines front).length + 1) _ (commentLine_ended comment isComment)
  have later := events_later (placeAfter fileStart 0 (fileLines front))
    (0 + (fileLines front).length) (fileLines back) (by
      intro atStart
      apply first_unmarked back
      apply noMark
      have flat := lines_flatten lineFeed (iniMaxLine - 1) lineRoom front
      have none : fileLines front = [] := List.eq_nil_of_length_eq_zero (by omega)
      rw [← flat, show lines lineFeed (iniMaxLine - 1) lineRoom front = [] from none]
      rfl)
  have early : ∀ event ∈ events fileStart 0 (fileLines front),
      shiftEvent (fileLines front).length event = event := by
    intro event member
    have numbered := (events_numbered fileStart 0 (fileLines front) event member).2
    rw [Nat.zero_add] at numbered
    rw [shiftEvent, shifted, if_pos numbered]
  have late : ∀ event ∈ events (placeAfter fileStart 0 (fileLines front))
      (0 + (fileLines front).length) (fileLines back),
      (event.1 + 1, event.2) = shiftEvent (fileLines front).length event := by
    intro event member
    have numbered := (events_numbered _ _ _ event member).1
    rw [shiftEvent, shifted, if_neg (by omega)]
  rw [fileEvents, fileEvents, inserted, fileLines_append front _ closed,
    fileLines_append front back closed, behind, events_append, events_append, List.map_append,
    List.map_congr_left early, events, empty, later, List.map_congr_left late]
  rw [List.map_id']
  rfl

/-- A comment or an empty line between two lines of a file changes nothing of what the
handler is called with and leaves behind, and a reported error moves along with its
line. -/
theorem comment_inserted {User : Type} (handler : Handler User) (user : User) :
    entries (inserted front comment back) = entries (front ++ back) ∧
    iniParse handler (some (inserted front comment back)) user =
      (iniParse handler (some (front ++ back)) user).map fun parsed =>
        (shiftError (fileLines front).length parsed.1, parsed.2) := by
  have events := fileEvents_inserted front comment back closed oneLine fits isComment noMark
  have same : entries (inserted front comment back) = entries (front ++ back) := by
    rw [entries, events, calls_shifted]
    rfl
  refine ⟨same, ?_⟩
  rw [iniParse, iniParse, iniParseFile_events, iniParseFile_events, handleEvents, handleEvents,
    events, calls_shifted, Option.map_map, Option.map_map, Option.map_map]
  refine Option.map_congr fun handled _ => Prod.ext ?_ rfl
  have moved := firstError_shifted (fileLines front).length (fileEvents (front ++ back)) handled.2
  simp only [Function.comp, keepError, if_pos, moved, shifted, shiftError]
  generalize firstError (fileEvents (front ++ back)) handled.2 = error
  by_cases before : error ≤ (fileLines front).length
  · rw [if_pos before, if_pos (Int.ofNat_le.mpr before)]
  · rw [if_neg before, if_neg (fun within => before (Int.ofNat_le.mp within))]
    rfl

end Inserting

/-- `; a` between `b=c` and `d`. -/
theorem comment_inserted_once :
    entries (inserted [98, 61, 99, 10] [59, 32, 97] [100]) = entries [98, 61, 99, 10, 100] ∧
    iniParse (fun (user : Unit) _ => some (user, 1))
        (some (inserted [98, 61, 99, 10] [59, 32, 97] [100])) () =
      (iniParse (fun (user : Unit) _ => some (user, 1)) (some [98, 61, 99, 10, 100]) ()).map
        fun parsed => (shiftError (fileLines [98, 61, 99, 10]).length parsed.1, parsed.2) :=
  comment_inserted [98, 61, 99, 10] [59, 32, 97] [100] (Or.inr ⟨[98, 61, 99], rfl⟩) (by decide)
    (by decide) (by decide) (fun empty => nomatch empty) _ ()

end Evlpc.Inih
