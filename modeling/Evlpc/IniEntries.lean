import Evlpc.IniLines

/-!
# The entries that the parser can give

Whatever bytes a file has, the strings that the handler gets fit their arrays and lie on
one line. The section has no bracket that would close it, the name no separator and no
first character that would make its line another one, and the value no blanks at its ends.
The place behind a line keeps what the next lines need of its section and its name.
-/

namespace Evlpc.Inih

open Library CStrings Scanning

/-- A string that can be the name of a section. -/
structure SectionText (string : CString) : Prop where
  opened : Free (stopsAt closeBracket) isspace false string.chars
  fits : string.chars.length < maxSection
  oneLine : lineFeed ∉ string.chars

/-- A string that can be the name of an entry. -/
structure NameText (string : CString) : Prop where
  opened : Free (stopsAt equalsSign) isspace false string.chars
  solid : SolidStart isspace string.chars
  first : ∀ char ∈ string.chars.head?, char ≠ semicolon ∧ char ≠ hash ∧ char ≠ openBracket
  fits : string.chars.length < iniMaxLine - 1
  oneLine : lineFeed ∉ string.chars

/-- A string that can be the value of an entry. -/
structure ValueText (string : CString) : Prop where
  solidStart : SolidStart isspace string.chars
  solidEnd : SolidEnd isspace string.chars
  fits : string.chars.length < iniMaxLine
  oneLine : lineFeed ∉ string.chars

/-- An entry that the parser can give. -/
structure WellFormed (entry : IniEntry) : Prop where
  sectionName : SectionText entry.sectionName
  name : NameText entry.name
  value : ValueText entry.value

/-- A place between two lines. -/
structure Place.Sound (place : Place) : Prop where
  sectionName : SectionText place.sectionName
  prevName : NameText place.prevName

/-- A line as the buffer takes it. -/
structure Buffered (line : CString) : Prop where
  fits : line.chars.length < iniMaxLine
  oneLine : lineFeed ∉ line.chars.dropLast

/-- The first solid character of a line and what follows it, without the blanks at the
end. -/
structure StartText (start : CString) : Prop where
  solidStart : SolidStart isspace start.chars
  solidEnd : SolidEnd isspace start.chars
  fits : start.chars.length < iniMaxLine
  oneLine : lineFeed ∉ start.chars

section Cutting

/-- The blanks at the end of a line include its end. -/
theorem rdropWhile_oneLine (chars : List UInt8) (oneLine : lineFeed ∉ chars.dropLast) :
    lineFeed ∉ chars.rdropWhile isspace := by
  intro member
  by_cases empty : chars = []
  · rw [empty] at member
    exact List.not_mem_nil member
  have whole := List.dropLast_append_getLast empty
  have isBlank : isspace lineFeed = true := rfl
  by_cases ends : chars.getLast empty = lineFeed
  · rw [← whole, ends, List.rdropWhile_concat_pos isspace _ _ isBlank] at member
    exact oneLine ((List.rdropWhile_prefix isspace _).subset member)
  · have inLine := (List.rdropWhile_prefix isspace chars).subset member
    rw [← whole] at inLine
    rcases List.mem_append.mp inLine with inFront | isLast
    · exact oneLine inFront
    · exact ends (List.mem_singleton.mp isLast).symm

/-- What stands behind the byte order mark fits the buffer. -/
theorem skipMark_buffered (lineno : Nat) (line : CString) (buffered : Buffered line) :
    Buffered (skipMark lineno line) := by
  by_cases marked : lineno = 1 ∧ line.chars.take 3 = [239, 187, 191]
  · rw [skipMark, if_pos marked]
    constructor
    · have shorter : (line.chars.drop 3).length ≤ line.chars.length := by
        rw [List.length_drop]
        exact Nat.sub_le _ 3
      exact Nat.lt_of_le_of_lt shorter buffered.fits
    · have oneLine := buffered.oneLine
      rw [← List.take_append_drop 3 line.chars] at oneLine
      exact (dropLast_parts lineFeed _ _ oneLine).2
  · rw [skipMark, if_neg marked]
    exact buffered

/-- The start of a line, without the blanks around it, is a text of the parser. -/
theorem lineStart_text (lineno : Nat) (line : CString) (buffered : Buffered line) :
    StartText (lineStart lineno line) := by
  have marked := skipMark_buffered lineno line buffered
  have stripped : (rstrip (skipMark lineno line)).chars <+: (skipMark lineno line).chars :=
    List.rdropWhile_prefix isspace _
  have skipped : (lineStart lineno line).chars <:+ (rstrip (skipMark lineno line)).chars :=
    List.dropWhile_suffix isspace
  constructor
  · exact solidStart_dropWhile isspace _
  · intro last isLast
    apply solidEnd_rdropWhile isspace (skipMark lineno line).chars last
    obtain ⟨front, whole⟩ := skipped
    have notEmpty : (lineStart lineno line).chars ≠ [] := by
      intro empty
      rw [empty] at isLast
      cases isLast
    have same : (skipMark lineno line).chars.rdropWhile isspace =
        front ++ (lineStart lineno line).chars := whole.symm
    rwa [same, List.getLast?_append_of_ne_nil front notEmpty]
  · exact Nat.lt_of_le_of_lt (skipped.length_le.trans stripped.length_le) marked.fits
  · intro member
    exact rdropWhile_oneLine _ marked.oneLine (skipped.subset member)

/-- The string in the buffer is a start of the line. -/
theorem lineText_begins (line : List UInt8) : (lineText line).chars <+: line :=
  List.takeWhile_prefix _

/-- Every line of a file fits the buffer. -/
theorem lineText_buffered (file line : List UInt8) (member : line ∈ fileLines file) :
    Buffered (lineText line) := by
  have bounded := lines_bounded lineFeed (iniMaxLine - 1) lineRoom file line member
  obtain ⟨behind, whole⟩ := lineText_begins line
  constructor
  · have shorter := (lineText_begins line).length_le
    have size : iniMaxLine = 200 := rfl
    omega
  · have oneLine := bounded.2
    rw [← whole] at oneLine
    exact (dropLast_parts lineFeed _ behind oneLine).1

end Cutting

section Separating

/-- A search splits the string in two. -/
theorem findCharOrComment_append (string : CString) (sought : UInt8) :
    (findCharOrComment string sought).1.chars ++ (findCharOrComment string sought).2.chars =
      string.chars :=
  scan_append (stopsAt sought) isspace false string.chars

/-- In front of where a search stops there is nothing that it stops at. -/
theorem findCharOrComment_free (string : CString) (sought : UInt8) :
    Free (stopsAt sought) isspace false (findCharOrComment string sought).1.chars :=
  scan_free (stopsAt sought) isspace false string.chars

/-- Where the character that is sought is not found, a comment starts, or the string
ends. -/
theorem findCharOrComment_comment (string : CString) (sought char : UInt8) (rest : List UInt8)
    (found : (findCharOrComment string sought).2.chars = char :: rest) (other : char ≠ sought) :
    char = semicolon ∧
      blankBehind isspace false (findCharOrComment string sought).1.chars = true := by
  have stops := scan_rest (stopsAt sought) isspace false string.chars char rest found
  rw [stopsAt, Bool.or_eq_true, Bool.and_eq_true, decide_eq_true_iff, decide_eq_true_iff] at stops
  rcases stops with same | ⟨after, comment⟩
  · exact absurd same other
  · exact ⟨comment, after⟩

/-- A name ends in front of a comment, also where a separator was not found. -/
theorem findCharOrComment_within (string : CString) (sought : UInt8) (front back : List UInt8)
    (whole : front ++ back = string.chars) (free : Free (stopsAt colon) isspace false front)
    (missing : (findCharOrComment string sought).2.chars.head? ≠ some sought) :
    front <+: (findCharOrComment string sought).1.chars := by
  have parts := findCharOrComment_append string sought
  have left : front <+: string.chars := ⟨back, whole⟩
  have right : (findCharOrComment string sought).1.chars <+: string.chars := ⟨_, parts⟩
  rcases List.prefix_or_prefix_of_prefix left right with shorter | ⟨more, longer⟩
  · exact shorter
  · cases more with
    | nil =>
      rw [List.append_nil] at longer
      exact longer ▸ List.prefix_rfl
    | cons char more =>
      exfalso
      rw [← longer, List.append_assoc] at whole
      have rest := List.append_cancel_left (whole.trans parts.symm)
      have found : (findCharOrComment string sought).2.chars = char :: (more ++ back) := rest.symm
      have other : char ≠ sought := by
        rintro rfl
        rw [found] at missing
        exact missing rfl
      obtain ⟨comment, after⟩ := findCharOrComment_comment string sought char _ found other
      rw [← longer] at free
      have stops := ((free_append _ _ _ _ _).mp free).2.1
      rw [after, comment] at stops
      exact Bool.false_ne_true (stops.symm.trans rfl)

/-- In front of a separator is a name without one. -/
theorem findSeparator_opened (start : CString) :
    Free (stopsAt equalsSign) isspace false (findSeparator start).1.chars ∧
      (findSeparator start).1.chars ++ (findSeparator start).2.chars = start.chars := by
  by_cases found : (findCharOrComment start equalsSign).2.chars.head? = some equalsSign
  · rw [findSeparator, if_pos found]
    exact ⟨findCharOrComment_free start equalsSign, findCharOrComment_append start equalsSign⟩
  · rw [findSeparator, if_neg found]
    have whole := findCharOrComment_append start colon
    have within := findCharOrComment_within start equalsSign _ _ whole
      (findCharOrComment_free start colon) found
    exact ⟨free_begins _ _ _ _ _ within (findCharOrComment_free start equalsSign), whole⟩

end Separating

section Readings

/-- What a name begins with is a name too. -/
theorem nameText_begins (name part : CString) (isPrefix : part.chars <+: name.chars)
    (sound : NameText name) : NameText part := by
  constructor
  · exact free_begins _ _ _ _ _ isPrefix sound.opened
  · obtain ⟨back, whole⟩ := isPrefix
    have solid := sound.solid
    rw [← whole] at solid
    exact solidStart_left isspace part.chars back solid
  · intro char isFirst
    apply sound.first
    obtain ⟨back, whole⟩ := isPrefix
    rw [← whole, List.head?_append, isFirst]
    rfl
  · exact Nat.lt_of_le_of_lt isPrefix.length_le sound.fits
  · exact fun member => sound.oneLine (isPrefix.subset member)

/-- The empty string is a section, the one in front of all headings. -/
theorem emptyString_section : SectionText emptyString :=
  ⟨trivial, by decide, List.not_mem_nil⟩

/-- The empty string is a name, the one that no entry has set. -/
theorem emptyString_name : NameText emptyString := by
  refine ⟨trivial, ?_, ?_, by decide, List.not_mem_nil⟩
  · intro first isFirst
    cases isFirst
  · intro first isFirst
    cases isFirst

/-- A file starts in no section and behind no name. -/
theorem fileStart_sound : fileStart.Sound := ⟨emptyString_section, emptyString_name⟩

/-- A value is cut out of what stands behind the separator. -/
theorem parseValue_text (start separated : CString) (text : StartText start)
    (behind : separated.chars <:+ start.chars) :
    ValueText (parseValue separated) ∧
      Free (stopsAt 0) isspace false (parseValue separated).chars := by
  have skipped : (lskip (advance separated)).chars <:+ start.chars :=
    ((List.dropWhile_suffix isspace).trans (List.tail_suffix separated.chars)).trans behind
  have whole := findCharOrComment_append (lskip (advance separated)) 0
  have cut : (findCharOrComment (lskip (advance separated)) 0).1.chars <+:
      (lskip (advance separated)).chars := ⟨_, whole⟩
  have stripped : (parseValue separated).chars <+:
      (findCharOrComment (lskip (advance separated)) 0).1.chars := List.rdropWhile_prefix isspace _
  have within := stripped.trans cut
  refine ⟨⟨?_, solidEnd_rdropWhile isspace _, ?_, ?_⟩, ?_⟩
  · have solid : SolidStart isspace (lskip (advance separated)).chars :=
      solidStart_dropWhile isspace _
    obtain ⟨back, same⟩ := within
    rw [← same] at solid
    exact solidStart_left isspace _ back solid
  · exact Nat.lt_of_le_of_lt (within.length_le.trans skipped.length_le) text.fits
  · exact fun member => text.oneLine (skipped.subset (within.subset member))
  · exact free_begins _ _ _ _ _ stripped (findCharOrComment_free _ 0)

/-- What is read of a line: a place between lines, and a well formed entry. -/
structure Reading.Sound (reading : Reading) : Prop where
  place : reading.place.Sound
  event : ∀ entry, reading.event = some (.call entry) → WellFormed entry

variable (place : Place) (sound : place.Sound) (start : CString) (text : StartText start)
include sound text

/-- Behind a heading, the section has been cut to its array, and there is no name. -/
theorem heading_sound : (place.heading start).Sound := by
  rw [Place.heading]
  by_cases closed :
      (findCharOrComment (advance start) closeBracket).2.chars.head? = some closeBracket
  · rw [if_pos closed]
    refine ⟨⟨⟨?_, ?_, ?_⟩, emptyString_name⟩, by rintro entry ⟨⟩⟩
    · exact free_begins _ _ _ _ _ (List.take_prefix _ _) (findCharOrComment_free _ closeBracket)
    · exact Nat.lt_of_le_of_lt (List.length_take_le _ _) (by decide)
    · intro member
      have inFront := List.mem_of_mem_take member
      have inTail : lineFeed ∈ (advance start).chars := by
        rw [← findCharOrComment_append (advance start) closeBracket]
        exact List.mem_append_left _ inFront
      exact text.oneLine (List.mem_of_mem_tail inTail)
  · rw [if_neg closed]
    exact ⟨sound, by rintro entry ⟨⟩⟩

/-- Behind a pair, its name has been cut to its array. -/
theorem pair_sound
    (first : ∀ char ∈ start.chars.head?, char ≠ semicolon ∧ char ≠ hash ∧ char ≠ openBracket) :
    (place.pair start).Sound := by
  rw [Place.pair]
  by_cases separated : (findSeparator start).2.chars.head? = some equalsSign ∨
      (findSeparator start).2.chars.head? = some colon
  · rw [if_pos separated]
    obtain ⟨opened, whole⟩ := findSeparator_opened start
    have isPrefix : (rstrip (findSeparator start).1).chars <+: start.chars :=
      (List.rdropWhile_prefix isspace _).trans ⟨_, whole⟩
    have shorter : (findSeparator start).1.chars.length < start.chars.length := by
      have lengths := congrArg List.length whole
      rw [List.length_append] at lengths
      have notEmpty : (findSeparator start).2.chars.length ≠ 0 := by
        intro empty
        rw [List.eq_nil_of_length_eq_zero empty] at separated
        rcases separated with same | same <;> cases same
      omega
    have name : NameText (rstrip (findSeparator start).1) := by
      constructor
      · exact free_begins _ _ _ _ _ (List.rdropWhile_prefix isspace _) opened
      · obtain ⟨back, same⟩ := isPrefix
        have solid := text.solidStart
        rw [← same] at solid
        exact solidStart_left isspace _ back solid
      · intro char isFirst
        apply first
        obtain ⟨back, same⟩ := isPrefix
        rw [← same, List.head?_append, isFirst]
        rfl
      · have fits := text.fits
        have less := (List.rdropWhile_prefix isspace (findSeparator start).1.chars).length_le
        have size : iniMaxLine = 200 := rfl
        exact Nat.lt_of_le_of_lt less (by omega)
      · exact fun member => text.oneLine (isPrefix.subset member)
    have value := (parseValue_text start _ text ⟨_, whole⟩).1
    refine ⟨⟨sound.sectionName, ?_⟩, ?_⟩
    · exact nameText_begins _ _ (List.take_prefix _ _) name
    · rintro entry told
      cases told
      exact ⟨sound.sectionName, name, value⟩
  · rw [if_neg separated]
    exact ⟨sound, by rintro entry ⟨⟩⟩

/-- Whatever a line is, it leaves a section and a name that fit their arrays. -/
theorem readStart_sound (indented : Bool) : (place.readStart indented start).Sound := by
  have nothing : Reading.Sound ⟨place, none⟩ := ⟨sound, by rintro entry ⟨⟩⟩
  rw [Place.readStart]
  cases chars : start.chars with
  | nil => exact nothing
  | cons first rest =>
    simp only []
    by_cases comment : first = semicolon ∨ first = hash
    · rw [if_pos comment]
      exact nothing
    rw [if_neg comment]
    by_cases continues : place.prevName.chars ≠ [] ∧ indented
    · rw [if_pos continues]
      refine ⟨sound, ?_⟩
      rintro entry told
      cases told
      exact ⟨sound.sectionName, sound.prevName,
        text.solidStart, text.solidEnd, text.fits, text.oneLine⟩
    rw [if_neg continues]
    by_cases bracket : first = openBracket
    · rw [if_pos bracket]
      exact heading_sound place sound start text
    · rw [if_neg bracket]
      refine pair_sound place sound start text fun char isFirst => ?_
      rw [chars] at isFirst
      obtain rfl := Option.some.inj isFirst
      exact ⟨fun same => comment (Or.inl same), fun same => comment (Or.inr same), bracket⟩

end Readings

section Files

/-- The calls among the events of lines are well formed. -/
theorem events_sound (place : Place) (sound : place.Sound) (lineno : Nat)
    (given : List (List UInt8)) (buffered : ∀ line ∈ given, Buffered (lineText line)) :
    ∀ entry ∈ calls (events place lineno given), WellFormed entry := by
  induction given generalizing place lineno with
  | nil =>
    intro entry member
    cases member
  | cons line later inductionHypothesis =>
    have text := lineStart_text (lineno + 1) (lineText line) (buffered line List.mem_cons_self)
    have reading : (place.read (lineno + 1) (lineText line)).Sound :=
      readStart_sound place sound _ text _
    intro entry member
    rw [events, calls, List.filterMap_append] at member
    rcases List.mem_append.mp member with ofLine | ofLater
    · obtain ⟨⟨number, event⟩, inLine, isEntry⟩ := List.mem_filterMap.mp ofLine
      obtain ⟨told, isTold, same⟩ := List.mem_map.mp inLine
      obtain ⟨-, rfl⟩ := Prod.mk.inj same
      cases told with
      | malformed => cases isEntry
      | call called =>
        obtain rfl := Option.some.inj isEntry
        exact reading.event _ (Option.mem_toList.mp isTold)
    · exact inductionHypothesis _ reading.place (lineno + 1)
        (fun line inLater => buffered line (List.mem_cons_of_mem _ inLater)) entry ofLater

/-- Whatever bytes a file has, each of its entries has a section that fits the array and
does not close itself, a name that would start a line and ends in front of a separator,
and a value without blanks at its ends, all on one line. -/
theorem entries_wellFormed (file : List UInt8) : ∀ entry ∈ entries file, WellFormed entry :=
  events_sound fileStart fileStart_sound 0 (fileLines file) (lineText_buffered file)

end Files

end Evlpc.Inih
