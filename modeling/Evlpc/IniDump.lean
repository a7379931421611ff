import Evlpc.IniEntries

/-!
# Printing a configuration file

`ini_dump` prints the entries that the parser gives it as a file again, with a heading
where the section changes. What it prints is read as the same entries, as long as they can
be told apart in print: a name needs characters, of which the last is solid, a value must
not start a comment, and both must fit one line.
-/

namespace Evlpc.Inih

open Library CStrings Scanning

/-- The blank that the dumper prints around the equals sign. -/
def blankChar : UInt8 := 32

/-- `prev_section` of `dumper`, and what has been printed. -/
structure Dump where
  prevSection : CString
  output : List UInt8

/-- `"%s[%s]\n"`, with a line feed in front if there was a section before. -/
def printSection (prevSection sectionName : CString) : List UInt8 :=
  (if prevSection.chars ≠ [] then [lineFeed] else []) ++
    (openBracket :: (sectionName.chars ++ [closeBracket, lineFeed]))

/-- `"%s = %s\n"`. -/
def printPair (name value : CString) : List UInt8 :=
  name.chars ++ [blankChar, equalsSign, blankChar] ++ value.chars ++ [lineFeed]

/-- What `dumper` does with an entry. -/
def Dump.print (dump : Dump) (entry : IniEntry) : Dump :=
  let headed : Dump :=
    if entry.sectionName.chars ≠ dump.prevSection.chars then
      { prevSection := strncpy0 entry.sectionName 50
        output := dump.output ++ printSection dump.prevSection entry.sectionName }
    else dump
  { headed with output := headed.output ++ printPair entry.name entry.value }

/-- `dumper`. -/
def dumper : Handler Dump := fun dump entry => some (dump.print entry, 1)

/-- Nothing is printed yet. -/
def dumpStart : Dump := ⟨emptyString, []⟩

/-- The digits of a number in print. -/
def printNumber (number : Int) : List UInt8 := (toString number).toUTF8.toList

/-- `"Can't read '%s'!\n"`. -/
def printUnreadable (filename : CString) : List UInt8 :=
  "Can't read '".toUTF8.toList ++ filename.chars ++ "'!\n".toUTF8.toList

/-- `"Bad config file (first error on line %d)!\n"`. -/
def printBadConfig (error : Int) : List UInt8 :=
  "Bad config file (first error on line ".toUTF8.toList ++ printNumber error ++
    ")!\n".toUTF8.toList

/-- `main` of `ini_dump`, with a file if the name can be opened: what is printed, and the
result. -/
def iniDump (filename : CString) (file : Option (List UInt8)) : Option (List UInt8 × Int) := do
  let parsed ← iniParse dumper file dumpStart
  if parsed.1 < 0 then some (parsed.2.output ++ printUnreadable filename, 2)
  else if parsed.1 ≠ 0 then some (parsed.2.output ++ printBadConfig parsed.1, 3)
  else some (parsed.2.output, 0)

/-- What is printed of entries. -/
def dumped (given : List IniEntry) : List UInt8 := (given.foldl Dump.print dumpStart).output

/-- An entry can be told from others in print. -/
structure Distinct (entry : IniEntry) : Prop where
  named : entry.name.chars ≠ []
  nameEnd : SolidEnd isspace entry.name.chars
  noMark : entry.name.chars.take 3 ≠ [239, 187, 191]
  noComment : Free (stopsAt 0) isspace false entry.value.chars
  fits : entry.name.chars.length + 3 + entry.value.chars.length < iniMaxLine - 1

/-- An entry that is read as it is printed. -/
structure Printable (entry : IniEntry) : Prop where
  wellFormed : WellFormed entry
  distinct : Distinct entry

section Printing

/-- Strings are the same if their characters are. -/
theorem string_ext (left right : CString) (same : left.chars = right.chars) : left = right := by
  cases left
  cases right
  cases same
  rfl

/-- Some characters in front of the output do not matter. -/
theorem print_output (dump : Dump) (given : List IniEntry) :
    (given.foldl Dump.print dump).output =
      dump.output ++ (given.foldl Dump.print ⟨dump.prevSection, []⟩).output := by
  induction given generalizing dump with
  | nil => exact (List.append_nil dump.output).symm
  | cons entry later inductionHypothesis =>
    rw [List.foldl_cons, List.foldl_cons, inductionHypothesis (dump.print entry),
      inductionHypothesis (Dump.print ⟨dump.prevSection, []⟩ entry)]
    by_cases changes : entry.sectionName.chars ≠ dump.prevSection.chars
    · simp only [Dump.print, if_pos changes, List.nil_append, List.append_assoc]
    · simp only [Dump.print, if_neg changes, List.nil_append, List.append_assoc]

/-- `dumper` never refuses an entry. -/
theorem handleAll_dumper (dump : Dump) (given : List IniEntry) :
    handleAll dumper dump given =
      some (given.foldl Dump.print dump, List.replicate given.length 1) := by
  induction given generalizing dump with
  | nil => rfl
  | cons entry later inductionHypothesis =>
    simp only [handleAll, dumper, Option.bind_eq_bind, Option.bind_some]
    rw [inductionHypothesis]
    rfl

end Printing

section ReadingBack

/-- A line without a NUL is what is read into the buffer. -/
theorem lineText_chars (line : List UInt8) (noNul : 0 ∉ line) : (lineText line).chars = line := by
  rw [lineText, List.takeWhile_eq_self_iff]
  intro char member
  exact decide_eq_true fun nul => noNul (nul ▸ member)

/-- A line that does not start with the mark is taken from its start. -/
theorem skipMark_none (lineno : Nat) (line : CString)
    (noMark : line.chars.take 3 ≠ [239, 187, 191]) : skipMark lineno line = line :=
  if_neg fun marked => noMark marked.2

/-- A line with a solid start, and only blanks behind its end. -/
theorem lineStart_solid (lineno : Nat) (line : CString) (chars blanks : List UInt8)
    (parts : line.chars = chars ++ blanks) (areBlank : ∀ char ∈ blanks, isspace char = true)
    (solidStart : SolidStart isspace chars) (solidEnd : SolidEnd isspace chars)
    (noMark : line.chars.take 3 ≠ [239, 187, 191]) :
    (lineStart lineno line).chars = chars ∧ startBehindLine lineno line = false := by
  have stripped : (rstrip (skipMark lineno line)).chars = chars := by
    rw [skipMark_none lineno line noMark]
    have dropped := rdropWhile_append_blanks isspace chars blanks areBlank
    rw [← parts, rdropWhile_solid isspace chars solidEnd] at dropped
    exact dropped
  have start : (lineStart lineno line).chars = chars := by
    have skipped := dropWhile_solid isspace chars solidStart
    rw [← stripped] at skipped
    exact skipped.trans stripped
  refine ⟨start, ?_⟩
  rw [startBehindLine, start, stripped, skipMark_none lineno line noMark, Bool.or_eq_false_iff,
    decide_eq_false_iff_not, decide_eq_false_iff_not]
  exact ⟨Nat.lt_irrefl _, Nat.lt_irrefl _⟩

variable (place : Place) (lineno : Nat)

/-- A line with nothing in it leaves the place as it is. -/
theorem read_blank : place.read lineno (lineText [lineFeed]) = ⟨place, none⟩ := by
  have text : (lineText [lineFeed]).chars = [lineFeed] := lineText_chars _ (by decide)
  have start := lineStart_solid lineno (lineText [lineFeed]) [] [lineFeed] text
    (List.forall_mem_singleton.mpr rfl) nofun nofun (by rw [text]; decide)
  rw [Place.read, Place.readStart, start.1]

/-- A line that is neither a comment nor indented is read by its first character. -/
theorem readStart_plain (start : CString) (first : UInt8) (rest : List UInt8)
    (chars : start.chars = first :: rest) (noComment : first ≠ semicolon ∧ first ≠ hash) :
    place.readStart false start =
      if first = openBracket then place.heading start else place.pair start := by
  rw [Place.readStart, chars]
  simp only []
  rw [if_neg (fun comment => comment.elim noComment.1 noComment.2),
    if_neg (fun both => Bool.false_ne_true both.2)]

/-- Parts of a string that a scan finds. -/
theorem findCharOrComment_parts (string front back : CString) (sought : UInt8)
    (found : scan (stopsAt sought) isspace false string.chars = (front.chars, back.chars)) :
    findCharOrComment string sought = (front, back) := by
  have left : (findCharOrComment string sought).1.chars = front.chars := congrArg Prod.fst found
  have right : (findCharOrComment string sought).2.chars = back.chars := congrArg Prod.snd found
  exact Prod.ext (string_ext _ _ left) (string_ext _ _ right)

/-- A string that is shorter than the array is copied as it is. -/
theorem strncpy0_shorter (string : CString) (size : Nat) (shorter : string.chars.length < size) :
    strncpy0 string size = string :=
  string_ext _ _ (List.take_of_length_le (by omega))

/-- The bracket that ends a printed heading. -/
def closing : CString := literal [closeBracket] rfl

/-- A heading is read back with the section that it was printed for. -/
theorem heading_reads (start sectionName : CString) (sound : SectionText sectionName)
    (chars : start.chars = openBracket :: (sectionName.chars ++ [closeBracket])) :
    place.heading start = ⟨⟨sectionName, emptyString⟩, none⟩ := by
  have tail : (advance start).chars = sectionName.chars ++ [closeBracket] :=
    congrArg List.tail chars
  have found : findCharOrComment (advance start) closeBracket = (sectionName, closing) := by
    apply findCharOrComment_parts
    rw [tail]
    exact scan_stops _ _ _ _ _ _ sound.opened rfl
  rw [Place.heading, found]
  simp only []
  rw [if_pos (by rfl), strncpy0_shorter sectionName maxSection sound.fits]

/-- A printed heading. -/
def headingLine (sectionName : CString) : List UInt8 :=
  openBracket :: (sectionName.chars ++ [closeBracket, lineFeed])

/-- There is no NUL in a printed heading. -/
theorem headingLine_noNul (sectionName : CString) : 0 ∉ headingLine sectionName := by
  intro member
  rcases List.mem_cons.mp member with same | member
  · exact absurd same (by decide)
  rcases List.mem_append.mp member with inName | inEnd
  · exact sectionName.noNul inName
  · exact absurd inEnd (by decide)

/-- A printed heading begins its section, at any place. -/
theorem read_heading (sectionName : CString) (sound : SectionText sectionName) :
    place.read lineno (lineText (headingLine sectionName)) =
      ⟨⟨sectionName, emptyString⟩, none⟩ := by
  have text := lineText_chars (headingLine sectionName) (headingLine_noNul sectionName)
  have parts : (lineText (headingLine sectionName)).chars =
      (openBracket :: (sectionName.chars ++ [closeBracket])) ++ [lineFeed] := by
    rw [text, headingLine, List.cons_append, List.append_assoc]
    rfl
  have solidStart : SolidStart isspace (openBracket :: (sectionName.chars ++ [closeBracket])) := by
    rintro first isFirst
    obtain rfl := Option.some.inj isFirst
    rfl
  have solidEnd : SolidEnd isspace (openBracket :: (sectionName.chars ++ [closeBracket])) := by
    rw [← List.cons_append, solidEnd_append _ _ _ (List.cons_ne_nil _ _)]
    rintro last isLast
    obtain rfl := Option.some.inj isLast
    rfl
  have noMark : (lineText (headingLine sectionName)).chars.take 3 ≠ [239, 187, 191] := by
    rw [text, headingLine, List.take_succ_cons]
    intro mark
    exact absurd (List.cons.inj mark).1 (by decide)
  obtain ⟨start, behind⟩ := lineStart_solid lineno _ _ [lineFeed] parts
    (List.forall_mem_singleton.mpr rfl) solidStart solidEnd noMark
  rw [Place.read, behind, readStart_plain place _ _ _ start (by decide), if_pos rfl,
    heading_reads place _ sectionName sound start]

/-- What is left of the blank behind the separator when the end of the line is dropped. -/
def spaced (value : CString) : CString :=
  if value.chars = [] then emptyString
  else ⟨blankChar :: value.chars, fun member =>
    (List.mem_cons.mp member).elim (fun same => absurd same (by decide)) value.noNul⟩

/-- The separator and what follows it. -/
def separatedValue (value : CString) : CString :=
  ⟨equalsSign :: (spaced value).chars, fun member =>
    (List.mem_cons.mp member).elim (fun same => absurd same (by decide)) (spaced value).noNul⟩

/-- Nothing stands behind the equals sign of an empty value. -/
theorem separatedValue_empty (value : CString) (empty : value.chars = []) :
    (separatedValue value).chars = [equalsSign] := by
  have nothing : spaced value = emptyString := if_pos empty
  exact congrArg (fun rest : CString => equalsSign :: rest.chars) nothing

/-- A value is printed behind a blank, which is not part of it. -/
theorem separatedValue_solid (value : CString) (notEmpty : value.chars ≠ []) :
    (separatedValue value).chars = equalsSign :: blankChar :: value.chars := by
  have behind : (spaced value).chars = blankChar :: value.chars := by
    rw [spaced, if_neg notEmpty]
  exact congrArg (equalsSign :: ·) behind

/-- The value is read back as it was printed, if no comment begins in it. -/
theorem parseValue_reads (value : CString) (sound : ValueText value)
    (noComment : Free (stopsAt 0) isspace false value.chars) :
    parseValue (separatedValue value) = value := by
  have tail : advance (separatedValue value) = spaced value := string_ext _ _ rfl
  have skipped : lskip (spaced value) = value := by
    apply string_ext
    by_cases empty : value.chars = []
    · rw [spaced, if_pos empty, empty]
      rfl
    · rw [spaced, if_neg empty]
      have isBlank : isspace blankChar = true := rfl
      exact (List.dropWhile_cons_of_pos isBlank).trans
        (dropWhile_solid isspace value.chars sound.solidStart)
  have found : findCharOrComment value 0 = (value, emptyString) :=
    findCharOrComment_parts value value emptyString 0 (scan_all _ _ _ _ noComment)
  rw [parseValue, tail, skipped, found]
  exact string_ext _ _ (rdropWhile_solid isspace value.chars sound.solidEnd)

/-- The name with the blank behind it. -/
def spacedName (name : CString) : CString :=
  ⟨name.chars ++ [blankChar], fun member =>
    (List.mem_append.mp member).elim name.noNul fun inBlank => absurd inBlank (by decide)⟩

/-- A printed pair is read back as its entry, in the section of its place. -/
theorem pair_reads (start : CString) (entry : IniEntry) (sound : Printable entry)
    (chars : start.chars = entry.name.chars ++ blankChar :: (separatedValue entry.value).chars) :
    place.pair start =
      ⟨{ place with prevName := strncpy0 entry.name maxName },
        some (.call ⟨place.sectionName, entry.name, entry.value⟩)⟩ := by
  have opened : Free (stopsAt equalsSign) isspace false (spacedName entry.name).chars :=
    (free_append _ _ _ _ _).mpr ⟨sound.wellFormed.name.opened, by
      rw [Free, stopsAt, Bool.or_eq_false_iff, Bool.and_eq_false_iff]
      exact ⟨⟨rfl, Or.inr rfl⟩, trivial⟩⟩
  have found : findCharOrComment start equalsSign =
      (spacedName entry.name, separatedValue entry.value) := by
    apply findCharOrComment_parts
    have grouped : start.chars = (spacedName entry.name).chars ++
        equalsSign :: (spaced entry.value).chars := by
      rw [chars, spacedName, List.append_assoc]
      rfl
    rw [grouped, scan_stops _ _ _ _ _ _ opened]
    · rfl
    · rw [stopsAt, Bool.or_eq_true]
      exact Or.inl rfl
  have separator : findSeparator start =
      (spacedName entry.name, separatedValue entry.value) := by
    rw [findSeparator, found]
    exact if_pos rfl
  have stripped : rstrip (spacedName entry.name) = entry.name := by
    apply string_ext
    exact (List.rdropWhile_concat_pos isspace entry.name.chars blankChar rfl).trans
      (rdropWhile_solid isspace entry.name.chars sound.distinct.nameEnd)
  have value := parseValue_reads entry.value sound.wellFormed.value sound.distinct.noComment
  have isSeparated : (separatedValue entry.value).chars.head? = some equalsSign ∨
      (separatedValue entry.value).chars.head? = some colon := Or.inl rfl
  rw [Place.pair, separator]
  simp only []
  rw [if_pos isSeparated, stripped, value]

/-- There is no NUL in a printed pair. -/
theorem printPair_noNul (name value : CString) : 0 ∉ printPair name value := by
  intro member
  rcases List.mem_append.mp member with member | inEnd
  · rcases List.mem_append.mp member with member | inValue
    · rcases List.mem_append.mp member with inName | inMiddle
      · exact name.noNul inName
      · exact absurd inMiddle (by decide)
    · exact value.noNul inValue
  · exact absurd inEnd (by decide)

/-- A mark at the start of a printed line is one at the start of the name. -/
theorem printPair_noMark (name value : CString) (noMark : name.chars.take 3 ≠ [239, 187, 191]) :
    (printPair name value).take 3 ≠ [239, 187, 191] := by
  intro mark
  have whole : printPair name value =
      name.chars ++ blankChar :: equalsSign :: blankChar :: (value.chars ++ [lineFeed]) := by
    rw [printPair, List.append_assoc, List.append_assoc]
    rfl
  rw [whole, List.take_append] at mark
  by_cases longer : 3 ≤ name.chars.length
  · rw [Nat.sub_eq_zero_of_le longer, List.take_zero, List.append_nil] at mark
    exact noMark mark
  · have inside : blankChar ∈ [239, 187, 191] := by
      rw [← mark]
      apply List.mem_append_right
      obtain ⟨more, same⟩ := Nat.exists_eq_add_of_lt (Nat.lt_of_not_le longer)
      have room : 3 - name.chars.length = more + 1 := by omega
      rw [room, List.take_succ_cons]
      exact List.mem_cons_self
    exact absurd inside (by decide)

/-- A printed line with a pair is one of its entry, whatever was read before it. -/
theorem read_pair (entry : IniEntry) (sound : Printable entry) :
    place.read lineno (lineText (printPair entry.name entry.value)) =
      ⟨{ place with prevName := strncpy0 entry.name maxName },
        some (.call ⟨place.sectionName, entry.name, entry.value⟩)⟩ := by
  have text := lineText_chars (printPair entry.name entry.value) (printPair_noNul _ _)
  obtain ⟨first, rest, named⟩ := List.exists_cons_of_ne_nil sound.distinct.named
  have start : ∃ blanks, (lineText (printPair entry.name entry.value)).chars =
      (entry.name.chars ++ blankChar :: (separatedValue entry.value).chars) ++ blanks ∧
      ∀ char ∈ blanks, isspace char = true := by
    rw [text]
    by_cases empty : entry.value.chars = []
    · refine ⟨[blankChar, lineFeed], ?_,
        List.forall_mem_cons.mpr ⟨rfl, List.forall_mem_singleton.mpr rfl⟩⟩
      rw [printPair, separatedValue_empty _ empty, empty]
      simp only [List.append_assoc]
      rfl
    · refine ⟨[lineFeed], ?_, List.forall_mem_singleton.mpr rfl⟩
      rw [printPair, separatedValue_solid _ empty]
      simp only [List.append_assoc]
      rfl
  obtain ⟨blanks, parts, areBlank⟩ := start
  have solidStart : SolidStart isspace
      (entry.name.chars ++ blankChar :: (separatedValue entry.value).chars) :=
    (solidStart_append isspace _ _ sound.distinct.named).mpr sound.wellFormed.name.solid
  have solidEnd : SolidEnd isspace
      (entry.name.chars ++ blankChar :: (separatedValue entry.value).chars) := by
    rw [solidEnd_append _ _ _ (List.cons_ne_nil _ _)]
    by_cases empty : entry.value.chars = []
    · rw [separatedValue_empty _ empty]
      intro last isLast
      obtain rfl := Option.some.inj isLast
      rfl
    · rw [separatedValue_solid _ empty]
      exact (solidEnd_append isspace [blankChar, equalsSign, blankChar] _ empty).mpr
        sound.wellFormed.value.solidEnd
  have noMark : (lineText (printPair entry.name entry.value)).chars.take 3 ≠ [239, 187, 191] := by
    rw [text]
    exact printPair_noMark entry.name entry.value sound.distinct.noMark
  obtain ⟨chars, behind⟩ := lineStart_solid lineno _ _ blanks parts areBlank solidStart solidEnd
    noMark
  have firstChar := sound.wellFormed.name.first first (by rw [named]; rfl)
  have head := chars
  rw [named, List.cons_append] at head
  rw [Place.read, behind, readStart_plain place _ first _ head ⟨firstChar.1, firstChar.2.1⟩,
    if_neg firstChar.2.2, pair_reads place _ entry sound chars]

end ReadingBack

section Dumped

/-- What is printed of entries behind a section. -/
def dumpText (prevSection : CString) (given : List IniEntry) : List UInt8 :=
  (given.foldl Dump.print ⟨prevSection, []⟩).output

variable (prevSection : CString) (entry : IniEntry) (later : List IniEntry)

/-- Within a section only the entry is printed. -/
theorem dumpText_same (same : entry.sectionName.chars = prevSection.chars) :
    dumpText prevSection (entry :: later) =
      printPair entry.name entry.value ++ dumpText prevSection later := by
  rw [dumpText, List.foldl_cons, print_output, Dump.print, if_neg (fun changes => changes same)]
  rfl

/-- At the start of a section a heading is printed in front of the entry. -/
theorem dumpText_changed (changes : entry.sectionName.chars ≠ prevSection.chars)
    (fits : entry.sectionName.chars.length < maxSection) :
    dumpText prevSection (entry :: later) =
      printSection prevSection entry.sectionName ++
        (printPair entry.name entry.value ++ dumpText entry.sectionName later) := by
  have whole : strncpy0 entry.sectionName 50 = entry.sectionName :=
    strncpy0_shorter entry.sectionName 50 fits
  rw [dumpText, List.foldl_cons, print_output, Dump.print, if_pos changes, whole,
    List.nil_append, List.append_assoc]
  rfl

/-- A line that fits is the first one. -/
theorem fileLines_cons (line file : List UInt8) (noEnd : lineFeed ∉ line)
    (fits : line.length < iniMaxLine - 1) :
    fileLines (line ++ [lineFeed] ++ file) = (line ++ [lineFeed]) :: fileLines file := by
  rw [List.append_assoc]
  exact lines_cons lineFeed (iniMaxLine - 1) lineRoom line file noEnd fits

/-- What is told of lines is what is told of the first, and of the others behind it. -/
theorem events_step (place : Place) (lineno : Nat) (line : List UInt8)
    (given : List (List UInt8)) (reading : Reading)
    (read : place.read (lineno + 1) (lineText line) = reading) :
    events place lineno (line :: given) =
      (reading.event.toList.map fun event => (lineno + 1, event)) ++
        events reading.place (lineno + 1) given := by
  rw [events, read]

/-- The events of a printed entry. -/
theorem events_pair (place : Place) (lineno : Nat) (sound : Printable entry)
    (same : place.sectionName = entry.sectionName) (file : List UInt8) :
    events place lineno (fileLines (printPair entry.name entry.value ++ file)) =
      (lineno + 1, .call entry) ::
        events { place with prevName := strncpy0 entry.name maxName } (lineno + 1)
          (fileLines file) := by
  have noEnd : lineFeed ∉ entry.name.chars ++ [blankChar, equalsSign, blankChar] ++
      entry.value.chars := by
    intro member
    rcases List.mem_append.mp member with member | inValue
    · rcases List.mem_append.mp member with inName | inMiddle
      · exact sound.wellFormed.name.oneLine inName
      · exact absurd inMiddle (by decide)
    · exact sound.wellFormed.value.oneLine inValue
  have fits : (entry.name.chars ++ [blankChar, equalsSign, blankChar] ++
      entry.value.chars).length < iniMaxLine - 1 := by
    rw [List.length_append, List.length_append]
    exact sound.distinct.fits
  have lines : fileLines (printPair entry.name entry.value ++ file) =
      printPair entry.name entry.value :: fileLines file := fileLines_cons _ file noEnd fits
  rw [lines, events_step place lineno _ _ _ (read_pair place (lineno + 1) entry sound), same]
  rfl

/-- A heading is read alike at any place. -/
theorem events_headed (place : Place) (lineno : Nat) (sectionName : CString)
    (sound : SectionText sectionName) (file : List UInt8) :
    events place lineno (fileLines (headingLine sectionName ++ file)) =
      events ⟨sectionName, emptyString⟩ (lineno + 1) (fileLines file) := by
  have noEnd : lineFeed ∉ openBracket :: (sectionName.chars ++ [closeBracket]) := by
    intro member
    rcases List.mem_cons.mp member with same | member
    · exact absurd same (by decide)
    rcases List.mem_append.mp member with inName | inEnd
    · exact sound.oneLine inName
    · exact absurd inEnd (by decide)
  have fits : (openBracket :: (sectionName.chars ++ [closeBracket])).length < iniMaxLine - 1 := by
    have within := sound.fits
    have size : maxSection = 50 := rfl
    have room : iniMaxLine = 200 := rfl
    rw [List.length_cons, List.length_append, List.length_singleton]
    omega
  have whole : headingLine sectionName =
      openBracket :: (sectionName.chars ++ [closeBracket]) ++ [lineFeed] := by
    rw [headingLine, List.cons_append, List.append_assoc]
    rfl
  have read := read_heading place (lineno + 1) sectionName sound
  rw [whole] at read ⊢
  rw [fileLines_cons _ file noEnd fits, events_step place lineno _ _ _ read]
  rfl

/-- The events of a printed heading. -/
theorem events_heading (place : Place) (lineno : Nat) (sound : SectionText entry.sectionName)
    (file : List UInt8) :
    ∃ lineno', events place lineno
        (fileLines (printSection prevSection entry.sectionName ++ file)) =
      events ⟨entry.sectionName, emptyString⟩ lineno' (fileLines file) := by
  have ended (number : Nat) := events_headed place number entry.sectionName sound file
  by_cases between : prevSection.chars ≠ []
  · refine ⟨lineno + 2, ?_⟩
    have blank := fileLines_cons [] (headingLine entry.sectionName ++ file) List.not_mem_nil
      (by decide)
    rw [List.nil_append] at blank
    rw [printSection, if_pos between, List.append_assoc]
    refine (congrArg (events place lineno) blank).trans ?_
    rw [events_step place lineno _ _ _ (read_blank place (lineno + 1))]
    exact ended (lineno + 1)
  · refine ⟨lineno + 1, ?_⟩
    rw [printSection, if_neg between, List.nil_append]
    exact ended lineno

/-- What is told of printed entries: each of them, in their order. -/
theorem events_dumpText (given : List IniEntry) (printable : ∀ entry ∈ given, Printable entry)
    (place : Place) (lineno : Nat) :
    (events place lineno (fileLines (dumpText place.sectionName given))).map Prod.snd =
      given.map Event.call := by
  induction given generalizing place lineno with
  | nil =>
    have noLines : fileLines [] = [] := lines_nil lineFeed (iniMaxLine - 1) lineRoom
    have nothing : dumpText place.sectionName [] = [] := rfl
    rw [nothing, noLines]
    rfl
  | cons entry later inductionHypothesis =>
    have sound := printable entry List.mem_cons_self
    have rest := inductionHypothesis fun other member =>
      printable other (List.mem_cons_of_mem entry member)
    by_cases changes : entry.sectionName.chars ≠ place.sectionName.chars
    · have fits := sound.wellFormed.sectionName.fits
      obtain ⟨lineno', headed⟩ := events_heading place.sectionName entry place lineno
        sound.wellFormed.sectionName
        (printPair entry.name entry.value ++ dumpText entry.sectionName later)
      rw [dumpText_changed _ entry later changes fits, headed,
        events_pair entry _ lineno' sound rfl, List.map_cons, List.map_cons]
      exact congrArg (Event.call entry :: ·) (rest _ (lineno' + 1))
    · have same : place.sectionName = entry.sectionName :=
        string_ext _ _ (of_not_not changes).symm
      rw [dumpText_same _ entry later (of_not_not changes),
        events_pair entry place lineno sound same, List.map_cons, List.map_cons]
      exact congrArg (Event.call entry :: ·) (rest _ (lineno + 1))

/-- Where only calls are told, these are the calls and no line is malformed. -/
theorem calls_of_events (told : List (Nat × Event)) (given : List IniEntry)
    (same : told.map Prod.snd = given.map Event.call) :
    calls told = given ∧ ∀ event ∈ told, event.2 ≠ .malformed := by
  constructor
  · have mapped : calls told = (told.map Prod.snd).filterMap Event.toEntry := by
      rw [List.filterMap_map]
      rfl
    rw [mapped, same, List.filterMap_map]
    exact List.filterMap_some
  · intro event member isMalformed
    have inCalls : event.2 ∈ given.map Event.call := same ▸ List.mem_map_of_mem member
    obtain ⟨entry, _, isCall⟩ := List.mem_map.mp inCalls
    rw [isMalformed] at isCall
    cases isCall

/-- Printed entries are the entries of the file that is printed. -/
theorem entries_dumped (given : List IniEntry) (printable : ∀ entry ∈ given, Printable entry) :
    entries (dumped given) = given ∧ Clean (dumped given) :=
  calls_of_events _ given (events_dumpText given printable fileStart 0)

/-- A file without malformed lines is handled without an error if the handler accepts its
entries. -/
theorem iniParse_accepted {User : Type} (handler : Handler User) (file : List UInt8)
    (clean : Clean file) (user : User) (handled : User × List Int32)
    (done : handleAll handler user (entries file) = some handled)
    (accepted : ∀ result ∈ handled.2, result ≠ 0) :
    iniParse handler (some file) user = some (0, handled.1) := by
  have answered := handleAll_length handler user (entries file) handled done
  have noError : firstError (fileEvents file) handled.2 = 0 :=
    (firstError_zero _ _ answered fun event member =>
      Nat.ne_of_gt (events_numbered fileStart 0 (fileLines file) event member).1).mpr
      ⟨clean, accepted⟩
  have parsed : handleEvents handler 0 user (fileEvents file) = some (0, handled.1) := by
    rw [handleEvents]
    refine (congrArg (Option.map _) done).trans ?_
    rw [Option.map_some, noError]
    rfl
  rw [iniParse, iniParseFile_events, parsed]
  rfl

/-- The dumper returns 1 for every entry. -/
theorem dumper_accepts (dump : Dump) (given : List IniEntry) :
    ∀ result ∈ (given.foldl Dump.print dump, List.replicate given.length (1 : Int32)).2,
      result ≠ 0 := by
  intro result member
  rw [List.eq_of_mem_replicate member]
  decide

/-- A file without malformed lines is printed without a complaint. -/
theorem iniDump_clean (filename : CString) (file : List UInt8) (clean : Clean file) :
    iniDump filename (some file) = some (dumped (entries file), 0) := by
  have parsed := iniParse_accepted dumper file clean dumpStart _ (handleAll_dumper _ _)
    (dumper_accepts _ _)
  rw [iniDump, parsed]
  rfl

/-- Whatever entries are printed, if they can be told apart in print, a handler that
accepts them gets exactly these from the printed file, without an error. -/
theorem dumped_read_back {User : Type} (handler : Handler User) (user after : User)
    (given : List IniEntry) (results : List Int32)
    (printable : ∀ entry ∈ given, Printable entry)
    (done : handleAll handler user given = some (after, results))
    (accepted : ∀ result ∈ results, result ≠ 0) :
    entries (dumped given) = given ∧
      iniParse handler (some (dumped given)) user = some (0, after) := by
  obtain ⟨same, clean⟩ := entries_dumped given printable
  rw [← same] at done
  exact ⟨same, iniParse_accepted handler (dumped given) clean user (after, results) done accepted⟩

/-- Printing what was printed of a file changes nothing. -/
theorem ini_dump_again (filename : CString) (file : List UInt8) (clean : Clean file)
    (distinct : ∀ entry ∈ entries file, Distinct entry) :
    ∃ output, iniDump filename (some file) = some (output, 0) ∧
      iniDump filename (some output) = some (output, 0) ∧ entries output = entries file := by
  have printable : ∀ entry ∈ entries file, Printable entry := fun entry member =>
    ⟨entries_wellFormed file entry member, distinct entry member⟩
  obtain ⟨same, still⟩ := entries_dumped (entries file) printable
  refine ⟨dumped (entries file), iniDump_clean filename file clean, ?_, same⟩
  rw [iniDump_clean filename _ still, same]

/-- Entries of two sections, the last with a semicolon and a blank in its value. -/
def printedEntries : List IniEntry :=
  [hostEntry, serviceMonitorEntry,
    ⟨defaultPortName, literal [98] rfl, literal [99, 59, 100, 32, 101] rfl⟩]

/-- The three entries can be told apart in print. -/
theorem printedEntries_printable : ∀ entry ∈ printedEntries, Printable entry := by
  intro entry member
  simp only [printedEntries, List.mem_cons, List.not_mem_nil, or_false] at member
  rcases member with rfl | rfl | rfl
  all_goals
    exact ⟨⟨⟨by decide, by decide, by decide⟩,
      ⟨by decide, by decide, by rintro _ ⟨⟩; decide, by decide, by decide⟩,
      ⟨by decide, by decide, by decide, by decide⟩⟩,
      ⟨by decide, by decide, by decide, by decide, by decide⟩⟩

/-- Three entries come back from the two sections that they are printed in. -/
theorem dumped_read_back_host :
    entries (dumped printedEntries) = printedEntries ∧
      iniParse dumper (some (dumped printedEntries)) dumpStart =
        some (0, printedEntries.foldl Dump.print dumpStart) :=
  dumped_read_back dumper dumpStart _ printedEntries _ printedEntries_printable
    (handleAll_dumper dumpStart printedEntries) (dumper_accepts dumpStart printedEntries)

/-- `b=c ;d`, an empty line, `[e]` and `f: g`. -/
def commentedFile : List UInt8 :=
  [98, 61, 99, 32, 59, 100] ++ [lineFeed] ++ ([] ++ [lineFeed] ++ ([91, 101, 93] ++ [lineFeed] ++
    ([102, 58, 32, 103] ++ [lineFeed] ++ [])))

/-- `b = c`, and `f = g` of the section `e`. -/
def commentedEntries : List IniEntry :=
  [⟨emptyString, literal [98] rfl, literal [99] rfl⟩,
    ⟨literal [101] rfl, literal [102] rfl, literal [103] rfl⟩]

/-- The file has the two entries, and no line of it is malformed. -/
theorem commentedFile_events :
    (fileEvents commentedFile).map Prod.snd = commentedEntries.map Event.call := by
  have noLines : fileLines [] = [] := lines_nil lineFeed (iniMaxLine - 1) lineRoom
  rw [fileEvents, commentedFile, fileLines_cons _ _ (by decide) (by decide),
    fileLines_cons _ _ (by decide) (by decide), fileLines_cons _ _ (by decide) (by decide),
    fileLines_cons _ _ (by decide) (by decide), noLines]
  rfl

/-- The comment and the empty line are gone in the first dump, and the second changes
nothing. -/
theorem ini_dump_again_commented :
    ∃ output, iniDump cfgagentName (some commentedFile) = some (output, 0) ∧
      iniDump cfgagentName (some output) = some (output, 0) ∧
      entries output = entries commentedFile := by
  obtain ⟨same, clean⟩ := calls_of_events _ _ commentedFile_events
  refine ini_dump_again cfgagentName commentedFile clean ?_
  have distinct : ∀ entry ∈ commentedEntries, Distinct entry := by
    intro entry member
    rcases List.mem_cons.mp member with rfl | member
    · exact ⟨by decide, by decide, by decide, by decide, by decide⟩
    · obtain rfl := List.mem_singleton.mp member
      exact ⟨by decide, by decide, by decide, by decide, by decide⟩
  rw [entries, same]
  exact distinct

end Dumped

end Evlpc.Inih
