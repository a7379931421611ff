import Evlpc.IniConfig
import Evlpc.Library.Scanning

/-!
# The parser of configuration files

`ini_parse` reads a file line by line into a buffer of fixed size, cuts the line in place,
and calls the handler with the section, a name and a value. A malformed line and a call
that the handler refuses are remembered by the number of the first such line, and the
parser goes on. A line that is indented continues the value of the name before it.
-/

namespace Evlpc.Inih

open Library CStrings Scanning

/-- `'\n'`. -/
def lineFeed : UInt8 := 10

/-- `';'`. -/
def semicolon : UInt8 := 59

/-- `'#'`. -/
def hash : UInt8 := 35

/-- `'['`. -/
def openBracket : UInt8 := 91

/-- `']'`. -/
def closeBracket : UInt8 := 93

/-- `'='`. -/
def equalsSign : UInt8 := 61

/-- `':'`. -/
def colon : UInt8 := 58

/-- `INI_MAX_LINE`. -/
def iniMaxLine : Nat := 200

/-- `MAX_SECTION`. -/
def maxSection : Nat := 50

/-- `MAX_NAME`. -/
def maxName : Nat := 50

/-- Some of the characters of a string. -/
def select (string : CString) (chars : List UInt8) (among : chars ⊆ string.chars) : CString where
  chars := chars
  noNul := fun member => string.noNul (among member)

/-- `rstrip`. -/
def rstrip (string : CString) : CString :=
  select string (string.chars.rdropWhile isspace) (List.rdropWhile_prefix isspace _).subset

/-- `lskip`. -/
def lskip (string : CString) : CString :=
  select string (string.chars.dropWhile isspace) (List.dropWhile_suffix isspace).subset

/-- The string from its second character on. -/
def advance (string : CString) : CString :=
  select string string.chars.tail (List.tail_sublist string.chars).subset

/-- `find_char_or_comment` stops at a character, given whether a blank is in front of
it. -/
def stopsAt (sought : UInt8) (wasWhitespace : Bool) (char : UInt8) : Bool :=
  char = sought || (wasWhitespace && char = semicolon)

/-- What is in front of the pointer that `find_char_or_comment` gives, and the string it
points to. -/
def findCharOrComment (string : CString) (sought : UInt8) : CString × CString :=
  let scanned := scan (stopsAt sought) isspace false string.chars
  have whole := scan_append (stopsAt sought) isspace false string.chars
  (select string scanned.1 (whole ▸ List.subset_append_left scanned.1 scanned.2),
    select string scanned.2 (whole ▸ List.subset_append_right scanned.1 scanned.2))

/-- `strncpy0`, by the string that it leaves in an array of the size. -/
def strncpy0 (src : CString) (size : Nat) : CString :=
  select src (src.chars.take (size - 1)) (List.take_subset _ _)

/-- `fgets`: the next line, and what is left of the file. -/
def fgets (size : Nat) (file : List UInt8) : Option (List UInt8 × List UInt8) :=
  if file = [] then none else some (takeLine lineFeed (size - 1) file)

/-- The string in the buffer when a line has been read into it. -/
def lineText (line : List UInt8) : CString where
  chars := line.takeWhile (· ≠ 0)
  noNul := by
    intro member
    have passed := List.mem_takeWhile_imp member
    exact of_decide_eq_true passed rfl

/-- The first line without the mark of UTF-8. -/
def skipMark (lineno : Nat) (line : CString) : CString :=
  if lineno = 1 ∧ line.chars.take 3 = [239, 187, 191] then
    select line (line.chars.drop 3) (List.drop_subset 3 line.chars)
  else line

/-- `start`, when the blanks at both ends are gone. -/
def lineStart (lineno : Nat) (line : CString) : CString := lskip (rstrip (skipMark lineno line))

/-- `start > line`: the mark or some blanks stand in front of it. -/
def startBehindLine (lineno : Nat) (line : CString) : Bool :=
  (skipMark lineno line).chars.length < line.chars.length ||
    (lineStart lineno line).chars.length < (rstrip (skipMark lineno line)).chars.length

/-- The handler of the caller: its data afterwards, and the result. -/
abbrev Handler (User : Type) := User → IniEntry → Option (User × Int32)

/-- The variables of `ini_parse_file` between two lines, and the data of the handler. In
the source `lineno` and `error` are of type `int`, which can count the lines of a file
as long as there are fewer than 2^31 of them. The files here are taken to be no longer. -/
structure Parser (User : Type) where
  lineno : Nat
  sectionName : CString
  prevName : CString
  error : Nat
  user : User

section Parsing

variable {User : Type} (handler : Handler User)

/-- `if (!error) error = lineno`. -/
def Parser.fail (parser : Parser User) : Parser User :=
  if parser.error = 0 then { parser with error := parser.lineno } else parser

/-- `if (!handler(user, section, name, value) && !error) error = lineno`. -/
def Parser.handle (parser : Parser User) (name value : CString) : Option (Parser User) := do
  let handled ← handler parser.user ⟨parser.sectionName, name, value⟩
  let parser := { parser with user := handled.1 }
  some (if handled.2 = 0 then parser.fail else parser)

/-- A `[section]` line, from the bracket on. -/
def parseSection (parser : Parser User) (start : CString) : Parser User :=
  let found := findCharOrComment (advance start) closeBracket
  if found.2.chars.head? = some closeBracket then
    { parser with sectionName := strncpy0 found.1 maxSection, prevName := emptyString }
  else parser.fail

/-- Where the name ends: at `=`, or else at `:`. -/
def findSeparator (start : CString) : CString × CString :=
  let found := findCharOrComment start equalsSign
  if found.2.chars.head? = some equalsSign then found else findCharOrComment start colon

/-- The value behind a separator. -/
def parseValue (separated : CString) : CString :=
  rstrip (findCharOrComment (lskip (advance separated)) 0).1

/-- A `name[=:]value` line. -/
def parsePair (parser : Parser User) (start : CString) : Option (Parser User) :=
  let found := findSeparator start
  if found.2.chars.head? = some equalsSign ∨ found.2.chars.head? = some colon then
    let name := rstrip found.1
    { parser with prevName := strncpy0 name maxName }.handle handler name (parseValue found.2)
  else some parser.fail

/-- The body of the loop of `ini_parse_file`. -/
def parseLine (parser : Parser User) (line : CString) : Option (Parser User) :=
  let parser := { parser with lineno := parser.lineno + 1 }
  let start := lineStart parser.lineno line
  match start.chars with
  | [] => some parser
  | first :: _ =>
    if first = semicolon ∨ first = hash then some parser
    else if parser.prevName.chars ≠ [] ∧ startBehindLine parser.lineno line then
      parser.handle handler parser.prevName start
    else if first = openBracket then some (parseSection parser start)
    else parsePair handler parser start

/-- Each call of `fgets` that reads anything leaves less of the file. -/
theorem fgets_shorter (file : List UInt8) (read : List UInt8 × List UInt8)
    (reads : fgets iniMaxLine file = some read) : read.2.length < file.length := by
  by_cases atEnd : file = []
  · rw [fgets, if_pos atEnd] at reads
    cases reads
  · rw [fgets, if_neg atEnd] at reads
    obtain rfl := Option.some.inj reads
    exact takeLine_shorter lineFeed 199 (by decide) file atEnd

/-- The loop of `ini_parse_file`. -/
def parseLoop (parser : Parser User) (file : List UInt8) : Option (Parser User) :=
  match reads : fgets iniMaxLine file with
  | none => some parser
  | some read => do
    let parser ← parseLine handler parser (lineText read.1)
    have := fgets_shorter file read reads
    parseLoop parser read.2
termination_by file.length

/-- `ini_parse_file`: the line of the first error, and the data of the handler. -/
def iniParseFile (file : List UInt8) (user : User) : Option (Nat × User) := do
  let parser ← parseLoop handler ⟨0, emptyString, emptyString, 0, user⟩ file
  some (parser.error, parser.user)

/-- `ini_parse`, of a file if it can be opened. -/
def iniParse (file : Option (List UInt8)) (user : User) : Option (Int × User) :=
  match file with
  | none => some (-1, user)
  | some file => (iniParseFile handler file user).map fun parsed => (parsed.1, parsed.2)

end Parsing

end Evlpc.Inih
