import Mathlib.Data.List.DropRight
import Evlpc.Library.CStrings

/-!
# Scanning a string

Blanks are dropped at both ends of a string, and a scan divides it in front of the first
character that it stops at, which may depend on the blank in front of that character.
Reading by lines takes the characters up to a line end, but no more than there is room
for.
-/

namespace Evlpc.Library.Scanning

open CStrings

section Trimming

variable {Char : Type} (blank : Char → Bool)

/-- No blank stands at the start. -/
def SolidStart (chars : List Char) : Prop := ∀ first ∈ chars.head?, blank first = false

/-- No blank stands at the end. -/
def SolidEnd (chars : List Char) : Prop := ∀ last ∈ chars.getLast?, blank last = false

instance [DecidableEq Char] (chars : List Char) : Decidable (SolidStart blank chars) :=
  inferInstanceAs (Decidable (∀ first ∈ chars.head?, blank first = false))

instance [DecidableEq Char] (chars : List Char) : Decidable (SolidEnd blank chars) :=
  inferInstanceAs (Decidable (∀ last ∈ chars.getLast?, blank last = false))

/-- What is left when the blanks in front are dropped does not start with one. -/
theorem solidStart_dropWhile (chars : List Char) : SolidStart blank (chars.dropWhile blank) := by
  intro first isFirst
  induction chars with
  | nil => cases isFirst
  | cons char chars inductionHypothesis =>
    by_cases isBlank : blank char = true
    · rw [List.dropWhile_cons_of_pos isBlank] at isFirst
      exact inductionHypothesis isFirst
    · rw [List.dropWhile_cons_of_neg isBlank, List.head?_cons] at isFirst
      obtain rfl := Option.some.inj isFirst
      exact eq_false_of_ne_true isBlank

/-- What is left when the blanks behind are dropped does not end with one. -/
theorem solidEnd_rdropWhile (chars : List Char) : SolidEnd blank (chars.rdropWhile blank) := by
  intro last isLast
  rw [List.rdropWhile, List.getLast?_reverse] at isLast
  exact solidStart_dropWhile blank chars.reverse last isLast

/-- Nothing is dropped at a solid start. -/
theorem dropWhile_solid (chars : List Char) (solid : SolidStart blank chars) :
    chars.dropWhile blank = chars := by
  cases chars with
  | nil => rfl
  | cons char chars =>
    have notBlank := solid char rfl
    exact List.dropWhile_cons_of_neg (by rw [notBlank]; exact Bool.false_ne_true)

/-- Nothing is dropped at a solid end. -/
theorem rdropWhile_solid (chars : List Char) (solid : SolidEnd blank chars) :
    chars.rdropWhile blank = chars := by
  rw [List.rdropWhile, dropWhile_solid, List.reverse_reverse]
  intro first isFirst
  rw [List.head?_reverse] at isFirst
  exact solid first isFirst

/-- A character that is no blank stays at the start. -/
theorem rdropWhile_first (first : Char) (rest : List Char) (solid : blank first = false) :
    ∃ kept, (first :: rest).rdropWhile blank = first :: kept := by
  obtain ⟨blanks, parts⟩ := List.rdropWhile_prefix blank (first :: rest)
  cases chars : (first :: rest).rdropWhile blank with
  | nil =>
    have isBlank := (List.rdropWhile_eq_nil_iff).mp chars first List.mem_cons_self
    rw [solid] at isBlank
    cases isBlank
  | cons other kept =>
    rw [chars] at parts
    exact ⟨kept, congrArg (· :: kept) (List.cons.inj parts).1⟩

/-- Blanks behind a solid end are dropped. -/
theorem rdropWhile_append_blanks (chars blanks : List Char)
    (areBlank : ∀ char ∈ blanks, blank char = true) :
    (chars ++ blanks).rdropWhile blank = chars.rdropWhile blank := by
  rw [List.rdropWhile, List.reverse_append, List.dropWhile_append_of_pos, List.rdropWhile]
  intro char member
  exact areBlank char (List.mem_reverse.mp member)

/-- What follows decides on the end. -/
theorem solidEnd_append (front back : List Char) (notEmpty : back ≠ []) :
    SolidEnd blank (front ++ back) ↔ SolidEnd blank back := by
  rw [SolidEnd, SolidEnd, List.getLast?_append_of_ne_nil front notEmpty]

/-- What is in front decides on the start. -/
theorem solidStart_append (front back : List Char) (notEmpty : front ≠ []) :
    SolidStart blank (front ++ back) ↔ SolidStart blank front := by
  rw [SolidStart, SolidStart, List.head?_append_of_ne_nil front notEmpty]

/-- The start of a solid start is solid. -/
theorem solidStart_left (front back : List Char) (solid : SolidStart blank (front ++ back)) :
    SolidStart blank front := by
  intro first isFirst
  apply solid
  cases front with
  | nil => cases isFirst
  | cons char front => exact isFirst

end Trimming

section Scan

variable {Char : Type} (stop : Bool → Char → Bool) (blank : Char → Bool)

/-- The string in front of the first character to stop at, and the rest from it on. It is
known whether a blank stands in front of the string. -/
def scan (afterBlank : Bool) : List Char → List Char × List Char
  | [] => ([], [])
  | char :: rest =>
    if stop afterBlank char then ([], char :: rest)
    else
      let scanned := scan (blank char) rest
      (char :: scanned.1, scanned.2)

/-- There is no character to stop at. -/
def Free (afterBlank : Bool) : List Char → Prop
  | [] => True
  | char :: rest => stop afterBlank char = false ∧ Free (blank char) rest

instance decidableFree (afterBlank : Bool) :
    (chars : List Char) → Decidable (Free stop blank afterBlank chars)
  | [] => isTrue trivial
  | char :: rest =>
    have := decidableFree (blank char) rest
    inferInstanceAs (Decidable (_ ∧ _))

/-- Whether what follows the characters follows a blank. -/
def blankBehind (afterBlank : Bool) : List Char → Bool
  | [] => afterBlank
  | char :: rest => blankBehind (blank char) rest

variable (afterBlank : Bool)

/-- A scan splits the characters in two. -/
theorem scan_append (chars : List Char) :
    (scan stop blank afterBlank chars).1 ++ (scan stop blank afterBlank chars).2 = chars := by
  induction chars generalizing afterBlank with
  | nil => rfl
  | cons char rest inductionHypothesis =>
    by_cases stops : stop afterBlank char = true
    · rw [scan, if_pos stops]
      rfl
    · rw [scan, if_neg stops]
      exact congrArg (char :: ·) (inductionHypothesis (blank char))

/-- What is in front of the stop has none. -/
theorem scan_free (chars : List Char) :
    Free stop blank afterBlank (scan stop blank afterBlank chars).1 := by
  induction chars generalizing afterBlank with
  | nil => exact trivial
  | cons char rest inductionHypothesis =>
    by_cases stops : stop afterBlank char = true
    · rw [scan, if_pos stops]
      exact trivial
    · rw [scan, if_neg stops]
      exact ⟨eq_false_of_ne_true stops, inductionHypothesis (blank char)⟩

/-- Both parts of a string are free of stops if the string is. -/
theorem free_append (front back : List Char) :
    Free stop blank afterBlank (front ++ back) ↔
      Free stop blank afterBlank front ∧
        Free stop blank (blankBehind blank afterBlank front) back := by
  induction front generalizing afterBlank with
  | nil => exact ⟨fun free => ⟨trivial, free⟩, fun both => both.2⟩
  | cons char front inductionHypothesis =>
    rw [List.cons_append, Free, Free, inductionHypothesis, and_assoc]
    exact Iff.rfl

/-- The start of what is free of stops is. -/
theorem free_begins (front whole : List Char) (isPrefix : front <+: whole)
    (free : Free stop blank afterBlank whole) : Free stop blank afterBlank front := by
  obtain ⟨back, rfl⟩ := isPrefix
  exact ((free_append stop blank afterBlank front back).mp free).1

/-- A scan passes what is free of stops. -/
theorem scan_passes (front back : List Char) (free : Free stop blank afterBlank front) :
    scan stop blank afterBlank (front ++ back) =
      (front ++ (scan stop blank (blankBehind blank afterBlank front) back).1,
        (scan stop blank (blankBehind blank afterBlank front) back).2) := by
  induction front generalizing afterBlank with
  | nil => rfl
  | cons char front inductionHypothesis =>
    have goesOn : ¬ stop afterBlank char = true := by
      rw [free.1]
      exact Bool.false_ne_true
    rw [List.cons_append, scan, if_neg goesOn, inductionHypothesis (blank char) free.2]
    rfl

/-- A scan without a stop takes everything. -/
theorem scan_all (chars : List Char) (free : Free stop blank afterBlank chars) :
    scan stop blank afterBlank chars = (chars, []) := by
  have passes := scan_passes stop blank afterBlank chars [] free
  rwa [List.append_nil, scan, List.append_nil] at passes

/-- A scan stops in front of the first stop. -/
theorem scan_stops (front : List Char) (char : Char) (back : List Char)
    (free : Free stop blank afterBlank front)
    (stops : stop (blankBehind blank afterBlank front) char = true) :
    scan stop blank afterBlank (front ++ char :: back) = (front, char :: back) := by
  rw [scan_passes stop blank afterBlank front _ free, scan, if_pos stops, List.append_nil]

/-- A character that some scan never passes is not in front of its stop. -/
theorem not_mem_free (chars : List Char) (free : Free stop blank afterBlank chars) (char : Char)
    (always : ∀ after, stop after char = true) : char ∉ chars := by
  induction chars generalizing afterBlank with
  | nil => exact List.not_mem_nil
  | cons first rest inductionHypothesis =>
    intro member
    rcases List.mem_cons.mp member with rfl | later
    · exact Bool.false_ne_true (free.1.symm.trans (always afterBlank))
    · exact inductionHypothesis (blank first) free.2 later

/-- A scan that stops somewhere stops at a character to stop at. -/
theorem scan_rest (chars : List Char) (char : Char) (back : List Char)
    (scanned : (scan stop blank afterBlank chars).2 = char :: back) :
    stop (blankBehind blank afterBlank (scan stop blank afterBlank chars).1) char = true := by
  induction chars generalizing afterBlank with
  | nil => cases scanned
  | cons first rest inductionHypothesis =>
    by_cases stops : stop afterBlank first = true
    · rw [scan, if_pos stops] at scanned ⊢
      obtain ⟨rfl, -⟩ := List.cons.inj scanned
      exact stops
    · rw [scan, if_neg stops] at scanned ⊢
      exact inductionHypothesis (blank first) scanned

end Scan

section Lines

/-- A line of what is left, its end included, but not more characters than there is room
for. -/
def takeLine {Char : Type} [DecidableEq Char] (lineEnd : Char) :
    Nat → List Char → List Char × List Char
  | 0, file => ([], file)
  | _ + 1, [] => ([], [])
  | room + 1, char :: file =>
    if char = lineEnd then ([char], file)
    else
      let taken := takeLine lineEnd room file
      (char :: taken.1, taken.2)

variable {Char : Type} [DecidableEq Char] (lineEnd : Char)

/-- Taking a line splits the file in two. -/
theorem takeLine_append (room : Nat) (file : List Char) :
    (takeLine lineEnd room file).1 ++ (takeLine lineEnd room file).2 = file := by
  induction room generalizing file with
  | zero => rfl
  | succ room inductionHypothesis =>
    cases file with
    | nil => rfl
    | cons char file =>
      by_cases isEnd : char = lineEnd
      · rw [takeLine, if_pos isEnd]
        rfl
      · rw [takeLine, if_neg isEnd]
        exact congrArg (char :: ·) (inductionHypothesis file)

/-- There is room for a line. -/
theorem takeLine_room (room : Nat) (file : List Char) :
    (takeLine lineEnd room file).1.length ≤ room := by
  induction room generalizing file with
  | zero => exact Nat.le_refl 0
  | succ room inductionHypothesis =>
    cases file with
    | nil => exact Nat.zero_le _
    | cons char file =>
      by_cases isEnd : char = lineEnd
      · rw [takeLine, if_pos isEnd]
        exact Nat.succ_le_succ (Nat.zero_le room)
      · rw [takeLine, if_neg isEnd]
        exact Nat.succ_le_succ (inductionHypothesis file)

/-- With room for a character, something is taken of what is left. -/
theorem takeLine_shorter (room : Nat) (hasRoom : 0 < room) (file : List Char)
    (notEmpty : file ≠ []) : (takeLine lineEnd room file).2.length < file.length := by
  have whole := congrArg List.length (takeLine_append lineEnd room file)
  rw [List.length_append] at whole
  have taken : 0 < (takeLine lineEnd room file).1.length := by
    cases room with
    | zero => exact absurd hasRoom (Nat.lt_irrefl 0)
    | succ room =>
      cases file with
      | nil => exact absurd rfl notEmpty
      | cons char file =>
        by_cases isEnd : char = lineEnd
        · rw [takeLine, if_pos isEnd]
          exact Nat.one_pos
        · rw [takeLine, if_neg isEnd]
          exact Nat.succ_pos _
  omega

omit [DecidableEq Char] in
/-- A line end that is at most the last character of a whole is so of both parts. -/
theorem dropLast_parts (front back : List Char) (ends : lineEnd ∉ (front ++ back).dropLast) :
    lineEnd ∉ front.dropLast ∧ lineEnd ∉ back.dropLast := by
  by_cases empty : back = []
  · rw [empty, List.append_nil] at ends
    exact ⟨ends, empty ▸ List.not_mem_nil⟩
  · rw [List.dropLast_append_of_ne_nil empty] at ends
    constructor
    · intro member
      exact ends (List.mem_append_left _ ((List.dropLast_sublist front).subset member))
    · intro member
      exact ends (List.mem_append_right _ member)

/-- A line that there is room for is taken as it is. -/
theorem takeLine_line (room : Nat) (line file : List Char) (noEnd : lineEnd ∉ line)
    (fits : line.length < room) :
    takeLine lineEnd room (line ++ lineEnd :: file) = (line ++ [lineEnd], file) := by
  induction line generalizing room with
  | nil =>
    obtain ⟨fewer, rfl⟩ := Nat.exists_eq_succ_of_ne_zero (Nat.ne_of_gt fits)
    rw [List.nil_append, takeLine, if_pos rfl]
    rfl
  | cons char line inductionHypothesis =>
    obtain ⟨fewer, rfl⟩ := Nat.exists_eq_succ_of_ne_zero (Nat.ne_of_gt (Nat.zero_lt_of_lt fits))
    rw [List.length_cons] at fits
    have notEnd : char ≠ lineEnd := fun same => noEnd (same ▸ List.mem_cons_self)
    have later := inductionHypothesis fewer
      (fun member => noEnd (List.mem_cons_of_mem char member)) (by omega)
    rw [List.cons_append, takeLine, if_neg notEnd, later]
    rfl

/-- A line end is the last character that is taken. -/
theorem takeLine_ends (room : Nat) (file : List Char) :
    lineEnd ∉ (takeLine lineEnd room file).1.dropLast := by
  induction room generalizing file with
  | zero => exact List.not_mem_nil
  | succ room inductionHypothesis =>
    cases file with
    | nil => exact List.not_mem_nil
    | cons char file =>
      by_cases isEnd : char = lineEnd
      · rw [takeLine, if_pos isEnd]
        exact List.not_mem_nil
      · rw [takeLine, if_neg isEnd]
        intro member
        replace member : lineEnd ∈ (char :: (takeLine lineEnd room file).1).dropLast := member
        have rest := inductionHypothesis file
        cases taken : (takeLine lineEnd room file).1 with
        | nil =>
          rw [taken] at member
          exact List.not_mem_nil member
        | cons first later =>
          rw [taken] at member rest
          rw [List.dropLast_cons_of_ne_nil (List.cons_ne_nil first later)] at member
          rcases List.mem_cons.mp member with same | inLater
          · exact isEnd same.symm
          · exact rest inLater

variable (room : Nat) (hasRoom : 0 < room)

/-- The lines of a file. -/
def lines (file : List Char) : List (List Char) :=
  if notEmpty : file = [] then []
  else
    have := takeLine_shorter lineEnd room hasRoom file notEmpty
    (takeLine lineEnd room file).1 :: lines (takeLine lineEnd room file).2
termination_by file.length

/-- A file of no characters has no lines. -/
theorem lines_nil : lines lineEnd room hasRoom [] = [] := by
  rw [lines, dif_pos rfl]

/-- The lines of a file are the first one, and those of what is behind it. -/
theorem lines_step (file : List Char) (notEmpty : file ≠ []) :
    lines lineEnd room hasRoom file =
      (takeLine lineEnd room file).1 ::
        lines lineEnd room hasRoom (takeLine lineEnd room file).2 := by
  rw [lines, dif_neg notEmpty]

include hasRoom in
/-- What holds of the empty file, and of a file if it holds of what follows its first line,
holds of every file. -/
theorem lines_induction (Holds : List Char → Prop) (nothing : Holds [])
    (step : ∀ file, file ≠ [] → Holds (takeLine lineEnd room file).2 → Holds file)
    (file : List Char) : Holds file := by
  induction length : file.length using Nat.strong_induction_on generalizing file with
  | _ size inductionHypothesis =>
    by_cases notEmpty : file = []
    · rw [notEmpty]
      exact nothing
    · have shorter := takeLine_shorter lineEnd room hasRoom file notEmpty
      exact step file notEmpty (inductionHypothesis _ (length ▸ shorter) _ rfl)

/-- The lines are the file. -/
theorem lines_flatten (file : List Char) : (lines lineEnd room hasRoom file).flatten = file := by
  induction file using lines_induction lineEnd room hasRoom with
  | nothing =>
    rw [lines_nil]
    rfl
  | step file notEmpty inductionHypothesis =>
    rw [lines_step lineEnd room hasRoom file notEmpty, List.flatten_cons, inductionHypothesis]
    exact takeLine_append lineEnd room file

/-- A line is not longer than there is room for, and a line end is its last character. -/
theorem lines_bounded (file line : List Char) (member : line ∈ lines lineEnd room hasRoom file) :
    line.length ≤ room ∧ lineEnd ∉ line.dropLast := by
  induction file using lines_induction lineEnd room hasRoom with
  | nothing =>
    rw [lines_nil] at member
    cases member
  | step file notEmpty inductionHypothesis =>
    rw [lines_step lineEnd room hasRoom file notEmpty] at member
    rcases List.mem_cons.mp member with rfl | later
    · exact ⟨takeLine_room lineEnd room file, takeLine_ends lineEnd room file⟩
    · exact inductionHypothesis later

/-- A line that there is room for is the first one, and the lines of the rest follow. -/
theorem lines_cons (line file : List Char) (noEnd : lineEnd ∉ line) (fits : line.length < room) :
    lines lineEnd room hasRoom (line ++ lineEnd :: file) =
      (line ++ [lineEnd]) :: lines lineEnd room hasRoom file := by
  have notEmpty : line ++ lineEnd :: file ≠ [] :=
    List.append_ne_nil_of_right_ne_nil line (List.cons_ne_nil lineEnd file)
  rw [lines_step lineEnd room hasRoom _ notEmpty, takeLine_line lineEnd room line file noEnd fits]

/-- What stands in front of a line end is taken as if nothing followed it. -/
theorem takeLine_closed (size : Nat) (front back : List Char) :
    takeLine lineEnd size (front ++ lineEnd :: back) =
      ((takeLine lineEnd size (front ++ [lineEnd])).1,
        (takeLine lineEnd size (front ++ [lineEnd])).2 ++ back) := by
  induction size generalizing front with
  | zero =>
    rw [takeLine, takeLine, List.append_assoc]
    rfl
  | succ size inductionHypothesis =>
    cases front with
    | nil =>
      rw [List.nil_append, List.nil_append, takeLine, takeLine, if_pos rfl, if_pos rfl]
      rfl
    | cons char front =>
      rw [List.cons_append, List.cons_append, takeLine, takeLine]
      by_cases isEnd : char = lineEnd
      · rw [if_pos isEnd, if_pos isEnd, List.append_assoc]
        rfl
      · rw [if_neg isEnd, if_neg isEnd, inductionHypothesis front]

/-- What is left behind a line of a closed text is nothing or a closed text. -/
theorem takeLine_left (size : Nat) (front : List Char) :
    (takeLine lineEnd size (front ++ [lineEnd])).2 = [] ∨
      ∃ less, (takeLine lineEnd size (front ++ [lineEnd])).2 = less ++ [lineEnd] := by
  induction size generalizing front with
  | zero => exact Or.inr ⟨front, rfl⟩
  | succ size inductionHypothesis =>
    cases front with
    | nil =>
      rw [List.nil_append, takeLine, if_pos rfl]
      exact Or.inl rfl
    | cons char front =>
      rw [List.cons_append, takeLine]
      by_cases isEnd : char = lineEnd
      · rw [if_pos isEnd]
        exact Or.inr ⟨front, rfl⟩
      · rw [if_neg isEnd]
        exact inductionHypothesis front

/-- A text that ends with a line end and what follows it are divided into lines
separately. -/
theorem lines_append (front back : List Char)
    (closed : front = [] ∨ ∃ text, front = text ++ [lineEnd]) :
    lines lineEnd room hasRoom (front ++ back) =
      lines lineEnd room hasRoom front ++ lines lineEnd room hasRoom back := by
  induction front using lines_induction lineEnd room hasRoom with
  | nothing =>
    rw [lines_nil]
    rfl
  | step front notEmpty inductionHypothesis =>
    rcases closed with rfl | ⟨text, rfl⟩
    · exact absurd rfl notEmpty
    have more : text ++ [lineEnd] ++ back ≠ [] := List.append_ne_nil_of_left_ne_nil notEmpty back
    have taken := takeLine_closed lineEnd room text back
    rw [← List.singleton_append, ← List.append_assoc] at taken
    rw [lines_step lineEnd room hasRoom _ more, taken,
      lines_step lineEnd room hasRoom _ notEmpty, List.cons_append,
      inductionHypothesis (takeLine_left lineEnd room text)]

end Lines

end Evlpc.Library.Scanning
