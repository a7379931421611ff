import Evlpc.Library.CStrings
import Evlpc.Library.Scanning
import Mathlib.Data.Nat.Digits.Lemmas

/-!
# Numerals

`strtol` with the base 0 reads a number in the base that its first characters tell, and says
how far it has read. What it has not read does not matter, and a numeral that is written in
one of its bases is read as the number it stands for, as far as a `long` can hold it.
-/

namespace Evlpc.Library.Numerals

open CStrings Scanning

/-- The value of a digit or of a letter that stands for one. -/
def digitValue (char : UInt8) : Option Nat :=
  if 48 ≤ char && char ≤ 57 then some (char.toNat - 48)
  else if 65 ≤ char && char ≤ 90 then some (char.toNat - 55)
  else if 97 ≤ char && char ≤ 122 then some (char.toNat - 87)
  else none

/-- The value of a digit of a base. -/
def digitOf (base : Nat) (char : UInt8) : Option Nat := (digitValue char).filter (· < base)

/-- The number that digits continue, and what stands behind them. -/
def continueNumber (base number : Nat) : List UInt8 → Nat × List UInt8
  | [] => (number, [])
  | char :: rest =>
    match digitOf base char with
    | some digit => continueNumber base (base * number + digit) rest
    | none => (number, char :: rest)

/-- Whether there is a sign for negative numbers, and what stands behind a sign. -/
def skipSign : List UInt8 → Bool × List UInt8
  | [] => (false, [])
  | char :: rest =>
    if char = 45 then (true, rest) else if char = 43 then (false, rest)
    else (false, char :: rest)

/-- A letter that stands for the base 16, with a digit of it. -/
def hexMark : List UInt8 → Bool
  | letter :: char :: _ => (letter = 120 || letter = 88) && (digitOf 16 char).isSome
  | _ => false

/-- The base, and the digits with what stands behind them. -/
def skipBase : List UInt8 → Nat × List UInt8
  | [] => (10, [])
  | char :: rest =>
    if char = 48 then if hexMark rest then (16, rest.tail) else (8, char :: rest)
    else (10, char :: rest)

/-- The `long` next to a number. -/
def longOf (negative : Bool) (number : Nat) : Int :=
  if negative then max (-(number : Int)) (-9223372036854775808)
  else min (number : Int) 9223372036854775807

/-- A digit of the base stands in front. -/
def hasDigit (base : Nat) : List UInt8 → Bool
  | [] => false
  | char :: _ => (digitOf base char).isSome

/-- `strtol` with the base 0: the number, and how many characters it has read. -/
def strtolPrefixed (chars : List UInt8) : Int × Nat :=
  let signed := skipSign (chars.dropWhile isspace)
  let based := skipBase signed.2
  if hasDigit based.1 based.2 then
    let read := continueNumber based.1 0 based.2
    (longOf signed.1 read.1, chars.length - read.2.length)
  else (0, 0)

/-- The digit with a value. -/
def digitChar (digit : Nat) : UInt8 := UInt8.ofNat (if digit < 10 then 48 + digit else 87 + digit)

/-- A number in a base. -/
def numeral (base number : Nat) : List UInt8 :=
  if number = 0 then [48] else ((Nat.digits base number).map digitChar).reverse

/-- The ways to write a number that `strtol` tells apart. -/
inductive Radix where
  | decimal
  | hexadecimal
  | octal

/-- The base of a notation. -/
def Radix.base : Radix → Nat
  | .decimal => 10
  | .hexadecimal => 16
  | .octal => 8

/-- What is written in front of the digits. -/
def Radix.mark : Radix → List UInt8
  | .decimal => []
  | .hexadecimal => [48, 120]
  | .octal => [48]

/-- The sign of a number, nothing in front of a positive one. -/
def signMark (negative : Bool) : List UInt8 := if negative then [45] else []

section Digits

/-- A digit that is written is read as itself in every base that has it. -/
theorem digitOf_digitChar (base digit : Nat) (small : base ≤ 36) (below : digit < base) :
    digitOf base (digitChar digit) = some digit := by
  have all : ∀ letter : Fin 36, digitValue (digitChar letter) = some letter.val := by decide
  rw [digitOf, all ⟨digit, Nat.lt_of_lt_of_le below small⟩]
  exact Option.filter_eq_some_iff.mpr ⟨rfl, decide_eq_true below⟩

/-- Digits are read on as the number that they continue. -/
theorem continueNumber_digits (base number : Nat) (small : base ≤ 36) (digits : List Nat)
    (below : ∀ digit ∈ digits, digit < base) (rest : List UInt8) :
    continueNumber base number (digits.map digitChar ++ rest) =
      continueNumber base (digits.foldl (fun number digit => base * number + digit) number)
        rest := by
  induction digits generalizing number with
  | nil => rfl
  | cons digit digits inductionHypothesis =>
    obtain ⟨here, later⟩ := List.forall_mem_cons.mp below
    rw [List.map_cons, List.cons_append, continueNumber,
      digitOf_digitChar base digit small here]
    exact inductionHypothesis _ later

/-- Digits stop in front of anything else. -/
theorem continueNumber_stops (base number : Nat) (rest : List UInt8)
    (stops : ∀ char ∈ rest.head?, digitOf base char = none) :
    continueNumber base number rest = (number, rest) := by
  cases rest with
  | nil => rfl
  | cons char rest => rw [continueNumber, stops char rfl]

/-- A numeral is read as its number. -/
theorem continueNumber_numeral (base number : Nat) (least : 1 < base) (small : base ≤ 36)
    (rest : List UInt8) (stops : ∀ char ∈ rest.head?, digitOf base char = none) :
    continueNumber base 0 (numeral base number ++ rest) = (number, rest) := by
  rw [numeral]
  split
  · next zero =>
    have read := continueNumber_digits base 0 small [0]
      (fun digit member => by rw [List.mem_singleton.mp member]; omega) rest
    rw [show ([0].map digitChar : List UInt8) = [48] from rfl] at read
    rw [read, continueNumber_stops base _ rest stops, zero]
    rfl
  · have below : ∀ digit ∈ (Nat.digits base number).reverse, digit < base :=
      fun digit member => Nat.digits_lt_base least (List.mem_reverse.mp member)
    have value : (Nat.digits base number).reverse.foldl
        (fun number digit => base * number + digit) 0 = number := by
      rw [List.foldl_reverse]
      have folded := Nat.ofDigits_eq_foldr base (Nat.digits base number)
      rw [Nat.ofDigits_digits] at folded
      refine Eq.trans ?_ folded.symm
      exact congrArg (fun step => List.foldr step 0 (Nat.digits base number))
        (funext fun digit => funext fun number => Nat.add_comm _ _)
    rw [← List.map_reverse, continueNumber_digits base 0 small _ below, value,
      continueNumber_stops base _ rest stops]

end Digits

/-- A sign is skipped the same whatever follows the characters. -/
theorem skipSign_append (chars rest : List UInt8) (notEmpty : chars ≠ []) :
    skipSign (chars ++ rest) = ((skipSign chars).1, (skipSign chars).2 ++ rest) := by
  cases chars with
  | nil => exact absurd rfl notEmpty
  | cons char chars =>
    rw [List.cons_append, skipSign, skipSign]
    split
    · rfl
    split <;> rfl

section Stopping

variable (stop : UInt8) (other : digitValue stop = none) (rest : List UInt8)
include other

/-- The character behind the number is no digit. -/
theorem digitOf_other (base : Nat) : digitOf base stop = none := by
  rw [digitOf, other]
  rfl

/-- A number is read the same with other characters behind the stop. -/
theorem continueNumber_before (base number : Nat) (chars : List UInt8) :
    continueNumber base number (chars ++ stop :: rest) =
      ((continueNumber base number chars).1,
        (continueNumber base number chars).2 ++ stop :: rest) := by
  induction chars generalizing number with
  | nil =>
    rw [List.nil_append]
    refine continueNumber_stops base number (stop :: rest) fun char first => ?_
    rw [← Option.some.inj first]
    exact digitOf_other stop other base
  | cons char chars inductionHypothesis =>
    rw [List.cons_append, continueNumber, continueNumber]
    cases digitOf base char with
    | none => rfl
    | some digit => exact inductionHypothesis _

/-- The mark of a hexadecimal number is found the same with the stop behind it. -/
theorem hexMark_before (chars : List UInt8) : hexMark (chars ++ stop :: rest) = hexMark chars := by
  have noDigit := digitOf_other stop other 16
  match chars with
  | [] =>
    have notMark : ((stop = 120 : Bool) || (stop = 88 : Bool)) = false := by
      by_contra mark
      rw [Bool.not_eq_false, Bool.or_eq_true, decide_eq_true_iff, decide_eq_true_iff] at mark
      rcases mark with rfl | rfl <;> cases other
    cases rest with
    | nil => rfl
    | cons char rest =>
      rw [List.nil_append, hexMark, notMark, Bool.false_and]
      rfl
  | [letter] =>
    rw [List.singleton_append, hexMark, noDigit, Option.isSome_none, Bool.and_false]
    rfl
  | letter :: char :: chars => rfl

/-- The mark of a base is skipped the same with the stop behind it. -/
theorem skipBase_before (chars : List UInt8) :
    skipBase (chars ++ stop :: rest) =
      ((skipBase chars).1, (skipBase chars).2 ++ stop :: rest) := by
  cases chars with
  | nil =>
    have notZero : stop ≠ 48 := by
      rintro rfl
      cases other
    exact if_neg notZero
  | cons char chars =>
    rw [List.cons_append, skipBase, skipBase, hexMark_before stop other]
    by_cases zero : char = 48
    · rw [if_pos zero, if_pos zero]
      by_cases mark : hexMark chars = true
      · rw [if_pos mark, if_pos mark, List.tail_append_of_ne_nil]
        rintro rfl
        cases mark
      · rw [if_neg mark, if_neg mark, List.cons_append]
    · rw [if_neg zero, if_neg zero, List.cons_append]

/-- Whether a number starts does not depend on what stands behind the stop. -/
theorem hasDigit_before (base : Nat) (chars : List UInt8) :
    hasDigit base (chars ++ stop :: rest) = hasDigit base chars := by
  cases chars with
  | nil =>
    rw [List.nil_append, hasDigit, hasDigit, digitOf_other stop other]
    rfl
  | cons char chars => rfl

/-- A number ends in front of a character that is no digit in any base. -/
theorem strtolPrefixed_before (chars : List UInt8) (notEmpty : chars ≠ [])
    (solid : SolidStart isspace chars) :
    strtolPrefixed (chars ++ stop :: rest) = strtolPrefixed chars := by
  have alsoSolid := (solidStart_append isspace chars (stop :: rest) notEmpty).mpr solid
  simp only [strtolPrefixed]
  rw [dropWhile_solid isspace _ alsoSolid, dropWhile_solid isspace chars solid,
    skipSign_append chars _ notEmpty, skipBase_before stop other]
  simp only
  rw [hasDigit_before stop other, continueNumber_before stop other]
  simp only [List.length_append, Nat.add_sub_add_right]

end Stopping

section Written

/-- A numeral starts with a digit, which is zero for zero only. -/
theorem numeral_first (base number : Nat) (least : 1 < base) :
    ∃ digit rest, numeral base number = digitChar digit :: rest ∧ digit < base ∧
      (digit = 0 → number = 0) := by
  by_cases zero : number = 0
  · exact ⟨0, [], if_pos zero, by omega, fun _ => zero⟩
  · have notEmpty : Nat.digits base number ≠ [] := Nat.digits_ne_nil_iff_ne_zero.mpr zero
    have last := List.dropLast_append_getLast notEmpty
    refine ⟨(Nat.digits base number).getLast notEmpty,
      ((Nat.digits base number).dropLast.map digitChar).reverse, ?_,
      Nat.digits_lt_base least (List.getLast_mem notEmpty), ?_⟩
    · rw [numeral, if_neg zero]
      nth_rewrite 1 [← last]
      rw [List.map_append, List.reverse_append]
      rfl
    · intro isZero
      exact absurd isZero (Nat.getLast_digit_ne_zero base zero)

/-- A zero begins a hexadecimal number if its mark follows, and else an octal one. -/
theorem skipBase_zero (rest : List UInt8) :
    skipBase (48 :: rest) = if hexMark rest then (16, rest.tail) else (8, 48 :: rest) := by
  rw [skipBase, if_pos rfl]

/-- The digits up to seven mark no base. -/
theorem hexMark_digit (digit : Nat) (below : digit < 8) (rest : List UInt8) :
    hexMark (digitChar digit :: rest) = false := by
  have letters : ∀ octal : Fin 8,
      ((digitChar octal = 120 : Bool) || (digitChar octal = 88 : Bool)) = false := by decide
  cases rest with
  | nil => rfl
  | cons char rest => rw [hexMark, letters ⟨digit, below⟩, Bool.false_and]

/-- Behind the mark of its base, a numeral is read in this base, but for a decimal zero. -/
theorem skipBase_numeral (radix : Radix) (number : Nat) :
    ∃ base digits, skipBase (radix.mark ++ numeral radix.base number) = (base, digits) ∧
      hasDigit base digits = true ∧ continueNumber base 0 digits = (number, []) := by
  have read (base : Nat) (least : 1 < base) (small : base ≤ 36) :
      continueNumber base 0 (numeral base number) = (number, []) := by
    have whole := continueNumber_numeral base number least small []
      (fun char first => by cases first)
    rwa [List.append_nil] at whole
  cases radix with
  | decimal =>
    by_cases zero : number = 0
    · rw [zero]
      exact ⟨8, [48], rfl, rfl, rfl⟩
    · obtain ⟨digit, rest, written, below, onlyZero⟩ := numeral_first 10 number (by decide)
      have digits : ∀ decimal : Fin 10, digitChar decimal = 48 → decimal.val = 0 := by decide
      have notZero : digitChar digit ≠ 48 :=
        fun isZero => zero (onlyZero (digits ⟨digit, below⟩ isZero))
      refine ⟨10, numeral 10 number, ?_, ?_, read 10 (by decide) (by decide)⟩
      · change skipBase (numeral 10 number) = _
        rw [written]
        exact if_neg notZero
      · rw [written, hasDigit, digitOf_digitChar 10 digit (by decide) below]
        rfl
  | hexadecimal =>
    obtain ⟨digit, rest, written, below, -⟩ := numeral_first 16 number (by decide)
    have known := digitOf_digitChar 16 digit (by decide) below
    refine ⟨16, numeral 16 number, ?_, ?_, read 16 (by decide) (by decide)⟩
    · change skipBase (48 :: 120 :: numeral 16 number) = _
      rw [skipBase_zero, written, hexMark, known]
      rfl
    · rw [written, hasDigit, known]
      rfl
  | octal =>
    obtain ⟨digit, rest, written, below, -⟩ := numeral_first 8 number (by decide)
    refine ⟨8, 48 :: numeral 8 number, ?_, rfl, read 8 (by decide) (by decide)⟩
    change skipBase (48 :: numeral 8 number) = _
    rw [skipBase_zero, written, hexMark_digit digit below]
    rfl

/-- The first character of a marked numeral is a decimal digit. -/
theorem marked_first (radix : Radix) (number : Nat) :
    ∃ digit rest, radix.mark ++ numeral radix.base number = digitChar digit :: rest ∧
      digit < 10 := by
  cases radix with
  | decimal =>
    obtain ⟨digit, rest, written, below, -⟩ := numeral_first 10 number (by decide)
    exact ⟨digit, rest, written, below⟩
  | hexadecimal => exact ⟨0, 120 :: numeral 16 number, rfl, by decide⟩
  | octal => exact ⟨0, numeral 8 number, rfl, by decide⟩

/-- In front of a digit only the sign is skipped, and nothing of it is blank. -/
theorem skipSign_digit (negative : Bool) (digit : Nat) (below : digit < 10) (rest : List UInt8) :
    skipSign (signMark negative ++ digitChar digit :: rest) =
        (negative, digitChar digit :: rest) ∧
      SolidStart isspace (signMark negative ++ digitChar digit :: rest) := by
  have plain : ∀ decimal : Fin 10, digitChar decimal ≠ 45 ∧ digitChar decimal ≠ 43 ∧
      isspace (digitChar decimal) = false := by decide
  obtain ⟨notMinus, notPlus, solid⟩ := plain ⟨digit, below⟩
  cases negative with
  | true => exact ⟨rfl, fun first isFirst => by rw [← Option.some.inj isFirst]; rfl⟩
  | false =>
    refine ⟨(if_neg notMinus).trans (if_neg notPlus), fun first isFirst => ?_⟩
    rw [← Option.some.inj isFirst]
    exact solid

/-- A numeral is read as its number. -/
theorem strtolPrefixed_numeral (negative : Bool) (radix : Radix) (number : Nat) :
    strtolPrefixed (signMark negative ++ (radix.mark ++ numeral radix.base number)) =
      (longOf negative number,
        (signMark negative ++ (radix.mark ++ numeral radix.base number)).length) := by
  obtain ⟨digit, rest, written, below⟩ := marked_first radix number
  obtain ⟨base, digits, skipped, has, read⟩ := skipBase_numeral radix number
  obtain ⟨signed, solid⟩ := skipSign_digit negative digit below rest
  rw [← written] at signed solid
  simp only [strtolPrefixed]
  rw [dropWhile_solid isspace _ solid, signed]
  simp only
  rw [skipped]
  simp only
  rw [if_pos has, read, List.length_nil, Nat.sub_zero]

end Written

end Evlpc.Library.Numerals
