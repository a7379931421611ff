import Mathlib.Data.Nat.Log
import Mathlib.Tactic.Ring

/-!
# Tagged fields in base-128 encoding

A number is written in groups of seven bits, least significant first, every byte
but the last with its high bit set. A field is a tag, which combines the field
number with the kind of the value, followed by the value: a number, or a byte
string preceded by its length. A record is the concatenation of its fields, in
any order and with any repetitions.

Decoding inverts encoding for every list of fields, so a schema only has to map
its records to fields and back.
-/

namespace Evlpc.Library.Wire

/-- Seven bits a byte, least significant first. -/
def encodeVarint (value : Nat) : List UInt8 :=
  if value < 128 then [UInt8.ofNat value]
  else UInt8.ofNat (value % 128 + 128) :: encodeVarint (value / 128)

/-- Read one number and return what follows it; none if the bytes end first. -/
def decodeVarint : List UInt8 → Option (Nat × List UInt8)
  | [] => none
  | byte :: rest =>
    if byte.toNat < 128 then some (byte.toNat, rest)
    else (decodeVarint rest).map fun high => (byte.toNat - 128 + 128 * high.1, high.2)

/-- A number is read as it was written, whatever follows. -/
theorem decode_varint (value : Nat) (rest : List UInt8) :
    decodeVarint (encodeVarint value ++ rest) = some (value, rest) := by
  induction value using encodeVarint.induct with
  | case1 value small =>
    have byte : (UInt8.ofNat value).toNat = value := by
      rw [UInt8.toNat_ofNat']
      omega
    rw [encodeVarint, if_pos small, List.singleton_append, decodeVarint, byte, if_pos small]
  | case2 value large inductionHypothesis =>
    have byte : (UInt8.ofNat (value % 128 + 128)).toNat = value % 128 + 128 := by
      rw [UInt8.toNat_ofNat']
      omega
    have digits : value % 128 + 128 - 128 + 128 * (value / 128) = value := by omega
    rw [encodeVarint, if_neg large, List.cons_append, decodeVarint, byte, if_neg (by omega),
      inductionHypothesis, Option.map_some, digits]

/-- Every number takes some bytes. -/
theorem encodeVarint_ne_nil (value : Nat) : encodeVarint value ≠ [] := by
  rw [encodeVarint]
  split <;> simp

/-- A number takes a byte for each of its digits to the base 128. -/
theorem encodeVarint_size (value : Nat) : (encodeVarint value).length = Nat.log 128 value + 1 := by
  induction value using encodeVarint.induct with
  | case1 value small =>
    rw [encodeVarint, if_pos small, Nat.log_of_lt small]
    rfl
  | case2 value large inductionHypothesis =>
    rw [encodeVarint, if_neg large, List.length_cons, inductionHypothesis,
      Nat.log_of_one_lt_of_le (by decide) (Nat.not_lt.mp large)]

/-- A number below 128^(n+1) takes at most n+1 bytes. -/
theorem encodeVarint_length (groups value : Nat) (bound : value < 128 ^ (groups + 1)) :
    (encodeVarint value).length ≤ groups + 1 := by
  have digits := Nat.log_lt_of_lt_pow' (Nat.succ_ne_zero groups) bound
  rw [encodeVarint_size]
  omega

/-- The two kinds of values. -/
inductive Value where
  | number : Nat → Value
  | bytes : List UInt8 → Value
deriving DecidableEq

/-- A field number with its value. -/
abbrev Field := Nat × Value

/-- The tag's low three bits say the kind: 0 a number, 2 a byte string. -/
def encodeField : Field → List UInt8
  | (tag, .number value) => encodeVarint (8 * tag) ++ encodeVarint value
  | (tag, .bytes contents) =>
    encodeVarint (8 * tag + 2) ++ (encodeVarint contents.length ++ contents)

/-- Fields are written one behind the other. -/
def encodeFields (fields : List Field) : List UInt8 := (fields.map encodeField).flatten

/-- Read one field and return what follows it. -/
def decodeField (input : List UInt8) : Option (Field × List UInt8) :=
  (decodeVarint input).bind fun key =>
    (decodeVarint key.2).bind fun value =>
      if key.1 % 8 = 0 then some ((key.1 / 8, .number value.1), value.2)
      else if key.1 % 8 = 2 ∧ value.1 ≤ value.2.length then
        some ((key.1 / 8, .bytes (value.2.take value.1)), value.2.drop value.1)
      else none

/-- Read fields until the input ends; the fuel bounds their number. -/
def decodeFieldsFuel : Nat → List UInt8 → Option (List Field)
  | _, [] => some []
  | 0, _ :: _ => none
  | fuel + 1, byte :: rest =>
    (decodeField (byte :: rest)).bind fun first =>
      (decodeFieldsFuel fuel first.2).map (first.1 :: ·)

/-- Every field takes at least one byte, so the input's length is enough fuel. -/
def decodeFields (input : List UInt8) : Option (List Field) := decodeFieldsFuel input.length input

/-- Every field takes some bytes. -/
theorem encodeField_ne_nil (field : Field) : encodeField field ≠ [] := by
  obtain ⟨tag, value⟩ := field
  cases value <;> simp [encodeField, encodeVarint_ne_nil]

/-- A field is read as it was written, whatever follows. -/
theorem decode_field (field : Field) (rest : List UInt8) :
    decodeField (encodeField field ++ rest) = some (field, rest) := by
  obtain ⟨tag, value⟩ := field
  cases value with
  | number value =>
    rw [encodeField, List.append_assoc, decodeField, decode_varint]
    simp [decode_varint]
  | bytes contents =>
    have kind : (8 * tag + 2) % 8 = 2 := by omega
    have number : (8 * tag + 2) / 8 = tag := by omega
    rw [encodeField, List.append_assoc, List.append_assoc, decodeField, decode_varint]
    simp [decode_varint, kind, number]

/-- Any list of fields is read back. Induct over the fields; each consumes at
least one unit of fuel's worth of input. -/
theorem decode_fields_fuel (fields : List Field) (fuel : Nat)
    (enough : (encodeFields fields).length ≤ fuel) :
    decodeFieldsFuel fuel (encodeFields fields) = some fields := by
  induction fields generalizing fuel with
  | nil => cases fuel <;> rfl
  | cons field fields inductionHypothesis =>
    have split : encodeFields (field :: fields) = encodeField field ++ encodeFields fields := rfl
    rw [split, List.length_append] at enough
    rw [split]
    cases first : encodeField field with
    | nil => exact absurd first (encodeField_ne_nil field)
    | cons byte bytes =>
      rw [first, List.length_cons] at enough
      obtain ⟨fuel, rfl⟩ : ∃ other, fuel = other + 1 := ⟨fuel - 1, by omega⟩
      have read := decode_field field (encodeFields fields)
      rw [first, List.cons_append] at read
      rw [List.cons_append, decodeFieldsFuel, read, Option.bind_some,
        inductionHypothesis fuel (by omega), Option.map_some]

/-- Fields are read as they were written. -/
theorem decode_fields (fields : List Field) : decodeFields (encodeFields fields) = some fields :=
  decode_fields_fuel fields _ (Nat.le_refl _)

end Evlpc.Library.Wire
