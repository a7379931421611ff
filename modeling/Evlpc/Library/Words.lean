import Mathlib.Data.Nat.Notation
import Mathlib.Tactic.Ring

/-!
# Little-endian words

A word of a given width is the list of its bytes, least significant first.
Encoding truncates modulo the size of the word; decoding inverts it on every
value the width can hold. The 32- and 64-bit instances read the leading bytes
of a longer list, as a machine load does.
-/

namespace Evlpc.Library.Words

/-- Little-endian value of a byte list of any length. -/
def decodeLE : List UInt8 → Nat
  | [] => 0
  | byte :: rest => byte.toNat + 256 * decodeLE rest

/-- Exactly `width` bytes, least significant first; higher digits are dropped. -/
def encodeLE : Nat → Nat → List UInt8
  | 0, _ => []
  | width + 1, value => UInt8.ofNat value :: encodeLE width (value / 256)

/-- A number takes as many bytes as its width. -/
theorem encode_length (width value : Nat) : (encodeLE width value).length = width := by
  induction width generalizing value with
  | zero => rfl
  | succ width inductionHypothesis => simp [encodeLE, inductionHypothesis]

/-- Decoding an encoded value gives it back modulo the word size. Each step
peels the low digit, and the remaining digits are the quotient's encoding. -/
theorem decode_encode (width value : Nat) :
    decodeLE (encodeLE width value) = value % 256 ^ width := by
  induction width generalizing value with
  | zero => simp [encodeLE, decodeLE, Nat.mod_one]
  | succ width inductionHypothesis =>
    have digit : (UInt8.ofNat value).toNat = value % 256 := by simp
    rw [encodeLE, decodeLE, inductionHypothesis, digit, Nat.pow_succ, Nat.mul_comm (256 ^ width),
      Nat.mod_mul]

/-- The four bytes of a 32-bit word. -/
def word32 (value : UInt32) : List UInt8 := encodeLE 4 value.toNat

/-- The eight bytes of a 64-bit word. -/
def word64 (value : UInt64) : List UInt8 := encodeLE 8 value.toNat

/-- Read a 32-bit word from the first four bytes. -/
def readWord32 (bytes : List UInt8) : UInt32 := UInt32.ofNat (decodeLE (bytes.take 4))

/-- Read a 64-bit word from the first eight bytes. -/
def readWord64 (bytes : List UInt8) : UInt64 := UInt64.ofNat (decodeLE (bytes.take 8))

/-- A word of 32 bits takes four bytes. -/
theorem word32_length (value : UInt32) : (word32 value).length = 4 := encode_length 4 _

/-- A word of 64 bits takes eight bytes. -/
theorem word64_length (value : UInt64) : (word64 value).length = 8 := encode_length 8 _

/-- A stored 32-bit word is read back whatever follows it. -/
theorem read_word32 (value : UInt32) (rest : List UInt8) :
    readWord32 (word32 value ++ rest) = value := by
  have whole : (word32 value ++ rest).take 4 = word32 value :=
    List.take_left' (word32_length value)
  have bound : value.toNat < 256 ^ 4 := value.toNat_lt
  rw [readWord32, whole, word32, decode_encode, Nat.mod_eq_of_lt bound, UInt32.ofNat_toNat]

/-- A stored 64-bit word is read back whatever follows it. -/
theorem read_word64 (value : UInt64) (rest : List UInt8) :
    readWord64 (word64 value ++ rest) = value := by
  have whole : (word64 value ++ rest).take 8 = word64 value :=
    List.take_left' (word64_length value)
  have bound : value.toNat < 256 ^ 8 := value.toNat_lt
  rw [readWord64, whole, word64, decode_encode, Nat.mod_eq_of_lt bound, UInt64.ofNat_toNat]

/-- Only the first four bytes decide a 32-bit read. -/
theorem read_word32_append (bytes rest : List UInt8) (enough : 4 ≤ bytes.length) :
    readWord32 (bytes ++ rest) = readWord32 bytes := by
  rw [readWord32, readWord32, List.take_append_of_le_length enough]

/-- Reading behind a leading 32-bit word. -/
theorem drop_word32 (value : UInt32) (rest : List UInt8) (offset : Nat) :
    (word32 value ++ rest).drop (offset + 4) = rest.drop offset := by
  rw [Nat.add_comm, ← List.drop_drop, List.drop_left' (word32_length value)]

end Evlpc.Library.Words
