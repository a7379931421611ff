import Mathlib.Algebra.Group.Nat.Defs

/-!
# Integer conversions between widths and signs

Values of the C types `size_t`, `ssize_t`, `uint32_t` and `int` are kept modulo
their width, so a conversion through several types is a reduction modulo the
narrowest one. The laws say so for the chains that narrow to 32 bits.
-/

namespace Evlpc.Library.Conversions

/-- A 64-bit signed size narrowed to `int` and read as unsigned. -/
theorem narrow_size (size : Nat) : (Int64.ofNat size).toInt32.toUInt32.toNat = size % 2 ^ 32 := by
  have narrowed : (Int64.ofNat size).toInt32 = Int32.ofNat size := by simp
  rw [narrowed]
  change (BitVec.ofNat 32 size).toNat = _
  simp

/-- A `uint32_t` passed as `ssize_t` and narrowed to `int` keeps its bits. -/
theorem narrow_word (word : UInt32) : word.toUInt64.toInt64.toInt32.toUInt32 = word := by
  have widened : word.toUInt64.toInt64 = Int64.ofNat word.toNat := by
    apply Int64.toBitVec_inj.mp
    apply BitVec.eq_of_toNat_eq
    simp
  apply UInt32.toNat_inj.mp
  rw [widened, narrow_size, Nat.mod_eq_of_lt word.toNat_lt]

/-- A signed size added to a `uint32_t` counts modulo the narrower width. -/
theorem size_as_word (size : Nat) : (Int64.ofNat size).toUInt64.toUInt32.toNat = size % 2 ^ 32 := by
  change (BitVec.setWidth 32 (BitVec.ofNat 64 size)).toNat = _
  simp

/-- An `int` whose bits are a small number is that number. -/
theorem signed_small (value : Int32) (number : Nat) (bits : value.toUInt32.toNat = number)
    (small : number < 2 ^ 31) : value.toInt = number := by
  have unsigned : value.toBitVec.toNat = number := bits
  have signed : value.toInt = value.toBitVec.toInt := rfl
  rw [signed, BitVec.toInt_eq_toNat_of_lt (by omega), unsigned]

/-- A size below the width is represented exactly. -/
theorem representable_word (size : Nat) (representable : size < 2 ^ 32) :
    (UInt32.ofNat size).toNat = size :=
  UInt32.toNat_ofNat_of_lt' representable

/-- A representable size is never the error value -1. -/
theorem size_ne_error (size : Nat) (representable : size < 2 ^ 63) : Int64.ofNat size ≠ -1 := by
  intro same
  have values := congrArg Int64.toInt same
  rw [Int64.toInt_ofNat_of_lt representable] at values
  have error : (-1 : Int64).toInt = -1 := by decide
  omega

end Evlpc.Library.Conversions
