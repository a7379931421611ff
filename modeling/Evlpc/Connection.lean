import Evlpc.ProcessMsg
import Evlpc.Library.Conversions
import Evlpc.Library.Machine

/-!
# The receive buffer of a connection

`allocBuffer` hands libuv the part of the buffer behind the bytes left over from
earlier reads; libuv stores the new bytes there; `readData` passes the total to
the listener and moves what the listener left over to the front of the buffer.

The buffer is the memory from `rx_buf_addr` on. Its contents before the first
read, and everything behind `rx_buf_size`, are whatever the heap holds. Sizes are
the source's `uint32_t` values, converted where the source converts them.
-/

namespace Evlpc

open Library

universe u
variable {κ : Type u}

/-- `MAX_ALLOCATION_SIZE`. -/
def maxAllocationSize : UInt64 := 65536

/-- `RxBufAddr_t`. The address is NULL until the buffer is `allocated`; `memory`
is the heap as seen from the address that `malloc` returns then. -/
structure RxBufAddr where
  allocated : Bool
  memory : Store UInt8
  rxBufSize : UInt32
  leftoverDataSize : UInt32

/-- `uv_buf_t`, with its base as an offset of `rx_buf_addr`. -/
structure UvBuf where
  base : Int
  len : UInt32
deriving DecidableEq, Repr

/-- What `onNewConnection` and `readClientConnections` store for a connection.
They set neither the size nor any contents. -/
def newRxBuf (memory : Store UInt8) (rxBufSize : UInt32) : RxBufAddr where
  allocated := false
  memory := memory
  rxBufSize := rxBufSize
  leftoverDataSize := 0

/-- `allocBuffer`. -/
def allocBuffer (info : RxBufAddr) (suggestedSize : UInt64) : RxBufAddr × UvBuf :=
  if info.allocated then
    if info.leftoverDataSize = 0 then (info, ⟨0, info.rxBufSize⟩)
    else (info, ⟨info.leftoverDataSize.toNat, info.rxBufSize - info.leftoverDataSize⟩)
  else
    let allocatingSize :=
      if suggestedSize > maxAllocationSize then maxAllocationSize else suggestedSize
    ({ info with allocated := true, leftoverDataSize := 0, rxBufSize := allocatingSize.toUInt32 },
      ⟨0, allocatingSize.toUInt32⟩)

/-- `ListenerMethod`: it sees the buffer, the size it is told and the `uv_buf_t`. -/
abbrev ListenerMethod (κ : Type u) := Store UInt8 → Int64 → UvBuf → Processed κ

/-- `process_msg` as a listener. -/
def processMsgListener (pbcbs : PbCbs κ) : ListenerMethod κ := fun memory siz buf =>
  processMsg pbcbs memory buf.base siz

/-- What one call of `readData` leads to. -/
inductive ReadEffect (κ : Type u) where
  | uvClose : ReadEffect κ
  | noListener : ReadEffect κ
  | listened : Processed κ → ReadEffect κ
deriving DecidableEq, Repr

/-- `readData`. -/
def readData (defaultListener : Option (ListenerMethod κ)) (info : RxBufAddr) (nread : Int64)
    (buf : UvBuf) : RxBufAddr × ReadEffect κ :=
  if nread = -1 then (info, .uvClose)
  else
    let totalDataRead := info.leftoverDataSize + nread.toUInt64.toUInt32
    match defaultListener with
    | none => (info, .noListener)
    | some listenerMethod =>
      let processed := listenerMethod info.memory totalDataRead.toUInt64.toInt64 buf
      let leftoverDataSize := processed.leftoverDataSize.toUInt32
      if leftoverDataSize = 0 then ({ info with leftoverDataSize := 0 }, .listened processed)
      else
        let unprocessedDataOffset := totalDataRead - leftoverDataSize
        let moved := info.memory.load unprocessedDataOffset.toNat leftoverDataSize.toNat
        ({ info with memory := info.memory.write 0 moved, leftoverDataSize := leftoverDataSize },
          .listened processed)

/-- One read as libuv performs it: the size it suggests to `allocBuffer`, and
the bytes it then stores at the base it was given. -/
structure Read where
  suggestedSize : UInt64
  bytes : List UInt8

/-- The connection once libuv has stored the bytes of a read, with the buffer
description it hands on to `readData`. -/
def fill (info : RxBufAddr) (read : Read) : RxBufAddr × UvBuf :=
  let (prepared, buf) := allocBuffer info read.suggestedSize
  ({ prepared with memory := prepared.memory.write buf.base read.bytes }, buf)

/-- A read and its processing by `process_msg`. A read longer than the buffer it
was given does not happen. -/
def readStep (pbcbs : PbCbs κ) (info : RxBufAddr) (read : Read) :
    Option (RxBufAddr × ReadEffect κ) :=
  if read.bytes.length ≤ (allocBuffer info read.suggestedSize).2.len.toNat then
    let (filled, buf) := fill info read
    some (readData (some (processMsgListener pbcbs)) filled (Int64.ofNat read.bytes.length) buf)
  else none

/-- The buffer is allocated with at most the maximal size and the leftover bytes
fit in it; before the allocation there are none. -/
structure RxBufAddr.Sound (info : RxBufAddr) : Prop where
  bounded : info.allocated = true → info.rxBufSize.toNat ≤ maxAllocationSize.toNat
  fits : info.allocated = true → info.leftoverDataSize.toNat ≤ info.rxBufSize.toNat
  unallocated : info.allocated = false → info.leftoverDataSize = 0

/-- A new connection has a sound buffer, not allocated yet. -/
theorem newRxBuf_sound (memory : Store UInt8) (rxBufSize : UInt32) :
    (newRxBuf memory rxBufSize).Sound :=
  ⟨by simp [newRxBuf], by simp [newRxBuf], fun _ => rfl⟩

/-- What `allocBuffer` guarantees: the buffer it hands to libuv starts right
behind the leftover bytes and ends with the receive buffer, and nothing that was
stored changes. -/
structure Prepared (info prepared : RxBufAddr) (buf : UvBuf) : Prop where
  sound : prepared.Sound
  allocated : prepared.allocated = true
  memory : prepared.memory = info.memory
  leftover : prepared.leftoverDataSize = info.leftoverDataSize
  base : buf.base = info.leftoverDataSize.toNat
  len : buf.len.toNat = prepared.rxBufSize.toNat - info.leftoverDataSize.toNat
  fits : info.leftoverDataSize.toNat ≤ prepared.rxBufSize.toNat

/-- The size chosen for a new buffer is within the maximum. -/
theorem allocating_size_bound (suggestedSize : UInt64) :
    (if suggestedSize > maxAllocationSize then maxAllocationSize
      else suggestedSize).toUInt32.toNat ≤ maxAllocationSize.toNat := by
  have most : maxAllocationSize.toNat = 65536 := rfl
  split
  · decide
  · rename_i notLarge
    have small := UInt64.le_iff_toNat_le.mp (UInt64.not_lt.mp notLarge)
    rw [UInt64.toNat_toUInt32]
    omega

/-- The buffer that libuv is given is prepared for the read. -/
theorem allocBuffer_prepared (info : RxBufAddr) (suggestedSize : UInt64) (sound : info.Sound) :
    Prepared info (allocBuffer info suggestedSize).1 (allocBuffer info suggestedSize).2 := by
  cases allocated : info.allocated with
  | false =>
    have none := sound.unallocated allocated
    simp only [allocBuffer, allocated, Bool.false_eq_true, if_false]
    exact {
      sound := ⟨fun _ => allocating_size_bound suggestedSize, fun _ => Nat.zero_le _, fun _ => rfl⟩
      allocated := rfl
      memory := rfl
      leftover := none.symm
      base := by simp [none]
      len := by simp [none]
      fits := by simp [none] }
  | true =>
    have fits := sound.fits allocated
    simp only [allocBuffer, allocated, if_true]
    by_cases empty : info.leftoverDataSize = 0
    · rw [if_pos empty]
      exact ⟨sound, allocated, rfl, rfl, by simp [empty], by simp [empty], fits⟩
    · rw [if_neg empty]
      refine ⟨sound, allocated, rfl, rfl, rfl, ?_, fits⟩
      exact UInt32.toNat_sub_of_le _ _ (UInt32.le_iff_toNat_le.mpr fits)

/-- What one read leads to: `process_msg` runs at the address of the new bytes
with the size of old and new bytes together, over a memory that holds both, and
what it returns becomes the new leftover. -/
structure Received (pbcbs : PbCbs κ) (info : RxBufAddr) (read : Read) (memory : Store UInt8)
    (siz : Int64) (next : RxBufAddr) : Prop where
  step : readStep pbcbs info read =
    some (next, .listened (processMsg pbcbs memory info.leftoverDataSize.toNat siz))
  size : siz.toInt32.toUInt32.toNat = info.leftoverDataSize.toNat + read.bytes.length
  within : info.leftoverDataSize.toNat + read.bytes.length ≤ next.rxBufSize.toNat
  bounded : next.rxBufSize.toNat ≤ maxAllocationSize.toNat
  stored : memory.load info.leftoverDataSize.toNat read.bytes.length = read.bytes
  leftover : next.leftoverDataSize =
    (processMsg pbcbs memory info.leftoverDataSize.toNat siz).leftoverDataSize.toUInt32
  sound : next.Sound

/-- The bytes of a read, put where `allocBuffer` says. -/
def filledMemory (info : RxBufAddr) (read : Read) : Store UInt8 :=
  info.memory.write info.leftoverDataSize.toNat read.bytes

/-- The size `readData` passes on. -/
def totalDataRead (info : RxBufAddr) (read : Read) : Int64 :=
  (info.leftoverDataSize + (Int64.ofNat read.bytes.length).toUInt64.toUInt32).toUInt64.toInt64

/-- With a listener, `readData` changes only the leftover count and the bytes
moved to the front. -/
theorem readData_listened (listenerMethod : ListenerMethod κ) (info : RxBufAddr) (nread : Int64)
    (buf : UvBuf) (processed : Processed κ) (notError : nread ≠ -1)
    (listened : listenerMethod info.memory
      (info.leftoverDataSize + nread.toUInt64.toUInt32).toUInt64.toInt64 buf = processed) :
    ∃ memory, readData (some listenerMethod) info nread buf =
      (⟨info.allocated, memory, info.rxBufSize, processed.leftoverDataSize.toUInt32⟩,
        .listened processed) := by
  simp only [readData, if_neg notError, listened]
  by_cases none : processed.leftoverDataSize.toUInt32 = 0
  · rw [if_pos none, none]
    exact ⟨_, rfl⟩
  · rw [if_neg none]
    exact ⟨_, rfl⟩

/-- A read that fits is received. The leftover stays within the buffer because
the loop never reports more than the size it was given. -/
theorem readStep_received (pbcbs : PbCbs κ) (info : RxBufAddr) (read : Read) (sound : info.Sound)
    (fitting : read.bytes.length ≤ (allocBuffer info read.suggestedSize).2.len.toNat) :
    ∃ next, Received pbcbs info read (filledMemory info read) (totalDataRead info read) next := by
  have prepared := allocBuffer_prepared info read.suggestedSize sound
  have most : maxAllocationSize.toNat = 65536 := rfl
  have bounded := prepared.sound.bounded prepared.allocated
  have fits := prepared.fits
  have len := prepared.len
  have total : (info.leftoverDataSize + (Int64.ofNat read.bytes.length).toUInt64.toUInt32).toNat =
      info.leftoverDataSize.toNat + read.bytes.length := by
    rw [UInt32.toNat_add, Conversions.size_as_word]
    omega
  have size : (totalDataRead info read).toInt32.toUInt32.toNat =
      info.leftoverDataSize.toNat + read.bytes.length := by
    rw [totalDataRead, Conversions.narrow_word, total]
  have kept : (processMsg pbcbs (filledMemory info read) info.leftoverDataSize.toNat
      (totalDataRead info read)).leftoverDataSize.toUInt32.toNat ≤
        info.leftoverDataSize.toNat + read.bytes.length :=
    (processLoop_within pbcbs (filledMemory info read) info.leftoverDataSize.toNat _
      (totalDataRead info read).toInt32 0 0 size rfl (by omega)).2
  have listened : processMsgListener pbcbs (fill info read).1.memory
      ((fill info read).1.leftoverDataSize +
        (Int64.ofNat read.bytes.length).toUInt64.toUInt32).toUInt64.toInt64 (fill info read).2 =
      processMsg pbcbs (filledMemory info read) info.leftoverDataSize.toNat
        (totalDataRead info read) := by
    simp only [processMsgListener, fill, prepared.base, prepared.memory, prepared.leftover,
      filledMemory, totalDataRead]
  obtain ⟨memory, result⟩ := readData_listened (processMsgListener pbcbs) (fill info read).1 _
    (fill info read).2 _ (Conversions.size_ne_error read.bytes.length (by omega)) listened
  refine ⟨⟨(fill info read).1.allocated, memory, (fill info read).1.rxBufSize, _⟩,
    ?_, size, ?_, bounded, Store.load_write _ _ _, rfl, ?_⟩
  · rw [readStep, if_pos fitting]
    exact congrArg some result
  · change _ ≤ (allocBuffer info read.suggestedSize).1.rxBufSize.toNat
    omega
  · refine ⟨fun _ => bounded, fun _ => Nat.le_trans kept ?_, ?_⟩
    · change _ ≤ (allocBuffer info read.suggestedSize).1.rxBufSize.toNat
      omega
    · intro unallocated
      exact absurd prepared.allocated (by simpa [fill] using unallocated)

end Evlpc
