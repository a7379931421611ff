import Evlpc.FrameDecomposition
import Evlpc.Reassembly

/-!
# The space of a receive buffer

Once a connection's buffer is allocated its size never changes. Its leftover
bytes lie at its front, and what `allocBuffer` hands to libuv is the rest of it,
so a read never overwrites bytes that wait to be parsed.

`process_msg` leaves a frame that is not complete yet, without knowing the size of
the buffer, and `allocBuffer` does not know what the frame's header announces. If it
announces more than the buffer can hold, the connection waits for bytes that never
fit, and once they fill the buffer it is never read into again.
-/

namespace Evlpc

open Library

universe u
variable {κ : Type u}

/-- `client_close_cb`, for a stream with buffer information. -/
def clientCloseCb (info : RxBufAddr) : RxBufAddr := { info with leftoverDataSize := 0 }

/-- What happens to a connection's buffer: an allocation call on its own, a read
and its processing, a failed read, which closes the stream, and the callback of
the close. -/
inductive BufferEvent where
  | alloc (suggestedSize : UInt64) : BufferEvent
  | receive (read : Read) : BufferEvent
  | fail (suggestedSize : UInt64) : BufferEvent
  | close : BufferEvent

/-- The effects of the events, with `process_msg` as the listener. -/
def bufferMachine (pbcbs : PbCbs κ) : Machine RxBufAddr BufferEvent where
  step info event :=
    match event with
    | .alloc suggestedSize => some (allocBuffer info suggestedSize).1
    | .receive read => (readStep pbcbs info read).map Prod.fst
    | .fail suggestedSize =>
      let (prepared, buf) := allocBuffer info suggestedSize
      some (readData (some (processMsgListener pbcbs)) prepared (-1) buf).1
    | .close => some (clientCloseCb info)

section Regions

/-- The region that `allocBuffer` hands out lies in the buffer and holds none of
the bytes left over. -/
structure HandsOutFree (info : RxBufAddr) (suggestedSize : UInt64) : Prop where
  inside : 0 ≤ (allocBuffer info suggestedSize).2.base ∧
    (allocBuffer info suggestedSize).2.base + (allocBuffer info suggestedSize).2.len.toNat ≤
      (allocBuffer info suggestedSize).1.rxBufSize.toNat
  disjoint : ∀ cell : Int, (allocBuffer info suggestedSize).2.base ≤ cell →
    cell < (allocBuffer info suggestedSize).2.base +
      (allocBuffer info suggestedSize).2.len.toNat →
    ¬ (0 ≤ cell ∧ cell < (allocBuffer info suggestedSize).1.leftoverDataSize.toNat)

/-- A sound buffer hands out only what is free. -/
theorem handsOutFree_of_sound (info : RxBufAddr) (suggestedSize : UInt64) (sound : info.Sound) :
    HandsOutFree info suggestedSize := by
  have prepared := allocBuffer_prepared info suggestedSize sound
  have base := prepared.base
  have len := prepared.len
  have fits := prepared.fits
  have leftover := congrArg UInt32.toNat prepared.leftover
  constructor
  · omega
  · intro cell behind _
    omega

/-- The bytes left over fit in the buffer, also before it is allocated, when there
are none. -/
theorem RxBufAddr.Sound.leftover_le {info : RxBufAddr} (sound : info.Sound) :
    info.leftoverDataSize.toNat ≤ info.rxBufSize.toNat := by
  cases allocated : info.allocated with
  | true => exact sound.fits allocated
  | false =>
    rw [sound.unallocated allocated]
    exact Nat.zero_le _

/-- A later allocation call changes nothing. -/
theorem allocBuffer_allocated (info : RxBufAddr) (suggestedSize : UInt64)
    (allocated : info.allocated = true) : (allocBuffer info suggestedSize).1 = info := by
  rw [allocBuffer, if_pos allocated]
  split <;> rfl

/-- `readData` leaves the buffer where it is and as large as it is. -/
theorem readData_size (defaultListener : Option (ListenerMethod κ)) (info : RxBufAddr)
    (nread : Int64) (buf : UvBuf) :
    (readData defaultListener info nread buf).1.allocated = info.allocated ∧
      (readData defaultListener info nread buf).1.rxBufSize = info.rxBufSize := by
  unfold readData
  split
  · exact ⟨rfl, rfl⟩
  · cases defaultListener with
    | none => exact ⟨rfl, rfl⟩
    | some listenerMethod =>
      dsimp only
      split
      · exact ⟨rfl, rfl⟩
      · exact ⟨rfl, rfl⟩

/-- A read leaves the buffer as its allocation call prepared it. -/
theorem readStep_size (pbcbs : PbCbs κ) (info next : RxBufAddr) (read : Read)
    (moved : (readStep pbcbs info read).map Prod.fst = some next) :
    next.allocated = (allocBuffer info read.suggestedSize).1.allocated ∧
      next.rxBufSize = (allocBuffer info read.suggestedSize).1.rxBufSize := by
  unfold readStep at moved
  split at moved
  · obtain rfl := Option.some.inj moved
    exact readData_size _ _ _ _
  · cases moved

/-- What an event does to the buffer: it keeps the leftover bytes within it, and
does not change the size of an allocated one. -/
theorem bufferMachine_step (pbcbs : PbCbs κ) (info next : RxBufAddr) (event : BufferEvent)
    (sound : info.Sound) (moved : (bufferMachine pbcbs).step info event = some next) :
    next.Sound ∧ (info.allocated = true →
      next.allocated = true ∧ next.rxBufSize = info.rxBufSize) := by
  cases event with
  | alloc suggestedSize =>
    obtain rfl := Option.some.inj moved
    refine ⟨(allocBuffer_prepared info suggestedSize sound).sound, ?_⟩
    intro allocated
    rw [allocBuffer_allocated info suggestedSize allocated]
    exact ⟨allocated, rfl⟩
  | receive read =>
    refine ⟨(readMachine_step pbcbs info next read sound moved).sound, ?_⟩
    intro allocated
    have same := allocBuffer_allocated info read.suggestedSize allocated
    have size := readStep_size pbcbs info next read moved
    rw [same] at size
    exact ⟨size.1.trans allocated, size.2⟩
  | fail suggestedSize =>
    obtain rfl := Option.some.inj moved
    refine ⟨(allocBuffer_prepared info suggestedSize sound).sound, ?_⟩
    intro allocated
    have same := allocBuffer_allocated info suggestedSize allocated
    have size := readData_size (some (processMsgListener pbcbs))
      (allocBuffer info suggestedSize).1 (-1) (allocBuffer info suggestedSize).2
    exact ⟨size.1.trans (by rw [same, allocated]), size.2.trans (by rw [same])⟩
  | close =>
    obtain rfl := Option.some.inj moved
    exact ⟨⟨sound.bounded, fun _ => Nat.zero_le _, fun _ => rfl⟩, fun allocated => ⟨allocated, rfl⟩⟩

/-- The size of an allocated buffer stays what it is. -/
theorem allocated_size (pbcbs : PbCbs κ) (info final : RxBufAddr) (events : List BufferEvent)
    (sound : info.Sound) (allocated : info.allocated = true)
    (reached : (bufferMachine pbcbs).run info events = some final) :
    final.allocated = true ∧ final.rxBufSize = info.rxBufSize := by
  have kept := (bufferMachine pbcbs).run_invariant
    (fun state => state.Sound ∧ state.allocated = true ∧ state.rxBufSize = info.rxBufSize)
    (fun state event next holds moved => by
      obtain ⟨soundNext, same⟩ := bufferMachine_step pbcbs state next event holds.1 moved
      obtain ⟨allocatedNext, size⟩ := same holds.2.1
      exact ⟨soundNext, allocatedNext, size.trans holds.2.2⟩)
    info final events ⟨sound, allocated, rfl⟩ reached
  exact kept.2

/-- After any events on a new connection, the buffer is at most as large as the
maximum once it is allocated and keeps its size from then on, the leftover bytes
fit in it, and `allocBuffer` hands out a region of it apart from them. -/
theorem leftover_never_exposed (pbcbs : PbCbs κ) (memory : Store UInt8) (rxBufSize : UInt32)
    (info : RxBufAddr) (events : List BufferEvent)
    (reached : (bufferMachine pbcbs).run (newRxBuf memory rxBufSize) events = some info) :
    (info.allocated = true → info.rxBufSize.toNat ≤ maxAllocationSize.toNat ∧
      ∀ later final, (bufferMachine pbcbs).run info later = some final →
        final.allocated = true ∧ final.rxBufSize = info.rxBufSize) ∧
    info.leftoverDataSize.toNat ≤ info.rxBufSize.toNat ∧
    ∀ suggestedSize, HandsOutFree info suggestedSize := by
  have sound : info.Sound := (bufferMachine pbcbs).run_invariant RxBufAddr.Sound
    (fun state event next holds moved => (bufferMachine_step pbcbs state next event holds moved).1)
    _ info events (newRxBuf_sound memory rxBufSize) reached
  refine ⟨?_, sound.leftover_le,
    fun suggestedSize => handsOutFree_of_sound info suggestedSize sound⟩
  intro allocated
  refine ⟨sound.bounded allocated, ?_⟩
  intro later final continued
  exact allocated_size pbcbs info final later sound allocated continued

end Regions

/-- A first read of a header, the failure of the second one, and the close. -/
theorem leftover_never_exposed_closing : ∃ info,
    (bufferMachine stdReplyTable).run zeroedConnection
      [.receive ⟨64, [1, 2, 3]⟩, .fail 65536, .close] = some info ∧
    ((info.allocated = true → info.rxBufSize.toNat ≤ maxAllocationSize.toNat ∧
      ∀ later final, (bufferMachine stdReplyTable).run info later = some final →
        final.allocated = true ∧ final.rxBufSize = info.rxBufSize) ∧
    info.leftoverDataSize.toNat ≤ info.rxBufSize.toNat ∧
    ∀ suggestedSize, HandsOutFree info suggestedSize) := by
  have runs : ((bufferMachine stdReplyTable).run zeroedConnection
      [.receive ⟨64, [1, 2, 3]⟩, .fail 65536, .close]).isSome = true := by
    decide +kernel
  obtain ⟨info, reached⟩ := Option.isSome_iff_exists.mp runs
  exact ⟨info, reached, leftover_never_exposed stdReplyTable _ 0 info _ reached⟩

section Progress

/-- The next allocation call returns a buffer that libuv can read into. -/
def CanRead (info : RxBufAddr) : Prop :=
  ∀ suggestedSize : UInt64, 0 < suggestedSize → 1 ≤ (allocBuffer info suggestedSize).2.len.toNat

/-- The bytes that `process_msg` waits for when it returns: none if it leaves nothing over, a
header if it leaves less than one, and what the last header it read announces otherwise. -/
def awaited (memory : Store UInt8) (processed : Processed κ) : Nat :=
  if processed.leftoverDataSize.toUInt32.toNat = 0 then 0
  else if processed.leftoverDataSize.toUInt32.toNat < sizeofPbHeader.toNat then
    sizeofPbHeader.toNat
  else (processed.headers.getLast?.map fun header => (loadWord32 memory header).toNat).getD 0

/-- The buffer can hold the bytes that `process_msg` waits for after a read. -/
def HoldsAwaited (pbcbs : PbCbs κ) (info : RxBufAddr) (read : Read) : Prop :=
  awaited (filledMemory info read) (processMsg pbcbs (filledMemory info read)
    info.leftoverDataSize.toNat (totalDataRead info read)) ≤
      (allocBuffer info read.suggestedSize).1.rxBufSize.toNat

instance (pbcbs : PbCbs κ) (info : RxBufAddr) (read : Read) :
    Decidable (HoldsAwaited pbcbs info read) :=
  inferInstanceAs (Decidable (_ ≤ _))

/-- The bytes that are parsed after a read: as many as there are old and new ones,
from the first new one on. -/
def parsedBytes (info : RxBufAddr) (read : Read) : List UInt8 :=
  (filledMemory info read).load info.leftoverDataSize.toNat
    (info.leftoverDataSize.toNat + read.bytes.length)

/-- The bytes of the frame that begins at an offset, as far as its header is there; a frame
has a header's bytes at least. -/
def neededAt (buffer : List UInt8) (offset : Nat) : Nat :=
  if offset + sizeofPbHeader.toNat ≤ buffer.length then lengthAt buffer offset
  else sizeofPbHeader.toNat

/-- Behind complete frames from an offset on there begins one that needs more bytes than a
bound. -/
def OversizedFrom (buffer : List UInt8) (bound offset : Nat) : Prop :=
  ∃ extents, ConsecutiveFrom buffer offset extents ∧
    offset + consumedLength extents < buffer.length ∧
    bound < neededAt buffer (offset + consumedLength extents)

/-- Behind the complete frames at the start of the bytes that a read lets `process_msg` parse
there begins one that needs more bytes than the receive buffer has. -/
def BeginsOversized (info : RxBufAddr) (read : Read) : Prop :=
  OversizedFrom (parsedBytes info read) (allocBuffer info read.suggestedSize).1.rxBufSize.toNat 0

/-- The buffer is in order, and not empty once it is allocated. -/
structure Readable (info : RxBufAddr) : Prop where
  sound : info.Sound
  nonempty : info.allocated = true → 0 < info.rxBufSize.toNat

/-- A new connection has nothing left over. -/
theorem newRxBuf_readable (memory : Store UInt8) (rxBufSize : UInt32) :
    Readable (newRxBuf memory rxBufSize) :=
  ⟨newRxBuf_sound memory rxBufSize, by simp [newRxBuf]⟩

/-- What a positive size suggests is positive. -/
theorem allocBuffer_nonempty (info : RxBufAddr) (suggestedSize : UInt64) (readable : Readable info)
    (positive : 0 < suggestedSize) : 0 < (allocBuffer info suggestedSize).1.rxBufSize.toNat := by
  cases allocated : info.allocated with
  | true =>
    rw [allocBuffer_allocated info suggestedSize allocated]
    exact readable.nonempty allocated
  | false =>
    have least := UInt64.lt_iff_toNat_lt.mp positive
    have zero : (0 : UInt64).toNat = 0 := rfl
    have most : maxAllocationSize.toNat = 65536 := rfl
    simp only [allocBuffer, allocated, Bool.false_eq_true, if_false]
    split
    · decide
    · rename_i notLarge
      have small := UInt64.le_iff_toNat_le.mp (UInt64.not_lt.mp notLarge)
      rw [UInt64.toNat_toUInt32]
      omega

/-- A new connection can read. -/
theorem newRxBuf_canRead (memory : Store UInt8) (rxBufSize : UInt32) :
    CanRead (newRxBuf memory rxBufSize) := by
  intro suggestedSize positive
  have prepared :=
    allocBuffer_prepared _ suggestedSize (newRxBuf_sound memory rxBufSize)
  have nonempty :=
    allocBuffer_nonempty _ suggestedSize (newRxBuf_readable memory rxBufSize) positive
  have none : (newRxBuf memory rxBufSize).leftoverDataSize.toNat = 0 := rfl
  have len := prepared.len
  omega

/-- An allocated buffer can be read into while the leftover bytes do not fill it. -/
theorem canRead_iff (info : RxBufAddr) (sound : info.Sound) (allocated : info.allocated = true) :
    CanRead info ↔ info.leftoverDataSize.toNat < info.rxBufSize.toNat := by
  have len : ∀ suggestedSize, (allocBuffer info suggestedSize).2.len.toNat =
      info.rxBufSize.toNat - info.leftoverDataSize.toNat := by
    intro suggestedSize
    have prepared := allocBuffer_prepared info suggestedSize sound
    rw [prepared.len, allocBuffer_allocated info suggestedSize allocated]
  constructor
  · intro canRead
    have one := canRead 1 (by decide)
    rw [len] at one
    omega
  · intro room suggestedSize _
    rw [len]
    omega

section Awaited

variable (memory : Store UInt8) (processed : Processed κ)

/-- With nothing left over, nothing is waited for. -/
theorem awaited_nothing (nothing : processed.leftoverDataSize.toUInt32.toNat = 0) :
    awaited memory processed = 0 := if_pos nothing

/-- With less than a header left over, the rest of one is waited for. -/
theorem awaited_header (leaves : processed.leftoverDataSize.toUInt32.toNat ≠ 0)
    (short : processed.leftoverDataSize.toUInt32.toNat < sizeofPbHeader.toNat) :
    awaited memory processed = sizeofPbHeader.toNat := by
  rw [awaited, if_neg leaves, if_pos short]

/-- With a header left over, as much is waited for as it announces. -/
theorem awaited_frame (whole : sizeofPbHeader.toNat ≤ processed.leftoverDataSize.toUInt32.toNat) :
    awaited memory processed =
      (processed.headers.getLast?.map fun header => (loadWord32 memory header).toNat).getD 0 := by
  have size : sizeofPbHeader.toNat = 32 := rfl
  rw [awaited, if_neg (by omega), if_neg (by omega)]

/-- Less is left over than waited for, if anything is. -/
def WaitsForMore : Prop :=
  processed.leftoverDataSize.toUInt32.toNat = 0 ∨
    processed.leftoverDataSize.toUInt32.toNat < awaited memory processed

/-- A header read in front of a rest of the loop that waits for more does not change what is
waited for: the last header read is that of the rest. -/
theorem awaited_reading (header : Int) (calls : List (Call κ))
    (waits : WaitsForMore memory processed) :
    awaited memory (Processed.reading header calls processed) = awaited memory processed := by
  have same : (Processed.reading header calls processed).leftoverDataSize =
      processed.leftoverDataSize := rfl
  by_cases whole : sizeofPbHeader.toNat ≤ processed.leftoverDataSize.toUInt32.toNat
  · have size : sizeofPbHeader.toNat = 32 := rfl
    have more := waits.resolve_left (by omega)
    rw [awaited_frame memory processed whole] at more
    rw [awaited_frame memory _ (same ▸ whole), awaited_frame memory processed whole]
    cases headers : processed.headers with
    | nil =>
      rw [headers] at more
      exact absurd more (Nat.not_lt_zero _)
    | cons first others => rw [Processed.reading, headers, List.getLast?_cons_cons]
  · rw [awaited, awaited, same]
    split
    · rfl
    · rw [if_pos (Nat.lt_of_not_le whole), if_pos (Nat.lt_of_not_le whole)]

end Awaited

/-- The first of consecutive frames, if there is one. -/
theorem ConsecutiveFrom.first {buffer : List UInt8} {offset : Nat} {extents : List Extent}
    (consecutive : ConsecutiveFrom buffer offset extents) :
    extents = [] ∨ ∃ later, Consumable buffer ⟨offset, lengthAt buffer offset⟩ ∧
      extents = ⟨offset, lengthAt buffer offset⟩ :: later ∧
      ConsecutiveFrom buffer (offset + lengthAt buffer offset) later := by
  cases extents with
  | nil => exact .inl rfl
  | cons extent later =>
    obtain ⟨rfl, consumable, behind⟩ := consecutive
    have announced := consumable.2.1
    rw [announced] at behind
    exact .inr ⟨later, by rwa [← announced], by rw [← announced], behind⟩

/-- Where no frame can be consumed, the frame that begins there is the one that counts. -/
theorem oversizedFrom_blocked (buffer : List UInt8) (bound offset : Nat)
    (blocked : ∀ length, ¬ Consumable buffer ⟨offset, length⟩) :
    OversizedFrom buffer bound offset ↔
      offset < buffer.length ∧ bound < neededAt buffer offset := by
  constructor
  · rintro ⟨extents, consecutive, inside, oversized⟩
    rcases consecutive.first with rfl | ⟨later, consumable, -⟩
    · exact ⟨inside, oversized⟩
    · exact absurd consumable (blocked _)
  · rintro ⟨inside, oversized⟩
    exact ⟨[], trivial, inside, oversized⟩

/-- A complete frame in a buffer within the bound is not the one that needs more. -/
theorem oversizedFrom_frame (buffer : List UInt8) (bound offset : Nat)
    (room : buffer.length ≤ bound)
    (consumable : Consumable buffer ⟨offset, lengthAt buffer offset⟩) :
    OversizedFrom buffer bound offset ↔
      OversizedFrom buffer bound (offset + lengthAt buffer offset) := by
  constructor
  · rintro ⟨extents, consecutive, inside, oversized⟩
    rcases consecutive.first with rfl | ⟨later, -, rfl, behind⟩
    · obtain ⟨whole, -, within⟩ := consumable.bounds
      change bound < neededAt buffer offset at oversized
      rw [neededAt, if_pos whole] at oversized
      omega
    · simp only [consumedLength, List.map_cons, List.sum_cons, ← Nat.add_assoc] at inside oversized
      exact ⟨later, behind, inside, oversized⟩
  · rintro ⟨extents, behind, inside, oversized⟩
    refine ⟨⟨offset, lengthAt buffer offset⟩ :: extents, ⟨rfl, consumable, behind⟩, ?_, ?_⟩
    all_goals
      simp only [consumedLength, List.map_cons, List.sum_cons, ← Nat.add_assoc]
      assumption

/-- The loop waits for more than it leaves over, and for more than a bound on the buffer
exactly if a frame that needs more begins behind complete ones. -/
theorem processLoop_awaits (pbcbs : PbCbs κ) (memory : Store UInt8) (base : Int)
    (buffer : List UInt8) (loaded : memory.load base buffer.length = buffer) (bound : Nat)
    (room : buffer.length ≤ bound) (small : buffer.length < 2 ^ 31) (left : Nat)
    (leftover location : Int32) (offset : Nat) (counter : leftover.toUInt32.toNat = left)
    (located : location.toUInt32.toNat = offset) (together : offset + left = buffer.length) :
    WaitsForMore memory (processLoop pbcbs memory base leftover location) ∧
    (bound < awaited memory (processLoop pbcbs memory base leftover location) ↔
      OversizedFrom buffer bound offset) := by
  have size : sizeofPbHeader.toNat = 32 := rfl
  have words := header_words memory base buffer loaded
  have inRange : offset + left < 2 ^ 31 := together ▸ small
  revert together
  apply processLoop_induction pbcbs memory base (fun offset left processed =>
    offset + left = buffer.length → WaitsForMore memory processed ∧
      (bound < awaited memory processed ↔ OversizedFrom buffer bound offset))
  · intro offset left leftover counter short together
    have blocked : ∀ length, ¬ Consumable buffer ⟨offset, length⟩ := by
      intro length consumable
      have whole := consumable.bounds.1
      omega
    have needs : neededAt buffer offset = sizeofPbHeader.toNat := if_neg (by omega)
    rw [oversizedFrom_blocked buffer bound offset blocked, needs]
    by_cases nothing : left = 0
    · have waited := awaited_nothing memory (⟨[], [], leftover⟩ : Processed κ)
        (counter.trans nothing)
      refine ⟨.inl (counter.trans nothing), ?_⟩
      rw [waited]
      omega
    · have waited := awaited_header memory (⟨[], [], leftover⟩ : Processed κ)
        (by rw [counter]; exact nothing) (by rw [counter]; exact short)
      refine ⟨.inr ?_, ?_⟩
      · rw [waited, counter]
        exact short
      · rw [waited]
        omega
  · intro offset left whole tooSmall together
    obtain ⟨lengthWord, -⟩ := words offset (by omega)
    rw [lengthWord] at tooSmall
    have blocked : ∀ length, ¬ Consumable buffer ⟨offset, length⟩ := by
      intro length consumable
      have admitted := consumable.bounds.2.1
      omega
    have needs : neededAt buffer offset = lengthAt buffer offset := if_pos (by omega)
    have waited := awaited_nothing memory (⟨[base + offset], [], 0⟩ : Processed κ) rfl
    rw [oversizedFrom_blocked buffer bound offset blocked, needs, waited]
    exact ⟨.inl rfl, by omega⟩
  · intro offset left leftover counter whole admitted incomplete together
    obtain ⟨lengthWord, -⟩ := words offset (by omega)
    rw [lengthWord] at admitted incomplete
    have blocked : ∀ length, ¬ Consumable buffer ⟨offset, length⟩ := by
      intro length consumable
      have within := consumable.bounds.2.2
      omega
    have needs : neededAt buffer offset = lengthAt buffer offset := if_pos (by omega)
    have waited : awaited memory (⟨[base + offset], [], leftover⟩ : Processed κ) =
        lengthAt buffer offset := by
      rw [awaited_frame memory _ (by rw [counter]; exact whole), ← lengthWord]
      rfl
    rw [oversizedFrom_blocked buffer bound offset blocked, needs, waited]
    refine ⟨.inr ?_, by omega⟩
    rw [waited, counter]
    exact incomplete
  · intro offset left later admitted complete inductionHypothesis together
    obtain ⟨lengthWord, -⟩ := words offset (by omega)
    rw [lengthWord] at admitted complete inductionHypothesis
    obtain ⟨waits, oversized⟩ := inductionHypothesis (by omega)
    have inside : offset + lengthAt buffer offset ≤ buffer.length := by omega
    have consumable : Consumable buffer ⟨offset, lengthAt buffer offset⟩ :=
      ⟨Nat.le_trans (Nat.add_le_add_left admitted offset) inside, rfl, admitted, inside⟩
    have same := awaited_reading memory later (base + offset)
      (frameCalls pbcbs memory (base + offset)) waits
    refine ⟨?_, ?_⟩
    · rw [WaitsForMore, same]
      exact waits
    · rw [same, oversized, oversizedFrom_frame buffer bound offset room consumable]
  · exact counter
  · exact located
  · exact inRange

/-- What a read leaves over is less than what is waited for, and the buffer can hold this
exactly if the read lets no frame begin that needs more. -/
theorem read_awaits (pbcbs : PbCbs κ) (info next : RxBufAddr) (read : Read) (sound : info.Sound)
    (moved : (readMachine pbcbs).step info read = some next) :
    WaitsForMore (filledMemory info read) (processMsg pbcbs (filledMemory info read)
        info.leftoverDataSize.toNat (totalDataRead info read)) ∧
    (HoldsAwaited pbcbs info read ↔ ¬ BeginsOversized info read) := by
  have received := readMachine_step pbcbs info next read sound moved
  obtain ⟨-, size⟩ := readStep_size pbcbs info next read moved
  have most : maxAllocationSize.toNat = 65536 := rfl
  have within := received.within
  have bounded := received.bounded
  have length : (parsedBytes info read).length =
      info.leftoverDataSize.toNat + read.bytes.length := Store.load_length _ _ _
  obtain ⟨waits, oversized⟩ := processLoop_awaits pbcbs (filledMemory info read)
    info.leftoverDataSize.toNat (parsedBytes info read) (by rw [length, parsedBytes])
    next.rxBufSize.toNat (by omega) (by omega) _ (totalDataRead info read).toInt32 0 0
    (received.size.trans length.symm) rfl (Nat.zero_add _)
  refine ⟨waits, ?_⟩
  rw [HoldsAwaited, BeginsOversized, ← size, processMsg, ← Nat.not_lt, oversized]

/-- A connection whose buffer can hold what is waited for can be read on. -/
theorem canRead_next (pbcbs : PbCbs κ) (info next : RxBufAddr) (read : Read)
    (readable : Readable info) (positive : 0 < read.suggestedSize)
    (moved : (readMachine pbcbs).step info read = some next) :
    Readable next ∧ (HoldsAwaited pbcbs info read → CanRead next) := by
  have received := readMachine_step pbcbs info next read readable.sound moved
  have prepared := allocBuffer_prepared info read.suggestedSize readable.sound
  obtain ⟨allocated, size⟩ := readStep_size pbcbs info next read moved
  rw [prepared.allocated] at allocated
  have nonempty := allocBuffer_nonempty info read.suggestedSize readable positive
  rw [← size] at nonempty
  refine ⟨⟨received.sound, fun _ => nonempty⟩, ?_⟩
  intro holds
  rw [HoldsAwaited, ← size] at holds
  rw [canRead_iff next received.sound allocated, received.leftover]
  rcases (read_awaits pbcbs info next read readable.sound moved).1 with nothing | waits
  · rw [nothing]
    exact nonempty
  · exact Nat.lt_of_lt_of_le waits holds

/-- Along completed reads the buffer can hold what is waited for exactly if no frame that it
cannot hold begins. -/
theorem along_holds_iff (pbcbs : PbCbs κ) (memory : Store UInt8) (rxBufSize : UInt32)
    (final : RxBufAddr) (reads : List Read)
    (reached : (readMachine pbcbs).run (newRxBuf memory rxBufSize) reads = some final) :
    (readMachine pbcbs).Along (HoldsAwaited pbcbs) (newRxBuf memory rxBufSize) reads ↔
      (readMachine pbcbs).Along (fun info read => ¬ BeginsOversized info read)
        (newRxBuf memory rxBufSize) reads :=
  (readMachine pbcbs).along_congr_run RxBufAddr.Sound (fun _ => True) _ _
    (fun info read next sound _ moved =>
      ⟨(readMachine_step pbcbs info next read sound moved).sound,
        (read_awaits pbcbs info next read sound moved).2⟩)
    _ final reads (newRxBuf_sound memory rxBufSize) (fun _ _ => trivial) reached

/-- A frame and the header of another one, whose payload comes with the next read. -/
def interruptedReads : List Read :=
  [⟨65536, paddedFrame.bytes ++ paddedFrame.hdr.bytes⟩, ⟨65536, paddedFrame.payload⟩]

/-- A header that announces 100000 bytes, on its own. -/
def announcingRead : Read where
  suggestedSize := 65536
  bytes := PbHeader.bytes ⟨100000, protobufV1, MsgTypes.stdReply.code, 0, 0, 0, 0⟩

/-- A header that announces 100000 bytes and as many zeros as fit behind it, in
one read of the size that libuv suggests. -/
def hugeFrameRead : Read where
  suggestedSize := 65536
  bytes := PbHeader.bytes ⟨100000, protobufV1, MsgTypes.stdReply.code, 0, 0, 0, 0⟩ ++
    List.replicate 65504 0

end Progress

end Evlpc
