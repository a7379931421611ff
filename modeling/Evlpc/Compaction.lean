import Evlpc.FrameDecomposition
import Evlpc.Library.Copying
import Evlpc.ReceiveBuffer

/-!
# Moving the tail to the front

What the listener leaves over is the tail of what was received so far, and
`readData` copies it to the front of the buffer with `memcpy`, which may copy in
any order. The tail is apart from its new place exactly if it is not longer than
what was consumed in front of it.
-/

namespace Evlpc

open Library

universe u
variable {κ : Type u}

/-- A call of `memcpy` that moves bytes of the buffer to its front: their offset and
their number. -/
structure Compaction where
  offset : UInt32
  size : UInt32
deriving DecidableEq, Repr

/-- The `memcpy` that `readData` calls, if it calls one. -/
def readDataMemcpy (defaultListener : Option (ListenerMethod κ)) (info : RxBufAddr)
    (nread : Int64) (buf : UvBuf) : Option Compaction :=
  if nread = -1 then none
  else
    let totalDataRead := info.leftoverDataSize + nread.toUInt64.toUInt32
    match defaultListener with
    | none => none
    | some listenerMethod =>
      let processed := listenerMethod info.memory totalDataRead.toUInt64.toInt64 buf
      let leftoverDataSize := processed.leftoverDataSize.toUInt32
      if leftoverDataSize = 0 then none
      else some ⟨totalDataRead - leftoverDataSize, leftoverDataSize⟩

/-- The `memcpy` of an event of a connection. -/
def eventMemcpy (pbcbs : PbCbs κ) (info : RxBufAddr) : BufferEvent → Option Compaction
  | .alloc _ => none
  | .receive read =>
    if read.bytes.length ≤ (allocBuffer info read.suggestedSize).2.len.toNat then
      let (filled, buf) := fill info read
      readDataMemcpy (some (processMsgListener pbcbs)) filled (Int64.ofNat read.bytes.length) buf
    else none
  | .fail suggestedSize =>
    let (prepared, buf) := allocBuffer info suggestedSize
    readDataMemcpy (some (processMsgListener pbcbs)) prepared (-1) buf
  | .close => none

/-- The source and the destination of the call have no byte in common. -/
def Compaction.Apart (compaction : Compaction) : Prop :=
  Store.Apart 0 compaction.offset.toNat compaction.size.toNat

/-- The call is apart exactly if as many bytes or more lie in front of those moved. -/
theorem compaction_apart_iff (compaction : Compaction) (moves : 0 < compaction.size.toNat) :
    compaction.Apart ↔ compaction.size.toNat ≤ compaction.offset.toNat := by
  rw [Compaction.Apart, Store.apart_iff]
  omega

/-- If the call is apart, the buffer after `readData` is the one that `memcpy`
leaves, in whatever order it copies. -/
theorem readData_copies (defaultListener : Option (ListenerMethod κ)) (info : RxBufAddr)
    (nread : Int64) (buf : UvBuf) (compaction : Compaction)
    (called : readDataMemcpy defaultListener info nread buf = some compaction)
    (apart : compaction.Apart) (order : List Nat)
    (covers : ∀ offset, offset ∈ order ↔ offset < compaction.size.toNat) :
    (readData defaultListener info nread buf).1.memory =
      info.memory.copyCells 0 compaction.offset.toNat order := by
  rw [Store.copyCells_any_order _ _ _ _ order apart covers]
  unfold readDataMemcpy at called
  unfold readData
  split at called
  · cases called
  · rename_i notError
    rw [if_neg notError]
    cases defaultListener with
    | none => cases called
    | some listenerMethod =>
      dsimp only at called ⊢
      split at called
      · cases called
      · rename_i leaves
        obtain rfl := Option.some.inj called
        rw [if_neg leaves]

/-- No `memcpy` of the event copies between ranges that overlap. -/
def RespectsMemcpy (pbcbs : PbCbs κ) (info : RxBufAddr) (event : BufferEvent) : Prop :=
  ∀ compaction, eventMemcpy pbcbs info event = some compaction → compaction.Apart

/-- If the event is a read that fits the buffer, then the frames at the start of the
parsed bytes take half of them or more, or are followed by a malformed header. -/
def ConsumesHalf (info : RxBufAddr) : BufferEvent → Prop
  | .alloc _ => True
  | .receive read =>
    read.bytes.length ≤ (allocBuffer info read.suggestedSize).2.len.toNat →
      ∀ extents, LongestRun (parsedBytes info read) 0 extents →
        MalformedAt (parsedBytes info read) (consumedLength extents) ∨
          (parsedBytes info read).length ≤ 2 * consumedLength extents
  | .fail _ => True
  | .close => True

/-- The runs of consecutive frames from an offset start with each other. -/
theorem ConsecutiveFrom.unique (buffer : List UInt8) (offset : Nat) (extents others : List Extent)
    (consecutive : ConsecutiveFrom buffer offset extents)
    (other : ConsecutiveFrom buffer offset others) (same : extents.length = others.length) :
    extents = others := by
  induction extents generalizing offset others with
  | nil => exact (List.length_eq_zero_iff.mp same.symm).symm
  | cons extent later inductionHypothesis =>
    cases others with
    | nil => cases same
    | cons first rest =>
      obtain ⟨starts, consumable, behind⟩ := consecutive
      obtain ⟨firstStarts, firstConsumable, firstBehind⟩ := other
      obtain rfl := consumable.unique firstConsumable (starts.trans firstStarts.symm)
      rw [inductionHypothesis _ rest behind firstBehind (Nat.succ.inj same)]

/-- There is one longest run. -/
theorem LongestRun.unique (buffer : List UInt8) (offset : Nat) (extents others : List Extent)
    (longest : LongestRun buffer offset extents) (other : LongestRun buffer offset others) :
    extents = others :=
  ConsecutiveFrom.unique buffer offset extents others longest.consecutive other.consecutive
    (Nat.le_antisymm (other.longest extents longest.consecutive)
      (longest.longest others other.consecutive))

/-- There are at most as many bytes to parse as a buffer holds. -/
theorem parsedBytes_bounded (info : RxBufAddr) (read : Read) (sound : info.Sound)
    (fitting : read.bytes.length ≤ (allocBuffer info read.suggestedSize).2.len.toNat) :
    (parsedBytes info read).length ≤ maxAllocationSize.toNat := by
  have prepared := allocBuffer_prepared info read.suggestedSize sound
  have bounded := prepared.sound.bounded prepared.allocated
  have fits := prepared.fits
  have len := prepared.len
  rw [parsedBytes, Store.load_length]
  omega

/-- The `memcpy` of a read that fits, if `process_msg` leaves something over. -/
theorem receive_called (pbcbs : PbCbs κ) (info : RxBufAddr) (read : Read) (sound : info.Sound)
    (fitting : read.bytes.length ≤ (allocBuffer info read.suggestedSize).2.len.toNat) :
    eventMemcpy pbcbs info (.receive read) =
      let leftoverDataSize := (processMsg pbcbs (filledMemory info read)
        info.leftoverDataSize.toNat (totalDataRead info read)).leftoverDataSize.toUInt32
      if leftoverDataSize = 0 then none
      else some ⟨info.leftoverDataSize + (Int64.ofNat read.bytes.length).toUInt64.toUInt32 -
        leftoverDataSize, leftoverDataSize⟩ := by
  have prepared := allocBuffer_prepared info read.suggestedSize sound
  have most : maxAllocationSize.toNat = 65536 := rfl
  have bounded := prepared.sound.bounded prepared.allocated
  have len := prepared.len
  have notError := Conversions.size_ne_error read.bytes.length (by omega)
  simp only [eventMemcpy, if_pos fitting, fill, readDataMemcpy, if_neg notError,
    processMsgListener, prepared.base, prepared.memory, prepared.leftover, filledMemory,
    totalDataRead]
  rfl

/-- What was left over and the new bytes are what is parsed. -/
theorem receive_total (info : RxBufAddr) (read : Read) (sound : info.Sound)
    (fitting : read.bytes.length ≤ (allocBuffer info read.suggestedSize).2.len.toNat) :
    (info.leftoverDataSize + (Int64.ofNat read.bytes.length).toUInt64.toUInt32).toNat =
      (parsedBytes info read).length := by
  have most : maxAllocationSize.toNat = 65536 := rfl
  have bounded := parsedBytes_bounded info read sound fitting
  have length : (parsedBytes info read).length =
      info.leftoverDataSize.toNat + read.bytes.length := Store.load_length _ _ _
  rw [UInt32.toNat_add, Conversions.size_as_word, length]
  omega

/-- What the listener leaves over of it, as `readData` keeps it. -/
theorem receive_left (pbcbs : PbCbs κ) (info : RxBufAddr) (read : Read) (sound : info.Sound)
    (fitting : read.bytes.length ≤ (allocBuffer info read.suggestedSize).2.len.toNat) :
    ∃ extents, LongestRun (parsedBytes info read) 0 extents ∧
      resultAt (parsedBytes info read) (consumedLength extents) ≤ (parsedBytes info read).length ∧
      (processMsg pbcbs (filledMemory info read) info.leftoverDataSize.toNat
        (totalDataRead info read)).leftoverDataSize.toUInt32 =
          UInt32.ofNat (resultAt (parsedBytes info read) (consumedLength extents)) := by
  have most : maxAllocationSize.toNat = 65536 := rfl
  have bounded := parsedBytes_bounded info read sound fitting
  have length : (parsedBytes info read).length =
      info.leftoverDataSize.toNat + read.bytes.length := Store.load_length _ _ _
  have given : (totalDataRead info read).toInt32.toUInt32.toNat =
      (parsedBytes info read).length := by
    rw [totalDataRead, Conversions.narrow_word, receive_total info read sound fitting]
  obtain ⟨extents, longest, -, result⟩ := processLoop_decomposed pbcbs (filledMemory info read)
    info.leftoverDataSize.toNat (parsedBytes info read) (by rw [length, parsedBytes]) (by omega) _
    (totalDataRead info read).toInt32 0 0 given rfl (Nat.zero_add _)
  rw [Nat.zero_add] at result
  have kept := (processLoop_within pbcbs (filledMemory info read) info.leftoverDataSize.toNat _
    (totalDataRead info read).toInt32 0 0 given rfl (by omega)).2
  have left : (processMsg pbcbs (filledMemory info read) info.leftoverDataSize.toNat
      (totalDataRead info read)).leftoverDataSize.toUInt32.toNat =
        resultAt (parsedBytes info read) (consumedLength extents) := by
    have unsigned := Conversions.signed_small _ _ rfl (Nat.lt_of_le_of_lt kept (by omega))
    exact Int.ofNat.inj (unsigned.symm.trans result)
  have remains : resultAt (parsedBytes info read) (consumedLength extents) ≤
      (parsedBytes info read).length := left ▸ kept
  have size := Conversions.representable_word
    (resultAt (parsedBytes info read) (consumedLength extents)) (by omega)
  exact ⟨extents, longest, remains, UInt32.toNat_inj.mp (left.trans size.symm)⟩

/-- What a read that fits copies: the bytes behind the frames consumed, unless there
are none or a malformed header follows. -/
theorem receive_memcpy (pbcbs : PbCbs κ) (info : RxBufAddr) (read : Read) (sound : info.Sound)
    (fitting : read.bytes.length ≤ (allocBuffer info read.suggestedSize).2.len.toNat) :
    ∃ extents, LongestRun (parsedBytes info read) 0 extents ∧
      eventMemcpy pbcbs info (.receive read) =
        if resultAt (parsedBytes info read) (consumedLength extents) = 0 then none
        else some ⟨UInt32.ofNat (consumedLength extents),
          UInt32.ofNat ((parsedBytes info read).length - consumedLength extents)⟩ := by
  have most : maxAllocationSize.toNat = 65536 := rfl
  have bounded := parsedBytes_bounded info read sound fitting
  have total := receive_total info read sound fitting
  obtain ⟨extents, longest, remains, word⟩ := receive_left pbcbs info read sound fitting
  refine ⟨extents, longest, ?_⟩
  have within := ConsecutiveFrom.within _ 0 extents longest.consecutive (Nat.zero_le _)
  rw [Nat.zero_add] at within
  have size := Conversions.representable_word
    (resultAt (parsedBytes info read) (consumedLength extents)) (by omega)
  rw [receive_called pbcbs info read sound fitting, word]
  dsimp only
  by_cases nothing : resultAt (parsedBytes info read) (consumedLength extents) = 0
  · rw [nothing]
    rfl
  · have behind : resultAt (parsedBytes info read) (consumedLength extents) =
        (parsedBytes info read).length - consumedLength extents := by
      rw [resultAt] at nothing ⊢
      split at nothing
      · exact absurd rfl nothing
      · rename_i notMalformed
        rw [if_neg notMalformed]
    have nonzero :
        UInt32.ofNat (resultAt (parsedBytes info read) (consumedLength extents)) ≠ 0 := by
      intro zero
      rw [zero] at size
      exact nothing size.symm
    have offset : info.leftoverDataSize + (Int64.ofNat read.bytes.length).toUInt64.toUInt32 -
        UInt32.ofNat (resultAt (parsedBytes info read) (consumedLength extents)) =
          UInt32.ofNat (consumedLength extents) := by
      apply UInt32.toNat_inj.mp
      rw [UInt32.toNat_sub_of_le, total, size, Conversions.representable_word _ (by omega)]
      · omega
      · rw [UInt32.le_iff_toNat_le, total, size]
        omega
    rw [if_neg nonzero, if_neg nothing, offset, behind]

/-- An event respects `memcpy` exactly if it consumes half of what it parses. -/
theorem consumesHalf_iff (pbcbs : PbCbs κ) (info : RxBufAddr) (event : BufferEvent)
    (sound : info.Sound) : ConsumesHalf info event ↔ RespectsMemcpy pbcbs info event := by
  cases event with
  | alloc suggestedSize => simp [ConsumesHalf, RespectsMemcpy, eventMemcpy]
  | fail suggestedSize => simp [ConsumesHalf, RespectsMemcpy, eventMemcpy, readDataMemcpy]
  | close => simp [ConsumesHalf, RespectsMemcpy, eventMemcpy]
  | receive read =>
    by_cases fitting : read.bytes.length ≤ (allocBuffer info read.suggestedSize).2.len.toNat
    · obtain ⟨extents, longest, copies⟩ := receive_memcpy pbcbs info read sound fitting
      have within := ConsecutiveFrom.within _ 0 extents longest.consecutive (Nat.zero_le _)
      have half : ConsumesHalf info (.receive read) ↔
          MalformedAt (parsedBytes info read) (consumedLength extents) ∨
            (parsedBytes info read).length ≤ 2 * consumedLength extents := by
        constructor
        · intro consumes
          exact consumes fitting extents longest
        · intro here _ others other
          rwa [LongestRun.unique _ _ others extents other longest]
      have most : maxAllocationSize.toNat = 65536 := rfl
      have bounded := parsedBytes_bounded info read sound fitting
      rw [half, RespectsMemcpy, copies, resultAt]
      by_cases malformed : MalformedAt (parsedBytes info read) (consumedLength extents)
      · simp [malformed]
      · rw [if_neg malformed]
        by_cases nothing : (parsedBytes info read).length - consumedLength extents = 0
        · rw [if_pos nothing]
          exact iff_of_true (Or.inr (by omega)) (fun compaction called => absurd called (by simp))
        · have size := Conversions.representable_word
            ((parsedBytes info read).length - consumedLength extents) (by omega)
          have offset := Conversions.representable_word (consumedLength extents) (by omega)
          have apart := compaction_apart_iff ⟨UInt32.ofNat (consumedLength extents),
            UInt32.ofNat ((parsedBytes info read).length - consumedLength extents)⟩
            (by rw [size]; omega)
          rw [size, offset] at apart
          rw [if_neg nothing]
          constructor
          · rintro here compaction called
            obtain rfl := Option.some.inj called
            have half := here.resolve_left malformed
            exact apart.mpr (by omega)
          · intro respects
            have shorter := apart.mp (respects _ rfl)
            exact Or.inr (by omega)
    · have absent : eventMemcpy pbcbs info (.receive read) = none := if_neg fitting
      simp [ConsumesHalf, RespectsMemcpy, absent, fitting]

/-- Whatever happens on a new connection, the source and the destination of every
`memcpy` are disjoint if and only if every read that is processed consumes half of
what it parses. -/
theorem compaction_disjoint_iff (pbcbs : PbCbs κ) (memory : Store UInt8) (rxBufSize : UInt32)
    (events : List BufferEvent) :
    (bufferMachine pbcbs).Along (RespectsMemcpy pbcbs) (newRxBuf memory rxBufSize) events ↔
      (bufferMachine pbcbs).Along ConsumesHalf (newRxBuf memory rxBufSize) events :=
  (bufferMachine pbcbs).along_iff_guard RxBufAddr.Sound ConsumesHalf (RespectsMemcpy pbcbs)
    (fun info event sound => consumesHalf_iff pbcbs info event sound)
    (fun info event next sound _ moved => (bufferMachine_step pbcbs info next event sound moved).1)
    _ events (newRxBuf_sound memory rxBufSize)

/-- A frame without a payload and the first 64 bytes of one that announces 100, in one
read. -/
def frameAndTail : Read where
  suggestedSize := 65536
  bytes := PbHeader.bytes ⟨32, protobufV1, MsgTypes.stdReply.code, 0, 0, 0, 0⟩ ++
    PbHeader.bytes ⟨100, protobufV1, MsgTypes.stdReply.code, 0, 0, 0, 0⟩ ++ List.replicate 32 0

/-- The 64 bytes left over lie 32 bytes behind their new place, which overlaps them. -/
theorem tail_overlaps :
    ¬ (bufferMachine stdReplyTable).Along (RespectsMemcpy stdReplyTable) zeroedConnection
      [.receive frameAndTail] := by
  rintro ⟨respects, -⟩
  have called : eventMemcpy stdReplyTable zeroedConnection (.receive frameAndTail) =
      some ⟨32, 64⟩ := by
    decide +kernel
  have apart := (compaction_apart_iff ⟨32, 64⟩ (by decide)).mp (respects _ called)
  exact absurd apart (by decide)

end Evlpc
