import Evlpc.ProcessMsg

/-!
# The frame decomposition of a buffer

The purpose of `process_msg` is stated on the bytes of its buffer alone, without
counters: its consumed frames are the longest run of consecutive complete frames
from the start. The callbacks are those of the frames with a payload, each with
the address of its frame, and the result says what is left behind the run.

The counters of the loop are listed as they stand whenever its condition is
evaluated. Neither becomes negative, and together they stay the buffer's size.
-/

namespace Evlpc

open Library

universe u
variable {κ : Type u}

/-- A frame of a buffer, by where it starts and how many bytes it takes. -/
structure Extent where
  offset : Nat
  length : Nat
deriving DecidableEq, Repr

/-- The length field of the header at an offset. -/
def lengthAt (buffer : List UInt8) (offset : Nat) : Nat :=
  (Words.readWord32 (buffer.drop offset)).toNat

/-- The payload type of the header at an offset. -/
def typeAt (buffer : List UInt8) (offset : Nat) : UInt32 :=
  Words.readWord32 (buffer.drop (offset + 8))

/-- The next frame can be consumed: its header is complete, its length is that of
a header at least, and it ends within the buffer. -/
def Consumable (buffer : List UInt8) (extent : Extent) : Prop :=
  extent.offset + sizeofPbHeader.toNat ≤ buffer.length ∧
    extent.length = lengthAt buffer extent.offset ∧
    sizeofPbHeader.toNat ≤ extent.length ∧ extent.offset + extent.length ≤ buffer.length

/-- Consumable frames, the first at the given offset and each of the others right
behind the one before it. -/
def ConsecutiveFrom (buffer : List UInt8) (offset : Nat) : List Extent → Prop
  | [] => True
  | extent :: later => extent.offset = offset ∧ Consumable buffer extent ∧
      ConsecutiveFrom buffer (offset + extent.length) later

/-- No run of consecutive frames from the offset is longer. -/
structure LongestRun (buffer : List UInt8) (offset : Nat) (extents : List Extent) : Prop where
  consecutive : ConsecutiveFrom buffer offset extents
  longest : ∀ other, ConsecutiveFrom buffer offset other → other.length ≤ extents.length

/-- The sum of the consumed lengths. -/
def consumedLength (extents : List Extent) : Nat := (extents.map Extent.length).sum

/-- A complete header whose length is smaller than the header itself. -/
def MalformedAt (buffer : List UInt8) (offset : Nat) : Prop :=
  offset + sizeofPbHeader.toNat ≤ buffer.length ∧ lengthAt buffer offset < sizeofPbHeader.toNat

instance (buffer : List UInt8) (offset : Nat) : Decidable (MalformedAt buffer offset) :=
  inferInstanceAs (Decidable (_ ∧ _))

/-- What the loop returns when the run it consumed ends at an offset. -/
def resultAt (buffer : List UInt8) (offset : Nat) : Nat :=
  if MalformedAt buffer offset then 0 else buffer.length - offset

/-- The callback of a consumed frame: none for a frame without a payload. -/
def extentCall (pbcbs : PbCbs κ) (base : Int) (buffer : List UInt8) (extent : Extent) :
    Option (Call κ) :=
  if extent.length ≤ sizeofPbHeader.toNat then none
  else (cbfuncs pbcbs (typeAt buffer extent.offset)).map fun callback =>
    ⟨callback, base + extent.offset, UInt32.ofNat extent.length⟩

/-- `leftover_data_size` and `current_location` of `process_msg`, whenever the
condition of its loop is evaluated. -/
def loopCounters (memory : Store UInt8) (base : Int) (leftoverDataSize currentLocation : Int32) :
    List (Int32 × Int32) :=
  if sizeofPbHeader ≤ leftoverDataSize.toInt64.toUInt64 then
    let packetLength := loadWord32 memory (base + currentLocation.toInt)
    if _header : packetLength.toUInt64 < sizeofPbHeader then [(leftoverDataSize, currentLocation)]
    else if _complete : leftoverDataSize.toUInt32 < packetLength then
      [(leftoverDataSize, currentLocation)]
    else (leftoverDataSize, currentLocation) ::
      loopCounters memory base (leftoverDataSize.toUInt32 - packetLength).toInt32
        (currentLocation.toUInt32 + packetLength).toInt32
  else [(leftoverDataSize, currentLocation)]
termination_by leftoverDataSize.toUInt32.toNat
decreasing_by exact leftover_decreases _ _ _header _complete

/-- The headers that the loop of `process_msg` reads are those at the counters
that meet its condition. -/
theorem loopCounters_headers (pbcbs : PbCbs κ) (memory : Store UInt8) (base : Int)
    (leftover location : Int32) :
    (processLoop pbcbs memory base leftover location).headers =
      ((loopCounters memory base leftover location).filter fun counters =>
        sizeofPbHeader ≤ counters.1.toInt64.toUInt64).map fun counters =>
          base + counters.2.toInt := by
  induction leftover, location using loopCounters.induct memory base with
  | case1 leftover location whole length small =>
    rw [processLoop, loopCounters, if_pos whole, dif_pos small, if_pos whole, dif_pos small]
    simp [Processed.reading, whole]
  | case2 leftover location whole length header incomplete =>
    rw [processLoop, loopCounters, if_pos whole, dif_neg header, dif_pos incomplete, if_pos whole,
      dif_neg header, dif_pos incomplete]
    simp [Processed.reading, whole]
  | case3 leftover location whole length header complete inductionHypothesis =>
    rw [loopCounters, if_pos whole, dif_neg header, dif_neg complete, processLoop, if_pos whole,
      dif_neg header, dif_neg complete, List.filter_cons_of_pos (by simpa using whole),
      List.map_cons, ← inductionHypothesis]
    split <;> rfl
  | case4 leftover location short =>
    rw [processLoop, loopCounters, if_neg short, if_neg short]
    simp [short]

/-- The counters stay non-negative and together the same. Each frame moves its
length from one to the other. -/
theorem loopCounters_conserved (memory : Store UInt8) (base : Int) (leftover location : Int32)
    (siz : Nat) (small : siz < 2 ^ 31)
    (together : location.toUInt32.toNat + leftover.toUInt32.toNat = siz) :
    ∀ counters ∈ loopCounters memory base leftover location,
      0 ≤ counters.1.toInt ∧ counters.2.toInt + counters.1.toInt = siz := by
  have here : ∀ leftover location : Int32, location.toUInt32.toNat + leftover.toUInt32.toNat = siz →
      ∀ counters ∈ [(leftover, location)],
        0 ≤ counters.1.toInt ∧ counters.2.toInt + counters.1.toInt = siz := by
    intro leftover location together counters member
    rw [List.mem_singleton.mp member, Conversions.signed_small leftover _ rfl (by omega),
      Conversions.signed_small location _ rfl (by omega)]
    omega
  induction leftover, location using loopCounters.induct memory base with
  | case1 leftover location whole length malformed =>
    rw [loopCounters, if_pos whole, dif_pos malformed]
    exact here leftover location together
  | case2 leftover location whole length header incomplete =>
    rw [loopCounters, if_pos whole, dif_neg header, dif_pos incomplete]
    exact here leftover location together
  | case3 leftover location whole length header complete inductionHypothesis =>
    rw [loopCounters, if_pos whole, dif_neg header, dif_neg complete]
    obtain ⟨consumed, -, within⟩ := leftover_consumed leftover length header complete
    have moved : (location.toUInt32 + length).toInt32.toUInt32.toNat =
        location.toUInt32.toNat + length.toNat := by
      rw [UInt32.toUInt32_toInt32, UInt32.toNat_add, Nat.mod_eq_of_lt (by omega)]
    intro counters member
    rcases List.mem_cons.mp member with rfl | later
    · exact here leftover location together _ (List.mem_singleton_self _)
    · exact inductionHypothesis (by rw [consumed, moved]; omega) counters later
  | case4 leftover location short =>
    rw [loopCounters, if_neg short]
    exact here leftover location together

/-- One frame can be consumed at an offset: its length is announced there. -/
theorem Consumable.unique {buffer : List UInt8} {first second : Extent}
    (consumable : Consumable buffer first) (other : Consumable buffer second)
    (same : first.offset = second.offset) : first = second := by
  have sameLength : first.length = second.length := by
    rw [consumable.2.1, other.2.1, same]
  cases first
  cases second
  simp only [Extent.mk.injEq]
  exact ⟨same, sameLength⟩

/-- Where no frame can be consumed, the empty run is the longest. -/
theorem LongestRun.nil (buffer : List UInt8) (offset : Nat)
    (blocked : ∀ length, ¬ Consumable buffer ⟨offset, length⟩) : LongestRun buffer offset [] := by
  refine ⟨trivial, ?_⟩
  intro other consecutive
  cases other with
  | nil => exact Nat.le_refl 0
  | cons extent later =>
    obtain ⟨rfl, consumable, -⟩ := consecutive
    exact absurd consumable (blocked extent.length)

/-- Where a frame can be consumed, the header is whole and admitted, and announces no
more than there is. -/
theorem Consumable.bounds {buffer : List UInt8} {offset length : Nat}
    (consumable : Consumable buffer ⟨offset, length⟩) :
    offset + sizeofPbHeader.toNat ≤ buffer.length ∧
      sizeofPbHeader.toNat ≤ lengthAt buffer offset ∧
      offset + lengthAt buffer offset ≤ buffer.length := by
  obtain ⟨whole, announced, admitted, within⟩ := consumable
  have announces : length = lengthAt buffer offset := announced
  subst announces
  exact ⟨whole, admitted, within⟩

/-- A consumable frame starts the longest run, which goes on behind it. -/
theorem LongestRun.cons (buffer : List UInt8) (extent : Extent) (later : List Extent)
    (consumable : Consumable buffer extent)
    (longest : LongestRun buffer (extent.offset + extent.length) later) :
    LongestRun buffer extent.offset (extent :: later) := by
  refine ⟨⟨rfl, consumable, longest.consecutive⟩, ?_⟩
  intro other consecutive
  cases other with
  | nil => exact Nat.zero_le _
  | cons first others =>
    obtain ⟨same, firstConsumable, behind⟩ := consecutive
    obtain rfl := firstConsumable.unique consumable same
    exact Nat.succ_le_succ (longest.longest others behind)

/-- A run of frames ends within the buffer. -/
theorem ConsecutiveFrom.within (buffer : List UInt8) (offset : Nat) (extents : List Extent)
    (consecutive : ConsecutiveFrom buffer offset extents) (start : offset ≤ buffer.length) :
    offset + consumedLength extents ≤ buffer.length := by
  induction extents generalizing offset with
  | nil => exact start
  | cons extent later inductionHypothesis =>
    obtain ⟨rfl, consumable, behind⟩ := consecutive
    have rest := inductionHypothesis _ behind consumable.2.2.2
    simp only [consumedLength, List.map_cons, List.sum_cons] at rest ⊢
    omega

/-- The words of the header at an offset of the buffer. -/
theorem header_words (memory : Store UInt8) (base : Int) (buffer : List UInt8)
    (loaded : memory.load base buffer.length = buffer) (offset : Nat)
    (whole : offset + sizeofPbHeader.toNat ≤ buffer.length) :
    (loadWord32 memory (base + offset)).toNat = lengthAt buffer offset ∧
      loadWord32 memory (base + offset + 8) = typeAt buffer offset := by
  have size : sizeofPbHeader.toNat = 32 := rfl
  have first := loadWord32_load memory base buffer.length offset (by omega)
  have second := loadWord32_load memory base buffer.length (offset + 8) (by omega)
  rw [loaded] at first second
  rw [Int.natCast_add, ← Int.add_assoc] at second
  exact ⟨congrArg UInt32.toNat first, second⟩

/-- The call of a consumed frame is the one `process_msg` makes at its header. -/
theorem frameCalls_extent (pbcbs : PbCbs κ) (memory : Store UInt8) (base : Int)
    (buffer : List UInt8) (loaded : memory.load base buffer.length = buffer) (extent : Extent)
    (consumable : Consumable buffer extent) :
    frameCalls pbcbs memory (base + extent.offset) =
      (extentCall pbcbs base buffer extent).toList := by
  obtain ⟨whole, announced, admitted, -⟩ := consumable
  obtain ⟨lengthWord, typeWord⟩ := header_words memory base buffer loaded extent.offset whole
  have word : UInt32.ofNat extent.length = loadWord32 memory (base + extent.offset) := by
    rw [announced, ← lengthWord, UInt32.ofNat_toNat]
  have empty : (loadWord32 memory (base + extent.offset)).toUInt64 = sizeofPbHeader ↔
      extent.length ≤ sizeofPbHeader.toNat := by
    rw [← UInt64.toNat_inj, UInt32.toNat_toUInt64, lengthWord, ← announced]
    omega
  rw [frameCalls, extentCall, typeWord, word]
  by_cases headerOnly : extent.length ≤ sizeofPbHeader.toNat
  · rw [if_pos (empty.mpr headerOnly), if_pos headerOnly]
    rfl
  · rw [if_neg (mt empty.mp headerOnly), if_neg headerOnly]
    cases cbfuncs pbcbs (typeAt buffer extent.offset) <;> rfl

/-- From any offset on, the loop consumes the longest run of frames, calls back
for each of them, and returns what the end of the run says. A frame consumed
starts the run of the rest. -/
theorem processLoop_decomposed (pbcbs : PbCbs κ) (memory : Store UInt8) (base : Int)
    (buffer : List UInt8) (loaded : memory.load base buffer.length = buffer)
    (small : buffer.length < 2 ^ 31) (left : Nat) (leftover location : Int32) (offset : Nat)
    (counter : leftover.toUInt32.toNat = left) (located : location.toUInt32.toNat = offset)
    (together : offset + left = buffer.length) :
    ∃ extents, LongestRun buffer offset extents ∧
      (processLoop pbcbs memory base leftover location).calls =
        extents.filterMap (extentCall pbcbs base buffer) ∧
      (processLoop pbcbs memory base leftover location).leftoverDataSize.toInt =
        resultAt buffer (offset + consumedLength extents) := by
  have size : sizeofPbHeader.toNat = 32 := rfl
  have words := header_words memory base buffer loaded
  have kept : ∀ (offset left : Nat) (leftover : Int32), leftover.toUInt32.toNat = left →
      offset + left = buffer.length → ¬ MalformedAt buffer offset →
      leftover.toInt = resultAt buffer offset := by
    intro offset left leftover counter together remains
    rw [Conversions.signed_small leftover left counter (by omega), resultAt, if_neg remains]
    omega
  have inRange : offset + left < 2 ^ 31 := together ▸ small
  revert together
  apply processLoop_induction pbcbs memory base (fun offset left processed =>
    offset + left = buffer.length → ∃ extents, LongestRun buffer offset extents ∧
      processed.calls = extents.filterMap (extentCall pbcbs base buffer) ∧
      processed.leftoverDataSize.toInt = resultAt buffer (offset + consumedLength extents))
  · intro offset left leftover counter short together
    refine ⟨[], LongestRun.nil buffer offset ?_, rfl, kept offset left leftover counter together ?_⟩
    · intro length consumable
      have whole := consumable.bounds.1
      omega
    · rintro ⟨whole, -⟩
      omega
  · intro offset left whole tooSmall together
    obtain ⟨lengthWord, -⟩ := words offset (by omega)
    rw [lengthWord] at tooSmall
    have dropped : MalformedAt buffer offset := ⟨by omega, tooSmall⟩
    refine ⟨[], LongestRun.nil buffer offset ?_, rfl, ?_⟩
    · intro length consumable
      have admitted := consumable.bounds.2.1
      omega
    · have ends : offset + consumedLength [] = offset := rfl
      rw [ends, resultAt, if_pos dropped]
      rfl
  · intro offset left leftover counter whole admitted incomplete together
    obtain ⟨lengthWord, -⟩ := words offset (by omega)
    rw [lengthWord] at admitted incomplete
    refine ⟨[], LongestRun.nil buffer offset ?_, rfl, kept offset left leftover counter together ?_⟩
    · intro length consumable
      have within := consumable.bounds.2.2
      omega
    · rintro ⟨-, tooSmall⟩
      omega
  · intro offset left later admitted complete inductionHypothesis together
    obtain ⟨lengthWord, -⟩ := words offset (by omega)
    rw [lengthWord] at admitted complete inductionHypothesis
    obtain ⟨extents, longest, calls, result⟩ := inductionHypothesis (by omega)
    have inside : offset + lengthAt buffer offset ≤ buffer.length := by omega
    have consumable : Consumable buffer ⟨offset, lengthAt buffer offset⟩ :=
      ⟨Nat.le_trans (Nat.add_le_add_left admitted offset) inside, rfl, admitted, inside⟩
    refine ⟨_, LongestRun.cons buffer _ extents consumable longest, ?_, ?_⟩
    · have call := frameCalls_extent pbcbs memory base buffer loaded _ consumable
      rw [Processed.reading, calls, call, List.filterMap_cons]
      cases extentCall pbcbs base buffer ⟨offset, lengthAt buffer offset⟩ <;> rfl
    · rw [Processed.reading, result]
      simp only [consumedLength, List.map_cons, List.sum_cons, Nat.add_assoc]
  · exact counter
  · exact located
  · exact inRange

/-- `process_msg` on a buffer shorter than 2^31 bytes: its calls are those of the
longest run of consumable frames, in order, it returns 0 if a malformed header
ended the run and the number of bytes behind the run otherwise. The headers it reads
are those at its counters, and these stay non-negative and add up to the size of the
buffer. -/
theorem processMsg_decomposes (pbcbs : PbCbs κ) (memory : Store UInt8) (base : Int) (siz : Nat)
    (small : siz < 2 ^ 31) :
    (∃ extents, LongestRun (memory.load base siz) 0 extents ∧
      (processMsg pbcbs memory base (Int64.ofNat siz)).calls =
        extents.filterMap (extentCall pbcbs base (memory.load base siz)) ∧
      (processMsg pbcbs memory base (Int64.ofNat siz)).leftoverDataSize.toInt =
        if MalformedAt (memory.load base siz) (consumedLength extents) then (0 : Int)
        else (siz : Int) - consumedLength extents) ∧
    (processMsg pbcbs memory base (Int64.ofNat siz)).headers =
      ((loopCounters memory base (Int64.ofNat siz).toInt32 0).filter fun counters =>
        sizeofPbHeader ≤ counters.1.toInt64.toUInt64).map (fun counters =>
          base + counters.2.toInt) ∧
    ∀ counters ∈ loopCounters memory base (Int64.ofNat siz).toInt32 0,
      0 ≤ counters.1.toInt ∧ counters.2.toInt + counters.1.toInt = siz := by
  have narrowed : (Int64.ofNat siz).toInt32.toUInt32.toNat = siz := by
    rw [Conversions.narrow_size, Nat.mod_eq_of_lt (by omega)]
  have length := memory.load_length base siz
  refine ⟨?_, loopCounters_headers pbcbs memory base _ 0, ?_⟩
  · obtain ⟨extents, longest, calls, result⟩ := processLoop_decomposed pbcbs memory base
      (memory.load base siz) (by rw [length]) (by omega) siz (Int64.ofNat siz).toInt32 0 0 narrowed
      rfl (by rw [length, Nat.zero_add])
    have within := ConsecutiveFrom.within _ 0 extents longest.consecutive (Nat.zero_le _)
    rw [length] at within
    refine ⟨extents, longest, calls, ?_⟩
    rw [processMsg, result, resultAt, length, Nat.zero_add]
    split
    · rfl
    · omega
  · exact loopCounters_conserved memory base _ 0 siz small (by rw [narrowed]; exact Nat.zero_add _)

/-- A frame with a payload, a frame of a header alone, and the header of a frame whose payload
is missing. -/
def threeHeaders : List UInt8 :=
  PbHeader.bytes ⟨36, protobufV1, MsgTypes.stdReply.code, 7, 9, 0, 0⟩ ++ [1, 2, 3, 4] ++
    PbHeader.bytes ⟨32, protobufV1, MsgTypes.stdReply.code, 0, 0, 0, 0⟩ ++
    PbHeader.bytes ⟨64, protobufV1, MsgTypes.stdReply.code, 0, 0, 0, 0⟩

/-- Of three frames, the two with a payload and a callback are delivered, and a part of a
fourth is left over. -/
theorem processMsg_decomposes_three :
    let pbcbs : PbCbs Unit := registerCb (fun _ => none) MsgTypes.stdReply.code ()
    let memory : Store UInt8 := Store.write (fun _ => 0) 0 threeHeaders
    (processMsg pbcbs memory 0 (Int64.ofNat 100)).calls = [⟨(), 0, 36⟩] ∧
    (∃ extents, LongestRun (memory.load 0 100) 0 extents ∧
      (processMsg pbcbs memory 0 (Int64.ofNat 100)).calls =
        extents.filterMap (extentCall pbcbs 0 (memory.load 0 100)) ∧
      (processMsg pbcbs memory 0 (Int64.ofNat 100)).leftoverDataSize.toInt =
        if MalformedAt (memory.load 0 100) (consumedLength extents) then (0 : Int)
        else (100 : Nat) - consumedLength extents) ∧
    ∀ counters ∈ loopCounters memory 0 (Int64.ofNat 100).toInt32 0,
      0 ≤ counters.1.toInt ∧ counters.2.toInt + counters.1.toInt = (100 : Nat) := by
  intro pbcbs memory
  obtain ⟨extents, -, counters⟩ := processMsg_decomposes pbcbs memory 0 100 (by decide)
  exact ⟨by decide +kernel, extents, counters⟩

end Evlpc
