import Evlpc.PbCommon
import Evlpc.Library.Conversions

/-!
# The callback table and the receive loop

`process_msg` walks the frames of a buffer and hands each one to the callback of
its payload type. The counters are the source's: `leftover_data_size` and
`current_location` are `int`, the length field is `uint32_t`, `sizeof` is a
`size_t`, and every comparison converts as C converts. The buffer is a store
read at `buf.base` plus the location, so nothing in the model keeps the loop
inside the received bytes.

The loop records the addresses at which it reads a header and the callbacks it
runs. The handlers do not write to the receive buffer or to the table, so what
they do is given separately, as a function of the recorded calls.
-/

namespace Evlpc

open Library

universe u
variable {κ : Type u}

/-- `pbcbs`: one function pointer for every index, `none` for NULL. The array
has `MT_MAX` entries; the later indices stand for the words that follow it. -/
abbrev PbCbs (κ : Type u) := Nat → Option κ

/-- `cbfuncs`. -/
def cbfuncs (pbcbs : PbCbs κ) (payloadType : UInt32) : Option κ :=
  if payloadType > 0 ∧ payloadType ≤ MsgTypes.max.code then pbcbs payloadType.toNat else none

/-- `register_cb`. -/
def registerCb (pbcbs : PbCbs κ) (payloadType : UInt32) (func : κ) : PbCbs κ :=
  if payloadType > 0 ∧ payloadType ≤ MsgTypes.max.code then
    fun index => if index = payloadType.toNat then some func else pbcbs index
  else pbcbs

/-- A callback invocation: the function, the address of the `PbMsg` it is given
and the length its header announces. -/
structure Call (κ : Type u) where
  callback : κ
  pbMsg : Int
  length : UInt32
deriving DecidableEq, Repr

/-- What a run of the loop does: the header addresses it reads, the callbacks it
invokes, and the value it returns. -/
structure Processed (κ : Type u) where
  headers : List Int
  calls : List (Call κ)
  leftoverDataSize : Int32
deriving DecidableEq, Repr

/-- Reading a header before what the rest of the loop does. -/
def Processed.reading (message : Int) (calls : List (Call κ)) (later : Processed κ) :
    Processed κ where
  headers := message :: later.headers
  calls := calls ++ later.calls
  leftoverDataSize := later.leftoverDataSize

/-- A 32-bit word of memory. -/
def loadWord32 (memory : Store UInt8) (address : Int) : UInt32 :=
  Words.readWord32 (memory.load address 4)

/-- A word inside a loaded run of memory is read from the run. -/
theorem loadWord32_load (memory : Store UInt8) (address : Int) (count skipped : Nat)
    (within : skipped + 4 ≤ count) :
    loadWord32 memory (address + skipped) =
      Words.readWord32 ((memory.load address count).drop skipped) := by
  have cells : ((memory.load address count).drop skipped).take 4 =
      memory.load (address + skipped) 4 := by
    rw [Store.load_drop _ _ _ _ (by omega), Store.load_take _ _ _ _ (by omega)]
  have whole : (memory.load (address + skipped) 4).take 4 = memory.load (address + skipped) 4 :=
    List.take_of_length_le (by rw [Store.load_length])
  rw [loadWord32, Words.readWord32, Words.readWord32, cells, whole]

/-- Loaded bytes that begin with a header hold its length and its type. -/
theorem loadWord32_header (memory : Store UInt8) (address : Int) (count : Nat) (hdr : PbHeader)
    (rest : List UInt8) (stored : memory.load address count = hdr.bytes ++ rest) :
    loadWord32 memory address = hdr.length ∧ loadWord32 memory (address + 8) = hdr.payloadType := by
  have size : hdr.bytes.length = 32 := hdr.bytes_length
  have enough : count = 32 + rest.length := by
    rw [← memory.load_length address count, stored, List.length_append, size]
  have parsed : PbHeader.ofBytes (memory.load address count) = hdr := by
    rw [stored, PbHeader.ofBytes_bytes]
  constructor
  · have word := loadWord32_load memory address count 0 (by omega)
    simpa using word.trans (congrArg PbHeader.length parsed)
  · have word := loadWord32_load memory address count 8 (by omega)
    exact word.trans (congrArg PbHeader.payloadType parsed)

/-- `leftover_data_size >= sizeof (PbHeader)` converts the signed counter to
`size_t`. A negative counter becomes a huge value and so does its `uint32_t`
image, so the guard may be read on the latter. -/
theorem guard_iff (leftover : Int32) :
    sizeofPbHeader ≤ leftover.toInt64.toUInt64 ↔
      sizeofPbHeader.toNat ≤ leftover.toUInt32.toNat := by
  have extended : leftover.toInt64.toUInt64.toNat = (leftover.toBitVec.signExtend 64).toNat := rfl
  have plain : leftover.toUInt32.toNat = leftover.toBitVec.toNat := rfl
  have size : sizeofPbHeader.toNat = 32 := rfl
  have bound := leftover.toBitVec.isLt
  rw [UInt64.le_iff_toNat_le, extended, plain, size, BitVec.toNat_signExtend, BitVec.toNat_setWidth,
    BitVec.msb_eq_decide]
  simp only [decide_eq_true_eq]
  split <;> omega

/-- `packet_length < sizeof (PbHeader)` converts the length to `size_t`, which keeps it. -/
theorem header_small_iff (packetLength : UInt32) :
    packetLength.toUInt64 < sizeofPbHeader ↔ packetLength.toNat < sizeofPbHeader.toNat := by
  rw [UInt64.lt_iff_toNat_lt, UInt32.toNat_toUInt64]

/-- The length check admits lengths from the size of a header on. -/
theorem header_admitted_iff (packetLength : UInt32) :
    ¬ packetLength.toUInt64 < sizeofPbHeader ↔ sizeofPbHeader.toNat ≤ packetLength.toNat := by
  rw [header_small_iff, Nat.not_lt]

/-- Consuming a frame takes exactly its length off the unsigned image of the
counter. -/
theorem leftover_consumed (leftover : Int32) (packetLength : UInt32)
    (header : ¬ packetLength.toUInt64 < sizeofPbHeader)
    (complete : ¬ leftover.toUInt32 < packetLength) :
    (leftover.toUInt32 - packetLength).toInt32.toUInt32.toNat =
        leftover.toUInt32.toNat - packetLength.toNat ∧
      sizeofPbHeader.toNat ≤ packetLength.toNat ∧
      packetLength.toNat ≤ leftover.toUInt32.toNat := by
  have within : packetLength ≤ leftover.toUInt32 := UInt32.not_lt.mp complete
  refine ⟨?_, (header_admitted_iff packetLength).mp header, UInt32.le_iff_toNat_le.mp within⟩
  rw [UInt32.toUInt32_toInt32, UInt32.toNat_sub_of_le _ _ within]

/-- A frame that is passed on leaves fewer bytes: it has at least those of its header. -/
theorem leftover_decreases (leftover : Int32) (packetLength : UInt32)
    (header : ¬ packetLength.toUInt64 < sizeofPbHeader)
    (complete : ¬ leftover.toUInt32 < packetLength) :
    (leftover.toUInt32 - packetLength).toInt32.toUInt32.toNat < leftover.toUInt32.toNat := by
  obtain ⟨consumed, least, within⟩ := leftover_consumed leftover packetLength header complete
  have size : sizeofPbHeader.toNat = 32 := rfl
  omega

/-- The loop of `process_msg`, entered with the two counters. -/
def processLoop (pbcbs : PbCbs κ) (memory : Store UInt8) (base : Int)
    (leftoverDataSize currentLocation : Int32) : Processed κ :=
  if sizeofPbHeader ≤ leftoverDataSize.toInt64.toUInt64 then
    let pbMsg := base + currentLocation.toInt
    let packetLength := loadWord32 memory pbMsg
    let payloadType := loadWord32 memory (pbMsg + 8)
    if _header : packetLength.toUInt64 < sizeofPbHeader then
      Processed.reading pbMsg [] ⟨[], [], 0⟩
    else if _complete : leftoverDataSize.toUInt32 < packetLength then
      Processed.reading pbMsg [] ⟨[], [], leftoverDataSize⟩
    else if packetLength.toUInt64 = sizeofPbHeader then
      Processed.reading pbMsg [] (processLoop pbcbs memory base
        (leftoverDataSize.toUInt32 - packetLength).toInt32
        (currentLocation.toUInt32 + packetLength).toInt32)
    else
      let calls := match cbfuncs pbcbs payloadType with
        | some cbfunc => [⟨cbfunc, pbMsg, packetLength⟩]
        | none => []
      Processed.reading pbMsg calls (processLoop pbcbs memory base
        (leftoverDataSize.toUInt32 - packetLength).toInt32
        (currentLocation.toUInt32 + packetLength).toInt32)
  else ⟨[], [], leftoverDataSize⟩
termination_by leftoverDataSize.toUInt32.toNat
decreasing_by
  all_goals exact leftover_decreases _ _ _header _complete

/-- `process_msg`: the size is narrowed to the loop's `int` counter. -/
def processMsg (pbcbs : PbCbs κ) (memory : Store UInt8) (base : Int) (siz : Int64) : Processed κ :=
  processLoop pbcbs memory base siz.toInt32 0

/-- The callback, if any, that a complete frame at an address leads to. -/
def frameCalls (pbcbs : PbCbs κ) (memory : Store UInt8) (pbMsg : Int) : List (Call κ) :=
  if (loadWord32 memory pbMsg).toUInt64 = sizeofPbHeader then []
  else match cbfuncs pbcbs (loadWord32 memory (pbMsg + 8)) with
    | some cbfunc => [⟨cbfunc, pbMsg, loadWord32 memory pbMsg⟩]
    | none => []

section Steps

variable (pbcbs : PbCbs κ) (memory : Store UInt8) (base : Int) (leftover location : Int32)

/-- Too little left for a header: the loop is over. -/
theorem processLoop_short (short : leftover.toUInt32.toNat < sizeofPbHeader.toNat) :
    processLoop pbcbs memory base leftover location = ⟨[], [], leftover⟩ := by
  rw [processLoop, if_neg]
  rw [guard_iff]
  exact Nat.not_le.mpr short

/-- A length below the header's own size drops everything left. -/
theorem processLoop_malformed (whole : sizeofPbHeader.toNat ≤ leftover.toUInt32.toNat)
    (small : (loadWord32 memory (base + location.toInt)).toNat < sizeofPbHeader.toNat) :
    processLoop pbcbs memory base leftover location = ⟨[base + location.toInt], [], 0⟩ := by
  rw [processLoop, if_pos ((guard_iff leftover).mpr whole),
    dif_pos ((header_small_iff _).mpr small)]
  rfl

/-- A frame that is not complete yet is left for the next read. -/
theorem processLoop_incomplete (whole : sizeofPbHeader.toNat ≤ leftover.toUInt32.toNat)
    (admitted : sizeofPbHeader.toNat ≤ (loadWord32 memory (base + location.toInt)).toNat)
    (incomplete : leftover.toUInt32.toNat < (loadWord32 memory (base + location.toInt)).toNat) :
    processLoop pbcbs memory base leftover location = ⟨[base + location.toInt], [], leftover⟩ := by
  rw [processLoop, if_pos ((guard_iff leftover).mpr whole),
    dif_neg ((header_admitted_iff _).mpr admitted),
    dif_pos (UInt32.lt_iff_toNat_lt.mpr incomplete)]
  rfl

/-- A complete frame is handed to its callback, if it has one, and skipped over.
The header-only frame of the source's third branch is the case without calls. -/
theorem processLoop_frame
    (admitted : sizeofPbHeader.toNat ≤ (loadWord32 memory (base + location.toInt)).toNat)
    (complete : (loadWord32 memory (base + location.toInt)).toNat ≤ leftover.toUInt32.toNat) :
    processLoop pbcbs memory base leftover location =
      Processed.reading (base + location.toInt) (frameCalls pbcbs memory (base + location.toInt))
        (processLoop pbcbs memory base
          (leftover.toUInt32 - loadWord32 memory (base + location.toInt)).toInt32
          (location.toUInt32 + loadWord32 memory (base + location.toInt)).toInt32) := by
  have enough : ¬ leftover.toUInt32 < loadWord32 memory (base + location.toInt) := by
    rw [UInt32.lt_iff_toNat_lt]
    exact Nat.not_lt.mpr complete
  rw [processLoop, if_pos ((guard_iff leftover).mpr (Nat.le_trans admitted complete)),
    dif_neg ((header_admitted_iff _).mpr admitted), dif_neg enough]
  by_cases empty : (loadWord32 memory (base + location.toInt)).toUInt64 = sizeofPbHeader
  · rw [if_pos empty, frameCalls, if_pos empty]
  · rw [if_neg empty, frameCalls, if_neg empty]

end Steps

/-- The unsigned counter still denotes the offset, and the bytes left from there
on are the given stream. Offsets are taken modulo the counter's width: behind
the last frame it may have wrapped. -/
structure Positioned (memory : Store UInt8) (base : Int) (leftover location : Int32)
    (offset : Nat) (stream : List UInt8) : Prop where
  located : location.toUInt32.toNat = offset % 2 ^ 32
  loaded : memory.load (base + offset) leftover.toUInt32.toNat = stream

/-- A frame is delivered to the callback of its type unless it is header-only. -/
def deliver (pbcbs : PbCbs κ) (frame : List UInt8) : Option (κ × List UInt8) :=
  if frame.length = sizeofPbHeader.toNat then none
  else (cbfuncs pbcbs (Words.readWord32 (frame.drop 8))).map fun callback => (callback, frame)

/-- The callback of a call and the bytes of the frame it is given. -/
def Call.given (memory : Store UInt8) (call : Call κ) : κ × List UInt8 :=
  (call.callback, memory.load call.pbMsg call.length.toNat)

/-- The message a callback finds at the address it is given. -/
def Call.frame (memory : Store UInt8) (call : Call κ) : Frame :=
  Frame.ofBytes (call.given memory).2

/-- The delivery of a frame given by its parts: none for an empty payload. -/
def Frame.delivery (pbcbs : PbCbs κ) (frame : Frame) : Option (κ × List UInt8) :=
  if frame.payload = [] then none
  else (cbfuncs pbcbs frame.hdr.payloadType).map fun callback => (callback, frame.bytes)

/-- The bytes of a frame are delivered as the frame. -/
theorem deliver_bytes (pbcbs : PbCbs κ) (frame : Frame) :
    deliver pbcbs frame.bytes = frame.delivery pbcbs := by
  have typeWord : Words.readWord32 (frame.bytes.drop 8) = frame.hdr.payloadType :=
    congrArg (fun read => read.hdr.payloadType) frame.ofBytes_bytes
  have empty : frame.bytes.length = sizeofPbHeader.toNat ↔ frame.payload = [] := by
    rw [Frame.bytes_length, ← List.length_eq_zero_iff]
    omega
  simp only [deliver, Frame.delivery, typeWord, empty]

/-- So are those of any number of frames. -/
theorem deliver_comp_bytes (pbcbs : PbCbs κ) :
    deliver pbcbs ∘ Frame.bytes = Frame.delivery pbcbs := by
  funext frame
  rw [Function.comp_apply, deliver_bytes]

namespace Positioned

variable {memory : Store UInt8} {base : Int} {leftover location : Int32} {offset : Nat}
  {stream : List UInt8}

/-- The loop's counter is the number of bytes that are left of the stream. -/
theorem left (positioned : Positioned memory base leftover location offset stream) :
    leftover.toUInt32.toNat = stream.length := by
  rw [← positioned.loaded, Store.load_length]

/-- Below 2^31 the signed counter is the offset itself. -/
theorem address (positioned : Positioned memory base leftover location offset stream)
    (inRange : offset < 2 ^ 31) : base + location.toInt = base + offset := by
  have located : location.toUInt32.toNat = offset := by
    rw [positioned.located, Nat.mod_eq_of_lt (by omega)]
  rw [Conversions.signed_small location offset located inRange]

/-- A word inside the stream is read from the stream. -/
theorem word (positioned : Positioned memory base leftover location offset stream)
    (skipped : Nat) (within : skipped + 4 ≤ stream.length) :
    loadWord32 memory (base + offset + skipped) = Words.readWord32 (stream.drop skipped) := by
  rw [loadWord32_load memory (base + offset) stream.length skipped within, ← positioned.left,
    positioned.loaded]

end Positioned

section Delivery

variable (pbcbs : PbCbs κ) (memory : Store UInt8) (base : Int)

/-- The callback of a frame that is stored at an address gets exactly its bytes. -/
theorem frameCalls_given (address : Int) (frame : List UInt8) (isFrame : pbFraming.IsFrame frame)
    (stored : memory.load address frame.length = frame) :
    (frameCalls pbcbs memory address).map (Call.given memory) = (deliver pbcbs frame).toList := by
  obtain ⟨whole, announced⟩ := isFrame
  have wholeHeader : 32 ≤ frame.length := whole
  have frameLength : (Words.readWord32 frame).toNat = frame.length := announced
  have lengthWord : loadWord32 memory address = Words.readWord32 frame := by
    have read := loadWord32_load memory address frame.length 0 (by omega)
    rw [stored] at read
    simpa using read
  have typeWord : loadWord32 memory (address + 8) = Words.readWord32 (frame.drop 8) := by
    have read := loadWord32_load memory address frame.length 8 (by omega)
    rw [stored] at read
    exact read
  rw [frameCalls, lengthWord, typeWord, deliver]
  by_cases empty : frame.length = sizeofPbHeader.toNat
  · have same : (Words.readWord32 frame).toUInt64 = sizeofPbHeader := by
      apply UInt64.toNat_inj.mp
      rw [UInt32.toNat_toUInt64, frameLength, empty]
    rw [if_pos same, if_pos empty]
    rfl
  · have different : (Words.readWord32 frame).toUInt64 ≠ sizeofPbHeader := by
      intro same
      apply empty
      rw [← frameLength, ← same, UInt32.toNat_toUInt64]
    rw [if_neg different, if_neg empty]
    cases registered : cbfuncs pbcbs (Words.readWord32 (frame.drop 8)) with
    | none => rfl
    | some callback => simp [Call.given, frameLength, stored]

/-- A complete frame at the current position: its callback gets exactly its
bytes, and the loop goes on behind it. -/
theorem processLoop_deliver (leftover location : Int32) (offset : Nat) (frame rest : List UInt8)
    (positioned : Positioned memory base leftover location offset (frame ++ rest))
    (isFrame : pbFraming.IsFrame frame) (inRange : offset < 2 ^ 31) :
    ∃ leftover' location' calls,
      Positioned memory base leftover' location' (offset + frame.length) rest ∧
      calls.map (Call.given memory) = (deliver pbcbs frame).toList ∧
      processLoop pbcbs memory base leftover location =
        Processed.reading (base + offset) calls
          (processLoop pbcbs memory base leftover' location') := by
  have whole : 32 ≤ frame.length := isFrame.1
  have size : sizeofPbHeader.toNat = 32 := rfl
  have left : leftover.toUInt32.toNat = frame.length + rest.length := by
    rw [positioned.left, List.length_append]
  have loaded := positioned.loaded
  rw [left] at loaded
  have stored : memory.load (base + offset) frame.length = frame := by
    rw [← Store.load_take memory _ frame.length (frame.length + rest.length) (Nat.le_add_right _ _),
      loaded, List.take_left]
  have behind : memory.load (base + offset + frame.length) rest.length = rest := by
    have dropped := Store.load_drop memory (base + offset) frame.length
      (frame.length + rest.length) (Nat.le_add_right _ _)
    rwa [loaded, List.drop_left, Nat.add_sub_cancel_left, eq_comm] at dropped
  have address := positioned.address inRange
  have length : (loadWord32 memory (base + location.toInt)).toNat = frame.length := by
    have word := loadWord32_load memory (base + offset) frame.length 0 (by omega)
    rw [stored, Int.natCast_zero, Int.add_zero, List.drop_zero] at word
    rw [address, word]
    exact isFrame.2
  refine ⟨(leftover.toUInt32 - loadWord32 memory (base + location.toInt)).toInt32,
    (location.toUInt32 + loadWord32 memory (base + location.toInt)).toInt32,
    frameCalls pbcbs memory (base + location.toInt), ⟨?_, ?_⟩, ?_, ?_⟩
  · rw [UInt32.toUInt32_toInt32, UInt32.toNat_add, length, positioned.located, Nat.mod_add_mod]
  · have consumed : (leftover.toUInt32 - loadWord32 memory (base + location.toInt)).toNat =
        rest.length := by
      rw [UInt32.toNat_sub_of_le _ _ (UInt32.le_iff_toNat_le.mpr (by omega)), length, left]
      omega
    rw [UInt32.toUInt32_toInt32, consumed, Int.natCast_add, ← Int.add_assoc, behind]
  · rw [address]
    exact frameCalls_given pbcbs memory _ frame isFrame stored
  · rw [← address]
    exact processLoop_frame pbcbs memory base leftover location (by omega) (by omega)

/-- A run of complete frames, each starting where the signed counter still
denotes an offset: the callbacks invoked are those of its frames, in order, and
the loop goes on behind the last one. Induct over the frames. -/
theorem processLoop_frames (leftover location : Int32) (offset : Nat)
    (frames : List (List UInt8)) (rest : List UInt8)
    (positioned : Positioned memory base leftover location offset (frames.flatten ++ rest))
    (areFrames : ∀ frame ∈ frames, pbFraming.IsFrame frame)
    (inRange : ∀ before frame after, frames = before ++ frame :: after →
      offset + before.flatten.length < 2 ^ 31) :
    ∃ leftover' location' calls,
      Positioned memory base leftover' location' (offset + frames.flatten.length) rest ∧
      calls.map (Call.given memory) = frames.filterMap (deliver pbcbs) ∧
      (processLoop pbcbs memory base leftover location).calls =
        calls ++ (processLoop pbcbs memory base leftover' location').calls ∧
      (processLoop pbcbs memory base leftover location).leftoverDataSize =
        (processLoop pbcbs memory base leftover' location').leftoverDataSize := by
  induction frames generalizing leftover location offset with
  | nil => exact ⟨leftover, location, [], by simpa using positioned, rfl, rfl, rfl⟩
  | cons frame later inductionHypothesis =>
    rw [List.flatten_cons, List.append_assoc] at positioned
    have first := inRange [] frame later rfl
    obtain ⟨leftover₁, location₁, calls₁, positioned₁, given₁, loop₁⟩ :=
      processLoop_deliver pbcbs memory base leftover location offset frame _ positioned
        (areFrames frame (by simp)) (by simpa using first)
    have laterInRange : ∀ before other after, later = before ++ other :: after →
        offset + frame.length + before.flatten.length < 2 ^ 31 := by
      intro before other after same
      have bound := inRange (frame :: before) other after (by rw [same]; rfl)
      rw [List.flatten_cons, List.length_append] at bound
      omega
    obtain ⟨leftover₂, location₂, calls₂, positioned₂, given₂, loop₂, result₂⟩ :=
      inductionHypothesis leftover₁ location₁ (offset + frame.length) positioned₁
        (fun other member => areFrames other (by simp [member])) laterInRange
    refine ⟨leftover₂, location₂, calls₁ ++ calls₂, ?_, ?_, ?_, ?_⟩
    · rwa [List.flatten_cons, List.length_append, ← Nat.add_assoc]
    · rw [List.map_append, given₁, given₂]
      cases delivered : deliver pbcbs frame <;> simp [delivered]
    · rw [loop₁, Processed.reading, loop₂, List.append_assoc]
    · rw [loop₁, Processed.reading, result₂]

/-- How many bytes the loop reports as left, by what stopped the frames. -/
def keptLength : Framing.Rest UInt8 → Nat
  | .awaiting tail => tail.length
  | .malformed _ => 0

/-- Where the frames end, the loop ends: an unfinished tail is reported as left,
a malformed header drops it. -/
theorem processLoop_stopped (leftover location : Int32) (offset : Nat) (rest : Framing.Rest UInt8)
    (positioned : Positioned memory base leftover location offset rest.symbols)
    (stopped : pbFraming.Stopped rest)
    (inRange : sizeofPbHeader.toNat ≤ rest.symbols.length → offset < 2 ^ 31) :
    (processLoop pbcbs memory base leftover location).calls = [] ∧
      (processLoop pbcbs memory base leftover location).leftoverDataSize.toUInt32.toNat =
        keptLength rest := by
  have size : sizeofPbHeader.toNat = 32 := rfl
  have left := positioned.left
  have lengthWord : ∀ tail, rest.symbols = tail → 32 ≤ tail.length →
      loadWord32 memory (base + location.toInt) = Words.readWord32 tail := by
    rintro tail rfl whole
    have read := positioned.word 0 (by omega)
    rw [positioned.address (inRange whole)]
    simpa using read
  cases rest with
  | awaiting tail =>
    have length : leftover.toUInt32.toNat = tail.length := left
    rcases stopped with short | ⟨admitted, incomplete⟩
    · rw [processLoop_short pbcbs memory base leftover location (by rw [length]; exact short)]
      exact ⟨rfl, length⟩
    · have admittedWord : 32 ≤ (Words.readWord32 tail).toNat := admitted
      have incompleteWord : tail.length < (Words.readWord32 tail).toNat := incomplete
      by_cases short : tail.length < 32
      · rw [processLoop_short pbcbs memory base leftover location (by omega)]
        exact ⟨rfl, length⟩
      · have word := lengthWord tail rfl (by omega)
        rw [processLoop_incomplete pbcbs memory base leftover location (by omega)
          (by rw [word]; exact admitted) (by rw [word]; omega)]
        exact ⟨rfl, length⟩
  | malformed tail =>
    obtain ⟨whole, small⟩ := stopped
    have length : leftover.toUInt32.toNat = tail.length := left
    have word := lengthWord tail rfl whole
    rw [processLoop_malformed pbcbs memory base leftover location (by rw [length]; exact whole)
      (by rw [word]; exact small)]
    exact ⟨rfl, rfl⟩

/-- `process_msg` on a buffer shorter than 2^31 bytes is the split of its bytes:
each frame that is not header-only and has a callback leads to one call with
exactly its bytes, in order, and the result is the length of the unfinished tail. -/
theorem processMsg_split (siz : Int64) (stream : List UInt8)
    (size : siz.toInt32.toUInt32.toNat = stream.length) (inRange : stream.length < 2 ^ 31)
    (loaded : memory.load base stream.length = stream) :
    (processMsg pbcbs memory base siz).calls.map (Call.given memory) =
        (pbFraming.split stream).1.filterMap (deliver pbcbs) ∧
      (processMsg pbcbs memory base siz).leftoverDataSize.toUInt32.toNat =
        keptLength (pbFraming.split stream).2 := by
  obtain ⟨behind, areFrames, stopped⟩ := pbFraming.split_exact stream
  have covered : stream.length = (pbFraming.split stream).1.flatten.length +
      (pbFraming.split stream).2.symbols.length := by
    rw [← List.length_append, ← behind]
  have positioned : Positioned memory base siz.toInt32 0 0
      ((pbFraming.split stream).1.flatten ++ (pbFraming.split stream).2.symbols) := by
    refine ⟨rfl, ?_⟩
    rw [← behind, size]
    simpa using loaded
  have starts : ∀ before frame after, (pbFraming.split stream).1 = before ++ frame :: after →
      0 + before.flatten.length < 2 ^ 31 := by
    intro before frame after same
    rw [same, List.flatten_append, List.length_append] at covered
    omega
  obtain ⟨leftover, location, calls, ending, given, loopCalls, loopResult⟩ :=
    processLoop_frames pbcbs memory base siz.toInt32 0 0 _ _ positioned areFrames starts
  obtain ⟨noCalls, kept⟩ :=
    processLoop_stopped pbcbs memory base leftover location _ _ ending stopped (by omega)
  rw [processMsg, loopCalls, noCalls, List.append_nil, loopResult]
  exact ⟨given, kept⟩

/-- `process_msg` on a buffer that holds well-formed frames, each starting below
2^31, leads to their deliveries and leaves nothing. Only the start of a frame is
computed with the signed counter, so the last one may reach beyond. -/
theorem processMsg_frames (frames : List Frame) (wellFormed : ∀ frame ∈ frames, frame.WellFormed)
    (bounded : (frames.map Frame.bytes).flatten.length < 2 ^ 32)
    (starts : ∀ before frame after, frames = before ++ frame :: after →
      (before.map Frame.bytes).flatten.length < 2 ^ 31)
    (loaded : memory.load base (frames.map Frame.bytes).flatten.length =
      (frames.map Frame.bytes).flatten) :
    (processMsg pbcbs memory base
        (Int64.ofNat (frames.map Frame.bytes).flatten.length)).calls.map (Call.given memory) =
        frames.filterMap (Frame.delivery pbcbs) ∧
      (processMsg pbcbs memory base
        (Int64.ofNat (frames.map Frame.bytes).flatten.length)).leftoverDataSize = 0 := by
  have positioned : Positioned memory base
      (Int64.ofNat (frames.map Frame.bytes).flatten.length).toInt32 0 0
      ((frames.map Frame.bytes).flatten ++ []) := by
    refine ⟨rfl, ?_⟩
    rw [Conversions.narrow_size, Nat.mod_eq_of_lt bounded, List.append_nil]
    simpa using loaded
  have areFrames : ∀ bytes ∈ frames.map Frame.bytes, pbFraming.IsFrame bytes := by
    intro bytes member
    obtain ⟨frame, inFrames, rfl⟩ := List.mem_map.mp member
    exact frame.bytes_isFrame (wellFormed frame inFrames)
  have inRange : ∀ before bytes after, frames.map Frame.bytes = before ++ bytes :: after →
      0 + before.flatten.length < 2 ^ 31 := by
    intro before bytes after same
    obtain ⟨first, others, rfl, rfl, rest⟩ := List.map_eq_append_iff.mp same
    obtain ⟨frame, last, rfl, _, _⟩ := List.map_eq_cons_iff.mp rest
    have start := starts first frame last rfl
    omega
  obtain ⟨leftover, location, calls, ending, given, loopCalls, loopResult⟩ :=
    processLoop_frames pbcbs memory base _ 0 0 _ [] positioned areFrames inRange
  obtain ⟨noCalls, kept⟩ := processLoop_stopped pbcbs memory base leftover location _ (.awaiting [])
    ending (Or.inl pbFraming.headerSize_pos) (fun impossible => absurd impossible (by decide))
  constructor
  · rw [processMsg, loopCalls, noCalls, List.append_nil, given, List.filterMap_map,
      deliver_comp_bytes]
  · have bits : (processLoop pbcbs memory base leftover location).leftoverDataSize.toUInt32 = 0 :=
      UInt32.toNat_inj.mp kept
    rw [processMsg, loopResult]
    exact congrArg UInt32.toInt32 bits

/-- A well-formed frame alone in the buffer leads to its delivery and nothing else. -/
theorem processMsg_frame (frame : Frame) (wellFormed : frame.WellFormed)
    (loaded : memory.load base frame.bytes.length = frame.bytes) :
    (processMsg pbcbs memory base (Int64.ofNat frame.bytes.length)).calls.map (Call.given memory) =
      (frame.delivery pbcbs).toList := by
  have word := frame.hdr.length.toNat_lt
  rw [wellFormed, ← frame.bytes_length] at word
  have alone : ([frame].map Frame.bytes).flatten = frame.bytes := List.append_nil _
  have starts : ∀ before other after, [frame] = before ++ other :: after →
      (before.map Frame.bytes).flatten.length < 2 ^ 31 := by
    intro before other after same
    obtain ⟨rfl, _, _⟩ := (List.singleton_eq_append_iff.mp same).resolve_right (by simp)
    decide
  have delivered := (processMsg_frames pbcbs memory base [frame] (by simpa using wellFormed)
    (by rw [alone]; exact word) starts (by rw [alone]; exact loaded)).1
  rw [alone] at delivered
  rw [delivered, List.filterMap_cons]
  cases frame.delivery pbcbs <;> rfl

end Delivery

/-- All headers read and all frames handed out lie between two addresses. -/
structure Within (low high : Int) (processed : Processed κ) : Prop where
  headers : ∀ header ∈ processed.headers,
    low ≤ header ∧ header + sizeofPbHeader.toNat ≤ high
  calls : ∀ call ∈ processed.calls,
    low ≤ call.pbMsg ∧ call.pbMsg + call.length.toNat ≤ high

/-- A callback gets the header of its frame and the length in it. -/
theorem frameCalls_mem (pbcbs : PbCbs κ) (memory : Store UInt8) (pbMsg : Int) (call : Call κ)
    (member : call ∈ frameCalls pbcbs memory pbMsg) :
    call.pbMsg = pbMsg ∧ call.length = loadWord32 memory pbMsg := by
  unfold frameCalls at member
  split at member
  · cases member
  · split at member
    · rw [List.mem_singleton] at member
      subst member
      exact ⟨rfl, rfl⟩
    · cases member

/-- With a whole header left, a header is read at the current position. -/
theorem processLoop_reads (pbcbs : PbCbs κ) (memory : Store UInt8) (base : Int)
    (leftover location : Int32) (whole : sizeofPbHeader.toNat ≤ leftover.toUInt32.toNat) :
    base + location.toInt ∈ (processLoop pbcbs memory base leftover location).headers := by
  by_cases small : (loadWord32 memory (base + location.toInt)).toNat < sizeofPbHeader.toNat
  · rw [processLoop_malformed pbcbs memory base leftover location whole small]
    exact List.mem_singleton_self _
  · by_cases incomplete :
        leftover.toUInt32.toNat < (loadWord32 memory (base + location.toInt)).toNat
    · rw [processLoop_incomplete pbcbs memory base leftover location whole (by omega) incomplete]
      exact List.mem_singleton_self _
    · rw [processLoop_frame pbcbs memory base leftover location (by omega) (by omega)]
      exact List.mem_cons_self

/-- Induction over the loop in a buffer below 2^31: what holds of its three ways to
end, and of a frame if it holds of what follows, holds of the loop at every offset.
Each frame moves its length from the bytes left to the offset. -/
theorem processLoop_induction (pbcbs : PbCbs κ) (memory : Store UInt8) (base : Int)
    (Motive : Nat → Nat → Processed κ → Prop)
    (short : ∀ offset left (leftover : Int32), leftover.toUInt32.toNat = left →
      left < sizeofPbHeader.toNat → Motive offset left ⟨[], [], leftover⟩)
    (malformed : ∀ (offset left : Nat), sizeofPbHeader.toNat ≤ left →
      (loadWord32 memory (base + offset)).toNat < sizeofPbHeader.toNat →
      Motive offset left ⟨[base + offset], [], 0⟩)
    (incomplete : ∀ (offset left : Nat) (leftover : Int32), leftover.toUInt32.toNat = left →
      sizeofPbHeader.toNat ≤ left →
      sizeofPbHeader.toNat ≤ (loadWord32 memory (base + offset)).toNat →
      left < (loadWord32 memory (base + offset)).toNat →
      Motive offset left ⟨[base + offset], [], leftover⟩)
    (frame : ∀ (offset left : Nat) later,
      sizeofPbHeader.toNat ≤ (loadWord32 memory (base + offset)).toNat →
      (loadWord32 memory (base + offset)).toNat ≤ left →
      Motive (offset + (loadWord32 memory (base + offset)).toNat)
        (left - (loadWord32 memory (base + offset)).toNat) later →
      Motive offset left
        (Processed.reading (base + offset) (frameCalls pbcbs memory (base + offset)) later))
    (left : Nat) (leftover location : Int32) (offset : Nat)
    (counter : leftover.toUInt32.toNat = left) (located : location.toUInt32.toNat = offset)
    (inRange : offset + left < 2 ^ 31) :
    Motive offset left (processLoop pbcbs memory base leftover location) := by
  induction left using Nat.strong_induction_on generalizing leftover location offset with
  | _ left inductionHypothesis =>
    have size : sizeofPbHeader.toNat = 32 := rfl
    have address : location.toInt = offset :=
      Conversions.signed_small location offset located (by omega)
    by_cases tooShort : left < sizeofPbHeader.toNat
    · rw [processLoop_short pbcbs memory base leftover location (by omega)]
      exact short offset left leftover counter tooShort
    · generalize length : loadWord32 memory (base + offset) = packetLength
      have word : loadWord32 memory (base + location.toInt) = packetLength := by
        rw [address, length]
      by_cases small : packetLength.toNat < sizeofPbHeader.toNat
      · rw [processLoop_malformed pbcbs memory base leftover location (by omega)
          (by rw [word]; exact small), address]
        exact malformed offset left (by omega) (by rw [length]; exact small)
      · by_cases unfinished : left < packetLength.toNat
        · rw [processLoop_incomplete pbcbs memory base leftover location (by omega)
            (by rw [word]; omega) (by rw [word]; omega), address]
          exact incomplete offset left leftover counter (by omega) (by rw [length]; omega)
            (by rw [length]; exact unfinished)
        · have within : packetLength ≤ leftover.toUInt32 := UInt32.le_iff_toNat_le.mpr (by omega)
          rw [processLoop_frame pbcbs memory base leftover location (by rw [word]; omega)
            (by rw [word]; omega), word, address]
          apply frame offset left _ (by rw [length]; omega) (by rw [length]; omega)
          rw [length]
          apply inductionHypothesis (left - packetLength.toNat) (by omega)
          · rw [UInt32.toUInt32_toInt32, UInt32.toNat_sub_of_le _ _ within, counter]
          · rw [UInt32.toUInt32_toInt32, UInt32.toNat_add, located, Nat.mod_eq_of_lt (by omega)]
          · omega

/-- On any contents the loop stays between its current position and the end of
the bytes it was told are left, and never reports more than those. -/
theorem processLoop_within (pbcbs : PbCbs κ) (memory : Store UInt8) (base : Int) (left : Nat)
    (leftover location : Int32) (offset : Nat) (counter : leftover.toUInt32.toNat = left)
    (located : location.toUInt32.toNat = offset) (inRange : offset + left < 2 ^ 31) :
    Within (base + offset) (base + offset + left)
        (processLoop pbcbs memory base leftover location) ∧
      (processLoop pbcbs memory base leftover location).leftoverDataSize.toUInt32.toNat ≤ left := by
  have here : ∀ offset left : Nat, sizeofPbHeader.toNat ≤ left →
      base + offset ≤ base + offset ∧
        base + offset + sizeofPbHeader.toNat ≤ base + offset + left := by
    intro offset left whole
    omega
  apply processLoop_induction pbcbs memory base
    (fun offset left processed => Within (base + offset) (base + offset + left) processed ∧
      processed.leftoverDataSize.toUInt32.toNat ≤ left)
  · intro offset left leftover counter short
    exact ⟨⟨by simp, by simp⟩, Nat.le_of_eq counter⟩
  · intro offset left whole small
    exact ⟨⟨by simpa using here offset left whole, by simp⟩, Nat.zero_le _⟩
  · intro offset left leftover counter whole admitted incomplete
    exact ⟨⟨by simpa using here offset left whole, by simp⟩, Nat.le_of_eq counter⟩
  · rintro offset left later admitted complete ⟨within, bounded⟩
    refine ⟨⟨?_, ?_⟩, Nat.le_trans bounded (Nat.sub_le _ _)⟩
    · intro header member
      rcases List.mem_cons.mp member with rfl | member
      · exact here offset left (Nat.le_trans admitted complete)
      · have behind := within.headers header member
        omega
    · intro call member
      rcases List.mem_append.mp member with member | member
      · obtain ⟨message, length⟩ := frameCalls_mem pbcbs memory _ call member
        rw [message, length]
        omega
      · have behind := within.calls call member
        omega
  · exact counter
  · exact located
  · exact inRange

end Evlpc
