import Evlpc.Connection

/-!
# Reassembling frames from reads

A connection's reads are those of an ideal reassembler, which splits the bytes
left over followed by the new ones, exactly as long as nothing is left over when
a read begins: `readData` passes on the number of old and new bytes, but with the
address of the new ones, so a tail that is carried over is never parsed and as
many bytes behind the new ones are parsed in its place.

The sections establish the refinement for clean reads, the reassembly of streams
whose cuts fall between frames, and the condition under which parsing stays
inside the received bytes.
-/

namespace Evlpc

open Library

universe u
variable {κ : Type u}

/-- The callbacks run over successive reads, each with the bytes of the frame it
is given, and the connection afterwards. -/
def receiveAll (pbcbs : PbCbs κ) (info : RxBufAddr) :
    List Read → Option (RxBufAddr × List (κ × List UInt8))
  | [] => some (info, [])
  | read :: reads =>
    match readStep pbcbs info read with
    | some (next, .listened processed) =>
      (receiveAll pbcbs next reads).map fun later =>
        (later.1, processed.calls.map (Call.given (fill info read).1.memory) ++ later.2)
    | some (next, _) => receiveAll pbcbs next reads
    | none => none

/-- The reads of a connection as a machine over its receive buffer. -/
def readMachine (pbcbs : PbCbs κ) : Machine RxBufAddr Read where
  step := fun info read => (readStep pbcbs info read).map Prod.fst

/-- Nothing is left over when a read begins. -/
def StartsClean (info : RxBufAddr) (_ : Read) : Prop := info.leftoverDataSize = 0

/-- A read fills the memory behind what was left over. -/
theorem fill_memory (info : RxBufAddr) (read : Read) (sound : info.Sound) :
    (fill info read).1.memory = filledMemory info read := by
  have prepared := allocBuffer_prepared info read.suggestedSize sound
  simp only [fill, prepared.memory, prepared.base, filledMemory]

/-- A step of the machine is a received read. -/
theorem readMachine_step (pbcbs : PbCbs κ) (info next : RxBufAddr) (read : Read)
    (sound : info.Sound) (moved : (readMachine pbcbs).step info read = some next) :
    Received pbcbs info read (filledMemory info read) (totalDataRead info read) next := by
  by_cases fitting : read.bytes.length ≤ (allocBuffer info read.suggestedSize).2.len.toNat
  · obtain ⟨other, received⟩ := readStep_received pbcbs info read sound fitting
    have same : other = next := by
      simpa [readMachine, received.step] using moved
    exact same ▸ received
  · simp [readMachine, readStep, fitting] at moved

/-- Reads keep the receive buffer sound. -/
theorem readMachine_sound (pbcbs : PbCbs κ) (info final : RxBufAddr) (reads : List Read)
    (sound : info.Sound) (reached : (readMachine pbcbs).run info reads = some final) :
    final.Sound :=
  (readMachine pbcbs).run_invariant RxBufAddr.Sound
    (fun info read next holds moved => (readMachine_step pbcbs info next read holds moved).sound)
    info final reads sound reached

section Clean

/-- A read that begins with nothing left over is split like the ideal
reassembler splits it: the callbacks are those of its frames, and what is left
over is its unfinished tail. -/
theorem received_clean (pbcbs : PbCbs κ) (info next : RxBufAddr) (read : Read)
    (clean : info.leftoverDataSize = 0)
    (received : Received pbcbs info read (filledMemory info read) (totalDataRead info read) next) :
    (processMsg pbcbs (filledMemory info read) info.leftoverDataSize.toNat
        (totalDataRead info read)).calls.map (Call.given (filledMemory info read)) =
        (pbFraming.split read.bytes).1.filterMap (deliver pbcbs) ∧
      next.leftoverDataSize.toNat = keptLength (pbFraming.split read.bytes).2 := by
  have none : info.leftoverDataSize.toNat = 0 := by rw [clean]; rfl
  have most : maxAllocationSize.toNat = 65536 := rfl
  have size := received.size
  have within := received.within
  have bounded := received.bounded
  have stored := received.stored
  rw [none] at size within stored
  have processed := processMsg_split pbcbs (filledMemory info read) (0 : Nat)
    (totalDataRead info read) read.bytes (by omega) (by omega) stored
  rw [received.leftover, none]
  exact processed

/-- Along reads that begin clean the connection is the ideal reassembler: the
callbacks run are those of the frames it delivers. Induct over the reads; a clean
next read means that this one left no unfinished tail. -/
theorem receiveAll_reassembles (pbcbs : PbCbs κ) (info final : RxBufAddr) (reads : List Read)
    (sound : info.Sound) (reached : (readMachine pbcbs).run info reads = some final)
    (clean : (readMachine pbcbs).Along StartsClean info reads) :
    receiveAll pbcbs info reads =
      some (final, (pbFraming.reassemble [] (reads.map Read.bytes)).filterMap (deliver pbcbs)) := by
  induction reads generalizing info with
  | nil =>
    obtain rfl := Option.some.inj reached
    rfl
  | cons read reads inductionHypothesis =>
    obtain ⟨next, moved, rest⟩ := ((readMachine pbcbs).run_cons_some).mp reached
    have received := readMachine_step pbcbs info next read sound moved
    obtain ⟨calls, left⟩ := received_clean pbcbs info next read clean.1 received
    have later := inductionHypothesis next received.sound rest (clean.2 next moved)
    have carried : pbFraming.reassemble [] (read.bytes :: reads.map Read.bytes) =
        (pbFraming.split read.bytes).1 ++ pbFraming.reassemble [] (reads.map Read.bytes) := by
      cases ending : pbFraming.split read.bytes with
      | mk frames stopped =>
        cases stopped with
        | malformed dropped =>
          simp only [Framing.reassemble, Framing.receive, List.nil_append, ending]
        | awaiting tail =>
          simp only [Framing.reassemble, Framing.receive, List.nil_append, ending]
          cases reads with
          | nil => rfl
          | cons other others =>
            have nextClean := (clean.2 next moved).1
            rw [ending, keptLength, nextClean] at left
            have empty : tail = [] := List.length_eq_zero_iff.mp left.symm
            rw [empty]
    rw [receiveAll, received.step]
    simp only [later, Option.map_some, List.map_cons, carried, List.filterMap_append]
    rw [fill_memory info read sound, calls]

end Clean

section Frames

/-- A stream of well-formed frames cut into reads: the bytes of the reads are
those of the frames, no read is empty, each fits the buffer it is stored in, and
no frame is longer than the receive buffer. -/
structure CutStream (pbcbs : PbCbs κ) (info final : RxBufAddr) (frames : List Frame)
    (reads : List Read) : Prop where
  wellFormed : ∀ frame ∈ frames, frame.WellFormed
  fits : ∀ frame ∈ frames, frame.hdr.length.toNat ≤ final.rxBufSize.toNat
  nonempty : ∀ read ∈ reads, read.bytes ≠ []
  stream : (reads.map Read.bytes).flatten = (frames.map Frame.bytes).flatten
  reached : (readMachine pbcbs).run info reads = some final

/-- The callbacks run are exactly those of the frames with a payload and a
registered type, in order, each with the bytes of its frame. -/
def DeliversFrames (pbcbs : PbCbs κ) (info : RxBufAddr) (frames : List Frame)
    (reads : List Read) : Prop :=
  (receiveAll pbcbs info reads).map Prod.snd = some (frames.filterMap (Frame.delivery pbcbs))

/-- Every read brings a whole number of frames: each cut falls between two. -/
def WholeFrames (frames : List Frame) (reads : List Read) : Prop :=
  ∃ groups : List (List Frame), groups.flatten = frames ∧
    reads.map Read.bytes = groups.map fun group => (group.map Frame.bytes).flatten

/-- The bytes of well-formed frames split into just these frames. -/
theorem split_wellFormed (frames : List Frame)
    (wellFormed : ∀ frame ∈ frames, frame.WellFormed) :
    pbFraming.split (frames.map Frame.bytes).flatten = (frames.map Frame.bytes, .awaiting []) := by
  have areFrames : ∀ frame ∈ frames.map Frame.bytes, pbFraming.IsFrame frame := by
    intro bytes member
    obtain ⟨frame, inFrames, rfl⟩ := List.mem_map.mp member
    exact frame.bytes_isFrame (wellFormed frame inFrames)
  have ended : pbFraming.split [] = ([], .awaiting []) :=
    pbFraming.split_unfinished [] (Or.inl pbFraming.headerSize_pos)
  have whole := pbFraming.split_frames (frames.map Frame.bytes) [] areFrames
  rw [ended, List.append_nil, List.append_nil] at whole
  exact whole

/-- Reads of whole frames all begin clean. -/
theorem along_clean (pbcbs : PbCbs κ) (info : RxBufAddr) (reads : List Read)
    (groups : List (List Frame)) (sound : info.Sound) (clean : info.leftoverDataSize = 0)
    (wellFormed : ∀ group ∈ groups, ∀ frame ∈ group, frame.WellFormed)
    (brought : reads.map Read.bytes = groups.map fun group => (group.map Frame.bytes).flatten) :
    (readMachine pbcbs).Along StartsClean info reads := by
  induction reads generalizing info groups with
  | nil => trivial
  | cons read reads inductionHypothesis =>
    cases groups with
    | nil => simp at brought
    | cons group groups =>
      obtain ⟨bytes, later⟩ := List.cons.inj brought
      refine ⟨clean, ?_⟩
      intro next moved
      have received := readMachine_step pbcbs info next read sound moved
      obtain ⟨_, left⟩ := received_clean pbcbs info next read clean received
      rw [bytes, split_wellFormed group (wellFormed group (by simp))] at left
      have nextClean : next.leftoverDataSize = 0 := UInt32.toNat_inj.mp left
      exact inductionHypothesis next groups received.sound nextClean
        (fun other member => wellFormed other (by simp [member])) later

/-- Reads of a frame stream that all begin clean bring whole frames. Induct over
the reads. What a read leaves unfinished would be left over when the next one
begins, or is still unfinished at the end of the stream, so there is nothing. -/
theorem whole_of_clean (pbcbs : PbCbs κ) (info final : RxBufAddr) (frames : List Frame)
    (reads : List Read) (sound : info.Sound) (wellFormed : ∀ frame ∈ frames, frame.WellFormed)
    (stream : (reads.map Read.bytes).flatten = (frames.map Frame.bytes).flatten)
    (reached : (readMachine pbcbs).run info reads = some final)
    (clean : (readMachine pbcbs).Along StartsClean info reads) : WholeFrames frames reads := by
  have undivided := split_wellFormed frames wellFormed
  rw [← stream] at undivided
  induction reads generalizing info frames with
  | nil =>
    have ended : pbFraming.split [] = ([], .awaiting []) :=
      pbFraming.split_unfinished [] (Or.inl pbFraming.headerSize_pos)
    have none := (Prod.mk.inj (ended.symm.trans undivided)).1
    obtain rfl : frames = [] := List.map_eq_nil_iff.mp none.symm
    exact ⟨[], rfl, rfl⟩
  | cons read reads inductionHypothesis =>
    obtain ⟨next, moved, rest⟩ := ((readMachine pbcbs).run_cons_some).mp reached
    have received := readMachine_step pbcbs info next read sound moved
    obtain ⟨_, left⟩ := received_clean pbcbs info next read clean.1 received
    rw [List.map_cons, List.flatten_cons] at undivided
    obtain ⟨delivered, kept, later, split, bytes, unfinished, remaining, cutFrames⟩ :=
      pbFraming.split_append read.bytes _ _ _ undivided
    have nothing : kept = [] := by
      cases reads with
      | nil =>
        rw [List.map_nil, List.flatten_nil, List.append_nil,
          pbFraming.split_unfinished kept unfinished] at remaining
        exact Framing.Rest.awaiting.inj (Prod.mk.inj remaining).2
      | cons other others =>
        rw [split, keptLength, (clean.2 next moved).1] at left
        exact List.length_eq_zero_iff.mp left.symm
    rw [nothing, List.nil_append] at remaining
    rw [nothing, List.append_nil] at bytes
    obtain ⟨first, second, rfl, rfl, rfl⟩ := List.map_eq_append_iff.mp cutFrames
    have behind : (reads.map Read.bytes).flatten = (second.map Frame.bytes).flatten := by
      have exact := (pbFraming.split_exact (reads.map Read.bytes).flatten).1
      rwa [remaining, Framing.Rest.symbols, List.append_nil] at exact
    obtain ⟨groups, rfl, brought⟩ := inductionHypothesis next second received.sound
      (fun frame member => wellFormed frame (List.mem_append_right _ member)) behind rest
      (clean.2 next moved) remaining
    exact ⟨first :: groups, rfl, by rw [List.map_cons, bytes, brought]; rfl⟩

/-- A stream cut between its frames is reassembled: the reads begin clean, so the
connection is the ideal reassembler, which does not depend on the cuts. A stream
cut in any other way has a read that begins with data left over. -/
theorem whole_frames_delivered (pbcbs : PbCbs κ) (memory : Store UInt8) (rxBufSize : UInt32)
    (final : RxBufAddr) (frames : List Frame) (reads : List Read)
    (cut : CutStream pbcbs (newRxBuf memory rxBufSize) final frames reads) :
    (WholeFrames frames reads → DeliversFrames pbcbs (newRxBuf memory rxBufSize) frames reads) ∧
      (WholeFrames frames reads ↔
        (readMachine pbcbs).Along StartsClean (newRxBuf memory rxBufSize) reads) := by
  have sound := newRxBuf_sound memory rxBufSize
  have clean : WholeFrames frames reads →
      (readMachine pbcbs).Along StartsClean (newRxBuf memory rxBufSize) reads := by
    rintro ⟨groups, rfl, brought⟩
    have wellFormed : ∀ group ∈ groups, ∀ frame ∈ group, frame.WellFormed := by
      intro group inGroups frame inGroup
      exact cut.wellFormed frame (List.mem_flatten_of_mem inGroups inGroup)
    exact along_clean pbcbs (newRxBuf memory rxBufSize) reads groups sound rfl wellFormed brought
  refine ⟨?_, clean, whole_of_clean pbcbs _ final frames reads sound cut.wellFormed cut.stream
    cut.reached⟩
  intro whole
  have undivided : pbFraming.split ([] ++ (reads.map Read.bytes).flatten) =
      (frames.map Frame.bytes, .awaiting []) := by
    rw [List.nil_append, cut.stream, split_wellFormed _ cut.wellFormed]
  have reassembled := pbFraming.reassemble_reads [] (reads.map Read.bytes) _ []
    (Or.inl pbFraming.headerSize_pos) undivided
  have delivered := receiveAll_reassembles pbcbs (newRxBuf memory rxBufSize) final reads sound
    cut.reached (clean whole)
  rw [DeliversFrames, delivered, reassembled, Option.map_some, List.filterMap_map,
    deliver_comp_bytes]

/-- A frame of a header and 32 zero bytes. -/
def paddedFrame : Frame where
  hdr := ⟨64, protobufV1, MsgTypes.stdReply.code, 7, 9, 0, 0⟩
  payload := List.replicate 32 0

/-- A frame of a header alone. -/
def emptyFrame : Frame where
  hdr := ⟨32, protobufV1, MsgTypes.stdReply.code, 0, 0, 0, 0⟩
  payload := []

/-- A read of the header, then one of the payload. -/
def splitReads : List Read :=
  [⟨65536, paddedFrame.hdr.bytes⟩, ⟨65536, paddedFrame.payload⟩]

/-- A table with one callback, that of standard replies. -/
def stdReplyTable : PbCbs Unit := registerCb (fun _ => none) MsgTypes.stdReply.code ()

/-- A connection whose buffer will be malloc'ed over zeroed memory. -/
def zeroedConnection : RxBufAddr := newRxBuf (fun _ => 0) 0

/-- Reads that the machine accepts, ending with a buffer of the given size that
has room for every frame, cut the stream of the frames. -/
theorem cut_frames (frames : List Frame) (reads : List Read) (size : UInt32)
    (wellFormed : ∀ frame ∈ frames, frame.WellFormed)
    (room : ∀ frame ∈ frames, frame.hdr.length.toNat ≤ size.toNat)
    (nonempty : ∀ read ∈ reads, read.bytes ≠ [])
    (stream : (reads.map Read.bytes).flatten = (frames.map Frame.bytes).flatten)
    (reached : ((readMachine stdReplyTable).run zeroedConnection reads).map RxBufAddr.rxBufSize =
      some size) :
    ∃ final, CutStream stdReplyTable zeroedConnection final frames reads := by
  obtain ⟨final, run, rfl⟩ := Option.map_eq_some_iff.mp reached
  exact ⟨final, wellFormed, room, nonempty, stream, run⟩

/-- Two frames in one read, then an empty one and another. -/
def wholeReads : List Read :=
  [⟨65536, paddedFrame.bytes ++ paddedFrame.bytes⟩, ⟨65536, emptyFrame.bytes ++ paddedFrame.bytes⟩]

/-- Four frames in two reads are delivered in order, the empty one to nobody. -/
theorem whole_frames_delivered_reads :
    let frames := [paddedFrame, paddedFrame, emptyFrame, paddedFrame]
    DeliversFrames stdReplyTable zeroedConnection frames wholeReads ∧
      (readMachine stdReplyTable).Along StartsClean zeroedConnection wholeReads := by
  obtain ⟨final, cut⟩ := cut_frames [paddedFrame, paddedFrame, emptyFrame, paddedFrame] wholeReads
    65536 (by decide) (by decide) (by decide) (by decide +kernel) (by decide +kernel)
  obtain ⟨delivered, clean⟩ := whole_frames_delivered stdReplyTable _ 0 final _ wholeReads cut
  have whole : WholeFrames [paddedFrame, paddedFrame, emptyFrame, paddedFrame] wholeReads :=
    ⟨[[paddedFrame, paddedFrame], [emptyFrame, paddedFrame]], rfl, by decide⟩
  exact ⟨delivered whole, clean.mp whole⟩

/-- A frame cut behind its header is lost. The header alone is left over; the
second read is parsed from the payload's first byte, whose zero length drops
everything, so the registered callback never runs. -/
theorem split_frame_lost :
    (∃ final, CutStream stdReplyTable zeroedConnection final [paddedFrame] splitReads) ∧
      ¬ DeliversFrames stdReplyTable zeroedConnection [paddedFrame] splitReads := by
  refine ⟨cut_frames [paddedFrame] splitReads 65536 (by decide) (by decide) (by decide) (by decide)
    (by decide +kernel), ?_⟩
  have silent : (receiveAll stdReplyTable zeroedConnection splitReads).map Prod.snd = some [] := by
    decide +kernel
  have due : [paddedFrame].filterMap (Frame.delivery stdReplyTable) =
      [((), paddedFrame.bytes)] := by
    decide
  rw [DeliversFrames, silent, due]
  simp

end Frames

section Inside

/-- Every header read and every frame handed to a callback lies among the bytes
received and not yet consumed, which lie in the receive buffer. -/
def InsideReceived (pbcbs : PbCbs κ) (info : RxBufAddr) (read : Read) : Prop :=
  ∀ next processed, readStep pbcbs info read = some (next, .listened processed) →
    Within 0 ((info.leftoverDataSize.toNat + read.bytes.length : Nat) : Int) processed ∧
      info.leftoverDataSize.toNat + read.bytes.length ≤ next.rxBufSize.toNat

/-- The read begins with nothing left over, or does not complete a header. -/
def ParsesFromStart (info : RxBufAddr) (count : Nat) : Prop :=
  info.leftoverDataSize = 0 ∨ info.leftoverDataSize.toNat + count < sizeofPbHeader.toNat

/-- A read that begins clean or completes no header is parsed inside. In the
first case the parse starts at the buffer's start, in the second there is none. -/
theorem inside_of_start (pbcbs : PbCbs κ) (info : RxBufAddr) (read : Read) (sound : info.Sound)
    (start : ParsesFromStart info read.bytes.length) : InsideReceived pbcbs info read := by
  intro next processed step
  have moved : (readMachine pbcbs).step info read = some next := by
    simp [readMachine, step]
  have received := readMachine_step pbcbs info next read sound moved
  obtain ⟨_, same⟩ := Prod.mk.inj (Option.some.inj (received.step.symm.trans step))
  obtain rfl := ReadEffect.listened.inj same
  have most : maxAllocationSize.toNat = 65536 := rfl
  have within := received.within
  have bounded := received.bounded
  refine ⟨?_, within⟩
  rcases start with clean | short
  · have inside := (processLoop_within pbcbs (filledMemory info read) (0 : Nat) _
      (totalDataRead info read).toInt32 0 0 received.size rfl (by omega)).1
    have none : info.leftoverDataSize.toNat = 0 := by rw [clean]; rfl
    rw [none] at inside ⊢
    simpa [processMsg] using inside
  · rw [processMsg, processLoop_short pbcbs _ _ _ _ (by rw [received.size]; exact short)]
    exact ⟨by simp, by simp⟩

/-- Bytes that make a read with leftover data leave the received bytes: a header
that announces everything received so far, at the wrong place. -/
def overrunning (count leftover : Nat) (payloadType : UInt32) : List UInt8 :=
  PbHeader.bytes ⟨UInt32.ofNat (leftover + count), protobufV1, payloadType, 0, 0, 0, 0⟩ ++
    List.replicate (count - sizeofPbHeader.toNat) 0

/-- The frame has as many bytes as were asked for. -/
theorem overrunning_length (count leftover : Nat) (payloadType : UInt32)
    (whole : sizeofPbHeader.toNat ≤ count) :
    (overrunning count leftover payloadType).length = count := by
  rw [overrunning, List.length_append, PbHeader.bytes_length, List.length_replicate]
  omega

/-- With data left over, a read shorter than a header that completes one has the
header read behind the received bytes, whatever the contents. -/
theorem header_overruns (pbcbs : PbCbs κ) (info : RxBufAddr) (read : Read) (sound : info.Sound)
    (fitting : read.bytes.length ≤ (allocBuffer info read.suggestedSize).2.len.toNat)
    (short : read.bytes.length < sizeofPbHeader.toNat)
    (whole : sizeofPbHeader.toNat ≤ info.leftoverDataSize.toNat + read.bytes.length) :
    ¬ InsideReceived pbcbs info read := by
  intro inside
  obtain ⟨next, received⟩ := readStep_received pbcbs info read sound fitting
  have total := received.size
  have header := processLoop_reads pbcbs (filledMemory info read) info.leftoverDataSize.toNat
    (totalDataRead info read).toInt32 0 (by omega)
  have bound := ((inside next _ received.step).1.headers _ header).2
  have start : (0 : Int32).toInt = 0 := rfl
  rw [start] at bound
  omega

/-- With data left over, a longer read can announce a frame of all the bytes
received so far, which ends behind them because it does not start with them. -/
theorem frame_overruns (pbcbs : PbCbs κ) (info : RxBufAddr) (suggestedSize : UInt64) (count : Nat)
    (payloadType : UInt32) (callback : κ) (sound : info.Sound)
    (fitting : count ≤ (allocBuffer info suggestedSize).2.len.toNat)
    (registered : cbfuncs pbcbs payloadType = some callback)
    (leftover : 0 < info.leftoverDataSize.toNat) (whole : sizeofPbHeader.toNat ≤ count) :
    ¬ InsideReceived pbcbs info
      ⟨suggestedSize, overrunning count info.leftoverDataSize.toNat payloadType⟩ := by
  have size : sizeofPbHeader.toNat = 32 := rfl
  have most : maxAllocationSize.toNat = 65536 := rfl
  have start : (0 : Int32).toInt = 0 := rfl
  have length := overrunning_length count info.leftoverDataSize.toNat payloadType whole
  intro inside
  generalize bytes : overrunning count info.leftoverDataSize.toNat payloadType = contents
  rw [bytes] at length inside
  obtain ⟨next, received⟩ := readStep_received pbcbs info ⟨suggestedSize, contents⟩ sound
    (by simpa [length] using fitting)
  have total := received.size
  have within := received.within
  have bounded := received.bounded
  have stored := received.stored
  simp only [length] at total within
  obtain ⟨announced, type⟩ := loadWord32_header _ _ _ _ _ (stored.trans bytes.symm)
  have value : (UInt32.ofNat (info.leftoverDataSize.toNat + count)).toNat =
      info.leftoverDataSize.toNat + count := UInt32.toNat_ofNat_of_lt' (by
    have word : UInt32.size = 4294967296 := rfl
    omega)
  have consumed := processLoop_frame pbcbs (filledMemory info ⟨suggestedSize, contents⟩)
    info.leftoverDataSize.toNat (totalDataRead info ⟨suggestedSize, contents⟩).toInt32 0
    (by rw [start, Int.add_zero, announced, value]; omega)
    (by rw [start, Int.add_zero, announced, value]; omega)
  rw [start, Int.add_zero] at consumed
  have called : (⟨callback, info.leftoverDataSize.toNat,
      UInt32.ofNat (info.leftoverDataSize.toNat + count)⟩ : Call κ) ∈
        frameCalls pbcbs (filledMemory info ⟨suggestedSize, contents⟩)
          info.leftoverDataSize.toNat := by
    have notEmpty :
        (UInt32.ofNat (info.leftoverDataSize.toNat + count)).toUInt64 ≠ sizeofPbHeader := by
      intro same
      have values := congrArg UInt64.toNat same
      rw [UInt32.toNat_toUInt64, value] at values
      omega
    rw [frameCalls, announced, if_neg notEmpty, type, registered]
    exact List.mem_singleton_self _
  have bound := ((inside next _ received.step).1.calls _ (by
    rw [processMsg, consumed]
    exact List.mem_append_left _ called)).2
  simp only [value, length] at bound
  omega

/-- On any contents, a run of reads each of which begins clean or completes no
header is parsed inside the received bytes, and this condition is exact: in every
reachable state, the reads of a given size are parsed inside whatever their
contents if and only if they meet it, given some type is registered. -/
theorem parsing_inside_iff (pbcbs : PbCbs κ) (memory : Store UInt8) (rxBufSize : UInt32)
    (reads : List Read) :
    ((readMachine pbcbs).Along (fun info read => ParsesFromStart info read.bytes.length)
        (newRxBuf memory rxBufSize) reads →
      (readMachine pbcbs).Along (InsideReceived pbcbs) (newRxBuf memory rxBufSize) reads) ∧
    (∀ info suggestedSize count payloadType callback,
      (readMachine pbcbs).run (newRxBuf memory rxBufSize) reads = some info →
      cbfuncs pbcbs payloadType = some callback →
      count ≤ (allocBuffer info suggestedSize).2.len.toNat →
      ((∀ bytes : List UInt8, bytes.length = count →
        InsideReceived pbcbs info ⟨suggestedSize, bytes⟩) ↔ ParsesFromStart info count)) := by
  have sound := newRxBuf_sound memory rxBufSize
  constructor
  · apply (readMachine pbcbs).along_of_guard RxBufAddr.Sound
    · intro info read holds start
      exact inside_of_start pbcbs info read holds start
    · intro info read next holds _ moved
      exact (readMachine_step pbcbs info next read holds moved).sound
    · exact sound
  · intro info suggestedSize count payloadType callback reached registered fitting
    have holds := readMachine_sound pbcbs _ info reads sound reached
    constructor
    · intro inside
      by_contra outside
      rw [ParsesFromStart, not_or, Nat.not_lt] at outside
      obtain ⟨notClean, whole⟩ := outside
      have leftover : 0 < info.leftoverDataSize.toNat := by
        apply Nat.pos_of_ne_zero
        intro none
        exact notClean (UInt32.toNat_inj.mp none)
      by_cases short : count < sizeofPbHeader.toNat
      · have length : (List.replicate count (0 : UInt8)).length = count := List.length_replicate
        exact header_overruns pbcbs info ⟨suggestedSize, List.replicate count 0⟩ holds
          (by simpa using fitting) (by simpa using short) (by simpa using whole)
          (inside _ length)
      · exact frame_overruns pbcbs info suggestedSize count payloadType callback holds fitting
          registered leftover (Nat.not_lt.mp short)
          (inside _ (overrunning_length count _ payloadType (Nat.not_lt.mp short)))
    · intro start bytes length
      exact inside_of_start pbcbs info ⟨suggestedSize, bytes⟩ holds (by rw [length]; exact start)

/-- Thirty-one bytes of a header, then the last one. -/
def splitHeader : List Read := [⟨65536, List.replicate 31 0⟩, ⟨65536, [0]⟩]

/-- The second read completes a header of 32 received bytes, and the header is
read from byte 31 on. -/
theorem split_header_overruns :
    ¬ (readMachine stdReplyTable).Along (InsideReceived stdReplyTable) zeroedConnection
      splitHeader := by
  intro along
  have first : ((readMachine stdReplyTable).step zeroedConnection
      ⟨65536, List.replicate 31 0⟩).map (fun info =>
        (info.leftoverDataSize, (allocBuffer info 65536).2.len)) = some (31, 65505) := by
    decide +kernel
  obtain ⟨next, moved, values⟩ := Option.map_eq_some_iff.mp first
  obtain ⟨leftover, len⟩ := Prod.mk.inj values
  have sound :=
    (readMachine_step stdReplyTable zeroedConnection next _ (newRxBuf_sound _ _) moved).sound
  have second := (along.2 next moved).1
  exact header_overruns stdReplyTable next ⟨65536, [0]⟩ sound (by rw [len]; decide) (by decide)
    (by rw [leftover]; decide) second

end Inside

end Evlpc
