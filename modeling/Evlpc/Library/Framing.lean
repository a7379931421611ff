import Mathlib.Data.List.Flatten

/-!
# Length-delimited streams

A framing says how many symbols a header has and how the total length of a
frame is read off its header. `split` cuts a stream into its leading complete
frames and says why it stopped: it awaits more symbols, or it met a header whose
length is smaller than the header itself.

A reassembler keeps the unfinished tail between reads and splits the tail
followed by the new symbols. `reassemble_reads` is its purpose: the frames it
delivers over all reads are those of the undivided stream, wherever the stream
was cut.
-/

namespace Evlpc.Library

universe u

/-- How frames are delimited. The length is a function of the header alone. -/
structure Framing (β : Type u) where
  headerSize : Nat
  headerSize_pos : 0 < headerSize
  frameLength : List β → Nat
  frameLength_append : ∀ start rest, headerSize ≤ start.length →
    frameLength (start ++ rest) = frameLength start

namespace Framing

variable {β : Type u}

/-- Why a split ended, with the symbols it left. -/
inductive Rest (β : Type u) where
  | awaiting : List β → Rest β
  | malformed : List β → Rest β
deriving DecidableEq

/-- The complete frames at the start of a stream, and what stopped the split. -/
def split (framing : Framing β) (stream : List β) : List (List β) × Rest β :=
  if stream.length < framing.headerSize then ([], .awaiting stream)
  else if framing.frameLength stream < framing.headerSize then ([], .malformed stream)
  else if stream.length < framing.frameLength stream then ([], .awaiting stream)
  else
    let later := framing.split (stream.drop (framing.frameLength stream))
    (stream.take (framing.frameLength stream) :: later.1, later.2)
termination_by stream.length
decreasing_by
  have positive := framing.headerSize_pos
  rw [List.length_drop]
  omega

/-- A frame carries a whole header and is as long as that header says. -/
def IsFrame (framing : Framing β) (frame : List β) : Prop :=
  framing.headerSize ≤ frame.length ∧ framing.frameLength frame = frame.length

variable (framing : Framing β)

/-- A tail is unfinished when it holds no whole header, or less than its header
announces. -/
def Unfinished (tail : List β) : Prop :=
  tail.length < framing.headerSize ∨
    (framing.headerSize ≤ framing.frameLength tail ∧ tail.length < framing.frameLength tail)

/-- A stream that does not finish a frame is awaited. -/
theorem split_unfinished (tail : List β) (unfinished : framing.Unfinished tail) :
    framing.split tail = ([], .awaiting tail) := by
  rw [split]
  rcases unfinished with short | ⟨admitted, incomplete⟩
  · rw [if_pos short]
  · rw [if_neg (Nat.not_lt.mpr admitted), if_pos incomplete]
    split <;> rfl

/-- A frame that is shorter than its header stops the splitting. -/
theorem split_malformed (stream : List β) (whole : framing.headerSize ≤ stream.length)
    (small : framing.frameLength stream < framing.headerSize) :
    framing.split stream = ([], .malformed stream) := by
  rw [split, if_neg (Nat.not_lt.mpr whole), if_pos small]

/-- A leading frame is delivered and the split goes on behind it. -/
theorem split_frame (frame rest : List β) (isFrame : framing.IsFrame frame) :
    framing.split (frame ++ rest) =
      (frame :: (framing.split rest).1, (framing.split rest).2) := by
  obtain ⟨whole, exact⟩ := isFrame
  have announced : framing.frameLength (frame ++ rest) = frame.length :=
    (framing.frameLength_append frame rest whole).trans exact
  have notShort : ¬ (frame ++ rest).length < framing.headerSize := by
    rw [List.length_append]
    omega
  have notIncomplete : ¬ (frame ++ rest).length < frame.length := by
    rw [List.length_append]
    omega
  rw [split, if_neg notShort, announced, if_neg (Nat.not_lt.mpr whole), if_neg notIncomplete,
    List.take_left, List.drop_left]

/-- A run of frames is delivered in order and the split goes on behind it. -/
theorem split_frames (frames : List (List β)) (rest : List β)
    (areFrames : ∀ frame ∈ frames, framing.IsFrame frame) :
    framing.split (frames.flatten ++ rest) =
      (frames ++ (framing.split rest).1, (framing.split rest).2) := by
  induction frames with
  | nil => simp
  | cons frame later inductionHypothesis =>
    have first : framing.IsFrame frame := areFrames frame (by simp)
    have others : ∀ other ∈ later, framing.IsFrame other := by
      intro other member
      exact areFrames other (by simp [member])
    rw [List.flatten_cons, List.append_assoc, split_frame framing frame _ first,
      inductionHypothesis others]
    rfl

/-- The symbols a split left behind. -/
def Rest.symbols : Rest β → List β
  | .awaiting tail => tail
  | .malformed tail => tail

/-- What is true of the symbols left, by the reason the split ended. -/
def Stopped : Rest β → Prop
  | .awaiting tail => framing.Unfinished tail
  | .malformed tail => framing.headerSize ≤ tail.length ∧
      framing.frameLength tail < framing.headerSize

/-- A split loses nothing: the stream is its frames followed by the symbols
left, and these stop any split. The induction follows the cuts. -/
theorem split_exact (stream : List β) :
    stream = (framing.split stream).1.flatten ++ (framing.split stream).2.symbols ∧
      (∀ frame ∈ (framing.split stream).1, framing.IsFrame frame) ∧
      framing.Stopped (framing.split stream).2 := by
  induction stream using Framing.split.induct framing with
  | case1 stream short =>
    rw [split, if_pos short]
    exact ⟨rfl, by simp, Or.inl short⟩
  | case2 stream notShort small =>
    rw [split, if_neg notShort, if_pos small]
    exact ⟨rfl, by simp, Nat.not_lt.mp notShort, small⟩
  | case3 stream notShort notSmall incomplete =>
    rw [split, if_neg notShort, if_neg notSmall, if_pos incomplete]
    exact ⟨rfl, by simp, Or.inr ⟨Nat.not_lt.mp notSmall, incomplete⟩⟩
  | case4 stream notShort notSmall complete inductionHypothesis =>
    rw [split, if_neg notShort, if_neg notSmall, if_neg complete]
    obtain ⟨behind, areFrames, stopped⟩ := inductionHypothesis
    have covered : (stream.take (framing.frameLength stream)).length =
        framing.frameLength stream := by
      rw [List.length_take]
      omega
    have isFrame : framing.IsFrame (stream.take (framing.frameLength stream)) := by
      have announced := framing.frameLength_append (stream.take (framing.frameLength stream))
        (stream.drop (framing.frameLength stream)) (by omega)
      rw [List.take_append_drop] at announced
      exact ⟨by omega, announced.symm.trans covered.symm⟩
    refine ⟨?_, ?_, stopped⟩
    · calc
        stream = stream.take (framing.frameLength stream) ++
            stream.drop (framing.frameLength stream) := (List.take_append_drop _ _).symm
        _ = _ := by rw [List.flatten_cons, List.append_assoc, ← behind]
    · intro frame member
      rcases List.mem_cons.mp member with rfl | member
      · exact isFrame
      · exact areFrames frame member

/-- Splitting a stream without malformed headers in two steps: the first part
gives the leading frames and an unfinished tail, and the tail followed by the
second part gives the others. A malformed header in the first part would still be
malformed in the whole. -/
theorem split_append (start rest : List β) (frames : List (List β)) (tail : List β)
    (undivided : framing.split (start ++ rest) = (frames, .awaiting tail)) :
    ∃ delivered kept later, framing.split start = (delivered, .awaiting kept) ∧
      start = delivered.flatten ++ kept ∧ framing.Unfinished kept ∧
      framing.split (kept ++ rest) = (later, .awaiting tail) ∧ frames = delivered ++ later := by
  obtain ⟨stream, areFrames, stopped⟩ := framing.split_exact start
  cases first : framing.split start with
  | mk delivered stop =>
    rw [first] at stream areFrames stopped
    rw [stream, List.append_assoc, framing.split_frames delivered _ areFrames] at undivided
    obtain ⟨rfl, ending⟩ := Prod.mk.inj undivided
    cases stop with
    | awaiting kept => exact ⟨delivered, kept, _, rfl, stream, stopped, Prod.ext rfl ending, rfl⟩
    | malformed dropped =>
      have stillMalformed := framing.split_malformed (dropped ++ rest)
        (by rw [List.length_append]; exact Nat.le_add_right_of_le stopped.1)
        (by rw [framing.frameLength_append _ _ stopped.1]; exact stopped.2)
      rw [Rest.symbols, stillMalformed] at ending
      cases ending

/-- One read of a reassembler: the tail kept so far, then the new symbols. -/
def receive (carried read : List β) : List (List β) × Rest β := framing.split (carried ++ read)

/-- All reads of a reassembler. A malformed header discards the symbols left and
the next read starts afresh. -/
def reassemble (carried : List β) : List (List β) → List (List β)
  | [] => []
  | read :: reads =>
    match framing.receive carried read with
    | (frames, .awaiting tail) => frames ++ reassemble tail reads
    | (frames, .malformed _) => frames ++ reassemble [] reads

/-- Reassembly is independent of the cuts: as long as the undivided stream holds
no malformed header, the delivered frames are exactly its frames, in order.

Induct over the reads. The first read splits into frames and an unfinished tail;
the undivided stream begins with the same frames, and what remains of it is that
tail followed by the later reads. -/
theorem reassemble_reads (carried : List β) (reads frames : List (List β)) (tail : List β)
    (pending : framing.Unfinished carried)
    (undivided : framing.split (carried ++ reads.flatten) = (frames, .awaiting tail)) :
    framing.reassemble carried reads = frames := by
  induction reads generalizing carried frames with
  | nil =>
    rw [List.flatten_nil, List.append_nil, framing.split_unfinished carried pending] at undivided
    exact (Prod.mk.inj undivided).1
  | cons read reads inductionHypothesis =>
    rw [List.flatten_cons, ← List.append_assoc] at undivided
    obtain ⟨delivered, kept, later, first, _, unfinished, remaining, rfl⟩ :=
      framing.split_append (carried ++ read) reads.flatten frames tail undivided
    have delivers := inductionHypothesis kept later unfinished remaining
    simp only [reassemble, receive, first, delivers]

end Framing

end Evlpc.Library
