import Evlpc.Library.Words
import Evlpc.Library.Store
import Evlpc.Library.Framing

/-!
# Message headers and frames

A message starts with a `PbHeader` of five 32-bit fields and a 64-bit timestamp,
laid out as the x86-64 ABI lays the structure out: four bytes of padding keep
the timestamp aligned, which makes `sizeof (PbHeader)` 32. Its `length` field
counts the whole message, header included.

A frame is what one message puts on a stream. The framing of the protocol is the
library's, with the length field as the announced length.
-/

namespace Evlpc

open Library

/-- `sizeof (PbHeader)`, of type `size_t`. -/
def sizeofPbHeader : UInt64 := 32

/-- `MAX_PB_MSG_SIZE`, the capacity of a `PbMsg`'s message array. -/
def maxPbMsgSize : Nat := 2500

/-- `PROTOBUF_V1`. -/
def protobufV1 : UInt32 := 0x00000101

/-- The message types, in the order of the source's enumeration. -/
inductive MsgTypes where
  | none
  | stdReply
  | delayedResponseReq
  | globalLogConfigReq
  | globalLogConfigReply
  | publishReq
  | publishReply
  | max
deriving DecidableEq, Repr

/-- The number an enumerator has in a header. -/
def MsgTypes.code : MsgTypes → UInt32
  | .none => 0
  | .stdReply => 1
  | .delayedResponseReq => 2
  | .globalLogConfigReq => 3
  | .globalLogConfigReply => 4
  | .publishReq => 5
  | .publishReply => 6
  | .max => 7

/-- `PbHeader`. The padding the compiler inserts before `timestamp` is kept: it
travels with the header. -/
structure PbHeader where
  length : UInt32
  protocol : UInt32
  payloadType : UInt32
  sessionId : UInt32
  randomId : UInt32
  padding : UInt32
  timestamp : UInt64
deriving DecidableEq, Repr

/-- `PbMsg`: a header and the bytes of the message array. -/
structure PbMsg where
  hdr : PbHeader
  message : List UInt8
deriving DecidableEq, Repr

/-- Memory of zeros. -/
def zeroedPbMsg : PbMsg where
  hdr := ⟨0, 0, 0, 0, 0, 0, 0⟩
  message := List.replicate maxPbMsgSize 0

/-- One whole message as a stream carries it: its header and the bytes that
follow the header. -/
structure Frame where
  hdr : PbHeader
  payload : List UInt8
deriving DecidableEq, Repr

/-- The memory image of a header. -/
def PbHeader.bytes (hdr : PbHeader) : List UInt8 :=
  Words.word32 hdr.length ++ Words.word32 hdr.protocol ++ Words.word32 hdr.payloadType ++
    Words.word32 hdr.sessionId ++ Words.word32 hdr.randomId ++ Words.word32 hdr.padding ++
    Words.word64 hdr.timestamp

/-- The header found at the start of some bytes. -/
def PbHeader.ofBytes (bytes : List UInt8) : PbHeader where
  length := Words.readWord32 bytes
  protocol := Words.readWord32 (bytes.drop 4)
  payloadType := Words.readWord32 (bytes.drop 8)
  sessionId := Words.readWord32 (bytes.drop 12)
  randomId := Words.readWord32 (bytes.drop 16)
  padding := Words.readWord32 (bytes.drop 20)
  timestamp := Words.readWord64 (bytes.drop 24)

namespace PbHeader

/-- A header takes 32 bytes. -/
theorem bytes_length (hdr : PbHeader) : hdr.bytes.length = sizeofPbHeader.toNat := by
  simp [bytes, Words.word32_length, Words.word64_length, sizeofPbHeader]

/-- A header is read back from its memory image, whatever follows it: every
field is the word left once the words before it are dropped. -/
theorem ofBytes_bytes (hdr : PbHeader) (rest : List UInt8) : ofBytes (hdr.bytes ++ rest) = hdr := by
  simp only [ofBytes, bytes, List.append_assoc, Words.drop_word32, List.drop_zero,
    Words.read_word32, Words.read_word64]

end PbHeader

/-- The protocol's framing: the header's first word announces the length. -/
def pbFraming : Framing UInt8 where
  headerSize := sizeofPbHeader.toNat
  headerSize_pos := by decide
  frameLength := fun bytes => (Words.readWord32 bytes).toNat
  frameLength_append := by
    intro start rest whole
    have word : 4 ≤ start.length := Nat.le_trans (by decide) whole
    rw [Words.read_word32_append start rest word]

namespace Frame

/-- The bytes of a frame on a stream. -/
def bytes (frame : Frame) : List UInt8 := frame.hdr.bytes ++ frame.payload

/-- The frame that some bytes spell. -/
def ofBytes (bytes : List UInt8) : Frame where
  hdr := PbHeader.ofBytes bytes
  payload := bytes.drop sizeofPbHeader.toNat

/-- The length field counts exactly the header and the payload. -/
def WellFormed (frame : Frame) : Prop :=
  frame.hdr.length.toNat = sizeofPbHeader.toNat + frame.payload.length

instance (frame : Frame) : Decidable frame.WellFormed :=
  inferInstanceAs (Decidable (_ = _))

/-- A frame is read from its bytes. -/
theorem ofBytes_bytes (frame : Frame) : ofBytes frame.bytes = frame := by
  cases frame with
  | mk hdr payload =>
    simp only [ofBytes, bytes, PbHeader.ofBytes_bytes, List.drop_left' hdr.bytes_length]

/-- A frame takes the bytes of its header and of its payload. -/
theorem bytes_length (frame : Frame) :
    frame.bytes.length = sizeofPbHeader.toNat + frame.payload.length := by
  rw [bytes, List.length_append, PbHeader.bytes_length]

/-- The length a well-formed frame announces is the length it has. -/
theorem bytes_isFrame (frame : Frame) (wellFormed : frame.WellFormed) :
    pbFraming.IsFrame frame.bytes := by
  have announced : Words.readWord32 frame.bytes = frame.hdr.length :=
    congrArg (fun read => read.hdr.length) frame.ofBytes_bytes
  constructor
  · rw [bytes_length]
    exact Nat.le_add_right _ _
  · change (Words.readWord32 frame.bytes).toNat = _
    rw [announced, bytes_length, wellFormed]

end Frame

end Evlpc
