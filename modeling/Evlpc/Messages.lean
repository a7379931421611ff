import Evlpc.PbCommon
import Evlpc.Library.Conversions

/-!
# Messages and their wrapper classes

A wrapper class is a protobuf message together with the `PbMsg` it is sent in.
Its constructor writes three header fields and leaves every other byte of the
object as it finds it, so construction takes the initial memory as an argument.
`make_msg` writes the length field and the encoded payload. The six copies of it
in the source do the same, and are instances of one definition here.

Protobuf itself is not part of the repository. Its generated classes are a
parameter: the encoding, its announced size and the parser of each message type,
with the laws the sources rely on stated separately.
-/

namespace Evlpc

open Library

/-- `LOG_INFO` of syslog. -/
def logInfo : Int32 := 6

/-- `GlobalLogConfig`; an unset field is `none`. -/
structure GlobalLogConfig where
  logLevel : Option Int32
deriving DecidableEq, Repr

/-- `PublishedItem`. -/
structure PublishedItem where
  itemId : Option Int32
  itemInstanceStart : Option Int32
  itemInstanceEnd : Option Int32
deriving DecidableEq, Repr

/-- `PublishedItems`. -/
structure PublishedItems where
  items : List PublishedItem
deriving DecidableEq, Repr

/-- `PublishedItemsResult`. -/
structure PublishedItemsResult where
  result : Option Int32
deriving DecidableEq, Repr

/-- `DelayedResponse`. -/
structure DelayedResponse where
  delay : Option Int32
deriving DecidableEq, Repr

/-- `StdReply`. -/
structure StdReply where
  result : Option Int32
deriving DecidableEq, Repr

/-- `log_level ()`: the stored value, or the default of the schema. -/
def GlobalLogConfig.getLogLevel (config : GlobalLogConfig) : Int32 := config.logLevel.getD 6

/-- `IsInitialized` of the message types: the required fields are set. -/
def GlobalLogConfig.Initialized (config : GlobalLogConfig) : Prop := config.logLevel.isSome

/-- The item has its required id. -/
def PublishedItem.Initialized (item : PublishedItem) : Prop := item.itemId.isSome

/-- All items have theirs. -/
def PublishedItems.Initialized (items : PublishedItems) : Prop :=
  ∀ item ∈ items.items, item.Initialized

/-- The result is set. -/
def PublishedItemsResult.Initialized (result : PublishedItemsResult) : Prop := result.result.isSome

/-- The delay is optional. -/
def DelayedResponse.Initialized (_ : DelayedResponse) : Prop := True

/-- The result of the reply is set. -/
def StdReply.Initialized (reply : StdReply) : Prop := reply.result.isSome

/-- The generated code of one message type. `serializeToArray` is what the
function stores when it is given the size that `ByteSize` returned, and
`parseFromArray` returns its success together with the message it leaves. -/
structure Codec (M : Type) where
  byteSize : M → Int32
  serializeToArray : M → List UInt8
  parseFromArray : List UInt8 → Bool × M

/-- The generated code of all message types that are sent. -/
structure Protobuf where
  globalLogConfig : Codec GlobalLogConfig
  publishedItems : Codec PublishedItems
  publishedItemsResult : Codec PublishedItemsResult
  delayedResponse : Codec DelayedResponse
  stdReply : Codec StdReply

namespace Codec

variable {M : Type}

/-- `ByteSize` is the encoded length, as far as an `int` holds it. -/
def ExactSize (codec : Codec M) : Prop :=
  ∀ message, (codec.serializeToArray message).length < 2 ^ 31 →
    codec.byteSize message = Int32.ofNat (codec.serializeToArray message).length

/-- Parsing inverts serialization of the messages whose required fields are set. -/
def Inverts (codec : Codec M) (Initialized : M → Prop) : Prop :=
  ∀ message, Initialized message →
    codec.parseFromArray (codec.serializeToArray message) = (true, message)

/-- A message that consists of one `int32` field: once set, it takes a byte for
the tag and one to ten bytes for the value. -/
def SingleField (codec : Codec M) (set : Int32 → M) : Prop :=
  ∀ value, 2 ≤ (codec.serializeToArray (set value)).length ∧
    (codec.serializeToArray (set value)).length ≤ 11

end Codec

/-- What protobuf documents about sizes and parsing. -/
structure Protobuf.Exact (protobuf : Protobuf) : Prop where
  globalLogConfig_size : protobuf.globalLogConfig.ExactSize
  publishedItems_size : protobuf.publishedItems.ExactSize
  publishedItemsResult_size : protobuf.publishedItemsResult.ExactSize
  delayedResponse_size : protobuf.delayedResponse.ExactSize
  stdReply_size : protobuf.stdReply.ExactSize
  globalLogConfig_inverts : protobuf.globalLogConfig.Inverts GlobalLogConfig.Initialized
  publishedItems_inverts : protobuf.publishedItems.Inverts PublishedItems.Initialized
  publishedItemsResult_inverts :
    protobuf.publishedItemsResult.Inverts PublishedItemsResult.Initialized
  delayedResponse_inverts : protobuf.delayedResponse.Inverts DelayedResponse.Initialized
  stdReply_inverts : protobuf.stdReply.Inverts StdReply.Initialized

/-- What protobuf documents about the messages that consist of one field. -/
structure Protobuf.OneField (protobuf : Protobuf) : Prop where
  globalLogConfig_size : protobuf.globalLogConfig.ExactSize
  publishedItemsResult_size : protobuf.publishedItemsResult.ExactSize
  delayedResponse_size : protobuf.delayedResponse.ExactSize
  stdReply_size : protobuf.stdReply.ExactSize
  globalLogConfig_field : protobuf.globalLogConfig.SingleField fun level => ⟨some level⟩
  publishedItemsResult_field : protobuf.publishedItemsResult.SingleField fun result => ⟨some result⟩
  delayedResponse_field : protobuf.delayedResponse.SingleField fun delay => ⟨some delay⟩
  stdReply_field : protobuf.stdReply.SingleField fun result => ⟨some result⟩

/-- The message and the `PbMsg` of a wrapper object. -/
structure Wrapper (M : Type) where
  message : M
  pbmsg : PbMsg

/-- An object of `A1_GlobalLogConfig`. -/
abbrev A1GlobalLogConfig := Wrapper GlobalLogConfig

/-- An object of `A1_PublishedItems`. -/
abbrev A1PublishedItems := Wrapper PublishedItems

/-- An object of `A1_PublishedItemsResult`. -/
abbrev A1PublishedItemsResult := Wrapper PublishedItemsResult

/-- An object of `A1_DelayedResponse`. -/
abbrev A1DelayedResponse := Wrapper DelayedResponse

/-- An object of `A1_StdReply`. -/
abbrev A1StdReply := Wrapper StdReply

/-- An object of `A2_StdReply`. -/
abbrev A2StdReply := Wrapper StdReply

/-- The assignments to `protocol`, `length` and `payload_type` that every
constructor makes; the ids, the timestamp and the message array keep whatever
the object's memory held. -/
def PbMsg.initialize (memory : PbMsg) (msgType : UInt32) : PbMsg :=
  { memory with
    hdr := { memory.hdr with protocol := protobufV1, length := 0, payloadType := msgType } }

/-- `A1_GlobalLogConfig ()`, which runs `A1_initialize`. -/
def A1GlobalLogConfig.construct (memory : PbMsg) : A1GlobalLogConfig where
  message := ⟨some logInfo⟩
  pbmsg := memory.initialize MsgTypes.globalLogConfigReq.code

/-- `A1_PublishedItems (msg_type)`; the default type is `MT_PUBLISH_REQ`. -/
def A1PublishedItems.construct (memory : PbMsg) (msgType : UInt32) : A1PublishedItems where
  message := ⟨[]⟩
  pbmsg := memory.initialize msgType

/-- `A1_PublishedItemsResult (msg_type)`; the default type is `MT_PUBLISH_REPLY`. -/
def A1PublishedItemsResult.construct (memory : PbMsg) (msgType : UInt32) :
    A1PublishedItemsResult where
  message := ⟨none⟩
  pbmsg := memory.initialize msgType

/-- `A1_DelayedResponse (msg_type)`; the default type is `MT_DELAYED_RESPONSE_REQ`. -/
def A1DelayedResponse.construct (memory : PbMsg) (msgType : UInt32) : A1DelayedResponse where
  message := ⟨none⟩
  pbmsg := memory.initialize msgType

/-- `A1_StdReply (msg_type)`; the default type is `MT_STD_REPLY`. -/
def A1StdReply.construct (memory : PbMsg) (msgType : UInt32) : A1StdReply where
  message := ⟨none⟩
  pbmsg := memory.initialize msgType

/-- `A2_StdReply (msg_type)`; the default type is `MT_STD_REPLY`. -/
def A2StdReply.construct (memory : PbMsg) (msgType : UInt32) : A2StdReply where
  message := ⟨none⟩
  pbmsg := memory.initialize msgType

/-- `get_msg_size` of every wrapper class. -/
def getMsgSize {M : Type} (object : Wrapper M) : UInt32 := object.pbmsg.hdr.length

/-- The body that all copies of `make_msg` share. -/
def makeMsg {M : Type} (codec : Codec M) (object : Wrapper M) : Wrapper M :=
  let sz := (codec.byteSize object.message).toUInt32
  let contents := codec.serializeToArray object.message
  { object with
    pbmsg :=
      { hdr := { object.pbmsg.hdr with length := (sz.toUInt64 + sizeofPbHeader).toUInt32 }
        message := contents ++ object.pbmsg.message.drop contents.length } }

/-- `A1_GlobalLogConfig::make_msg`. -/
def A1GlobalLogConfig.makeMsg (protobuf : Protobuf) (object : A1GlobalLogConfig) :
    A1GlobalLogConfig :=
  Evlpc.makeMsg protobuf.globalLogConfig object

/-- `A1_PublishedItems::make_msg`. -/
def A1PublishedItems.makeMsg (protobuf : Protobuf) (object : A1PublishedItems) : A1PublishedItems :=
  Evlpc.makeMsg protobuf.publishedItems object

/-- `A1_PublishedItemsResult::make_msg`. -/
def A1PublishedItemsResult.makeMsg (protobuf : Protobuf) (object : A1PublishedItemsResult) :
    A1PublishedItemsResult :=
  Evlpc.makeMsg protobuf.publishedItemsResult object

/-- `A1_DelayedResponse::make_msg`. -/
def A1DelayedResponse.makeMsg (protobuf : Protobuf) (object : A1DelayedResponse) :
    A1DelayedResponse :=
  Evlpc.makeMsg protobuf.delayedResponse object

/-- `A1_StdReply::make_msg`. -/
def A1StdReply.makeMsg (protobuf : Protobuf) (object : A1StdReply) : A1StdReply :=
  Evlpc.makeMsg protobuf.stdReply object

/-- `A2_PB::make_msg`, as `A2_StdReply` inherits it. -/
def A2StdReply.makeMsg (protobuf : Protobuf) (object : A2StdReply) : A2StdReply :=
  Evlpc.makeMsg protobuf.stdReply object

/-- The bytes `uv_buf_init (msg_buf, get_msg_size ())` describes: the length
field's number of bytes, from the start of the object's `PbMsg`. -/
def outgoingBytes {M : Type} (object : Wrapper M) : List UInt8 :=
  (object.pbmsg.hdr.bytes ++ object.pbmsg.message).take (getMsgSize object).toNat

/-- The frame an object's message is meant to become. -/
def Wrapper.frame {M : Type} (codec : Codec M) (object : Wrapper M) : Frame where
  hdr := { object.pbmsg.hdr with
    length := UInt32.ofNat
      (sizeofPbHeader.toNat + (codec.serializeToArray object.message).length) }
  payload := codec.serializeToArray object.message

section Made

variable {M : Type} (codec : Codec M) (object : Wrapper M)

/-- The frame of a message that fits a `PbMsg` announces the length it has. -/
theorem frame_wellFormed
    (fits : (codec.serializeToArray object.message).length ≤ maxPbMsgSize) :
    (object.frame codec).WellFormed := by
  have size : sizeofPbHeader.toNat = 32 := rfl
  have capacity : maxPbMsgSize = 2500 := rfl
  have announced : (object.frame codec).hdr.length = UInt32.ofNat
    (sizeofPbHeader.toNat + (codec.serializeToArray object.message).length) := rfl
  rw [Frame.WellFormed, announced, Conversions.representable_word _ (by omega)]
  rfl

/-- `make_msg` announces header and payload together. -/
theorem makeMsg_length (exactSize : codec.ExactSize)
    (fits : (codec.serializeToArray object.message).length ≤ maxPbMsgSize) :
    getMsgSize (makeMsg codec object) = (object.frame codec).hdr.length := by
  have sizeNat : sizeofPbHeader.toNat = 32 := rfl
  have capacity : maxPbMsgSize = 2500 := rfl
  have exact : codec.byteSize object.message = _ := exactSize object.message (by omega)
  have narrowed : ∀ length, length ≤ 2500 →
      ((Int32.ofNat length).toUInt32.toUInt64 + sizeofPbHeader).toUInt32 =
        UInt32.ofNat (32 + length) := by
    intro length bound
    have word : (Int32.ofNat length).toUInt32.toNat = length % 2 ^ 32 :=
      BitVec.toNat_ofNat length 32
    apply UInt32.toNat_inj.mp
    rw [UInt64.toNat_toUInt32, UInt64.toNat_add, UInt32.toNat_toUInt64, word, sizeNat,
      Conversions.representable_word _ (by omega)]
    omega
  change ((codec.byteSize object.message).toUInt32.toUInt64 + sizeofPbHeader).toUInt32 = _
  rw [exact]
  exact narrowed _ (by omega)

/-- What goes out after `make_msg` is exactly the object's frame: the header with
all its other fields untouched, and the encoded message. -/
theorem makeMsg_outgoing (exactSize : codec.ExactSize)
    (fits : (codec.serializeToArray object.message).length ≤ maxPbMsgSize) :
    outgoingBytes (makeMsg codec object) = (object.frame codec).bytes := by
  have announced := makeMsg_length codec object exactSize fits
  have wellFormed := frame_wellFormed codec object fits
  have header : (makeMsg codec object).pbmsg.hdr = (object.frame codec).hdr := by
    have length : (makeMsg codec object).pbmsg.hdr.length = (object.frame codec).hdr.length :=
      announced
    change { object.pbmsg.hdr with length := (makeMsg codec object).pbmsg.hdr.length } = _
    rw [length]
    rfl
  have message : (makeMsg codec object).pbmsg.message =
      (object.frame codec).payload ++
        object.pbmsg.message.drop (object.frame codec).payload.length := rfl
  rw [outgoingBytes, announced, wellFormed, header, message, ← List.append_assoc]
  exact List.take_left' (object.frame codec).bytes_length

end Made

end Evlpc
