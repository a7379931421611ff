import Evlpc.RoundTrip

/-!
# The capacity of a message buffer

A `PbMsg` has room for 2500 encoded bytes. `make_msg` asks the message for its
size and stores as many bytes, without comparing the size with the room. The
messages of one `int32` field take at most eleven bytes; a list of published items
takes as many as its items do.

`A1_GlobalLogConfig (char *)` copies a message into its buffer, as many bytes as
the header of the message announces.

What is written where shows in the memory behind the objects, so both are given there
too: a piece of code stays inside a range if it changes nothing out of it, whatever the
memory held. On an object with room, `make_msg` leaves in memory what it leaves in the
object.

The sizes are those that protobuf documents: a tag of one byte before every value,
a byte for seven bits of a number, and the size of an embedded message before it.
-/

namespace Evlpc

open Library

/-- `sizeof (PbMsg)`: the array ends four bytes before a multiple of eight. -/
def sizeofPbMsg : Nat := 2536

/-- The bytes of an encoded number. -/
def varintSize (number : Nat) : Nat := Nat.log 128 number + 1

/-- The bytes of an `int32` field, which travels as 64 bits. -/
def int32FieldSize (value : Option Int32) : Nat :=
  match value with
  | none => 0
  | some value => 1 + varintSize value.toInt64.toUInt64.toNat

/-- The bytes of a published item. -/
def PublishedItem.size (item : PublishedItem) : Nat :=
  int32FieldSize item.itemId + int32FieldSize item.itemInstanceStart +
    int32FieldSize item.itemInstanceEnd

/-- The bytes of a list of published items: a tag, the item's size and the item. -/
def PublishedItems.size (items : PublishedItems) : Nat :=
  (items.items.map fun item => 1 + varintSize item.size + item.size).sum

/-- What protobuf documents about the sizes of the messages that are sent, their
fields set or not. -/
structure Protobuf.WireSizes (protobuf : Protobuf) : Prop where
  globalLogConfig_exact : protobuf.globalLogConfig.ExactSize
  publishedItems_exact : protobuf.publishedItems.ExactSize
  publishedItemsResult_exact : protobuf.publishedItemsResult.ExactSize
  delayedResponse_exact : protobuf.delayedResponse.ExactSize
  stdReply_exact : protobuf.stdReply.ExactSize
  globalLogConfig : ∀ message, (protobuf.globalLogConfig.serializeToArray message).length =
    int32FieldSize message.logLevel
  publishedItems : ∀ message, (protobuf.publishedItems.serializeToArray message).length =
    message.size
  publishedItemsResult : ∀ message,
    (protobuf.publishedItemsResult.serializeToArray message).length = int32FieldSize message.result
  delayedResponse : ∀ message, (protobuf.delayedResponse.serializeToArray message).length =
    int32FieldSize message.delay
  stdReply : ∀ message, (protobuf.stdReply.serializeToArray message).length =
    int32FieldSize message.result

/-- `make_msg` on the memory of an object, as seen from its `pbmsg`: the length is stored in
the header's first word, and `SerializeToArray` stores the encoding behind the header. -/
def makeMsgAt {M : Type} (codec : Codec M) (message : M) (memory : Store UInt8) : Store UInt8 :=
  let sz := (codec.byteSize message).toUInt32
  let announced := memory.write 0 (Words.word32 (sz.toUInt64 + sizeofPbHeader).toUInt32)
  announced.write sizeofPbHeader.toNat (codec.serializeToArray message)

/-- The memory of an object after its own `make_msg`. -/
def Outgoing.makeMsgAt (protobuf : Protobuf) : Outgoing → Store UInt8 → Store UInt8
  | a1GlobalLogConfig object => Evlpc.makeMsgAt protobuf.globalLogConfig object.message
  | a1PublishedItems object => Evlpc.makeMsgAt protobuf.publishedItems object.message
  | a1PublishedItemsResult object => Evlpc.makeMsgAt protobuf.publishedItemsResult object.message
  | a1DelayedResponse object => Evlpc.makeMsgAt protobuf.delayedResponse object.message
  | a1StdReply object => Evlpc.makeMsgAt protobuf.stdReply object.message
  | a2StdReply object => Evlpc.makeMsgAt protobuf.stdReply object.message

/-- `make_msg` stays in the message buffer: whatever the memory held, it changes nothing out of
the header and the message array, and the header announces no more bytes than the `PbMsg`
has. -/
structure EncodesInside (protobuf : Protobuf) (message : Outgoing) : Prop where
  stored : Store.ChangesOnly (message.makeMsgAt protobuf) 0
    ((sizeofPbHeader.toNat : Int) + maxPbMsgSize)
  announced : ∀ memory, (loadWord32 (message.makeMsgAt protobuf memory) 0).toNat ≤ sizeofPbMsg

/-- A list of published items must not be too long; anything else fits. -/
def Outgoing.Fits : Outgoing → Prop
  | a1PublishedItems object => object.message.size ≤ maxPbMsgSize
  | _ => True

/-- The bytes that `A1_GlobalLogConfig (char *)` copies: as many as the header of
its input announces. -/
def A1GlobalLogConfig.copied (input : Store UInt8) (pbMsgInput : Int) : List UInt8 :=
  input.load pbMsgInput (loadWord32 input pbMsgInput).toNat

/-- `A1_GlobalLogConfig (char *)`: an empty message, and the memory of the object
from its `pbmsg` on after the copy. -/
def A1GlobalLogConfig.constructFrom (memory : Store UInt8) (input : Store UInt8)
    (pbMsgInput : Int) : GlobalLogConfig × Store UInt8 :=
  (⟨none⟩, memory.write 0 (A1GlobalLogConfig.copied input pbMsgInput))

/-- The constructor stays in the object's `pbmsg`, whatever the memory held. -/
def CopiesInside (input : Store UInt8) (pbMsgInput : Int) : Prop :=
  Store.ChangesOnly (fun memory => (A1GlobalLogConfig.constructFrom memory input pbMsgInput).2) 0
    sizeofPbMsg

section Memory

variable {M : Type} (codec : Codec M)

/-- Memory, as seen from an object's `pbmsg`, that holds a `PbMsg`. -/
def HoldsPbMsg (memory : Store UInt8) (pbmsg : PbMsg) : Prop :=
  memory.load 0 (sizeofPbHeader.toNat + pbmsg.message.length) = pbmsg.hdr.bytes ++ pbmsg.message

/-- Memory that holds a `PbMsg` holds its header and, behind that, its message array. -/
theorem HoldsPbMsg.parts {memory : Store UInt8} {pbmsg : PbMsg} (holds : HoldsPbMsg memory pbmsg) :
    memory.load 0 sizeofPbHeader.toNat = pbmsg.hdr.bytes ∧
      memory.load sizeofPbHeader.toNat pbmsg.message.length = pbmsg.message := by
  constructor
  · have header := congrArg (List.take sizeofPbHeader.toNat) holds
    rwa [Store.load_take _ _ _ _ (Nat.le_add_right _ _),
      List.take_left' pbmsg.hdr.bytes_length] at header
  · have message := congrArg (List.drop sizeofPbHeader.toNat) holds
    rwa [Store.load_drop _ _ _ _ (Nat.le_add_right _ _), List.drop_left' pbmsg.hdr.bytes_length,
      Nat.add_sub_cancel_left, Int.zero_add] at message

/-- The length of a header is its first word; the other fields follow it. -/
theorem header_split (hdr : PbHeader) (length : UInt32) :
    ({ hdr with length := length } : PbHeader).bytes = Words.word32 length ++ hdr.bytes.drop 4 := by
  have four : (Words.word32 hdr.length).length = 4 := Words.word32_length _
  simp only [PbHeader.bytes, List.append_assoc]
  rw [List.drop_left' four]

/-- The header in memory announces what the object's header does. -/
theorem makeMsgAt_announces (object : Wrapper M) (memory : Store UInt8) :
    loadWord32 (makeMsgAt codec object.message memory) 0 = getMsgSize (makeMsg codec object) := by
  have word : ∀ value : UInt32, (memory.write 0 (Words.word32 value)).load 0 4 =
      Words.word32 value := by
    intro value
    have loaded := Store.load_write memory 0 (Words.word32 value)
    rwa [Words.word32_length] at loaded
  rw [loadWord32, makeMsgAt, Store.load_write_outside _ _ _ _ _ (Or.inl (by decide)), word]
  have read := Words.read_word32 (getMsgSize (makeMsg codec object)) []
  rwa [List.append_nil] at read

/-- `make_msg` makes of memory that holds an object's `PbMsg` memory that holds the one it is
meant to leave: the length first, then the other fields, the encoding, and what it leaves of
the array. -/
theorem makeMsgAt_holds (object : Wrapper M) (memory : Store UInt8)
    (holds : HoldsPbMsg memory object.pbmsg) :
    HoldsPbMsg (makeMsgAt codec object.message memory) (makeMsg codec object).pbmsg := by
  obtain ⟨header, array⟩ := holds.parts
  let encoded := codec.serializeToArray object.message
  let length := ((codec.byteSize object.message).toUInt32.toUInt64 + sizeofPbHeader).toUInt32
  let rest := object.pbmsg.message.length - encoded.length
  have size : sizeofPbHeader.toNat = 32 := rfl
  have word : (Words.word32 length).length = 4 := Words.word32_length length
  have count : sizeofPbHeader.toNat + (makeMsg codec object).pbmsg.message.length =
      32 + encoded.length + rest := by
    change sizeofPbHeader.toNat + (encoded ++ object.pbmsg.message.drop encoded.length).length = _
    rw [List.length_append, List.length_drop, size, Nat.add_assoc]
  have behind : memory.load ((32 + encoded.length : Nat) : Int) rest =
      object.pbmsg.message.drop encoded.length := by
    by_cases within : encoded.length ≤ object.pbmsg.message.length
    · rw [← array, Store.load_drop _ _ _ _ within, size, Int.natCast_add]
    · have none : rest = 0 := Nat.sub_eq_zero_of_le (Nat.le_of_not_le within)
      rw [none, List.drop_eq_nil_of_le (Nat.le_of_not_le within)]
      rfl
  have before : memory.load 0 (32 + encoded.length + rest) =
      object.pbmsg.hdr.bytes ++ (memory.load 32 encoded.length ++
        object.pbmsg.message.drop encoded.length) := by
    have first : memory.load 0 32 = object.pbmsg.hdr.bytes := header
    rw [Store.load_add, Store.load_add, Int.zero_add, Int.zero_add, behind, first,
      List.append_assoc]
    rfl
  have kept : object.pbmsg.hdr.bytes.length = 32 := object.pbmsg.hdr.bytes_length
  have fields : (Words.word32 length ++ object.pbmsg.hdr.bytes.drop 4).length = 32 := by
    rw [List.length_append, List.length_drop, word, kept]
  have announced : (memory.write 0 (Words.word32 length)).load 0 (32 + encoded.length + rest) =
      (Words.word32 length ++ object.pbmsg.hdr.bytes.drop 4) ++ (memory.load 32 encoded.length ++
        object.pbmsg.message.drop encoded.length) := by
    have replaced := Store.load_write_within memory 0 0 (32 + encoded.length + rest)
      (Words.word32 length) (by omega)
    rwa [before, word, Nat.zero_add, List.take_zero, List.nil_append,
      List.drop_append_of_le_length (by omega), ← List.append_assoc] at replaced
  have stored := Store.load_write_within (memory.write 0 (Words.word32 length)) 0 32
    (32 + encoded.length + rest) encoded (by omega)
  have remains : ((Words.word32 length ++ object.pbmsg.hdr.bytes.drop 4) ++
      (memory.load 32 encoded.length ++ object.pbmsg.message.drop encoded.length)).drop
        (32 + encoded.length) = object.pbmsg.message.drop encoded.length := by
    rw [← fields, List.drop_length_add_append,
      List.drop_left' (Store.load_length memory 32 encoded.length)]
  rw [announced, List.take_left' fields, remains] at stored
  have made : (makeMsg codec object).pbmsg.hdr.bytes =
      Words.word32 length ++ object.pbmsg.hdr.bytes.drop 4 := header_split object.pbmsg.hdr length
  rw [HoldsPbMsg, count, made]
  exact stored

/-- The stores of `make_msg` end in the array exactly if the encoding has room there. -/
theorem makeMsgAt_inside_iff (message : M) :
    Store.ChangesOnly (makeMsgAt codec message) 0
        ((sizeofPbHeader.toNat : Int) + maxPbMsgSize) ↔
      (codec.serializeToArray message).length ≤ maxPbMsgSize := by
  have size : sizeofPbHeader.toNat = 32 := rfl
  have bytes : Nontrivial UInt8 := ⟨0, 1, by decide⟩
  constructor
  · intro only
    have ends := Store.ChangesOnly.write_ends
      (fun memory => memory.write 0
        (Words.word32 ((codec.byteSize message).toUInt32.toUInt64 + sizeofPbHeader).toUInt32))
      sizeofPbHeader.toNat (codec.serializeToArray message) 0 _ only (by omega)
    omega
  · intro room
    let length := ((codec.byteSize message).toUInt32.toUInt64 + sizeofPbHeader).toUInt32
    have word : (Words.word32 length).length = 4 := Words.word32_length length
    have announced := Store.write_changesOnly 0 (Words.word32 length) 0
      ((sizeofPbHeader.toNat : Int) + maxPbMsgSize) (Int.le_refl 0) (by omega)
    have stored := Store.write_changesOnly sizeofPbHeader.toNat (codec.serializeToArray message) 0
      ((sizeofPbHeader.toNat : Int) + maxPbMsgSize) (by omega) (by omega)
    exact announced.comp stored

end Memory

/-- A field takes a byte for its tag and at most ten for its value. -/
theorem int32FieldSize_bound (value : Option Int32) : int32FieldSize value ≤ 11 := by
  cases value with
  | none => exact Nat.zero_le _
  | some value =>
    have word : value.toInt64.toUInt64.toNat < 2 ^ 64 := value.toInt64.toUInt64.toNat_lt
    have digits : Nat.log 128 value.toInt64.toUInt64.toNat < 10 :=
      Nat.log_lt_of_lt_pow' (by decide) (Nat.lt_of_lt_of_le word (by decide))
    simp only [int32FieldSize, varintSize]
    omega

section Sizes

variable (protobuf : Protobuf) (sizes : protobuf.WireSizes) (message : Outgoing)
include sizes

/-- The encoding has room in the array exactly if the message fits. -/
theorem encoded_fits_iff : (message.encoded protobuf).length ≤ maxPbMsgSize ↔ message.Fits := by
  have room : ∀ value, int32FieldSize value ≤ maxPbMsgSize := by
    intro value
    exact Nat.le_trans (int32FieldSize_bound value) (by decide)
  cases message with
  | a1GlobalLogConfig object =>
    rw [Outgoing.encoded, sizes.globalLogConfig]
    exact iff_of_true (room _) trivial
  | a1PublishedItems object =>
    rw [Outgoing.encoded, sizes.publishedItems]
    exact Iff.rfl
  | a1PublishedItemsResult object =>
    rw [Outgoing.encoded, sizes.publishedItemsResult]
    exact iff_of_true (room _) trivial
  | a1DelayedResponse object =>
    rw [Outgoing.encoded, sizes.delayedResponse]
    exact iff_of_true (room _) trivial
  | a1StdReply object =>
    rw [Outgoing.encoded, sizes.stdReply]
    exact iff_of_true (room _) trivial
  | a2StdReply object =>
    rw [Outgoing.encoded, sizes.stdReply]
    exact iff_of_true (room _) trivial

omit sizes in
/-- The stores of the object's `make_msg` end in its array exactly if its encoding has room
there. -/
theorem stored_inside_iff :
    Store.ChangesOnly (message.makeMsgAt protobuf) 0
        ((sizeofPbHeader.toNat : Int) + maxPbMsgSize) ↔
      (message.encoded protobuf).length ≤ maxPbMsgSize := by
  cases message <;> exact makeMsgAt_inside_iff _ _

/-- A message that has room announces its header and its encoding. -/
theorem announced_of_room (room : (message.encoded protobuf).length ≤ maxPbMsgSize)
    (memory : Store UInt8) :
    loadWord32 (message.makeMsgAt protobuf memory) 0 = (message.frame protobuf).hdr.length := by
  cases message with
  | a1GlobalLogConfig object =>
    exact (makeMsgAt_announces _ object memory).trans
      (makeMsg_length _ object sizes.globalLogConfig_exact room)
  | a1PublishedItems object =>
    exact (makeMsgAt_announces _ object memory).trans
      (makeMsg_length _ object sizes.publishedItems_exact room)
  | a1PublishedItemsResult object =>
    exact (makeMsgAt_announces _ object memory).trans
      (makeMsg_length _ object sizes.publishedItemsResult_exact room)
  | a1DelayedResponse object =>
    exact (makeMsgAt_announces _ object memory).trans
      (makeMsg_length _ object sizes.delayedResponse_exact room)
  | a1StdReply object =>
    exact (makeMsgAt_announces _ object memory).trans
      (makeMsg_length _ object sizes.stdReply_exact room)
  | a2StdReply object =>
    exact (makeMsgAt_announces _ object memory).trans
      (makeMsg_length _ object sizes.stdReply_exact room)

/-- A message is encoded inside its array exactly if its encoding fits. -/
theorem encodesInside_iff : EncodesInside protobuf message ↔ message.Fits := by
  constructor
  · intro inside
    exact (encoded_fits_iff protobuf sizes message).mp
      ((stored_inside_iff protobuf message).mp inside.stored)
  · intro fits
    have room := (encoded_fits_iff protobuf sizes message).mpr fits
    refine ⟨(stored_inside_iff protobuf message).mpr room, ?_⟩
    intro memory
    have capacity : maxPbMsgSize = 2500 := rfl
    have whole : sizeofPbMsg = 2536 := rfl
    have header : sizeofPbHeader.toNat = 32 := rfl
    have length : (message.frame protobuf).hdr.length =
        UInt32.ofNat (sizeofPbHeader.toNat + (message.encoded protobuf).length) := rfl
    rw [announced_of_room protobuf sizes message room memory, length,
      Conversions.representable_word _ (by omega)]
    omega

end Sizes

/-- The constructor copies within a `PbMsg` exactly if the header of its input announces no
more. -/
theorem copiesInside_iff (input : Store UInt8) (pbMsgInput : Int) :
    CopiesInside input pbMsgInput ↔ (loadWord32 input pbMsgInput).toNat ≤ sizeofPbMsg := by
  have length : (A1GlobalLogConfig.copied input pbMsgInput).length =
      (loadWord32 input pbMsgInput).toNat := Store.load_length _ _ _
  have bytes : Nontrivial UInt8 := ⟨0, 1, by decide⟩
  constructor
  · intro only
    have ends := Store.ChangesOnly.write_ends (fun memory => memory) 0
      (A1GlobalLogConfig.copied input pbMsgInput) 0 _ only (Int.natCast_nonneg _)
    omega
  · intro within
    exact Store.write_changesOnly 0 _ 0 _ (Int.le_refl 0) (by omega)

/-- `make_msg` stays in the message buffer exactly if the message is not a list of
published items whose documented sizes add up to more than the array holds, and
`A1_GlobalLogConfig (char *)` stays in its `PbMsg` exactly if the header of its input
announces no more. -/
theorem encoding_inside_iff (protobuf : Protobuf) (sizes : protobuf.WireSizes)
    (message : Outgoing) (input : Store UInt8) (pbMsgInput : Int) :
    (EncodesInside protobuf message ↔ message.Fits) ∧
      (CopiesInside input pbMsgInput ↔ (loadWord32 input pbMsgInput).toNat ≤ sizeofPbMsg) :=
  ⟨encodesInside_iff protobuf sizes message, copiesInside_iff input pbMsgInput⟩

namespace WireCodec

open Library.Wire

/-- A field that may be left out takes the bytes of its number, or none. -/
theorem optionalField_size (tag : Nat) (small : tag < 16) (value : Option Int32) :
    (encodeFields (optionalField tag value)).length = int32FieldSize value := by
  cases value with
  | none => rfl
  | some value =>
    have fields : encodeFields (optionalField tag (some value)) =
        encodeVarint (8 * tag) ++ encodeVarint (wireInt value) := List.append_nil _
    rw [fields, List.length_append, encodeVarint_size, encodeVarint_size,
      Nat.log_of_lt (by omega), int32FieldSize, varintSize, wireInt]

/-- Fields are encoded one behind the other. -/
theorem encodeFields_append (first second : List Field) :
    encodeFields (first ++ second) = encodeFields first ++ encodeFields second := by
  rw [encodeFields, List.map_append, List.flatten_append, encodeFields, encodeFields]

/-- The fields of an item take its size. -/
theorem itemFields_size (item : PublishedItem) :
    (encodeFields (itemFields item)).length = item.size := by
  rw [itemFields, encodeFields_append, encodeFields_append, List.length_append,
    List.length_append, optionalField_size 1 (by decide), optionalField_size 2 (by decide),
    optionalField_size 3 (by decide), PublishedItem.size]

/-- The items of a list take the size of the list. -/
theorem itemsFields_size (items : PublishedItems) :
    (encodeFields (itemsFields items)).length = items.size := by
  obtain ⟨items⟩ := items
  induction items with
  | nil => rfl
  | cons item items inductionHypothesis =>
    have first : encodeFields (itemsFields ⟨item :: items⟩) =
        (encodeVarint 10 ++ (encodeVarint (encodeFields (itemFields item)).length ++
          encodeFields (itemFields item))) ++ encodeFields (itemsFields ⟨items⟩) := rfl
    have tag : Nat.log 128 10 = 0 := Nat.log_of_lt (by decide)
    rw [first, List.length_append, List.length_append, List.length_append, inductionHypothesis,
      encodeVarint_size, encodeVarint_size, itemFields_size, tag]
    simp only [PublishedItems.size, List.map_cons, List.sum_cons, varintSize]
    omega

/-- The concrete encoding has the documented sizes. -/
theorem protobuf_wireSizes : protobuf.WireSizes where
  globalLogConfig_exact := protobuf_exact.globalLogConfig_size
  publishedItems_exact := protobuf_exact.publishedItems_size
  publishedItemsResult_exact := protobuf_exact.publishedItemsResult_size
  delayedResponse_exact := protobuf_exact.delayedResponse_size
  stdReply_exact := protobuf_exact.stdReply_size
  globalLogConfig := fun _ => optionalField_size 1 (by decide) _
  publishedItems := itemsFields_size
  publishedItemsResult := fun _ => optionalField_size 1 (by decide) _
  delayedResponse := fun _ => optionalField_size 1 (by decide) _
  stdReply := fun _ => optionalField_size 1 (by decide) _

end WireCodec

/-- Two items, as the sample programs publish them. -/
def twoItems : Outgoing :=
  .a1PublishedItems ⟨⟨[⟨some 1, none, none⟩, ⟨some 2, some 3, some 4⟩]⟩, zeroedPbMsg⟩

/-- An input whose header announces a whole `PbMsg`. -/
def fullInput : Store UInt8 := Store.write (fun _ => 0) 0 (Words.word32 2536)

/-- Two items are encoded inside the array, and a full input is copied inside it. -/
theorem encoding_inside_two :
    EncodesInside WireCodec.protobuf twoItems ∧ CopiesInside fullInput 0 := by
  obtain ⟨encodes, copies⟩ := encoding_inside_iff WireCodec.protobuf WireCodec.protobuf_wireSizes
    twoItems fullInput 0
  have fits := (encoded_fits_iff WireCodec.protobuf WireCodec.protobuf_wireSizes twoItems).mp
    (by decide +kernel)
  exact ⟨encodes.mpr fits, copies.mpr (by decide)⟩

/-- Two hundred items with the id -1, each of thirteen bytes. -/
def manyItems : Outgoing :=
  .a1PublishedItems ⟨⟨List.replicate 200 ⟨some (-1), none, none⟩⟩, zeroedPbMsg⟩

/-- Their 2600 bytes do not fit the array, and a header of ones announces more than there is
room for. -/
theorem many_items_overflow :
    ¬ EncodesInside WireCodec.protobuf manyItems ∧ ¬ CopiesInside (fun _ => 255) 0 := by
  refine ⟨?_, fun inside => absurd ((copiesInside_iff _ _).mp inside) (by decide)⟩
  intro inside
  have fits := (encodesInside_iff WireCodec.protobuf WireCodec.protobuf_wireSizes manyItems).mp
    inside
  have ones : (-1 : Int32).toInt64.toUInt64.toNat = 2 ^ 64 - 1 := by decide
  have digits : Nat.log 128 (2 ^ 64 - 1) = 9 :=
    Nat.log_eq_of_pow_le_of_lt_pow (by decide) (by decide)
  have each : PublishedItem.size ⟨some (-1), none, none⟩ = 11 := by
    simp only [PublishedItem.size, int32FieldSize, varintSize, ones, digits]
  have total : PublishedItems.size ⟨List.replicate 200 ⟨some (-1), none, none⟩⟩ = 2600 := by
    simp only [PublishedItems.size, List.map_replicate, List.sum_replicate_nat, each, varintSize,
      Nat.log_of_lt (by decide : 11 < 128)]
  have within : PublishedItems.size ⟨List.replicate 200 ⟨some (-1), none, none⟩⟩ ≤ 2500 := fits
  omega

end Evlpc
