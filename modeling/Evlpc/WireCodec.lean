import Evlpc.Messages
import Evlpc.Library.Wire

/-!
# The wire encoding of the messages

An implementation of the protobuf parameter, for the schemas in `proto1`. It
shows that the laws asked of protobuf are those of an actual encoding, and lets
the model run on concrete messages.

An `int32` travels as the 64-bit image of its sign extension. Of a field that
occurs more than once the last occurrence counts, and unknown fields are skipped.
-/

namespace Evlpc.WireCodec

open Library Library.Wire

/-- The number an `int32` travels as. -/
def wireInt (value : Int32) : Nat := value.toInt64.toUInt64.toNat

/-- The `int32` a number is read as. -/
def unwireInt (number : Nat) : Int32 := (UInt64.ofNat number).toInt64.toInt32

/-- A number is read as it was written, negative ones included. -/
theorem unwire_wire (value : Int32) : unwireInt (wireInt value) = value := by
  simp [unwireInt, wireInt]

/-- A field that is present only if it is set. -/
def optionalField (tag : Nat) (value : Option Int32) : List Field :=
  (value.map fun value => (tag, Value.number (wireInt value))).toList

/-- The value of a field, if it has the given number. -/
def fieldNumber (tag : Nat) : Field → Option Int32
  | (found, .number number) => if found = tag then some (unwireInt number) else none
  | (_, .bytes _) => none

/-- The last occurrence of a field. -/
def lastNumber (tag : Nat) (fields : List Field) : Option Int32 :=
  fields.reverse.findSome? (fieldNumber tag)

/-- A field with the tag gives its number. -/
theorem fieldNumber_same (tag : Nat) (value : Int32) :
    fieldNumber tag (tag, .number (wireInt value)) = some value := by
  rw [fieldNumber, if_pos rfl, unwire_wire]

/-- A field that may be left out gives its number, or none. -/
theorem lastNumber_optional (tag : Nat) (value : Option Int32) :
    lastNumber tag (optionalField tag value) = value := by
  cases value with
  | none => rfl
  | some value =>
    change [(tag, Value.number (wireInt value))].findSome? (fieldNumber tag) = some value
    rw [List.findSome?_cons, fieldNumber_same]

/-- The codec of a message with one `int32` field. -/
def int32Codec {M : Type} (get : M → Option Int32) (set : Option Int32 → M) (required : Bool) :
    Codec M where
  byteSize := fun message => Int32.ofNat (encodeFields (optionalField 1 (get message))).length
  serializeToArray := fun message => encodeFields (optionalField 1 (get message))
  parseFromArray := fun bytes =>
    match decodeFields bytes with
    | none => (false, set none)
    | some fields => (!required || (lastNumber 1 fields).isSome, set (lastNumber 1 fields))

/-- A message of one number has the size of what is written. -/
theorem int32Codec_exactSize {M : Type} (get : M → Option Int32) (set : Option Int32 → M)
    (required : Bool) : (int32Codec get set required).ExactSize :=
  fun _ _ => rfl

/-- A message of one number is read as it was written, if it has what is required. -/
theorem int32Codec_inverts {M : Type} (get : M → Option Int32) (set : Option Int32 → M)
    (required : Bool) (restored : ∀ message, set (get message) = message) :
    (int32Codec get set required).Inverts fun message =>
      required = true → (get message).isSome := by
  intro message initialized
  have parsed : (int32Codec get set required).parseFromArray
      (encodeFields (optionalField 1 (get message))) =
        (!required || (get message).isSome, set (get message)) := by
    simp only [int32Codec, decode_fields, lastNumber_optional]
  change (int32Codec get set required).parseFromArray
    (encodeFields (optionalField 1 (get message))) = _
  rw [parsed, restored]
  cases required with
  | false => rfl
  | true => rw [initialized rfl]; rfl

/-- With its number set, the message is written as this one field. -/
theorem int32Codec_singleField {M : Type} (get : M → Option Int32) (set : Option Int32 → M)
    (required : Bool) (stored : ∀ value, get (set value) = value) :
    (int32Codec get set required).SingleField fun value => set (some value) := by
  intro value
  have encoded : (int32Codec get set required).serializeToArray (set (some value)) =
      encodeVarint 8 ++ encodeVarint (wireInt value) := by
    simp [int32Codec, stored, optionalField, encodeFields, encodeField]
  have tag : encodeVarint 8 = [8] := by
    rw [encodeVarint]
    rfl
  have nonempty : 0 < (encodeVarint (wireInt value)).length :=
    List.length_pos_iff.mpr (encodeVarint_ne_nil _)
  have bounded : (encodeVarint (wireInt value)).length ≤ 10 := by
    apply encodeVarint_length 9
    have word : wireInt value < 2 ^ 64 := value.toInt64.toUInt64.toNat_lt
    omega
  rw [encoded, tag, List.length_append, List.length_singleton]
  omega

/-- The fields of one published item. -/
def itemFields (item : PublishedItem) : List Field :=
  optionalField 1 item.itemId ++ optionalField 2 item.itemInstanceStart ++
    optionalField 3 item.itemInstanceEnd

/-- The item that some fields describe. -/
def itemOf (fields : List Field) : PublishedItem where
  itemId := lastNumber 1 fields
  itemInstanceStart := lastNumber 2 fields
  itemInstanceEnd := lastNumber 3 fields

/-- An item is read from its own fields. -/
theorem itemOf_fields (item : PublishedItem) : itemOf (itemFields item) = item := by
  obtain ⟨itemId, itemInstanceStart, itemInstanceEnd⟩ := item
  cases itemId <;> cases itemInstanceStart <;> cases itemInstanceEnd <;>
    simp [itemOf, itemFields, optionalField, lastNumber, fieldNumber, unwire_wire]

/-- A repeated field of items: each is a byte string of its own fields. -/
def itemsFields (items : PublishedItems) : List Field :=
  items.items.map fun item => (1, .bytes (encodeFields (itemFields item)))

/-- The embedded messages of a repeated field, decoded. -/
def embedded : Field → Option (Option PublishedItem)
  | (tag, .bytes contents) =>
    if tag = 1 then some ((decodeFields contents).map itemOf) else none
  | (_, .number _) => none

/-- Parse the items; one that does not decode makes the parse fail. -/
def parseItems (bytes : List UInt8) : Bool × PublishedItems :=
  match decodeFields bytes with
  | none => (false, ⟨[]⟩)
  | some fields =>
    match (fields.filterMap embedded).mapM id with
    | none => (false, ⟨[]⟩)
    | some items => (items.all fun item => item.itemId.isSome, ⟨items⟩)

/-- The codec of a list of items. -/
def publishedItemsCodec : Codec PublishedItems where
  byteSize := fun items => Int32.ofNat (encodeFields (itemsFields items)).length
  serializeToArray := fun items => encodeFields (itemsFields items)
  parseFromArray := parseItems

/-- The fields of a list of items are read back one by one. -/
theorem embedded_items (items : PublishedItems) :
    ((itemsFields items).filterMap embedded).mapM id = some items.items := by
  obtain ⟨items⟩ := items
  induction items with
  | nil => rfl
  | cons item items inductionHypothesis =>
    have first : embedded (1, .bytes (encodeFields (itemFields item))) = some (some item) := by
      rw [embedded, if_pos rfl, decode_fields, Option.map_some, itemOf_fields]
    change (((1, Value.bytes (encodeFields (itemFields item))) ::
      itemsFields ⟨items⟩).filterMap embedded).mapM id = _
    rw [List.filterMap_cons_some first, List.mapM_cons, inductionHypothesis]
    rfl

/-- A list of items is read as it was written, if all of them have their ids. -/
theorem publishedItems_inverts : publishedItemsCodec.Inverts PublishedItems.Initialized := by
  intro items initialized
  have all : (items.items.all fun item => item.itemId.isSome) = true := by
    rw [List.all_eq_true]
    exact initialized
  change parseItems (encodeFields (itemsFields items)) = _
  simp only [parseItems, decode_fields, embedded_items, all]

/-- All message types of the repository's schemas. -/
def protobuf : Protobuf where
  globalLogConfig := int32Codec GlobalLogConfig.logLevel GlobalLogConfig.mk true
  publishedItems := publishedItemsCodec
  publishedItemsResult := int32Codec PublishedItemsResult.result PublishedItemsResult.mk true
  delayedResponse := int32Codec DelayedResponse.delay DelayedResponse.mk false
  stdReply := int32Codec StdReply.result StdReply.mk true

/-- The codecs of the six messages are exact. -/
theorem protobuf_exact : protobuf.Exact where
  globalLogConfig_size := int32Codec_exactSize _ _ _
  publishedItems_size := fun _ _ => rfl
  publishedItemsResult_size := int32Codec_exactSize _ _ _
  delayedResponse_size := int32Codec_exactSize _ _ _
  stdReply_size := int32Codec_exactSize _ _ _
  globalLogConfig_inverts := by
    intro message initialized
    exact int32Codec_inverts _ _ _ (fun _ => rfl) message fun _ => initialized
  publishedItems_inverts := publishedItems_inverts
  publishedItemsResult_inverts := by
    intro message initialized
    exact int32Codec_inverts _ _ _ (fun _ => rfl) message fun _ => initialized
  delayedResponse_inverts := by
    intro message _
    exact int32Codec_inverts _ _ _ (fun _ => rfl) message (fun required => nomatch required)
  stdReply_inverts := by
    intro message initialized
    exact int32Codec_inverts _ _ _ (fun _ => rfl) message fun _ => initialized

/-- The messages of one field are written as this field. -/
theorem protobuf_oneField : protobuf.OneField where
  globalLogConfig_size := int32Codec_exactSize _ _ _
  publishedItemsResult_size := int32Codec_exactSize _ _ _
  delayedResponse_size := int32Codec_exactSize _ _ _
  stdReply_size := int32Codec_exactSize _ _ _
  globalLogConfig_field := int32Codec_singleField _ _ _ fun _ => rfl
  publishedItemsResult_field := int32Codec_singleField _ _ _ fun _ => rfl
  delayedResponse_field := int32Codec_singleField _ _ _ fun _ => rfl
  stdReply_field := int32Codec_singleField _ _ _ fun _ => rfl

end Evlpc.WireCodec
