import Evlpc.Messages
import Evlpc.ProcessMsg
import Evlpc.WireCodec

/-!
# Encoding, framing and decoding

Messages built by the wrapper classes are written one after the other and the
bytes are given to `process_msg`. What each callback then finds at the address
it is given is the message that was sent, with its header fields.

Two things keep this from being the identity on all lists of messages. A message
whose encoding is empty becomes a frame of a bare header, which the receive loop
skips as an empty message. And the loop counts its location in an `int`, so the
messages must start below 2^31.
-/

namespace Evlpc

open Library

universe u
variable {κ : Type u}

/-- An object of one of the wrapper classes, in any state. -/
inductive Outgoing where
  | a1GlobalLogConfig (object : A1GlobalLogConfig)
  | a1PublishedItems (object : A1PublishedItems)
  | a1PublishedItemsResult (object : A1PublishedItemsResult)
  | a1DelayedResponse (object : A1DelayedResponse)
  | a1StdReply (object : A1StdReply)
  | a2StdReply (object : A2StdReply)

namespace Outgoing

/-- The header the object has before `make_msg`. -/
def hdr : Outgoing → PbHeader
  | a1GlobalLogConfig object => object.pbmsg.hdr
  | a1PublishedItems object => object.pbmsg.hdr
  | a1PublishedItemsResult object => object.pbmsg.hdr
  | a1DelayedResponse object => object.pbmsg.hdr
  | a1StdReply object => object.pbmsg.hdr
  | a2StdReply object => object.pbmsg.hdr

/-- The output of the object's own `make_msg`, `get_msg_size ()` bytes of it. -/
def made (protobuf : Protobuf) : Outgoing → List UInt8
  | a1GlobalLogConfig object => outgoingBytes (A1GlobalLogConfig.makeMsg protobuf object)
  | a1PublishedItems object => outgoingBytes (A1PublishedItems.makeMsg protobuf object)
  | a1PublishedItemsResult object => outgoingBytes (A1PublishedItemsResult.makeMsg protobuf object)
  | a1DelayedResponse object => outgoingBytes (A1DelayedResponse.makeMsg protobuf object)
  | a1StdReply object => outgoingBytes (A1StdReply.makeMsg protobuf object)
  | a2StdReply object => outgoingBytes (A2StdReply.makeMsg protobuf object)

/-- The encoded payload. -/
def encoded (protobuf : Protobuf) : Outgoing → List UInt8
  | a1GlobalLogConfig object => protobuf.globalLogConfig.serializeToArray object.message
  | a1PublishedItems object => protobuf.publishedItems.serializeToArray object.message
  | a1PublishedItemsResult object => protobuf.publishedItemsResult.serializeToArray object.message
  | a1DelayedResponse object => protobuf.delayedResponse.serializeToArray object.message
  | a1StdReply object => protobuf.stdReply.serializeToArray object.message
  | a2StdReply object => protobuf.stdReply.serializeToArray object.message

/-- The required fields of the message are set. -/
def Initialized : Outgoing → Prop
  | a1GlobalLogConfig object => object.message.Initialized
  | a1PublishedItems object => object.message.Initialized
  | a1PublishedItemsResult object => object.message.Initialized
  | a1DelayedResponse object => object.message.Initialized
  | a1StdReply object => object.message.Initialized
  | a2StdReply object => object.message.Initialized

/-- The receiver's parser turns the bytes back into the object's message. -/
def ParsesFrom (protobuf : Protobuf) (payload : List UInt8) : Outgoing → Prop
  | a1GlobalLogConfig object =>
    protobuf.globalLogConfig.parseFromArray payload = (true, object.message)
  | a1PublishedItems object =>
    protobuf.publishedItems.parseFromArray payload = (true, object.message)
  | a1PublishedItemsResult object =>
    protobuf.publishedItemsResult.parseFromArray payload = (true, object.message)
  | a1DelayedResponse object =>
    protobuf.delayedResponse.parseFromArray payload = (true, object.message)
  | a1StdReply object => protobuf.stdReply.parseFromArray payload = (true, object.message)
  | a2StdReply object => protobuf.stdReply.parseFromArray payload = (true, object.message)

/-- The frame the object's message becomes. -/
def frame (protobuf : Protobuf) (message : Outgoing) : Frame where
  hdr := { message.hdr with
    length := UInt32.ofNat (sizeofPbHeader.toNat + (message.encoded protobuf).length) }
  payload := message.encoded protobuf

/-- The delivery of the object's frame. -/
def delivery (protobuf : Protobuf) (pbcbs : PbCbs κ) (message : Outgoing) :
    Option (κ × List UInt8) :=
  (message.frame protobuf).delivery pbcbs

variable (protobuf : Protobuf) (exact : protobuf.Exact) (message : Outgoing)
include exact

/-- Every class's `make_msg` puts out the frame of its message. -/
theorem made_frame (fits : (message.encoded protobuf).length ≤ maxPbMsgSize) :
    message.made protobuf = (message.frame protobuf).bytes := by
  cases message with
  | a1GlobalLogConfig object => exact makeMsg_outgoing _ object exact.globalLogConfig_size fits
  | a1PublishedItems object => exact makeMsg_outgoing _ object exact.publishedItems_size fits
  | a1PublishedItemsResult object =>
    exact makeMsg_outgoing _ object exact.publishedItemsResult_size fits
  | a1DelayedResponse object => exact makeMsg_outgoing _ object exact.delayedResponse_size fits
  | a1StdReply object => exact makeMsg_outgoing _ object exact.stdReply_size fits
  | a2StdReply object => exact makeMsg_outgoing _ object exact.stdReply_size fits

/-- The payload of an initialized message parses back to it. -/
theorem encoded_parses (initialized : message.Initialized) :
    message.ParsesFrom protobuf (message.encoded protobuf) := by
  cases message with
  | a1GlobalLogConfig object => exact exact.globalLogConfig_inverts object.message initialized
  | a1PublishedItems object => exact exact.publishedItems_inverts object.message initialized
  | a1PublishedItemsResult object =>
    exact exact.publishedItemsResult_inverts object.message initialized
  | a1DelayedResponse object => exact exact.delayedResponse_inverts object.message initialized
  | a1StdReply object => exact exact.stdReply_inverts object.message initialized
  | a2StdReply object => exact exact.stdReply_inverts object.message initialized

omit exact

/-- The frame of a message that fits announces its own length. -/
theorem frame_wellFormed (fits : (message.encoded protobuf).length ≤ maxPbMsgSize) :
    (message.frame protobuf).WellFormed := by
  have size : sizeofPbHeader.toNat = 32 := rfl
  have capacity : maxPbMsgSize = 2500 := rfl
  exact Conversions.representable_word _ (by omega)

end Outgoing

/-- A call delivers a message: it runs the callback of the message's type on a
header with the sender's type and ids and a payload that parses back. -/
structure Delivers (protobuf : Protobuf) (callback : UInt32 → κ) (memory : Store UInt8)
    (call : Call κ) (message : Outgoing) : Prop where
  callback : call.callback = callback message.hdr.payloadType
  payloadType : (call.frame memory).hdr.payloadType = message.hdr.payloadType
  sessionId : (call.frame memory).hdr.sessionId = message.hdr.sessionId
  randomId : (call.frame memory).hdr.randomId = message.hdr.randomId
  parses : message.ParsesFrom protobuf (call.frame memory).payload

/-- Messages ready to be sent, a buffer that holds the outputs of their `make_msg`
one after the other, and a table with a callback for each of their types. -/
structure Transmitted (protobuf : Protobuf) (pbcbs : PbCbs κ) (callback : UInt32 → κ)
    (memory : Store UInt8) (base : Int) (messages : List Outgoing) : Prop where
  initialized : ∀ message ∈ messages, message.Initialized
  fits : ∀ message ∈ messages, (message.encoded protobuf).length ≤ maxPbMsgSize
  registered : ∀ message ∈ messages,
    cbfuncs pbcbs message.hdr.payloadType = some (callback message.hdr.payloadType)
  stored : memory.load base (messages.flatMap (Outgoing.made protobuf)).length =
    messages.flatMap (Outgoing.made protobuf)

/-- `process_msg` on the buffer runs one callback for each message of a list, in
order, and returns 0. -/
def ReceivesExactly (protobuf : Protobuf) (pbcbs : PbCbs κ) (callback : UInt32 → κ)
    (memory : Store UInt8) (base : Int) (messages received : List Outgoing) : Prop :=
  let siz := Int64.ofNat (messages.flatMap (Outgoing.made protobuf)).length
  let processed := processMsg pbcbs memory base siz
  List.Forall₂ (Delivers protobuf callback memory) processed.calls received ∧
    processed.leftoverDataSize = 0

/-- Every message starts at an offset the loop's counter represents. -/
def Addressable (protobuf : Protobuf) (messages : List Outgoing) : Prop :=
  ∀ before message after, messages = before ++ message :: after →
    (before.flatMap (Outgoing.made protobuf)).length < 2 ^ 31

/-- The messages whose encoding is not empty. -/
def nonEmpty (protobuf : Protobuf) (messages : List Outgoing) : List Outgoing :=
  messages.filter fun message => !(message.encoded protobuf).isEmpty

section RoundTrip

variable (protobuf : Protobuf) (exact : protobuf.Exact) (pbcbs : PbCbs κ) (callback : UInt32 → κ)
  (memory : Store UInt8) (base : Int)

/-- If the calls are given the frames of some messages, they deliver those of them
that are not empty. Induct over the messages; an empty one is given to no call. -/
theorem delivers_frames (messages : List Outgoing) (calls : List (Call κ)) (exact : protobuf.Exact)
    (initialized : ∀ message ∈ messages, message.Initialized)
    (registered : ∀ message ∈ messages,
      cbfuncs pbcbs message.hdr.payloadType = some (callback message.hdr.payloadType))
    (given : calls.map (Call.given memory) =
      messages.filterMap (Outgoing.delivery protobuf pbcbs)) :
    List.Forall₂ (Delivers protobuf callback memory) calls (nonEmpty protobuf messages) := by
  induction messages generalizing calls with
  | nil =>
    rw [List.filterMap_nil, List.map_eq_nil_iff] at given
    subst given
    exact List.Forall₂.nil
  | cons message messages inductionHypothesis =>
    have laterInitialized := fun other member =>
      initialized other (List.mem_cons_of_mem message member)
    have laterRegistered := fun other member =>
      registered other (List.mem_cons_of_mem message member)
    by_cases empty : message.encoded protobuf = []
    · have skipped : message.delivery protobuf pbcbs = none := if_pos empty
      rw [List.filterMap_cons_none skipped] at given
      have dropped : nonEmpty protobuf (message :: messages) = nonEmpty protobuf messages := by
        simp [nonEmpty, empty]
      rw [dropped]
      exact inductionHypothesis calls laterInitialized laterRegistered given
    · have delivered : message.delivery protobuf pbcbs =
          some (callback message.hdr.payloadType, (message.frame protobuf).bytes) := by
        have headerType : (message.frame protobuf).hdr.payloadType = message.hdr.payloadType := rfl
        have notEmpty : (message.frame protobuf).payload ≠ [] := empty
        rw [Outgoing.delivery, Frame.delivery, if_neg notEmpty, headerType,
          registered message List.mem_cons_self, Option.map_some]
      have kept : nonEmpty protobuf (message :: messages) =
          message :: nonEmpty protobuf messages := by
        simp [nonEmpty, empty]
      rw [List.filterMap_cons_some delivered] at given
      obtain ⟨call, later, rfl, first, rest⟩ := List.map_eq_cons_iff.mp given
      have found : call.frame memory = message.frame protobuf := by
        rw [Call.frame, first, Frame.ofBytes_bytes]
      rw [kept]
      refine List.Forall₂.cons ?_ (inductionHypothesis later laterInitialized laterRegistered rest)
      exact {
        callback := congrArg Prod.fst first
        payloadType := by rw [found]; rfl
        sessionId := by rw [found]; rfl
        randomId := by rw [found]; rfl
        parses := by
          rw [found]
          exact message.encoded_parses protobuf exact (initialized message List.mem_cons_self) }

/-- The offset behind the last message is still an unsigned 32-bit number. -/
theorem transmitted_length (messages : List Outgoing) (exact : protobuf.Exact)
    (fits : ∀ message ∈ messages, (message.encoded protobuf).length ≤ maxPbMsgSize)
    (addressable : Addressable protobuf messages) :
    (messages.flatMap (Outgoing.made protobuf)).length < 2 ^ 32 := by
  rcases List.eq_nil_or_concat messages with rfl | ⟨before, last, rfl⟩
  · exact Nat.two_pow_pos 32
  · have start := addressable before last [] (by simp)
    have lastFits := fits last (by simp)
    have lastBytes := last.made_frame protobuf exact lastFits
    have lastLength := (last.frame protobuf).bytes_length
    have payload : (last.frame protobuf).payload = last.encoded protobuf := rfl
    have size : sizeofPbHeader.toNat = 32 := rfl
    have capacity : maxPbMsgSize = 2500 := rfl
    rw [List.concat_eq_append, List.flatMap_append, List.length_append, List.flatMap_singleton,
      lastBytes, lastLength, payload]
    omega

/-- Messages that take less than 2^31 bytes together start below it. -/
theorem addressable_of_short (messages : List Outgoing)
    (short : (messages.flatMap (Outgoing.made protobuf)).length < 2 ^ 31) :
    Addressable protobuf messages := by
  rintro before message after rfl
  rw [List.flatMap_append, List.length_append] at short
  omega

/-- Exactly one callback for every message that has a non-empty encoding, in
order, with the sender's header fields and a payload that parses back; nothing
is left over. The outputs of `make_msg` are frames, the loop delivers frames, and
at the end of the buffer it stops with nothing unfinished. -/
theorem made_messages_received (messages : List Outgoing) (exact : protobuf.Exact)
    (transmitted : Transmitted protobuf pbcbs callback memory base messages)
    (addressable : Addressable protobuf messages) :
    ReceivesExactly protobuf pbcbs callback memory base messages (nonEmpty protobuf messages) := by
  have made : ∀ some : List Outgoing, (∀ message ∈ some, message ∈ messages) →
      some.flatMap (Outgoing.made protobuf) =
        ((some.map (Outgoing.frame protobuf)).map Frame.bytes).flatten := by
    intro some included
    rw [List.flatMap_def, List.map_map]
    congr 1
    exact List.map_congr_left fun message member =>
      message.made_frame protobuf exact (transmitted.fits message (included message member))
  have whole := made messages fun _ member => member
  have bounded := transmitted_length protobuf messages exact transmitted.fits addressable
  have stored := transmitted.stored
  rw [whole] at bounded stored
  have wellFormed : ∀ frame ∈ messages.map (Outgoing.frame protobuf), frame.WellFormed := by
    intro frame member
    obtain ⟨message, isMessage, rfl⟩ := List.mem_map.mp member
    exact message.frame_wellFormed protobuf (transmitted.fits message isMessage)
  have starts : ∀ before frame after,
      messages.map (Outgoing.frame protobuf) = before ++ frame :: after →
      (before.map Frame.bytes).flatten.length < 2 ^ 31 := by
    intro before frame after same
    obtain ⟨first, others, rfl, rfl, rest⟩ := List.map_eq_append_iff.mp same
    obtain ⟨message, last, rfl, _, _⟩ := List.map_eq_cons_iff.mp rest
    have start := addressable first message last rfl
    rwa [made first fun message member => List.mem_append_left _ member] at start
  obtain ⟨given, nothingLeft⟩ :=
    processMsg_frames pbcbs memory base _ wellFormed bounded starts stored
  rw [List.filterMap_map] at given
  rw [ReceivesExactly, whole]
  exact ⟨delivers_frames protobuf pbcbs callback memory messages _ exact transmitted.initialized
    transmitted.registered given, nothingLeft⟩

end RoundTrip

/-- A table with a callback for every type: the type's number. -/
def everyType : PbCbs UInt32 := fun index => some (UInt32.ofNat index)

/-- A buffer over zeroed memory, filled with the outputs of `make_msg`. -/
def bufferOf (messages : List Outgoing) : Store UInt8 :=
  Store.write (fun _ => 0) 0 (messages.flatMap (Outgoing.made WireCodec.protobuf))

/-- A publish request without items, as its constructor leaves it. -/
def noItems : Outgoing :=
  .a1PublishedItems (A1PublishedItems.construct zeroedPbMsg MsgTypes.publishReq.code)

/-- A publish request with eight items, whose encoding takes 32 bytes. -/
def eightItems : Outgoing :=
  .a1PublishedItems
    ⟨⟨List.replicate 8 ⟨some 1, none, none⟩⟩, zeroedPbMsg.initialize MsgTypes.publishReq.code⟩

/-- A standard reply to session 7. -/
def resultFive : Outgoing :=
  .a2StdReply ⟨⟨some 5⟩, ⟨⟨0, protobufV1, MsgTypes.stdReply.code, 7, 9, 0, 0⟩, []⟩⟩

/-- Initialized messages of registered types are transmitted by such a buffer. -/
theorem bufferOf_transmitted (messages : List Outgoing)
    (initialized : ∀ message ∈ messages, message.Initialized)
    (fits : ∀ message ∈ messages, (message.encoded WireCodec.protobuf).length ≤ maxPbMsgSize)
    (registered : ∀ message ∈ messages,
      cbfuncs everyType message.hdr.payloadType = some message.hdr.payloadType) :
    Transmitted WireCodec.protobuf everyType id (bufferOf messages) 0 messages :=
  ⟨initialized, fits, registered, Store.load_write _ _ _⟩

/-- The two messages that are not empty are received in their order. -/
theorem made_messages_received_mixed :
    ReceivesExactly WireCodec.protobuf everyType id (bufferOf [noItems, resultFive, eightItems]) 0
      [noItems, resultFive, eightItems]
      (nonEmpty WireCodec.protobuf [noItems, resultFive, eightItems]) := by
  refine made_messages_received WireCodec.protobuf everyType id _ 0 _ WireCodec.protobuf_exact
    (bufferOf_transmitted _ ?_ (by decide +kernel) (by decide))
    (addressable_of_short WireCodec.protobuf _ (by decide +kernel))
  simp [noItems, resultFive, eightItems, Outgoing.Initialized, A1PublishedItems.construct,
    PublishedItems.Initialized, PublishedItem.Initialized, StdReply.Initialized]

/-- 2^32 bytes are narrowed to 0: the loop does not start. -/
theorem narrowed_to_zero (messages : List Outgoing) (received : List Outgoing)
    (length : (messages.flatMap (Outgoing.made WireCodec.protobuf)).length = 2 ^ 32)
    (receives : ReceivesExactly WireCodec.protobuf everyType id (bufferOf messages) 0 messages
      received) : received = [] := by
  have none := receives.1
  rw [length, processMsg, processLoop_short _ _ _ _ _ (by decide)] at none
  cases none
  rfl

/-- Each of the messages takes 64 bytes. -/
theorem eightItems_length (count : Nat) :
    ((List.replicate count eightItems).flatMap (Outgoing.made WireCodec.protobuf)).length =
      count * 64 := by
  have each : (Outgoing.made WireCodec.protobuf eightItems).length = 64 := by decide +kernel
  rw [List.length_flatMap, List.map_replicate, each, List.sum_replicate_nat]

/-- Of messages of 64 bytes that take 2^32 bytes together, none is received. -/
theorem eightItems_lost (count : Nat) (size : count * 64 = 2 ^ 32) :
    ¬ ReceivesExactly WireCodec.protobuf everyType id
      (bufferOf (List.replicate count eightItems)) 0 (List.replicate count eightItems)
      (nonEmpty WireCodec.protobuf (List.replicate count eightItems)) := by
  intro receives
  have none := narrowed_to_zero _ _ ((eightItems_length count).trans size) receives
  have kept : eightItems ∈ nonEmpty WireCodec.protobuf (List.replicate count eightItems) :=
    List.mem_filter.mpr ⟨List.mem_replicate.mpr ⟨by omega, rfl⟩, by decide +kernel⟩
  rw [none] at kept
  cases kept

/-- A message without items is encoded in no bytes and is skipped; and of 2^26
messages of 64 bytes each, no callback is run at all. -/
theorem empty_and_unaddressable_lost :
    (Transmitted WireCodec.protobuf everyType id (bufferOf [noItems]) 0 [noItems] ∧
      ¬ ReceivesExactly WireCodec.protobuf everyType id (bufferOf [noItems]) 0 [noItems]
        [noItems]) ∧
    (Transmitted WireCodec.protobuf everyType id (bufferOf (List.replicate (2 ^ 26) eightItems)) 0
        (List.replicate (2 ^ 26) eightItems) ∧
      ¬ ReceivesExactly WireCodec.protobuf everyType id
        (bufferOf (List.replicate (2 ^ 26) eightItems)) 0 (List.replicate (2 ^ 26) eightItems)
        (nonEmpty WireCodec.protobuf (List.replicate (2 ^ 26) eightItems))) := by
  have initialized : ∀ count, ∀ message ∈ List.replicate count eightItems,
      message.Initialized := by
    intro count message member
    rw [List.eq_of_mem_replicate member]
    simp [eightItems, Outgoing.Initialized, PublishedItems.Initialized, PublishedItem.Initialized]
  refine ⟨⟨bufferOf_transmitted _ ?_ (by decide +kernel) (by decide), ?_⟩,
    ⟨bufferOf_transmitted _ (initialized _) ?_ ?_, ?_⟩⟩
  · simp [noItems, Outgoing.Initialized, A1PublishedItems.construct, PublishedItems.Initialized]
  · intro receives
    have noCalls : (processMsg everyType (bufferOf [noItems]) 0 (Int64.ofNat
        ([noItems].flatMap (Outgoing.made WireCodec.protobuf)).length)).calls = [] := by
      decide +kernel
    have both := receives.1
    rw [noCalls] at both
    cases both
  · intro message member
    rw [List.eq_of_mem_replicate member]
    decide +kernel
  · intro message member
    rw [List.eq_of_mem_replicate member]
    decide
  · exact eightItems_lost _ (by norm_num)

end Evlpc
