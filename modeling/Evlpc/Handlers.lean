import Evlpc.Messages
import Evlpc.ProcessMsg
import Evlpc.Session

/-!
# The message handlers

An endpoint runs `register_all_cbs` and then handles the messages that
`process_msg` hands to its callbacks. A handler may write to a connection, arm a
timer for a delayed reply, or run the callback of an outbound session; what it
prints is left out, and so are the parses whose results are only printed.

The response objects live on the stack. Their constructors do not write all of
their memory, so each handler is given the memory its response object starts
with. The bytes of a write are those of the buffer at the time of the call.
-/

namespace Evlpc

open Library

universe u v w
variable {δ : Type u} {κ : Type v} {χ : Type w}

/-- The type of the reply that belongs to a request; other messages have none. -/
def replyType (payloadType : UInt32) : Option UInt32 :=
  if payloadType = MsgTypes.globalLogConfigReq.code then some MsgTypes.globalLogConfigReply.code
  else if payloadType = MsgTypes.publishReq.code then some MsgTypes.publishReply.code
  else if payloadType = MsgTypes.delayedResponseReq.code then some MsgTypes.stdReply.code
  else none

/-- There are three types of requests. -/
theorem request_types (payloadType : UInt32) (isRequest : (replyType payloadType).isSome) :
    payloadType = MsgTypes.globalLogConfigReq.code ∨ payloadType = MsgTypes.publishReq.code ∨
      payloadType = MsgTypes.delayedResponseReq.code := by
  by_contra others
  rw [not_or, not_or] at others
  rw [replyType, if_neg others.1, if_neg others.2.1, if_neg others.2.2] at isRequest
  cases isRequest

/-- A whole message with a payload, of one of the three request types. -/
structure RequestMessage where
  frame : Frame
  wellFormed : frame.WellFormed
  nonEmpty : frame.payload ≠ []
  isRequest : (replyType frame.hdr.payloadType).isSome

/-- A request has one of three types. -/
theorem RequestMessage.payloadType (message : RequestMessage) :
    message.frame.hdr.payloadType = MsgTypes.globalLogConfigReq.code ∨
      message.frame.hdr.payloadType = MsgTypes.publishReq.code ∨
      message.frame.hdr.payloadType = MsgTypes.delayedResponseReq.code :=
  request_types message.frame.hdr.payloadType message.isRequest

/-- The functions that `register_all_cbs` registers. -/
inductive PbCb where
  | handleGlcReq
  | handleGlcReply
  | handlePublishReq
  | handlePublishReply
  | handleDelayedResponseReq
  | handleStdReply
deriving DecidableEq, Repr

/-- `register_all_cbs`, on the table `pbcbs` of null pointers. -/
def registerAllCbs : PbCbs PbCb :=
  let pbcbs : PbCbs PbCb := fun _ => none
  let pbcbs := registerCb pbcbs MsgTypes.globalLogConfigReq.code .handleGlcReq
  let pbcbs := registerCb pbcbs MsgTypes.globalLogConfigReply.code .handleGlcReply
  let pbcbs := registerCb pbcbs MsgTypes.publishReq.code .handlePublishReq
  let pbcbs := registerCb pbcbs MsgTypes.publishReply.code .handlePublishReply
  let pbcbs := registerCb pbcbs MsgTypes.delayedResponseReq.code .handleDelayedResponseReq
  registerCb pbcbs MsgTypes.stdReply.code .handleStdReply

/-- `reply_session_data_t`, which a timer carries. -/
structure ReplySessionData (χ : Type w) where
  sessionId : UInt32
  randomId : UInt32
  connection : χ

/-- A `uv_write`: the connection and the message in the buffer. -/
structure Write (χ : Type w) where
  connection : χ
  pbmsg : Frame

/-- A run of an outbound session's callback, with its arguments. -/
structure CallbackRun (δ : Type u) (κ : Type v) (χ : Type w) where
  cb : κ
  data : Option δ
  connection : χ
  pbmsg : Frame

/-- What the handlers read and write of a process: the global log severity, the
session table, and the armed timers. -/
structure Endpoint (δ : Type u) (κ : Type v) (χ : Type w) where
  llC : UInt32
  sessions : SessionState δ κ
  timers : List (ReplySessionData χ)

/-- The endpoint after a handler, and what the handler did. -/
structure Outcome (δ : Type u) (κ : Type v) (χ : Type w) where
  endpoint : Endpoint δ κ χ
  writes : List (Write χ)
  callbacks : List (CallbackRun δ κ χ)

/-- What the source leaves open when a handler runs: the memory of its response
object, and the result of a read outside of the session table. -/
structure Indeterminate where
  memory : PbMsg
  stray : Option UInt32

/-- The message a `uv_write` of an object's buffer puts on the connection. -/
def writeObject {M : Type} (connection : χ) (object : Wrapper M) : Write χ :=
  ⟨connection, Frame.ofBytes (outgoingBytes object)⟩

section Handlers

variable (protobuf : Protobuf) (memory : PbMsg) (endpoint : Endpoint δ κ χ) (connection : χ)
  (pbmsg : Frame)

/-- `handle_glc_req`. The severity is set whether or not the parse succeeds. -/
def handleGlcReq : Outcome δ κ χ :=
  let (_, globalLogConfig) := protobuf.globalLogConfig.parseFromArray pbmsg.payload
  let responseGlc : A1GlobalLogConfig :=
    { A1GlobalLogConfig.construct memory with message := ⟨some 2⟩ }
  { endpoint := { endpoint with llC := globalLogConfig.getLogLevel.toUInt32 }
    writes := [writeObject connection (A1GlobalLogConfig.makeMsg protobuf responseGlc)]
    callbacks := [] }

/-- `handle_glc_reply`. -/
def handleGlcReply : Outcome δ κ χ := ⟨endpoint, [], []⟩

/-- `handle_publish_req`. -/
def handlePublishReq : Outcome δ κ χ :=
  let response : A1PublishedItemsResult :=
    { A1PublishedItemsResult.construct memory MsgTypes.publishReply.code with message := ⟨some 0⟩ }
  { endpoint := endpoint
    writes := [writeObject connection (A1PublishedItemsResult.makeMsg protobuf response)]
    callbacks := [] }

/-- `handle_publish_reply`. -/
def handlePublishReply : Outcome δ κ χ := ⟨endpoint, [], []⟩

/-- `start_new_timer`. The delay of one to ten seconds is not kept: timers fire in
any order. -/
def startNewTimer (sid rid : UInt32) : Endpoint δ κ χ :=
  { endpoint with timers := endpoint.timers ++ [⟨sid, rid, connection⟩] }

/-- `handle_delayed_response_req`. -/
def handleDelayedResponseReq : Outcome δ κ χ :=
  ⟨startNewTimer endpoint connection pbmsg.hdr.sessionId pbmsg.hdr.randomId, [], []⟩

/-- `handle_std_reply`. -/
def handleStdReply (stray : Option UInt32) : Except Fault (Outcome δ κ χ) :=
  match answerSession endpoint.sessions pbmsg.hdr.sessionId pbmsg.hdr.randomId stray with
  | .error fault => .error fault
  | .ok (none, sessions) => .ok ⟨{ endpoint with sessions := sessions }, [], []⟩
  | .ok (some (cb, data), sessions) =>
    .ok ⟨{ endpoint with sessions := sessions }, [], [⟨cb, data, connection, pbmsg⟩]⟩

/-- `send_a_std_reply`. -/
def sendAStdReply (replySessionData : ReplySessionData χ) : Write χ :=
  let response : A2StdReply :=
    { A2StdReply.construct memory MsgTypes.stdReply.code with message := ⟨some 0⟩ }
  let hdr := { response.pbmsg.hdr with
    sessionId := replySessionData.sessionId
    randomId := replySessionData.randomId }
  let response : A2StdReply := { response with pbmsg := { response.pbmsg with hdr := hdr } }
  writeObject replySessionData.connection (A2StdReply.makeMsg protobuf response)

/-- `delayed_response_cb` for one of the armed timers, which is then gone. -/
def delayedResponseCb (index : Nat) : Option (Outcome δ κ χ) :=
  match endpoint.timers[index]? with
  | none => none
  | some replySessionData => some
    { endpoint := { endpoint with timers := endpoint.timers.eraseIdx index }
      writes := [sendAStdReply protobuf memory replySessionData]
      callbacks := [] }

/-- A timer fires if it is armed: it is gone then, and its reply is written. -/
theorem delayedResponseCb_some (index : Nat) (outcome : Outcome δ κ χ) :
    delayedResponseCb protobuf memory endpoint index = some outcome ↔
      ∃ replySessionData, endpoint.timers[index]? = some replySessionData ∧
        ⟨{ endpoint with timers := endpoint.timers.eraseIdx index },
          [sendAStdReply protobuf memory replySessionData], []⟩ = outcome := by
  unfold delayedResponseCb
  cases endpoint.timers[index]? with
  | none => simp
  | some replySessionData => simp

end Handlers

/-- The call of a registered callback. -/
def callHandler (protobuf : Protobuf) (indeterminate : Indeterminate) (endpoint : Endpoint δ κ χ)
    (connection : χ) (pbmsg : Frame) : PbCb → Except Fault (Outcome δ κ χ)
  | .handleGlcReq => .ok (handleGlcReq protobuf indeterminate.memory endpoint connection pbmsg)
  | .handleGlcReply => .ok (handleGlcReply endpoint)
  | .handlePublishReq => .ok (handlePublishReq protobuf indeterminate.memory endpoint connection)
  | .handlePublishReply => .ok (handlePublishReply endpoint)
  | .handleDelayedResponseReq => .ok (handleDelayedResponseReq endpoint connection pbmsg)
  | .handleStdReply => handleStdReply endpoint connection pbmsg indeterminate.stray

/-- The callbacks of a buffer, one after the other, each on the message it is
given. Handlers change neither the buffer nor the table of callbacks. -/
def handleCalls (protobuf : Protobuf) (indeterminate : Indeterminate) (connection : χ)
    (memory : Store UInt8) (endpoint : Endpoint δ κ χ) :
    List (Call PbCb) → Except Fault (Outcome δ κ χ)
  | [] => .ok ⟨endpoint, [], []⟩
  | call :: later =>
    match callHandler protobuf indeterminate endpoint connection (call.frame memory)
      call.callback with
    | .error fault => .error fault
    | .ok outcome =>
      match handleCalls protobuf indeterminate connection memory outcome.endpoint later with
      | .error fault => .error fault
      | .ok rest =>
        .ok ⟨rest.endpoint, outcome.writes ++ rest.writes, outcome.callbacks ++ rest.callbacks⟩

/-- An endpoint that receives one whole message: `process_msg` on a buffer that
holds it, and the handlers it calls. -/
def receiveMessage (protobuf : Protobuf) (indeterminate : Indeterminate)
    (endpoint : Endpoint δ κ χ) (connection : χ) (message : Frame) :
    Except Fault (Outcome δ κ χ) :=
  let memory : Store UInt8 := Store.write (fun _ => 0) 0 message.bytes
  let siz := Int64.ofNat message.bytes.length
  handleCalls protobuf indeterminate connection memory endpoint
    (processMsg registerAllCbs memory 0 siz).calls

section Receiving

variable (protobuf : Protobuf) (indeterminate : Indeterminate) (endpoint : Endpoint δ κ χ)
  (connection : χ) (message : Frame)

/-- A message with a payload is handled by the handler of its type. -/
theorem receiveMessage_handled (wellFormed : message.WellFormed) (nonEmpty : message.payload ≠ [])
    (handler : PbCb) (registered : cbfuncs registerAllCbs message.hdr.payloadType = some handler) :
    receiveMessage protobuf indeterminate endpoint connection message =
      callHandler protobuf indeterminate endpoint connection message handler := by
  have given := processMsg_frame registerAllCbs (Store.write (fun _ => 0) 0 message.bytes) 0 message
    wellFormed (Store.load_write _ _ _)
  rw [Frame.delivery, if_neg nonEmpty, registered, Option.map_some, Option.toList_some,
    List.map_eq_singleton_iff] at given
  obtain ⟨call, calls, found⟩ := given
  have callback : call.callback = handler := congrArg Prod.fst found
  have frame : call.frame (Store.write (fun _ => 0) 0 message.bytes) = message := by
    rw [Call.frame, found, Frame.ofBytes_bytes]
  rw [receiveMessage, calls, handleCalls, callback, frame]
  cases callHandler protobuf indeterminate endpoint connection message handler with
  | error fault => rfl
  | ok outcome => simp [handleCalls]

/-- A request for a delayed response arms a timer with its ids and connection. -/
theorem receiveMessage_delayed (wellFormed : message.WellFormed) (nonEmpty : message.payload ≠ [])
    (delayed : message.hdr.payloadType = MsgTypes.delayedResponseReq.code) :
    receiveMessage protobuf indeterminate endpoint connection message =
      .ok ⟨startNewTimer endpoint connection message.hdr.sessionId message.hdr.randomId, [], []⟩ :=
  receiveMessage_handled protobuf indeterminate endpoint connection message wellFormed nonEmpty
    .handleDelayedResponseReq (by rw [delayed]; decide)

end Receiving

/-- A written message: whole, with a payload, of a type, with ids, on a connection. -/
structure Carries (write : Write χ) (connection : χ) (payloadType sessionId randomId : UInt32) :
    Prop where
  connection : write.connection = connection
  wellFormed : write.pbmsg.WellFormed
  nonEmpty : write.pbmsg.payload ≠ []
  payloadType : write.pbmsg.hdr.payloadType = payloadType
  sessionId : write.pbmsg.hdr.sessionId = sessionId
  randomId : write.pbmsg.hdr.randomId = randomId

/-- What is written of an object whose message fits is the object's frame. -/
theorem writeObject_frame {M : Type} (codec : Codec M) (exactSize : codec.ExactSize)
    (connection : χ) (object : Wrapper M)
    (fits : (codec.serializeToArray object.message).length ≤ maxPbMsgSize) :
    (writeObject connection (makeMsg codec object)).pbmsg = object.frame codec := by
  rw [writeObject, makeMsg_outgoing codec object exactSize fits, Frame.ofBytes_bytes]

/-- Writing an object whose message takes a few bytes: the header goes out as the
object has it, but for the length. -/
theorem writeObject_carries {M : Type} (codec : Codec M) (exactSize : codec.ExactSize)
    (connection : χ) (object : Wrapper M)
    (size : 2 ≤ (codec.serializeToArray object.message).length ∧
      (codec.serializeToArray object.message).length ≤ 11) :
    Carries (writeObject connection (makeMsg codec object)) connection
      object.pbmsg.hdr.payloadType object.pbmsg.hdr.sessionId object.pbmsg.hdr.randomId := by
  have fits : (codec.serializeToArray object.message).length ≤ maxPbMsgSize :=
    Nat.le_trans size.2 (by decide)
  have written := writeObject_frame codec exactSize connection object fits
  have nonEmpty : (object.frame codec).payload ≠ [] := by
    intro empty
    have none : codec.serializeToArray object.message = [] := empty
    rw [none] at size
    exact absurd size.1 (by decide)
  exact {
    connection := rfl
    wellFormed := by rw [written]; exact frame_wellFormed codec object fits
    nonEmpty := by rw [written]; exact nonEmpty
    payloadType := by rw [written]; rfl
    sessionId := by rw [written]; rfl
    randomId := by rw [written]; rfl }

/-- Where a message came from and the ids of its header. -/
structure Origin (χ : Type w) where
  connection : χ
  sessionId : UInt32
  randomId : UInt32

/-- The origin of a message that arrives on a connection. -/
def originOf (connection : χ) (message : Frame) : Origin χ :=
  ⟨connection, message.hdr.sessionId, message.hdr.randomId⟩

/-- The origin a timer keeps. -/
def ReplySessionData.origin (replySessionData : ReplySessionData χ) : Origin χ :=
  ⟨replySessionData.connection, replySessionData.sessionId, replySessionData.randomId⟩

section Answers

variable (protobuf : Protobuf) (oneField : protobuf.OneField) (memory : PbMsg)
  (endpoint : Endpoint δ κ χ) (connection : χ) (pbmsg : Frame)
include oneField

/-- The response to a log configuration request is itself a request, and has
whatever ids its memory held. -/
theorem handleGlcReq_writes : ∃ write llC,
    handleGlcReq protobuf memory endpoint connection pbmsg =
      ⟨{ endpoint with llC := llC }, [write], []⟩ ∧
    Carries write connection MsgTypes.globalLogConfigReq.code memory.hdr.sessionId
      memory.hdr.randomId :=
  ⟨_, _, rfl, writeObject_carries _ oneField.globalLogConfig_size connection _
    (oneField.globalLogConfig_field 2)⟩

/-- The response to a publish request has whatever ids its memory held. -/
theorem handlePublishReq_writes : ∃ write,
    handlePublishReq protobuf memory endpoint connection = ⟨endpoint, [write], []⟩ ∧
    Carries write connection MsgTypes.publishReply.code memory.hdr.sessionId
      memory.hdr.randomId :=
  ⟨_, rfl, writeObject_carries _ oneField.publishedItemsResult_size connection _
    (oneField.publishedItemsResult_field 0)⟩

/-- A delayed reply has the ids the timer carries and goes to its connection. -/
theorem sendAStdReply_carries (replySessionData : ReplySessionData χ) :
    Carries (sendAStdReply protobuf memory replySessionData) replySessionData.connection
      MsgTypes.stdReply.code replySessionData.sessionId replySessionData.randomId :=
  writeObject_carries _ oneField.stdReply_size _ _ (oneField.stdReply_field 0)

end Answers

/-- A choice of what the source leaves open: zeroed memory, and no stray read. -/
def untouched : Indeterminate := ⟨zeroedPbMsg, none⟩

/-- A request with session id 7, random id 9 and a payload of two bytes. -/
def twoByteRequest (msgType : MsgTypes) (isRequest : (replyType msgType.code).isSome) :
    RequestMessage where
  frame := ⟨⟨34, protobufV1, msgType.code, 7, 9, 0, 0⟩, [8, 5]⟩
  wellFormed := rfl
  nonEmpty := List.cons_ne_nil _ _
  isRequest := isRequest

end Evlpc
