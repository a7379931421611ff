import Evlpc.Handlers
import Evlpc.WireCodec

/-!
# Requests that do not parse

Each request handler tests the result of `ParseFromArray`, prints that it skips
the message if the parse failed, and then goes on as if it had not: the severity
is set to whatever level the failed parse left, a publish request is answered with
result 0, and a delayed reply with result 0 is scheduled.

The parser is an arbitrary function. Of protobuf only the encoding of the replies
is relied on, which tells what they say.
-/

namespace Evlpc

open Library

universe u v w
variable {δ : Type u} {κ : Type v} {χ : Type w}

/-- `ParseFromArray` rejects the payload of a message, parsed as the handler of its
type parses it. -/
def Rejected (protobuf : Protobuf) (pbmsg : Frame) : Prop :=
  if pbmsg.hdr.payloadType = MsgTypes.globalLogConfigReq.code then
    (protobuf.globalLogConfig.parseFromArray pbmsg.payload).1 = false
  else if pbmsg.hdr.payloadType = MsgTypes.publishReq.code then
    (protobuf.publishedItems.parseFromArray pbmsg.payload).1 = false
  else if pbmsg.hdr.payloadType = MsgTypes.delayedResponseReq.code then
    (protobuf.delayedResponse.parseFromArray pbmsg.payload).1 = false
  else False

/-- A reply whose result is 0. -/
def ReportsSuccess (protobuf : Protobuf) (write : Write χ) : Prop :=
  (write.pbmsg.hdr.payloadType = MsgTypes.publishReply.code ∧
    write.pbmsg.payload = protobuf.publishedItemsResult.serializeToArray ⟨some 0⟩) ∨
  (write.pbmsg.hdr.payloadType = MsgTypes.stdReply.code ∧
    write.pbmsg.payload = protobuf.stdReply.serializeToArray ⟨some 0⟩)

/-- A handler has left the severity and the timers alone and reported no success.
What it sends later it sends from a timer. -/
structure NoEffect (protobuf : Protobuf) (endpoint : Endpoint δ κ χ) (outcome : Outcome δ κ χ) :
    Prop where
  llC : outcome.endpoint.llC = endpoint.llC
  timers : outcome.endpoint.timers = endpoint.timers
  silent : ∀ write ∈ outcome.writes, ¬ ReportsSuccess protobuf write

section Handlers

variable (protobuf : Protobuf) (oneField : protobuf.OneField) (memory : PbMsg)
  (endpoint : Endpoint δ κ χ) (connection : χ) (pbmsg : Frame)

/-- A request for a delayed response arms a timer. -/
theorem handleDelayedResponseReq_effect :
    ¬ NoEffect protobuf endpoint (handleDelayedResponseReq endpoint connection pbmsg) := by
  intro noEffect
  have grown := congrArg List.length noEffect.timers
  simp [handleDelayedResponseReq, startNewTimer] at grown

include oneField

/-- A publish request is answered with result 0. -/
theorem handlePublishReq_effect :
    ¬ NoEffect protobuf endpoint (handlePublishReq protobuf memory endpoint connection) := by
  intro noEffect
  have size := oneField.publishedItemsResult_field 0
  have fits : (protobuf.publishedItemsResult.serializeToArray ⟨some 0⟩).length ≤ maxPbMsgSize :=
    Nat.le_trans size.2 (by decide)
  have written := writeObject_frame protobuf.publishedItemsResult
    oneField.publishedItemsResult_size connection
    { A1PublishedItemsResult.construct memory MsgTypes.publishReply.code with message := ⟨some 0⟩ }
    fits
  apply noEffect.silent _ List.mem_cons_self
  left
  constructor
  · exact congrArg (fun pbmsg => pbmsg.hdr.payloadType) written
  · exact congrArg Frame.payload written

/-- A log configuration request sets the severity, and what is sent for it is not a
reply with a result. -/
theorem handleGlcReq_effect :
    NoEffect protobuf endpoint (handleGlcReq protobuf memory endpoint connection pbmsg) ↔
      (protobuf.globalLogConfig.parseFromArray pbmsg.payload).2.getLogLevel.toUInt32 =
        endpoint.llC := by
  constructor
  · intro noEffect
    exact noEffect.llC
  · intro same
    obtain ⟨write, llC, outcome, carries⟩ :=
      handleGlcReq_writes protobuf oneField memory endpoint connection pbmsg
    refine ⟨same, rfl, ?_⟩
    rw [outcome]
    intro sent member
    rw [List.mem_singleton.mp member]
    rintro (⟨type, -⟩ | ⟨type, -⟩)
    · rw [carries.payloadType] at type
      exact absurd type (by decide)
    · rw [carries.payloadType] at type
      exact absurd type (by decide)

end Handlers

/-- The level that parsing the message leaves is the current severity. -/
def LeavesSeverity (protobuf : Protobuf) (endpoint : Endpoint δ κ χ) (pbmsg : Frame) : Prop :=
  pbmsg.hdr.payloadType = MsgTypes.globalLogConfigReq.code ∧
    (protobuf.globalLogConfig.parseFromArray pbmsg.payload).2.getLogLevel.toUInt32 = endpoint.llC

/-- Whatever the parse says, only a log configuration request can have no effect. -/
theorem callHandler_effect (protobuf : Protobuf) (oneField : protobuf.OneField)
    (indeterminate : Indeterminate) (endpoint : Endpoint δ κ χ) (connection : χ) (pbmsg : Frame)
    (isRequest : (replyType pbmsg.hdr.payloadType).isSome) :
    ∃ handler outcome, cbfuncs registerAllCbs pbmsg.hdr.payloadType = some handler ∧
      callHandler protobuf indeterminate endpoint connection pbmsg handler = .ok outcome ∧
      (NoEffect protobuf endpoint outcome ↔ LeavesSeverity protobuf endpoint pbmsg) ∧
      (pbmsg.hdr.payloadType = MsgTypes.globalLogConfigReq.code → ∀ accepted : Frame,
        outcome.writes =
          (handleGlcReq protobuf indeterminate.memory endpoint connection accepted).writes) := by
  rcases request_types pbmsg.hdr.payloadType isRequest with type | type | type
  · refine ⟨.handleGlcReq, _, by rw [type]; decide, rfl, ?_, fun _ _ => rfl⟩
    rw [handleGlcReq_effect protobuf oneField indeterminate.memory endpoint connection pbmsg]
    exact ⟨fun same => ⟨type, same⟩, fun both => both.2⟩
  · have notConfig : pbmsg.hdr.payloadType ≠ MsgTypes.globalLogConfigReq.code := by
      rw [type]
      decide
    have effect :=
      handlePublishReq_effect protobuf oneField indeterminate.memory endpoint connection
    exact ⟨.handlePublishReq, _, by rw [type]; decide, rfl,
      iff_of_false effect fun leaves => notConfig leaves.1, fun same => absurd same notConfig⟩
  · have notConfig : pbmsg.hdr.payloadType ≠ MsgTypes.globalLogConfigReq.code := by
      rw [type]
      decide
    have effect := handleDelayedResponseReq_effect protobuf endpoint connection pbmsg
    exact ⟨.handleDelayedResponseReq, _, by rw [type]; decide, rfl,
      iff_of_false effect fun leaves => notConfig leaves.1, fun same => absurd same notConfig⟩

/-- A message of the three request types reaches its handler, which returns. That a
rejected one has no effect is so exactly if it is a log configuration request and
the level its failed parse leaves is the current severity; and what is sent for
such a request is what is sent for an accepted one. -/
theorem rejected_without_effect_iff (protobuf : Protobuf) (oneField : protobuf.OneField)
    (indeterminate : Indeterminate) (endpoint : Endpoint δ κ χ) (connection : χ) (pbmsg : Frame)
    (isRequest : (replyType pbmsg.hdr.payloadType).isSome) :
    ∃ handler outcome, cbfuncs registerAllCbs pbmsg.hdr.payloadType = some handler ∧
      callHandler protobuf indeterminate endpoint connection pbmsg handler = .ok outcome ∧
      ((Rejected protobuf pbmsg → NoEffect protobuf endpoint outcome) ↔
        (Rejected protobuf pbmsg → LeavesSeverity protobuf endpoint pbmsg)) ∧
      (pbmsg.hdr.payloadType = MsgTypes.globalLogConfigReq.code → ∀ accepted : Frame,
        outcome.writes =
          (handleGlcReq protobuf indeterminate.memory endpoint connection accepted).writes) := by
  obtain ⟨handler, outcome, registered, called, effect, alike⟩ :=
    callHandler_effect protobuf oneField indeterminate endpoint connection pbmsg isRequest
  exact ⟨handler, outcome, registered, called, imp_congr_right fun _ => effect, alike⟩

/-- A message with ids 7 and 9 and a payload that ends behind a tag. -/
def truncatedRequest (msgType : MsgTypes) : Frame :=
  ⟨⟨33, protobufV1, msgType.code, 7, 9, 0, 0⟩, [8]⟩

/-- A process without sessions and timers that logs at level 6, which is the
default of the log level's schema. -/
def idleEndpoint : Endpoint Unit Unit Unit := ⟨6, SessionState.start, []⟩

/-- A rejected log configuration request leaves the default level, and sends what any
other one does. It has no effect on a process that logs at this level, and one on a
process that does not. -/
theorem rejected_without_effect_default :
    Rejected WireCodec.protobuf (truncatedRequest .globalLogConfigReq) ∧
    (∃ handler outcome,
      callHandler WireCodec.protobuf untouched idleEndpoint ()
        (truncatedRequest .globalLogConfigReq) handler = .ok outcome ∧
      NoEffect WireCodec.protobuf idleEndpoint outcome ∧
      ∀ accepted : Frame, outcome.writes =
        (handleGlcReq WireCodec.protobuf untouched.memory idleEndpoint () accepted).writes) ∧
    ∃ handler outcome,
      callHandler WireCodec.protobuf untouched { idleEndpoint with llC := 3 } ()
        (truncatedRequest .globalLogConfigReq) handler = .ok outcome ∧
      ¬ NoEffect WireCodec.protobuf { idleEndpoint with llC := 3 } outcome := by
  have rejected : Rejected WireCodec.protobuf (truncatedRequest .globalLogConfigReq) := by
    have rejects : (WireCodec.protobuf.globalLogConfig.parseFromArray [8]).1 = false := by
      decide +kernel
    exact rejects
  have leaves : (WireCodec.protobuf.globalLogConfig.parseFromArray
      [8]).2.getLogLevel.toUInt32 = 6 := by
    decide +kernel
  refine ⟨rejected, ?_, ?_⟩
  · obtain ⟨handler, outcome, -, called, effect, alike⟩ := rejected_without_effect_iff
      WireCodec.protobuf WireCodec.protobuf_oneField untouched idleEndpoint ()
      (truncatedRequest .globalLogConfigReq) (by decide)
    exact ⟨handler, outcome, called, effect.mpr (fun _ => ⟨rfl, leaves⟩) rejected, alike rfl⟩
  · obtain ⟨handler, outcome, -, called, effect, -⟩ := rejected_without_effect_iff
      WireCodec.protobuf WireCodec.protobuf_oneField untouched { idleEndpoint with llC := 3 } ()
      (truncatedRequest .globalLogConfigReq) (by decide)
    refine ⟨handler, outcome, called, fun without => ?_⟩
    have same : (6 : UInt32) = 3 := leaves.symm.trans (effect.mp (fun _ => without) rejected).2
    exact absurd same (by decide)

/-- A publish request that does not parse is answered with result 0. -/
theorem truncated_publish_answered :
    Rejected WireCodec.protobuf (truncatedRequest .publishReq) ∧
      ¬ NoEffect WireCodec.protobuf idleEndpoint
        (handlePublishReq WireCodec.protobuf untouched.memory idleEndpoint ()) := by
  constructor
  · have rejects : (WireCodec.protobuf.publishedItems.parseFromArray [8]).1 = false := by
      decide +kernel
    exact rejects
  · exact handlePublishReq_effect WireCodec.protobuf WireCodec.protobuf_oneField untouched.memory
      idleEndpoint ()

end Evlpc
