import Evlpc.Handlers
import Evlpc.WireCodec
import Evlpc.Library.Machine

/-!
# Correlation ids

A server receives requests on many connections and answers each of them at once
or when a timer fires. A list of the requests that still wait for their timers is
kept next to the armed timers, in the same order.

Only the delayed reply copies the ids of its request. The other two responses go
out with the ids that their memory held.
-/

namespace Evlpc

open Library

universe u v w
variable {δ : Type u} {κ : Type v} {χ : Type w}

/-- A message answers a request: on its connection and with its ids. -/
structure Write.Answers (write : Write χ) (origin : Origin χ) : Prop where
  connection : write.connection = origin.connection
  sessionId : write.pbmsg.hdr.sessionId = origin.sessionId
  randomId : write.pbmsg.hdr.randomId = origin.randomId

/-- A server and the requests that wait for a timer. -/
structure Server (δ : Type u) (κ : Type v) (χ : Type w) where
  endpoint : Endpoint δ κ χ
  waiting : List (Origin χ)

/-- A request arrives, or a timer fires. -/
inductive ServerEvent (χ : Type w) where
  | request (connection : χ) (message : RequestMessage) (indeterminate : Indeterminate)
  | fire (index : Nat) (memory : PbMsg)

/-- A server that no request has reached. -/
def Server.start (llC : UInt32) (sessions : SessionState δ κ) : Server δ κ χ where
  endpoint := ⟨llC, sessions, []⟩
  waiting := []

/-- The effect of an event. A request waits if it armed a timer. -/
def Server.step (protobuf : Protobuf) (server : Server δ κ χ) :
    ServerEvent χ → Option (Server δ κ χ)
  | .request connection message indeterminate =>
    match receiveMessage protobuf indeterminate server.endpoint connection message.frame with
    | .error _ => none
    | .ok outcome => some
      { endpoint := outcome.endpoint
        waiting :=
          if server.endpoint.timers.length < outcome.endpoint.timers.length then
            server.waiting ++ [originOf connection message.frame]
          else server.waiting }
  | .fire index memory =>
    (delayedResponseCb protobuf memory server.endpoint index).map fun outcome =>
      { endpoint := outcome.endpoint, waiting := server.waiting.eraseIdx index }

/-- Requests and timers, in any order. -/
def serverMachine (protobuf : Protobuf) : Machine (Server δ κ χ) (ServerEvent χ) :=
  ⟨Server.step protobuf⟩

/-- Whatever memory the response object finds: a request is answered by one
message with its ids on its connection, or it arms one timer and is answered by
nothing yet; and a timer that fires answers the request that waits for it. -/
def Correlated (protobuf : Protobuf) (server : Server δ κ χ) : ServerEvent χ → Prop
  | .request connection message _ => ∀ indeterminate, ∃ outcome,
      receiveMessage protobuf indeterminate server.endpoint connection message.frame =
        .ok outcome ∧
      ((∃ write, outcome.writes = [write] ∧ write.Answers (originOf connection message.frame) ∧
          outcome.endpoint.timers = server.endpoint.timers) ∨
        (outcome.writes = [] ∧
          outcome.endpoint.timers.length = server.endpoint.timers.length + 1))
  | .fire index _ => ∀ memory outcome,
      delayedResponseCb protobuf memory server.endpoint index = some outcome →
      ∃ write origin, outcome.writes = [write] ∧ server.waiting[index]? = some origin ∧
        write.Answers origin

/-- A request is one for a delayed response. -/
def AsksForDelay (_ : Server δ κ χ) : ServerEvent χ → Prop
  | .request _ message _ =>
    message.frame.hdr.payloadType = MsgTypes.delayedResponseReq.code
  | .fire _ _ => True

/-- Every timer keeps the origin of the request that waits for it. -/
def Server.InStep (server : Server δ κ χ) : Prop :=
  server.waiting = server.endpoint.timers.map ReplySessionData.origin

section Requests

variable (protobuf : Protobuf) (server : Server δ κ χ) (connection : χ) (message : RequestMessage)
  (indeterminate : Indeterminate)

/-- Any other request is answered at once, with the ids of the response's memory. -/
theorem receive_immediate (oneField : protobuf.OneField)
    (immediate : message.frame.hdr.payloadType ≠ MsgTypes.delayedResponseReq.code) :
    ∃ outcome write,
      receiveMessage protobuf indeterminate server.endpoint connection message.frame =
        .ok outcome ∧ outcome.writes = [write] ∧
      write.pbmsg.hdr.sessionId = indeterminate.memory.hdr.sessionId := by
  have handled := receiveMessage_handled protobuf indeterminate server.endpoint connection
    message.frame message.wellFormed message.nonEmpty
  rcases message.payloadType with glcReq | publishReq | delayedReq
  · obtain ⟨write, llC, writes, carries⟩ := handleGlcReq_writes protobuf oneField
      indeterminate.memory server.endpoint connection message.frame
    exact ⟨_, write, (handled .handleGlcReq (by rw [glcReq]; decide)).trans
      (congrArg Except.ok writes), rfl, carries.sessionId⟩
  · obtain ⟨write, writes, carries⟩ := handlePublishReq_writes protobuf oneField
      indeterminate.memory server.endpoint connection
    exact ⟨_, write, (handled .handlePublishReq (by rw [publishReq]; decide)).trans
      (congrArg Except.ok writes), rfl, carries.sessionId⟩
  · exact absurd delayedReq immediate

end Requests

section Events

variable (protobuf : Protobuf) (oneField : protobuf.OneField) (server : Server δ κ χ)
  (inStep : server.InStep)
include oneField inStep

/-- A timer that fires answers the request that waits for it. -/
theorem fire_answers (index : Nat) (memory : PbMsg) (outcome : Outcome δ κ χ)
    (fired : delayedResponseCb protobuf memory server.endpoint index = some outcome) :
    ∃ write origin, outcome.writes = [write] ∧ server.waiting[index]? = some origin ∧
      write.Answers origin := by
  obtain ⟨replySessionData, armed, rfl⟩ :=
    (delayedResponseCb_some protobuf memory server.endpoint index outcome).mp fired
  have carries := sendAStdReply_carries protobuf oneField memory replySessionData
  refine ⟨_, replySessionData.origin, rfl, ?_,
    ⟨carries.connection, carries.sessionId, carries.randomId⟩⟩
  rw [inStep, List.getElem?_map, armed, Option.map_some]

/-- A step correlates, whatever the memory, exactly if it is not a request of one
of the two other types. For those, memory with another session id is the reason. -/
theorem correlated_iff (event : ServerEvent χ) :
    AsksForDelay server event ↔ Correlated protobuf server event := by
  cases event with
  | request connection message _ =>
    constructor
    · intro delayed indeterminate
      exact ⟨_, receiveMessage_delayed protobuf indeterminate server.endpoint connection
        message.frame message.wellFormed message.nonEmpty delayed, Or.inr ⟨rfl, List.length_append⟩⟩
    · intro correlated
      by_contra immediate
      let memory : PbMsg := ⟨⟨0, 0, 0, message.frame.hdr.sessionId + 1, 0, 0, 0⟩, []⟩
      obtain ⟨outcome, write, received, writes, sessionId⟩ := receive_immediate protobuf server
        connection message ⟨memory, none⟩ oneField immediate
      obtain ⟨other, same, answered⟩ := correlated ⟨memory, none⟩
      obtain rfl := Except.ok.inj (received.symm.trans same)
      rcases answered with ⟨only, written, answers, _⟩ | ⟨nothing, _⟩
      · obtain rfl : write = only := List.head_eq_of_cons_eq (writes.symm.trans written)
        have copied : message.frame.hdr.sessionId + 1 = message.frame.hdr.sessionId :=
          sessionId.symm.trans answers.sessionId
        simp at copied
      · rw [writes] at nothing
        cases nothing
  | fire index _ =>
    constructor
    · intro _ memory outcome fired
      exact fire_answers protobuf oneField server inStep index memory outcome fired
    · intro _
      trivial

omit oneField in
/-- Requests for delayed responses and timers keep timers and requests in step. -/
theorem step_inStep (event : ServerEvent χ) (next : Server δ κ χ)
    (asks : AsksForDelay server event)
    (moved : (serverMachine protobuf).step server event = some next) : next.InStep := by
  cases event with
  | request connection message indeterminate =>
    have received := receiveMessage_delayed protobuf indeterminate server.endpoint connection
      message.frame message.wellFormed message.nonEmpty asks
    simp only [serverMachine, Server.step, received, Option.some.injEq] at moved
    subst moved
    have more : server.endpoint.timers.length < (startNewTimer server.endpoint connection
        message.frame.hdr.sessionId message.frame.hdr.randomId).timers.length := by
      simp [startNewTimer]
    rw [Server.InStep, if_pos more, inStep]
    simp [startNewTimer, ReplySessionData.origin, originOf]
  | fire index memory =>
    obtain ⟨outcome, fired, rfl⟩ := Option.map_eq_some_iff.mp moved
    obtain ⟨replySessionData, armed, rfl⟩ :=
      (delayedResponseCb_some protobuf memory server.endpoint index outcome).mp fired
    rw [Server.InStep, inStep, List.eraseIdx_map]

end Events

/-- Along every run, whatever the memory of the response objects, each request is
answered by one message with its ids on its connection, exactly if every request
is one for a delayed response. -/
theorem correlated_run_iff (protobuf : Protobuf) (oneField : protobuf.OneField) (llC : UInt32)
    (sessions : SessionState δ κ) (events : List (ServerEvent χ)) :
    (serverMachine protobuf).Along (Correlated protobuf) (Server.start llC sessions) events ↔
      (serverMachine protobuf).Along AsksForDelay (Server.start llC sessions) events :=
  (serverMachine protobuf).along_iff_guard Server.InStep AsksForDelay (Correlated protobuf)
    (fun server event inStep => correlated_iff protobuf oneField server inStep event)
    (fun server event next inStep asks moved =>
      step_inStep protobuf server inStep event next asks moved)
    _ events rfl

/-- The delayed reply carries the ids of its request. -/
theorem correlated_run_delayed :
    (serverMachine WireCodec.protobuf).Along (Correlated WireCodec.protobuf)
      (Server.start 7 (SessionState.start (δ := Unit) (κ := Unit)))
      [.request () (twoByteRequest .delayedResponseReq (by decide)) untouched,
        .fire 0 untouched.memory] :=
  (correlated_run_iff WireCodec.protobuf WireCodec.protobuf_oneField 7 SessionState.start _).mpr
    ⟨rfl, fun _ _ => ⟨trivial, fun _ _ => trivial⟩⟩

/-- A publish request with session id 7 is answered with session id 0 if that is
what the response object's memory holds. -/
theorem publish_reply_uncorrelated :
    ¬ (serverMachine WireCodec.protobuf).Along (Correlated WireCodec.protobuf)
      (Server.start 7 (SessionState.start (δ := Unit) (κ := Unit)))
      [.request () (twoByteRequest .publishReq (by decide)) untouched] := by
  intro along
  obtain ⟨outcome, received, answered⟩ := along.1 untouched
  have ids : ((receiveMessage WireCodec.protobuf untouched
      (Server.start 7 (SessionState.start (δ := Unit) (κ := Unit))).endpoint ()
      (twoByteRequest .publishReq (by decide)).frame).map
        fun outcome => outcome.writes.map fun write => write.pbmsg.hdr.sessionId) = .ok [0] := by
    decide +kernel
  rw [received] at ids
  have sent : outcome.writes.map (fun write => write.pbmsg.hdr.sessionId) = [0] := Except.ok.inj ids
  rcases answered with ⟨write, writes, answers, _⟩ | ⟨nothing, _⟩
  · rw [writes] at sent
    have zero : write.pbmsg.hdr.sessionId = 0 := List.head_eq_of_cons_eq sent
    exact absurd (zero.symm.trans answers.sessionId) (by decide)
  · rw [nothing] at sent
    cases sent

end Evlpc
