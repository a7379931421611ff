import Evlpc.Handlers
import Evlpc.SessionRuns
import Evlpc.WireCodec

/-!
# The delayed-response protocol

A client makes sessions and sends their ids in requests on its connections; the
servers at the other ends arm a timer for each request and answer when it fires.
Requests and replies are delivered whole and in any order, timers fire in any
order, and all replies come from these servers.

An outstanding session has one token in the system: its request, its timer or its
reply. Every step passes tokens on, makes one together with a session, or consumes
one together with a session, so the tokens are always the outstanding sessions in
some order. Since their ids differ, a reply finds exactly its own session.
-/

namespace Evlpc

open Library

universe u v w
variable {δ : Type u} {κ : Type v} {χ : Type w}

/-- The client's severity, its sessions with their connections and data, the
servers, and the messages under way. -/
structure Network (δ : Type u) (κ : Type v) (χ : Type w) where
  llC : UInt32
  ledger : Ledger (χ × δ) κ
  servers : List (Endpoint δ κ χ)
  requests : List (χ × Frame)
  replies : List (χ × Frame)

/-- The client makes a session and sends its request on a connection; a request or
a reply is delivered; or a timer of a server fires. -/
inductive NetworkEvent (δ : Type u) (κ : Type v) (χ : Type w) where
  | request (connection : χ) (data : δ) (r : UInt32) (cb : κ) (currentTimeSec : UInt32)
      (delay : Int32) (memory : PbMsg)
  | deliverRequest (index : Nat) (indeterminate : Indeterminate)
  | fire (server index : Nat) (memory : PbMsg)
  | deliverReply (index : Nat) (indeterminate : Indeterminate)

/-- A client without sessions, and servers without timers. -/
def Network.start (llC : UInt32) (servers : List (UInt32 × SessionState δ κ)) : Network δ κ χ where
  llC := llC
  ledger := Ledger.start
  servers := servers.map fun server => ⟨server.1, server.2, []⟩
  requests := []
  replies := []

/-- The client as an endpoint. -/
def Network.client (network : Network δ κ χ) : Endpoint (Nat × (χ × δ)) κ χ :=
  ⟨network.llC, network.ledger.sessions, []⟩

/-- The request of a session, built and written as `delayed_response_test` does. -/
def delayedResponseReq (protobuf : Protobuf) (connection : χ) (sid r : UInt32) (delay : Int32)
    (memory : PbMsg) : Write χ :=
  let req := A1DelayedResponse.construct memory MsgTypes.delayedResponseReq.code
  let hdr := { req.pbmsg.hdr with sessionId := sid, randomId := r }
  let req : A1DelayedResponse :=
    { message := ⟨some delay⟩, pbmsg := { req.pbmsg with hdr := hdr } }
  writeObject connection (A1DelayedResponse.makeMsg protobuf req)

/-- Written messages, under way with their connections. -/
def underWay (writes : List (Write χ)) : List (χ × Frame) :=
  writes.map fun write => (write.connection, write.pbmsg)

/-- The effect of an event. A session is made only while fewer than `MAX_SESSIONS`
are outstanding; `peer` says which server is at the other end of a connection. -/
def Network.step (protobuf : Protobuf) (peer : χ → Nat) (network : Network δ κ χ) :
    NetworkEvent δ κ χ → Option (Network δ κ χ)
  | .request connection data r cb currentTimeSec delay memory =>
    if network.ledger.outstanding.length < maxSessions then
      match makeNewSession network.ledger.sessions (network.ledger.created, (connection, data)) r cb
        currentTimeSec with
      | .error _ => none
      | .ok (sid, sessions) => some { network with
          ledger :=
            { sessions := sessions
              created := network.ledger.created + 1
              outstanding := ⟨sid, r, (network.ledger.created, (connection, data)), cb⟩ ::
                network.ledger.outstanding
              answered := network.ledger.answered }
          requests := network.requests ++
            underWay [delayedResponseReq protobuf connection sid r delay memory] }
    else none
  | .deliverRequest index indeterminate =>
    match network.requests[index]? with
    | none => none
    | some (connection, message) =>
      match network.servers[peer connection]? with
      | none => none
      | some server =>
        match receiveMessage protobuf indeterminate server connection message with
        | .error _ => none
        | .ok outcome => some { network with
            servers := network.servers.set (peer connection) outcome.endpoint
            requests := network.requests.eraseIdx index
            replies := network.replies ++ underWay outcome.writes }
  | .fire server index memory =>
    match network.servers[server]? with
    | none => none
    | some endpoint =>
      match delayedResponseCb protobuf memory endpoint index with
      | none => none
      | some outcome => some { network with
          servers := network.servers.set server outcome.endpoint
          replies := network.replies ++ underWay outcome.writes }
  | .deliverReply index indeterminate =>
    match network.replies[index]? with
    | none => none
    | some (connection, message) =>
      match receiveMessage protobuf indeterminate network.client connection message with
      | .error _ => none
      | .ok outcome => some { network with
          llC := outcome.endpoint.llC
          ledger := outcome.callbacks.foldl
            (fun ledger run => ledger.record (some (run.cb, run.data)))
            { network.ledger with sessions := outcome.endpoint.sessions }
          requests := network.requests ++ underWay outcome.writes
          replies := network.replies.eraseIdx index }

/-- Requests, timers and replies, in any order. -/
def networkMachine (protobuf : Protobuf) (peer : χ → Nat) :
    Machine (Network δ κ χ) (NetworkEvent δ κ χ) :=
  ⟨Network.step protobuf peer⟩

/-- The origins of messages under way. -/
def origins (messages : List (χ × Frame)) : List (Origin χ) :=
  messages.map fun message => originOf message.1 message.2

/-- The origins that the timers of the servers keep. -/
def timerOrigins (servers : List (Endpoint δ κ χ)) : List (Origin χ) :=
  servers.flatMap fun server => server.timers.map ReplySessionData.origin

/-- The tokens in the system. -/
def Network.tokens (network : Network δ κ χ) : List (Origin χ) :=
  origins network.requests ++ (timerOrigins network.servers ++ origins network.replies)

/-- The token of a session: the connection of its request, its id and its magic. -/
def ObSession.origin (session : ObSession (Nat × (χ × δ)) κ) : Origin χ :=
  ⟨session.data.2.1, session.sid, session.magic⟩

/-- What the protocol guarantees in every state. Outstanding sessions have
different ids; each has exactly one token, with its id, its magic and the
connection of its request, and there are no other tokens; and when there are none,
the callback of every session made has run exactly once. -/
structure Network.Matched (network : Network δ κ χ) : Prop where
  distinct : (network.ledger.outstanding.map ObSession.sid).Nodup
  tokens : network.tokens.Perm (network.ledger.outstanding.map ObSession.origin)
  one : ∀ session ∈ network.ledger.outstanding,
    network.tokens.filter (fun token => token.sessionId == session.sid) = [session.origin]
  settled : network.tokens = [] →
    network.ledger.answered.Perm (List.range network.ledger.created)

/-- What it guarantees of every step. A request can be made and every message be
handled; and a reply runs the callback of the session it belongs to, on that
session's data and connection, and nothing else. -/
def RunsItsOwn (protobuf : Protobuf) (peer : χ → Nat) (network : Network δ κ χ) :
    NetworkEvent δ κ χ → Prop
  | .request connection data r cb currentTimeSec _ _ =>
    network.ledger.outstanding.length < maxSessions → ∃ sid sessions,
      makeNewSession network.ledger.sessions (network.ledger.created, (connection, data)) r cb
        currentTimeSec = .ok (sid, sessions)
  | .deliverRequest index indeterminate => ∀ connection message server,
      network.requests[index]? = some (connection, message) →
      network.servers[peer connection]? = some server →
      ∃ outcome, receiveMessage protobuf indeterminate server connection message = .ok outcome
  | .fire _ _ _ => True
  | .deliverReply index indeterminate => ∀ connection message,
      network.replies[index]? = some (connection, message) →
      ∃ session ∈ network.ledger.outstanding, ∃ endpoint,
        session.origin = originOf connection message ∧
        receiveMessage protobuf indeterminate network.client connection message =
          .ok ⟨endpoint, [], [⟨session.cb, some session.data, connection, message⟩]⟩

/-- A whole message with a payload, of a given type. -/
structure Whole (payloadType : UInt32) (message : Frame) : Prop where
  wellFormed : message.WellFormed
  nonEmpty : message.payload ≠ []
  payloadType : message.hdr.payloadType = payloadType

/-- The invariant: client and ledger agree, the tokens are the outstanding
sessions, and the messages under way are requests and replies of the protocol. -/
structure Network.Invariant (network : Network δ κ χ) : Prop where
  sound : network.ledger.Sound
  tokens : network.tokens.Perm (network.ledger.outstanding.map ObSession.origin)
  requests : ∀ message ∈ network.requests, Whole MsgTypes.delayedResponseReq.code message.2
  replies : ∀ message ∈ network.replies, Whole MsgTypes.stdReply.code message.2

/-- At the start there are no sessions and nothing is under way. -/
theorem start_invariant (llC : UInt32) (servers : List (UInt32 × SessionState δ κ)) :
    (Network.start (χ := χ) llC servers).Invariant where
  sound := start_sound
  tokens := by
    have none : timerOrigins (Network.start (χ := χ) llC servers).servers = [] := by
      rw [timerOrigins, List.flatMap_eq_nil_iff]
      intro server member
      obtain ⟨_, _, rfl⟩ := List.mem_map.mp member
      rfl
    rw [Network.tokens, none]
    exact List.Perm.refl _
  requests := by simp [Network.start]
  replies := by simp [Network.start]

section Tokens

/-- Taking a message out takes its token out. -/
theorem origins_eraseIdx (messages : List (χ × Frame)) (index : Nat) (connection : χ)
    (message : Frame) (found : messages[index]? = some (connection, message)) :
    (origins messages).Perm (originOf connection message :: origins (messages.eraseIdx index)) :=
  (perm_cons_eraseIdx messages index _ found).map fun (message : χ × Frame) =>
    originOf message.1 message.2

/-- Writing a message adds a token. -/
theorem origins_write (messages : List (χ × Frame)) (write : Write χ) :
    (origins (messages ++ underWay [write])).Perm
      (originOf write.connection write.pbmsg :: origins messages) := by
  rw [origins, List.map_append]
  exact List.perm_append_singleton _ _

/-- Arming a timer adds its token. -/
theorem timerOrigins_arm (servers : List (Endpoint δ κ χ)) (index : Nat) (server : Endpoint δ κ χ)
    (found : servers[index]? = some server) (connection : χ) (sid rid : UInt32) :
    (timerOrigins (servers.set index (startNewTimer server connection sid rid))).Perm
      (⟨connection, sid, rid⟩ :: timerOrigins servers) := by
  have replaced := flatMap_set_perm (fun server => server.timers.map ReplySessionData.origin)
    servers index server (startNewTimer server connection sid rid) found
  rw [startNewTimer, List.map_append, List.append_assoc] at replaced
  exact (List.perm_append_left_iff _).mp replaced

/-- A timer that fired takes its token out. -/
theorem timerOrigins_fire (servers : List (Endpoint δ κ χ)) (index : Nat) (server : Endpoint δ κ χ)
    (found : servers[index]? = some server) (timer : Nat) (replySessionData : ReplySessionData χ)
    (armed : server.timers[timer]? = some replySessionData) :
    (timerOrigins servers).Perm (replySessionData.origin :: timerOrigins
      (servers.set index { server with timers := server.timers.eraseIdx timer })) := by
  have replaced := flatMap_set_perm (fun server => server.timers.map ReplySessionData.origin)
    servers index server { server with timers := server.timers.eraseIdx timer } found
  have timers : (server.timers.map ReplySessionData.origin).Perm (replySessionData.origin ::
      (server.timers.eraseIdx timer).map ReplySessionData.origin) :=
    (perm_cons_eraseIdx server.timers timer _ armed).map ReplySessionData.origin
  have split := (List.Perm.append_right _ timers.symm).trans replaced
  rw [List.cons_append] at split
  exact ((List.perm_append_left_iff _).mp (List.perm_middle.trans split)).symm

end Tokens

section Steps

variable (protobuf : Protobuf) (peer : χ → Nat) (network : Network δ κ χ)
  (invariant : network.Invariant)

/-- A written message of the protocol is whole. -/
theorem whole_underWay (messages : List (χ × Frame)) (write : Write χ) (connection : χ)
    (payloadType sid rid : UInt32)
    (whole : ∀ message ∈ messages, Whole payloadType message.2)
    (carries : Carries write connection payloadType sid rid) :
    ∀ message ∈ messages ++ underWay [write], Whole payloadType message.2 := by
  intro message member
  rcases List.mem_append.mp member with earlier | new
  · exact whole message earlier
  · obtain rfl := List.mem_singleton.mp new
    exact ⟨carries.wellFormed, carries.nonEmpty, carries.payloadType⟩

/-- A request carries the ids of its session. -/
theorem delayedResponseReq_carries (oneField : protobuf.OneField) (connection : χ) (sid r : UInt32)
    (delay : Int32) (memory : PbMsg) :
    Carries (delayedResponseReq protobuf connection sid r delay memory) connection
      MsgTypes.delayedResponseReq.code sid r :=
  writeObject_carries _ oneField.delayedResponse_size connection _
    (oneField.delayedResponse_field delay)

include invariant

/-- A request can be made, and with it a session and its token. -/
theorem request_step (oneField : protobuf.OneField) (connection : χ) (data : δ) (r : UInt32)
    (cb : κ) (currentTimeSec : UInt32) (delay : Int32) (memory : PbMsg)
    (room : network.ledger.outstanding.length < maxSessions) :
    ∃ sid sessions next,
      makeNewSession network.ledger.sessions (network.ledger.created, (connection, data)) r cb
        currentTimeSec = .ok (sid, sessions) ∧
      network.step protobuf peer (.request connection data r cb currentTimeSec delay memory) =
        some next ∧ next.Invariant := by
  obtain ⟨⟨sid, sessions, made, _⟩, ledger, step, sound, _⟩ := make_sound network.ledger
    invariant.sound (connection, data) r cb currentTimeSec room
  rw [Ledger.step, made] at step
  obtain rfl := Option.some.inj step
  have carries := delayedResponseReq_carries protobuf oneField connection sid r delay memory
  refine ⟨sid, sessions, _, made, by rw [Network.step, if_pos room, made], ?_⟩
  refine ⟨sound, ?_, whole_underWay _ _ _ _ _ _ invariant.requests carries, invariant.replies⟩
  have token : originOf (delayedResponseReq protobuf connection sid r delay memory).connection
      (delayedResponseReq protobuf connection sid r delay memory).pbmsg = ⟨connection, sid, r⟩ := by
    rw [originOf, carries.connection, carries.sessionId, carries.randomId]
  have sent := origins_write network.requests
    (delayedResponseReq protobuf connection sid r delay memory)
  rw [token] at sent
  exact (List.Perm.append_right _ sent).trans (List.Perm.cons _ invariant.tokens)

/-- A request that is delivered becomes a timer. -/
theorem deliverRequest_step (index : Nat) (indeterminate : Indeterminate) (connection : χ)
    (message : Frame) (server : Endpoint δ κ χ)
    (found : network.requests[index]? = some (connection, message))
    (reached : network.servers[peer connection]? = some server) :
    ∃ outcome next, receiveMessage protobuf indeterminate server connection message = .ok outcome ∧
      network.step protobuf peer (.deliverRequest index indeterminate) = some next ∧
      next.Invariant := by
  have whole := invariant.requests _ (List.mem_of_getElem? found)
  have received := receiveMessage_delayed protobuf indeterminate server connection message
    whole.wellFormed whole.nonEmpty whole.payloadType
  refine ⟨_, _, received, by simp only [Network.step, found, reached, received]; rfl, ?_⟩
  refine ⟨invariant.sound, ?_, fun message member =>
    invariant.requests message (List.mem_of_mem_eraseIdx member), ?_⟩
  · have taken := origins_eraseIdx network.requests index connection message found
    have armed := timerOrigins_arm network.servers (peer connection) server reached connection
      message.hdr.sessionId message.hdr.randomId
    refine List.Perm.trans ?_ invariant.tokens
    simp only [Network.tokens, underWay, List.map_nil, List.append_nil]
    refine (List.Perm.append_left _ (List.Perm.append_right _ armed)).trans ?_
    exact List.perm_middle.trans (List.Perm.append_right _ taken.symm)
  · simpa [underWay] using invariant.replies

/-- A timer that fires becomes a reply. -/
theorem fire_step (oneField : protobuf.OneField) (server index : Nat) (memory : PbMsg)
    (endpoint : Endpoint δ κ χ) (replySessionData : ReplySessionData χ)
    (found : network.servers[server]? = some endpoint)
    (armed : endpoint.timers[index]? = some replySessionData) :
    ∃ next, network.step protobuf peer (.fire server index memory) = some next ∧
      next.Invariant := by
  have carries := sendAStdReply_carries protobuf oneField memory replySessionData
  refine ⟨_, by simp only [Network.step, found, delayedResponseCb, armed]; rfl, ?_⟩
  refine ⟨invariant.sound, ?_, invariant.requests,
    whole_underWay _ _ _ _ _ _ invariant.replies carries⟩
  have token : originOf (sendAStdReply protobuf memory replySessionData).connection
      (sendAStdReply protobuf memory replySessionData).pbmsg = replySessionData.origin := by
    rw [originOf, carries.connection, carries.sessionId, carries.randomId, ReplySessionData.origin]
  have sent := origins_write network.replies (sendAStdReply protobuf memory replySessionData)
  rw [token] at sent
  have fired := timerOrigins_fire network.servers server endpoint found index replySessionData armed
  refine List.Perm.trans (List.Perm.append_left _ ?_) invariant.tokens
  refine (List.Perm.append_left _ sent).trans ?_
  exact List.perm_middle.trans (List.Perm.append_right _ fired.symm)

/-- A reply that is delivered finds its own session, and ends it. -/
theorem deliverReply_step (index : Nat) (indeterminate : Indeterminate) (connection : χ)
    (message : Frame) (found : network.replies[index]? = some (connection, message)) :
    ∃ session ∈ network.ledger.outstanding, ∃ endpoint next,
      session.origin = originOf connection message ∧
      receiveMessage protobuf indeterminate network.client connection message =
        .ok ⟨endpoint, [], [⟨session.cb, some session.data, connection, message⟩]⟩ ∧
      network.step protobuf peer (.deliverReply index indeterminate) = some next ∧
      next.Invariant := by
  have taken := origins_eraseIdx network.replies index connection message found
  have consumed : (originOf connection message :: (origins network.requests ++
      (timerOrigins network.servers ++ origins (network.replies.eraseIdx index)))).Perm
      (network.ledger.outstanding.map ObSession.origin) := by
    refine List.Perm.trans ?_ invariant.tokens
    refine List.perm_middle.symm.trans (List.Perm.append_left _ ?_)
    exact List.perm_middle.symm.trans (List.Perm.append_left _ taken.symm)
  obtain ⟨session, member, origin⟩ := List.mem_map.mp (consumed.mem_iff.mp List.mem_cons_self)
  have sid : session.sid = message.hdr.sessionId := congrArg Origin.sessionId origin
  have magic : session.magic = message.hdr.randomId := congrArg Origin.randomId origin
  obtain ⟨table, answered, sound⟩ := reply_sound network.ledger invariant.sound session member
    indeterminate.stray
  have whole := invariant.replies _ (List.mem_of_getElem? found)
  have received := receiveMessage_handled protobuf indeterminate network.client connection message
    whole.wellFormed whole.nonEmpty .handleStdReply (by rw [whole.payloadType]; decide)
  rw [sid, magic] at answered
  simp only [callHandler, handleStdReply, Network.client, answered] at received
  refine ⟨session, member, _, _, origin, received,
    by simp only [Network.step, Network.client, found, received]; rfl, ?_⟩
  refine ⟨sound, ?_, ?_, fun message member =>
    invariant.replies message (List.mem_of_mem_eraseIdx member)⟩
  · have rest := perm_cons_filter (fun session => session.data.1) network.ledger.outstanding session
      member invariant.sound.numbers
    have ended := consumed.trans (rest.map ObSession.origin)
    rw [List.map_cons, origin] at ended
    simp only [Network.tokens, underWay, List.map_nil, List.append_nil]
    exact (List.perm_cons _).mp ended
  · simpa [underWay] using invariant.requests

/-- What the invariant says of the state. -/
theorem matched_of_invariant : network.Matched where
  distinct := invariant.sound.consistent.sids_nodup
  tokens := invariant.tokens
  one := by
    intro session member
    have rest := perm_cons_filter ObSession.sid network.ledger.outstanding session member
      invariant.sound.consistent.sids_nodup
    have tokens := invariant.tokens.trans (rest.map ObSession.origin)
    have others : ((network.ledger.outstanding.filter (ObSession.sid · != session.sid)).map
        ObSession.origin).filter (fun token => token.sessionId == session.sid) = [] := by
      rw [List.filter_eq_nil_iff]
      intro token other
      obtain ⟨session, kept, rfl⟩ := List.mem_map.mp other
      simpa [ObSession.origin] using (List.mem_filter.mp kept).2
    have found := tokens.filter fun token => token.sessionId == session.sid
    rw [List.map_cons, List.filter_cons_of_pos (by simp [ObSession.origin]), others] at found
    exact found.eq_singleton
  settled := by
    intro none
    have tokens := invariant.tokens
    rw [none] at tokens
    have settled : network.ledger.outstanding = [] := List.map_eq_nil_iff.mp tokens.nil_eq.symm
    have accounted := invariant.sound.accounted
    rwa [settled, List.map_nil, List.append_nil] at accounted

end Steps

section Runs

variable (protobuf : Protobuf) (oneField : protobuf.OneField) (peer : χ → Nat)
  (network : Network δ κ χ) (invariant : network.Invariant)
include oneField invariant

/-- Every step keeps the invariant. -/
theorem network_step_invariant (event : NetworkEvent δ κ χ) (next : Network δ κ χ)
    (moved : (networkMachine protobuf peer).step network event = some next) : next.Invariant := by
  cases event with
  | request connection data r cb currentTimeSec delay memory =>
    by_cases room : network.ledger.outstanding.length < maxSessions
    · obtain ⟨_, _, other, _, step, holds⟩ := request_step protobuf peer network invariant oneField
        connection data r cb currentTimeSec delay memory room
      exact Option.some.inj (step.symm.trans moved) ▸ holds
    · simp only [networkMachine, Network.step, if_neg room] at moved
      cases moved
  | deliverRequest index indeterminate =>
    cases found : network.requests[index]? with
    | none =>
      simp only [networkMachine, Network.step, found] at moved
      cases moved
    | some request =>
      obtain ⟨connection, message⟩ := request
      cases reached : network.servers[peer connection]? with
      | none =>
        simp only [networkMachine, Network.step, found, reached] at moved
        cases moved
      | some server =>
        obtain ⟨_, other, _, step, holds⟩ := deliverRequest_step protobuf peer network invariant
          index indeterminate connection message server found reached
        exact Option.some.inj (step.symm.trans moved) ▸ holds
  | fire server index memory =>
    cases found : network.servers[server]? with
    | none =>
      simp only [networkMachine, Network.step, found] at moved
      cases moved
    | some endpoint =>
      cases armed : endpoint.timers[index]? with
      | none =>
        simp only [networkMachine, Network.step, found, delayedResponseCb, armed] at moved
        cases moved
      | some replySessionData =>
        obtain ⟨other, step, holds⟩ := fire_step protobuf peer network invariant oneField server
          index memory endpoint replySessionData found armed
        exact Option.some.inj (step.symm.trans moved) ▸ holds
  | deliverReply index indeterminate =>
    cases found : network.replies[index]? with
    | none =>
      simp only [networkMachine, Network.step, found] at moved
      cases moved
    | some reply =>
      obtain ⟨connection, message⟩ := reply
      obtain ⟨_, _, _, other, _, _, step, holds⟩ := deliverReply_step protobuf peer network
        invariant index indeterminate connection message found
      exact Option.some.inj (step.symm.trans moved) ▸ holds

/-- Under the invariant every step can be made, and replies run their own sessions. -/
theorem runsItsOwn_of_invariant (event : NetworkEvent δ κ χ) :
    RunsItsOwn protobuf peer network event := by
  cases event with
  | request connection data r cb currentTimeSec delay memory =>
    intro room
    obtain ⟨sid, sessions, _, made, _⟩ := request_step protobuf peer network invariant oneField
      connection data r cb currentTimeSec delay memory room
    exact ⟨sid, sessions, made⟩
  | deliverRequest index indeterminate =>
    intro connection message server found reached
    obtain ⟨outcome, _, received, _⟩ := deliverRequest_step protobuf peer network invariant index
      indeterminate connection message server found reached
    exact ⟨outcome, received⟩
  | fire server index memory => trivial
  | deliverReply index indeterminate =>
    intro connection message found
    obtain ⟨session, member, endpoint, _, origin, received, _⟩ := deliverReply_step protobuf peer
      network invariant index indeterminate connection message found
    exact ⟨session, member, endpoint, origin, received⟩

end Runs

/-- In every state that any run reaches, outstanding sessions and tokens match one
to one, and when no token is left every session's callback has run exactly once;
and every reply along the run runs the callback of its own session. -/
theorem delayed_replies_matched (protobuf : Protobuf) (oneField : protobuf.OneField)
    (peer : χ → Nat) (llC : UInt32) (servers : List (UInt32 × SessionState δ κ))
    (events : List (NetworkEvent δ κ χ)) :
    (networkMachine protobuf peer).Along (RunsItsOwn protobuf peer) (Network.start llC servers)
        events ∧
      ∀ final, (networkMachine protobuf peer).run (Network.start llC servers) events =
        some final → final.Matched := by
  have preserved : ∀ (network : Network δ κ χ) event next, network.Invariant →
      (networkMachine protobuf peer).step network event = some next → next.Invariant :=
    fun network event next invariant moved =>
      network_step_invariant protobuf oneField peer network invariant event next moved
  have initial := start_invariant (χ := χ) llC servers
  constructor
  · exact (networkMachine protobuf peer).along_of_invariant Network.Invariant _
      (fun network event invariant =>
        runsItsOwn_of_invariant protobuf oneField peer network invariant event)
      preserved _ events initial
  · intro final reached
    exact matched_of_invariant final ((networkMachine protobuf peer).run_invariant
      Network.Invariant preserved _ final events initial reached)

/-- Two requests on two connections to one server, answered in the other order. -/
def answeredInTurn : List (NetworkEvent Unit Unit Bool) :=
  [.request true () 7 () 0 3 untouched.memory, .request false () 7 () 0 3 untouched.memory,
    .deliverRequest 1 untouched, .deliverRequest 0 untouched, .fire 0 0 untouched.memory,
    .fire 0 0 untouched.memory, .deliverReply 0 untouched, .deliverReply 0 untouched]

/-- Both requests are answered, and every token is matched. -/
theorem delayed_replies_matched_two :
    ∃ final, (networkMachine WireCodec.protobuf fun _ => 0).run
        (Network.start 7 [(7, SessionState.start)]) answeredInTurn = some final ∧
      final.Matched := by
  have ends : ((networkMachine WireCodec.protobuf fun _ => 0).run
      (Network.start 7 [(7, SessionState.start)]) answeredInTurn).isSome := by
    decide +kernel
  obtain ⟨final, reached⟩ := Option.isSome_iff_exists.mp ends
  exact ⟨final, reached, (delayed_replies_matched WireCodec.protobuf WireCodec.protobuf_oneField
    (fun _ => 0) 7 [(7, SessionState.start)] answeredInTurn).2 final reached⟩

end Evlpc
