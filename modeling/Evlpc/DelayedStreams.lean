import Evlpc.DelayedProtocol
import Evlpc.StreamReads

/-!
# The delayed-response protocol on byte streams

Each connection of the client to a server is a stream of bytes in either direction. A
read of a server handles the requests it completes, and a read of the client the replies.
As long as nothing is left over when a read begins, the runs are those of the protocol of
messages: requests and replies are delivered in the order in which they were written on
their connection. So no read meets a fault, every reply runs the callback of its own
session, and when nothing is under way and no timer is armed, the callback of every session
has run once.
-/

namespace Evlpc

open Library Channels

universe u v w
variable {δ : Type u} {κ : Type v} {χ : Type w}

/-- The client's severity, its sessions with their connections and data, the servers, and
the streams of the connections to the servers and back. -/
structure StreamNetwork (δ : Type u) (κ : Type v) (χ : Type w) where
  llC : UInt32
  ledger : Ledger (χ × δ) κ
  servers : List (Endpoint δ κ χ)
  requests : Streams χ
  replies : Streams χ

/-- The client makes a session and sends its request on a connection; a server or the client
reads from a connection; or a timer of a server fires. -/
inductive StreamNetworkEvent (δ : Type u) (κ : Type v) (χ : Type w) where
  | request (connection : χ) (data : δ) (r : UInt32) (cb : κ) (currentTimeSec : UInt32)
      (delay : Int32) (memory : PbMsg)
  | serverRead (connection : χ) (suggestedSize : UInt64) (count : Nat)
      (memories : Nat → Indeterminate)
  | fire (server index : Nat) (memory : PbMsg)
  | clientRead (connection : χ) (suggestedSize : UInt64) (count : Nat)
      (memories : Nat → Indeterminate)

/-- The ledger with another table. -/
def Ledger.withSessions (ledger : Ledger δ κ) (sessions : SessionState (Nat × δ) κ) :
    Ledger δ κ :=
  { ledger with sessions := sessions }

/-- Record whose callbacks were run. -/
def Ledger.recordRuns (ledger : Ledger (χ × δ) κ)
    (callbacks : List (CallbackRun (Nat × (χ × δ)) κ χ)) : Ledger (χ × δ) κ :=
  callbacks.foldl (fun ledger run => ledger.record (some (run.cb, run.data))) ledger

namespace StreamNetwork

/-- A client without sessions, servers without timers, and new connections. -/
def start (llC : UInt32) (servers : List (UInt32 × SessionState δ κ))
    (serverMemory clientMemory : χ → Store UInt8) (rxBufSize : χ → UInt32) :
    StreamNetwork δ κ χ where
  llC := llC
  ledger := Ledger.start
  servers := servers.map fun server => ⟨server.1, server.2, []⟩
  requests := Streams.opened serverMemory rxBufSize
  replies := Streams.opened clientMemory rxBufSize

/-- The client as an endpoint. -/
def client (network : StreamNetwork δ κ χ) : Endpoint (Nat × (χ × δ)) κ χ :=
  ⟨network.llC, network.ledger.sessions, []⟩

variable [DecidableEq χ]

/-- The effect of an event. A session is made only while fewer than `MAX_SESSIONS` are
outstanding, and a read that meets a fault has no effect that is defined. -/
def step (protobuf : Protobuf) (peer : χ → Nat) (network : StreamNetwork δ κ χ) :
    StreamNetworkEvent δ κ χ → Option (StreamNetwork δ κ χ)
  | .request connection data r cb currentTimeSec delay memory =>
    if network.ledger.outstanding.length < maxSessions then
      match makeNewSession network.ledger.sessions (network.ledger.created, (connection, data)) r cb
        currentTimeSec with
      | .error _ => none
      | .ok (sid, sessions) => some { network with
          ledger :=
            { sessions := sessions
              created := network.ledger.created + 1
              outstanding := ⟨sid, r, (network.ledger.created, (connection, data)), cb⟩ ::
                network.ledger.outstanding
              answered := network.ledger.answered }
          requests := network.requests.send
            (underWay [delayedResponseReq protobuf connection sid r delay memory]) }
    else none
  | .serverRead connection suggestedSize count memories =>
    match network.servers[peer connection]? with
    | none => none
    | some server =>
      (readHandled protobuf connection memories server (network.requests.rxBuf connection)
        (network.requests.reading connection suggestedSize count)).bind fun read =>
          read.2.endpoint.map fun endpoint => { network with
            servers := network.servers.set (peer connection) endpoint
            requests := network.requests.take connection count read.1
            replies := network.replies.send (underWay read.2.writes) }
  | .fire server index memory =>
    match network.servers[server]? with
    | none => none
    | some endpoint =>
      match delayedResponseCb protobuf memory endpoint index with
      | none => none
      | some outcome => some { network with
          servers := network.servers.set server outcome.endpoint
          replies := network.replies.send (underWay outcome.writes) }
  | .clientRead connection suggestedSize count memories =>
    (readHandled protobuf connection memories network.client (network.replies.rxBuf connection)
      (network.replies.reading connection suggestedSize count)).bind fun read =>
        read.2.endpoint.map fun endpoint => { network with
          llC := endpoint.llC
          ledger := (network.ledger.withSessions endpoint.sessions).recordRuns read.2.callbacks
          requests := network.requests.send (underWay read.2.writes)
          replies := network.replies.take connection count read.1 }

/-- Requests, reads and timers, in any order. -/
def machine (protobuf : Protobuf) (peer : χ → Nat) :
    Machine (StreamNetwork δ κ χ) (StreamNetworkEvent δ κ χ) :=
  ⟨step protobuf peer⟩

/-- Nothing is left over when a read begins. -/
def ReadsClean (network : StreamNetwork δ κ χ) : StreamNetworkEvent δ κ χ → Prop
  | .serverRead connection _ _ _ => (network.requests.rxBuf connection).leftoverDataSize = 0
  | .clientRead connection _ _ _ => (network.replies.rxBuf connection).leftoverDataSize = 0
  | .request _ _ _ _ _ _ _ => True
  | .fire _ _ _ => True

instance (network : StreamNetwork δ κ χ) :
    (event : StreamNetworkEvent δ κ χ) → Decidable (network.ReadsClean event)
  | .serverRead _ _ _ _ => inferInstanceAs (Decidable (_ = _))
  | .clientRead _ _ _ _ => inferInstanceAs (Decidable (_ = _))
  | .request _ _ _ _ _ _ _ => isTrue trivial
  | .fire _ _ _ => isTrue trivial

/-- A session can be made if there is room for it, and a read happens, without a fault, if
it fits the part of the buffer that libuv is given. -/
def Succeeds (protobuf : Protobuf) (peer : χ → Nat) (network : StreamNetwork δ κ χ)
    (event : StreamNetworkEvent δ κ χ) : Prop :=
  match event with
  | .request _ _ _ _ _ _ _ => network.ledger.outstanding.length < maxSessions →
      (network.step protobuf peer event).isSome
  | .serverRead connection suggestedSize count _ =>
    (network.servers[peer connection]?).isSome →
      (network.requests.reading connection suggestedSize count).bytes.length ≤
        (allocBuffer (network.requests.rxBuf connection) suggestedSize).2.len.toNat →
      (network.step protobuf peer event).isSome
  | .clientRead connection suggestedSize count _ =>
      (network.replies.reading connection suggestedSize count).bytes.length ≤
        (allocBuffer (network.replies.rxBuf connection) suggestedSize).2.len.toNat →
      (network.step protobuf peer event).isSome
  | .fire _ _ _ => True

/-- Nothing is under way or left over, and no timer is armed. -/
structure Quiet (network : StreamNetwork δ κ χ) : Prop where
  requests : ∀ connection, network.requests.bytes connection = [] ∧
    (network.requests.rxBuf connection).leftoverDataSize = 0
  replies : ∀ connection, network.replies.bytes connection = [] ∧
    (network.replies.rxBuf connection).leftoverDataSize = 0
  timers : ∀ server ∈ network.servers, server.timers = []

end StreamNetwork

section Recording

/-- Recording a callback does not look at the table. -/
theorem record_sessions (ledger : Ledger δ κ) (sessions : SessionState (Nat × δ) κ)
    (called : Option (κ × Option (Nat × δ))) :
    (ledger.withSessions sessions).record called =
      (ledger.record called).withSessions sessions := by
  rcases called with _ | ⟨cb, _ | ⟨number, data⟩⟩ <;> rfl

variable (ledger : Ledger (χ × δ) κ) (between sessions : SessionState (Nat × (χ × δ)) κ)
  (first second : List (CallbackRun (Nat × (χ × δ)) κ χ))

/-- Which callbacks have run does not depend on the sessions. -/
theorem recordRuns_sessions :
    (ledger.withSessions sessions).recordRuns first =
      (ledger.recordRuns first).withSessions sessions := by
  induction first generalizing ledger with
  | nil => rfl
  | cons run first inductionHypothesis =>
    rw [Ledger.recordRuns, List.foldl_cons, record_sessions]
    exact inductionHypothesis _

/-- Callbacks recorded after each other, with the tables that they leave, are recorded
together with the last table. -/
theorem recordRuns_twice :
    (((ledger.withSessions between).recordRuns first).withSessions sessions).recordRuns second =
      (ledger.withSessions sessions).recordRuns (first ++ second) := by
  have together : (ledger.withSessions sessions).recordRuns (first ++ second) =
      ((ledger.withSessions sessions).recordRuns first).recordRuns second :=
    List.foldl_append
  rw [together, recordRuns_sessions ledger between, recordRuns_sessions ledger sessions]
  rfl

end Recording

/-- What is written later comes later. -/
theorem underWay_append (first second : List (Write χ)) :
    underWay (first ++ second) = underWay first ++ underWay second := List.map_append

/-- What a server makes of a network when it receives messages of a connection. -/
structure ServerActed (peer : χ → Nat) [DecidableEq χ] (network next : Network δ κ χ)
    (connection : χ) (frames : List Frame) (endpoint : Endpoint δ κ χ) (writes : List (Write χ)) :
    Prop where
  llC : next.llC = network.llC
  ledger : next.ledger = network.ledger
  servers : next.servers = network.servers.set (peer connection) endpoint
  requests : Moved connection frames [] network.requests next.requests
  replies : next.replies = network.replies ++ underWay writes

/-- What the client makes of a network when it receives messages of a connection. -/
structure ClientActed [DecidableEq χ] (network next : Network δ κ χ) (connection : χ)
    (frames : List Frame) (endpoint : Endpoint (Nat × (χ × δ)) κ χ) (writes : List (Write χ))
    (callbacks : List (CallbackRun (Nat × (χ × δ)) κ χ)) : Prop where
  llC : next.llC = endpoint.llC
  ledger : next.ledger = (network.ledger.withSessions endpoint.sessions).recordRuns callbacks
  servers : next.servers = network.servers
  requests : next.requests = network.requests ++ underWay writes
  replies : Moved connection frames [] network.replies next.replies

section Delivering

variable (protobuf : Protobuf) (peer : χ → Nat) [DecidableEq χ] (connection : χ)

/-- The requests on a connection can be delivered to its server one after the other, and
none of them meets a fault. Induct over the requests. -/
theorem requests_delivered (frames later : List Frame) (memories : Nat → Indeterminate)
    (network : Network δ κ χ) (invariant : network.Invariant) (server : Endpoint δ κ χ)
    (reached : network.servers[peer connection]? = some server)
    (coming : toward connection network.requests = frames ++ later) :
    ∃ events next endpoint, (networkMachine protobuf peer).run network events = some next ∧
      (receiveMessages protobuf connection memories server frames).endpoint = some endpoint ∧
      ServerActed peer network next connection frames endpoint
        (receiveMessages protobuf connection memories server frames).writes := by
  induction frames generalizing memories network server with
  | nil =>
    refine ⟨[], network, server, rfl, rfl, rfl, rfl, ?_, ?_, (List.append_nil _).symm⟩
    · obtain ⟨within, rfl⟩ := List.getElem?_eq_some_iff.mp reached
      exact (List.set_getElem_self within).symm
    · have nothing := moved_sent connection [] network.requests
      rwa [List.append_nil] at nothing
  | cons frame frames inductionHypothesis =>
    obtain ⟨index, found, moved⟩ := moved_first frame network.requests _ coming []
    obtain ⟨outcome, middle, received, step, holds⟩ := deliverRequest_step protobuf peer network
      invariant index (memories 0) connection frame server found reached
    simp only [Network.step, found, reached, received, Option.some.injEq] at step
    subst step
    rw [List.append_nil] at moved
    have own := moved.own
    rw [coming, toward_nil, List.append_nil] at own
    have within := (List.getElem?_eq_some_iff.mp reached).1
    obtain ⟨events, next, endpoint, run, ends, acted⟩ := inductionHypothesis
      (fun index => memories (index + 1)) _ holds outcome.endpoint
      (List.getElem?_set_self within) (List.cons.inj own).2.symm
    refine ⟨.deliverRequest index (memories 0) :: events, next, endpoint, ?_, ?_, acted.llC,
      acted.ledger, ?_, moved.trans acted.requests, ?_⟩
    · refine (Machine.run_cons_some _).mpr ⟨_, ?_, run⟩
      simp only [networkMachine, Network.step, found, reached, received]
    · rw [receiveMessages, received]
      exact ends
    · rw [acted.servers]
      exact List.set_set _
    · rw [acted.replies, receiveMessages, received]
      change _ = network.replies ++ underWay (_ ++ _)
      rw [underWay_append, ← List.append_assoc]

omit [DecidableEq χ] in
/-- A standard reply changes nothing of an endpoint but its sessions. -/
theorem stdReply_keeps (indeterminate : Indeterminate) (endpoint : Endpoint δ κ χ)
    (message : Frame) (whole : Whole MsgTypes.stdReply.code message) (outcome : Outcome δ κ χ)
    (received : receiveMessage protobuf indeterminate endpoint connection message = .ok outcome) :
    outcome.endpoint.timers = endpoint.timers := by
  rw [receiveMessage_handled protobuf indeterminate endpoint connection message whole.wellFormed
    whole.nonEmpty .handleStdReply (by rw [whole.payloadType]; decide)] at received
  change handleStdReply endpoint connection message indeterminate.stray = _ at received
  unfold handleStdReply at received
  split at received
  · cases received
  · obtain rfl := Except.ok.inj received
    rfl
  · obtain rfl := Except.ok.inj received
    rfl

/-- The replies on a connection can be delivered to the client one after the other, and none
of them meets a fault. Induct over the replies: behind each the client is what its handler
left, since it has no timers. -/
theorem replies_delivered (frames later : List Frame) (memories : Nat → Indeterminate)
    (network : Network δ κ χ) (invariant : network.Invariant)
    (coming : toward connection network.replies = frames ++ later) :
    ∃ events next endpoint, (networkMachine protobuf peer).run network events = some next ∧
      (receiveMessages protobuf connection memories network.client frames).endpoint =
        some endpoint ∧
      ClientActed network next connection frames endpoint
        (receiveMessages protobuf connection memories network.client frames).writes
        (receiveMessages protobuf connection memories network.client frames).callbacks := by
  induction frames generalizing memories network with
  | nil =>
    refine ⟨[], network, network.client, rfl, rfl, rfl, rfl, rfl, (List.append_nil _).symm, ?_⟩
    have nothing := moved_sent connection [] network.replies
    rwa [List.append_nil] at nothing
  | cons frame frames inductionHypothesis =>
    obtain ⟨index, found, moved⟩ := moved_first frame network.replies _ coming []
    obtain ⟨session, member, after, middle, -, received, step, holds⟩ := deliverReply_step protobuf
      peer network invariant index (memories 0) connection frame found
    have stepped := step
    simp only [Network.step, found, received, Option.some.injEq] at stepped
    have timers := stdReply_keeps protobuf connection (memories 0) network.client frame
      (invariant.replies _ (List.mem_of_getElem? found)) _ received
    have llC : middle.llC = after.llC := by rw [← stepped]
    have ledger : middle.ledger = (network.ledger.withSessions after.sessions).recordRuns
        [⟨session.cb, some session.data, connection, frame⟩] := by
      rw [← stepped]
      rfl
    have client : middle.client = after := by
      rw [Network.client, llC, ledger, recordRuns_sessions]
      obtain ⟨severity, sessions, armed⟩ := after
      obtain rfl : armed = [] := timers
      rfl
    have servers : middle.servers = network.servers := by rw [← stepped]
    have requests : middle.requests = network.requests := by
      rw [← stepped]
      exact List.append_nil _
    have replies : middle.replies = network.replies.eraseIdx index := by rw [← stepped]
    rw [List.append_nil, ← replies] at moved
    have own := moved.own
    rw [coming, toward_nil, List.append_nil] at own
    obtain ⟨events, next, endpoint, run, ends, acted⟩ := inductionHypothesis
      (fun index => memories (index + 1)) middle holds (List.cons.inj own).2.symm
    rw [client] at ends acted
    refine ⟨.deliverReply index (memories 0) :: events, next, endpoint,
      (Machine.run_cons_some _).mpr ⟨middle, step, run⟩, ?_, acted.llC, ?_,
      acted.servers.trans servers, ?_, moved.trans acted.replies⟩
    · rw [receiveMessages, received]
      exact ends
    · rw [acted.ledger, ledger, recordRuns_twice, receiveMessages, received]
      rfl
    · rw [acted.requests, requests, receiveMessages, received]
      rfl

end Delivering

section Explaining

/-- Written messages of the protocol are whole. -/
theorem underWay_whole (writes : List (Write χ))
    (whole : ∀ write ∈ writes, write.pbmsg.WellFormed) :
    ∀ message ∈ underWay writes, message.2.WellFormed := by
  intro message member
  obtain ⟨write, written, rfl⟩ := List.mem_map.mp member
  exact whole write written

variable [DecidableEq χ]

/-- A network of messages explains one of bytes: the client and the servers are the same, and
the streams carry the requests and the replies. -/
structure NetworkExplains (bytes : StreamNetwork δ κ χ) (network : Network δ κ χ) : Prop where
  llC : network.llC = bytes.llC
  ledger : network.ledger = bytes.ledger
  servers : network.servers = bytes.servers
  requests : bytes.requests.Carry (fun _ => True) network.requests
  replies : bytes.replies.Carry (fun _ => True) network.replies

variable (protobuf : Protobuf) (oneField : protobuf.OneField) (peer : χ → Nat)
  (bytes : StreamNetwork δ κ χ) (network : Network δ κ χ) (explains : NetworkExplains bytes network)
  (invariant : network.Invariant) (connection : χ) (suggestedSize : UInt64) (count : Nat)
  (memories : Nat → Indeterminate)
include oneField explains invariant

/-- A clean read of a server delivers the requests it completes, and meets no fault. -/
theorem serverRead_explained (clean : (bytes.requests.rxBuf connection).leftoverDataSize = 0)
    (server : Endpoint δ κ χ) (reached : bytes.servers[peer connection]? = some server)
    (info : RxBufAddr) (handled : HandledMessages δ κ χ)
    (happens : readHandled protobuf connection memories server
      (bytes.requests.rxBuf connection)
      (bytes.requests.reading connection suggestedSize count) = some (info, handled)) :
    ∃ endpoint events later, handled.endpoint = some endpoint ∧
      (networkMachine protobuf peer).run network events = some later ∧
      NetworkExplains { bytes with
        servers := bytes.servers.set (peer connection) endpoint
        requests := bytes.requests.take connection count info
        replies := bytes.replies.send (underWay handled.writes) } later := by
  have coming := explains.requests.bytes connection trivial clean
  rw [Streams.reading, coming] at happens
  obtain ⟨sound, first, later, others, parts, rfl, remains⟩ := readHandled_messages protobuf
    connection memories server _ info (explains.requests.sound connection) clean suggestedSize count
    _ (explains.requests.coming connection) handled happens
  obtain ⟨events, next, endpoint, run, ends, acted⟩ := requests_delivered protobuf peer connection
    first later others network invariant server (explains.servers ▸ reached) parts
  have whole := receiveMessages_whole protobuf connection others server oneField first
    fun frame member => explains.requests.coming connection frame
      (parts ▸ List.mem_append_left later member)
  refine ⟨endpoint, events, next, ends, run, acted.llC.trans explains.llC,
    acted.ledger.trans explains.ledger, ?_, ?_, ?_⟩
  · rw [acted.servers, explains.servers]
  · have taken := explains.requests.take connection count info sound first first later [] _ parts
      acted.requests (List.forall_mem_nil _) (fun _ => True) (fun _ _ => trivial) (fun _ => rfl)
      (coming ▸ remains)
    rwa [Streams.send_nil] at taken
  · rw [acted.replies]
    exact explains.replies.send _ (underWay_whole _ whole)

/-- A clean read of the client delivers the replies it completes, and meets no fault. -/
theorem clientRead_explained (clean : (bytes.replies.rxBuf connection).leftoverDataSize = 0)
    (info : RxBufAddr) (handled : HandledMessages (Nat × (χ × δ)) κ χ)
    (happens : readHandled protobuf connection memories bytes.client
      (bytes.replies.rxBuf connection)
      (bytes.replies.reading connection suggestedSize count) = some (info, handled)) :
    ∃ endpoint events later, handled.endpoint = some endpoint ∧
      (networkMachine protobuf peer).run network events = some later ∧
      NetworkExplains { bytes with
        llC := endpoint.llC
        ledger := (bytes.ledger.withSessions endpoint.sessions).recordRuns handled.callbacks
        requests := bytes.requests.send (underWay handled.writes)
        replies := bytes.replies.take connection count info } later := by
  have coming := explains.replies.bytes connection trivial clean
  have client : bytes.client = network.client := by
    rw [StreamNetwork.client, Network.client, explains.llC, explains.ledger]
  rw [Streams.reading, coming, client] at happens
  obtain ⟨sound, first, later, others, parts, rfl, remains⟩ := readHandled_messages protobuf
    connection memories network.client _ info (explains.replies.sound connection) clean
    suggestedSize count _ (explains.replies.coming connection) handled happens
  obtain ⟨events, next, endpoint, run, ends, acted⟩ := replies_delivered protobuf peer connection
    first later others network invariant parts
  have whole := receiveMessages_whole protobuf connection others network.client oneField first
    fun frame member => explains.replies.coming connection frame
      (parts ▸ List.mem_append_left later member)
  refine ⟨endpoint, events, next, ends, run, acted.llC, ?_, acted.servers.trans explains.servers,
    ?_, ?_⟩
  · rw [acted.ledger, explains.ledger]
  · rw [acted.requests]
    exact explains.requests.send _ (underWay_whole _ whole)
  · have taken := explains.replies.take connection count info sound first first later [] _ parts
      acted.replies (List.forall_mem_nil _) (fun _ => True) (fun _ _ => trivial) (fun _ => rfl)
      (coming ▸ remains)
    rwa [Streams.send_nil] at taken

end Explaining

section Runs

variable [DecidableEq χ] (protobuf : Protobuf) (oneField : protobuf.OneField) (peer : χ → Nat)
  (bytes : StreamNetwork δ κ χ) (network : Network δ κ χ) (explains : NetworkExplains bytes network)
include oneField explains

/-- A request over bytes is one of messages. -/
theorem request_explained (connection : χ) (data : δ) (r : UInt32) (cb : κ)
    (currentTimeSec : UInt32) (delay : Int32) (memory : PbMsg)
    (room : bytes.ledger.outstanding.length < maxSessions) (sid : UInt32)
    (sessions : SessionState (Nat × (χ × δ)) κ)
    (made : makeNewSession bytes.ledger.sessions (bytes.ledger.created, (connection, data)) r cb
      currentTimeSec = .ok (sid, sessions)) :
    ∃ later, (networkMachine protobuf peer).step network
        (.request connection data r cb currentTimeSec delay memory) = some later ∧
      NetworkExplains { bytes with
        ledger := ⟨sessions, bytes.ledger.created + 1,
          ⟨sid, r, (bytes.ledger.created, (connection, data)), cb⟩ :: bytes.ledger.outstanding,
          bytes.ledger.answered⟩
        requests := bytes.requests.send
          (underWay [delayedResponseReq protobuf connection sid r delay memory]) } later := by
  have carries := delayedResponseReq_carries protobuf oneField connection sid r delay memory
  refine ⟨{ network with
    ledger := ⟨sessions, bytes.ledger.created + 1,
      ⟨sid, r, (bytes.ledger.created, (connection, data)), cb⟩ :: bytes.ledger.outstanding,
      bytes.ledger.answered⟩
    requests := network.requests ++
      underWay [delayedResponseReq protobuf connection sid r delay memory] },
    ?_, explains.llC, rfl, explains.servers, explains.requests.send _ (underWay_whole _ ?_),
    explains.replies⟩
  · simp only [networkMachine, Network.step, explains.ledger, if_pos room, made]
  · intro write written
    obtain rfl := List.mem_singleton.mp written
    exact carries.wellFormed

/-- A timer over bytes is one of messages. -/
theorem fire_explained (server index : Nat) (memory : PbMsg) (endpoint : Endpoint δ κ χ)
    (found : bytes.servers[server]? = some endpoint) (outcome : Outcome δ κ χ)
    (fired : delayedResponseCb protobuf memory endpoint index = some outcome) :
    ∃ later, (networkMachine protobuf peer).step network (.fire server index memory) =
        some later ∧
      NetworkExplains { bytes with
        servers := bytes.servers.set server outcome.endpoint
        replies := bytes.replies.send (underWay outcome.writes) } later := by
  obtain ⟨replySessionData, armed, rfl⟩ :=
    (delayedResponseCb_some protobuf memory endpoint index outcome).mp fired
  refine ⟨{ network with
    servers := bytes.servers.set server
      { endpoint with timers := endpoint.timers.eraseIdx index }
    replies := network.replies ++
      underWay [sendAStdReply protobuf memory replySessionData] },
    ?_, explains.llC, explains.ledger, rfl, explains.requests,
    explains.replies.send _ (underWay_whole _ ?_)⟩
  · simp only [networkMachine, Network.step, explains.servers, found, fired]
  · intro write written
    obtain rfl := List.mem_singleton.mp written
    exact (sendAStdReply_carries protobuf oneField memory replySessionData).wellFormed

variable (invariant : network.Invariant)
include invariant

/-- A clean step over bytes is explained by a run of messages. -/
theorem network_step_explained (event : StreamNetworkEvent δ κ χ) (next : StreamNetwork δ κ χ)
    (clean : bytes.ReadsClean event)
    (moved : (StreamNetwork.machine protobuf peer).step bytes event = some next) :
    ∃ events later, (networkMachine protobuf peer).run network events = some later ∧
      NetworkExplains next later := by
  cases event with
  | request connection data r cb currentTimeSec delay memory =>
    by_cases room : bytes.ledger.outstanding.length < maxSessions
    · cases made : makeNewSession bytes.ledger.sessions (bytes.ledger.created, (connection, data))
          r cb currentTimeSec with
      | error fault =>
        simp only [StreamNetwork.machine, StreamNetwork.step, if_pos room, made] at moved
        cases moved
      | ok found =>
        obtain ⟨sid, sessions⟩ := found
        simp only [StreamNetwork.machine, StreamNetwork.step, if_pos room, made,
          Option.some.injEq] at moved
        subst moved
        obtain ⟨later, requested, explained⟩ := request_explained protobuf oneField peer bytes
          network explains connection data r cb currentTimeSec delay memory room sid sessions made
        exact ⟨[.request connection data r cb currentTimeSec delay memory], later,
          (Machine.run_cons_some _).mpr ⟨later, requested, rfl⟩, explained⟩
    · simp only [StreamNetwork.machine, StreamNetwork.step, if_neg room] at moved
      cases moved
  | serverRead connection suggestedSize count memories =>
    cases reached : bytes.servers[peer connection]? with
    | none =>
      simp only [StreamNetwork.machine, StreamNetwork.step, reached] at moved
      cases moved
    | some server =>
      simp only [StreamNetwork.machine, StreamNetwork.step, reached, Option.bind_eq_some_iff,
        Option.map_eq_some_iff] at moved
      obtain ⟨⟨info, handled⟩, happens, endpoint, ends, rfl⟩ := moved
      obtain ⟨other, events, later, same, run, explained⟩ := serverRead_explained protobuf oneField
        peer bytes network explains invariant connection suggestedSize count memories clean server
        reached info handled happens
      obtain rfl := Option.some.inj (same.symm.trans ends)
      exact ⟨events, later, run, explained⟩
  | fire server index memory =>
    cases found : bytes.servers[server]? with
    | none =>
      simp only [StreamNetwork.machine, StreamNetwork.step, found] at moved
      cases moved
    | some endpoint =>
      cases fired : delayedResponseCb protobuf memory endpoint index with
      | none =>
        simp only [StreamNetwork.machine, StreamNetwork.step, found, fired] at moved
        cases moved
      | some outcome =>
        simp only [StreamNetwork.machine, StreamNetwork.step, found, fired,
          Option.some.injEq] at moved
        subst moved
        obtain ⟨later, acted, explained⟩ := fire_explained protobuf oneField peer bytes network
          explains server index memory endpoint found outcome fired
        exact ⟨[.fire server index memory], later,
          (Machine.run_cons_some _).mpr ⟨later, acted, rfl⟩, explained⟩
  | clientRead connection suggestedSize count memories =>
    simp only [StreamNetwork.machine, StreamNetwork.step, Option.bind_eq_some_iff,
      Option.map_eq_some_iff] at moved
    obtain ⟨⟨info, handled⟩, happens, endpoint, ends, rfl⟩ := moved
    obtain ⟨other, events, later, same, run, explained⟩ := clientRead_explained protobuf oneField
      peer bytes network explains invariant connection suggestedSize count memories clean info
      handled happens
    obtain rfl := Option.some.inj (same.symm.trans ends)
    exact ⟨events, later, run, explained⟩

/-- A clean step over bytes keeps to the protocol of messages. -/
theorem network_step_kept (event : StreamNetworkEvent δ κ χ) (next : StreamNetwork δ κ χ)
    (clean : bytes.ReadsClean event)
    (moved : (StreamNetwork.machine protobuf peer).step bytes event = some next) :
    ∃ events later, (networkMachine protobuf peer).run network events = some later ∧
      NetworkExplains next later ∧ later.Invariant := by
  obtain ⟨events, later, run, explained⟩ := network_step_explained protobuf oneField peer bytes
    network explains invariant event next clean moved
  exact ⟨events, later, run, explained, (networkMachine protobuf peer).run_invariant
    Network.Invariant (fun network event next holds moved =>
      network_step_invariant protobuf oneField peer network holds event next moved)
    network later events invariant run⟩

/-- A network that is explained by one of messages takes every clean read that fits. -/
theorem succeeds_of_explained (event : StreamNetworkEvent δ κ χ) (clean : bytes.ReadsClean event) :
    bytes.Succeeds protobuf peer event := by
  cases event with
  | request connection data r cb currentTimeSec delay memory =>
    intro room
    obtain ⟨sid, sessions, next, made, -⟩ := request_step protobuf peer network invariant oneField
      connection data r cb currentTimeSec delay memory (explains.ledger ▸ room)
    rw [explains.ledger] at made
    rw [StreamNetwork.step, if_pos room, made]
    rfl
  | serverRead connection suggestedSize count memories =>
    intro present fits
    obtain ⟨server, reached⟩ := Option.isSome_iff_exists.mp present
    obtain ⟨⟨info, handled⟩, happens⟩ := Option.isSome_iff_exists.mp
      ((readHandled_isSome protobuf connection memories server _ _
        (explains.requests.sound connection)).mpr fits)
    obtain ⟨endpoint, events, later, ends, -⟩ := serverRead_explained protobuf oneField peer bytes
      network explains invariant connection suggestedSize count memories clean server reached info
      handled happens
    simp only [StreamNetwork.step, reached, happens, Option.bind_some, ends, Option.map_some,
      Option.isSome_some]
  | fire server index memory => trivial
  | clientRead connection suggestedSize count memories =>
    intro fits
    obtain ⟨⟨info, handled⟩, happens⟩ := Option.isSome_iff_exists.mp
      ((readHandled_isSome protobuf connection memories bytes.client _ _
        (explains.replies.sound connection)).mpr fits)
    obtain ⟨endpoint, events, later, ends, -⟩ := clientRead_explained protobuf oneField peer bytes
      network explains invariant connection suggestedSize count memories clean info handled happens
    simp only [StreamNetwork.step, happens, Option.bind_some, ends, Option.map_some,
      Option.isSome_some]

omit oneField invariant in
/-- When nothing is under way, there is no token. -/
theorem quiet_tokens (quiet : bytes.Quiet) : network.tokens = [] := by
  have requests := explains.requests.none fun connection => ⟨trivial, quiet.requests connection⟩
  have replies := explains.replies.none fun connection => ⟨trivial, quiet.replies connection⟩
  have timers : timerOrigins network.servers = [] := by
    rw [timerOrigins, List.flatMap_eq_nil_iff, explains.servers]
    intro server member
    rw [quiet.timers server member]
    rfl
  rw [Network.tokens, requests, replies, timers]
  rfl

end Runs

/-- Before anything is written, no messages are under way. -/
theorem start_kept [DecidableEq χ] (llC : UInt32) (servers : List (UInt32 × SessionState δ κ))
    (serverMemory clientMemory : χ → Store UInt8) (rxBufSize : χ → UInt32) :
    NetworkExplains (StreamNetwork.start llC servers serverMemory clientMemory rxBufSize)
      (Network.start llC servers) ∧ (Network.start (χ := χ) llC servers).Invariant :=
  ⟨⟨rfl, rfl, rfl, Streams.opened_carry serverMemory rxBufSize,
    Streams.opened_carry clientMemory rxBufSize⟩, start_invariant llC servers⟩

section Protocol

variable [DecidableEq χ] (protobuf : Protobuf) (oneField : protobuf.OneField) (peer : χ → Nat)
  (llC : UInt32) (servers : List (UInt32 × SessionState δ κ))
  (serverMemory clientMemory : χ → Store UInt8) (rxBufSize : χ → UInt32)
  (events : List (StreamNetworkEvent δ κ χ))
  (clean : (StreamNetwork.machine protobuf peer).Along StreamNetwork.ReadsClean
    (StreamNetwork.start llC servers serverMemory clientMemory rxBufSize) events)
include oneField clean

/-- Every clean run over bytes is explained by a run of messages. -/
theorem network_run_explained (final : StreamNetwork δ κ χ)
    (reached : (StreamNetwork.machine protobuf peer).run
      (StreamNetwork.start llC servers serverMemory clientMemory rxBufSize) events = some final) :
    ∃ deliveries last, (networkMachine protobuf peer).run (Network.start llC servers) deliveries =
      some last ∧ NetworkExplains final last ∧ last.Invariant := by
  refine (StreamNetwork.machine protobuf peer).guarded_simulated (networkMachine protobuf peer)
    (fun bytes network => NetworkExplains bytes network ∧ network.Invariant)
    StreamNetwork.ReadsClean ?_ _ final _ events ?_ clean reached
  · rintro bytes event next network ⟨explains, invariant⟩ clean moved
    exact network_step_kept protobuf oneField peer bytes network explains invariant event next clean
      moved
  · exact start_kept llC servers serverMemory clientMemory rxBufSize

/-- Every clean run over bytes ends as some run of messages does, with the same sessions and
timers and with streams that carry the messages under way. There, outstanding sessions and
tokens match one to one; and when nothing is under way any more, the callback of every
session has run once. -/
theorem delayed_streams_matched (final : StreamNetwork δ κ χ)
    (reached : (StreamNetwork.machine protobuf peer).run
      (StreamNetwork.start llC servers serverMemory clientMemory rxBufSize) events = some final) :
    (∃ deliveries last, (networkMachine protobuf peer).run (Network.start llC servers)
        deliveries = some last ∧ NetworkExplains final last ∧ last.Matched) ∧
      (final.Quiet → final.ledger.answered.Perm (List.range final.ledger.created)) := by
  obtain ⟨deliveries, last, run, explains, invariant⟩ := network_run_explained protobuf oneField
    peer llC servers serverMemory clientMemory rxBufSize events clean final reached
  have matched := matched_of_invariant last invariant
  refine ⟨⟨deliveries, last, run, explains, matched⟩, ?_⟩
  intro quiet
  rw [← explains.ledger]
  exact matched.settled (quiet_tokens final last explains quiet)

/-- No clean run over bytes gets stuck in a fault: wherever it is, a session can be made if
there is room for it, and every clean read that fits the buffer is handled to its end. -/
theorem clean_reads_succeed :
    (StreamNetwork.machine protobuf peer).Along (StreamNetwork.Succeeds protobuf peer)
      (StreamNetwork.start llC servers serverMemory clientMemory rxBufSize) events := by
  refine (StreamNetwork.machine protobuf peer).along_of_guard
    (fun bytes => ∃ network, NetworkExplains bytes network ∧ network.Invariant)
    StreamNetwork.ReadsClean _ ?_ ?_ _ events ?_ clean
  · rintro bytes event ⟨network, explains, invariant⟩ clean
    exact succeeds_of_explained protobuf oneField peer bytes network explains invariant event clean
  · rintro bytes event next ⟨network, explains, invariant⟩ clean moved
    obtain ⟨deliveries, later, -, kept⟩ := network_step_kept protobuf oneField peer bytes network
      explains invariant event next clean moved
    exact ⟨later, kept⟩
  · exact ⟨Network.start llC servers, start_kept llC servers serverMemory clientMemory rxBufSize⟩

end Protocol

/-- Two requests on one connection come in one read, and one on another connection behind
them; the timers fire in another order, and the replies of the first connection come in one
read. -/
def joinedDelays : List (StreamNetworkEvent Unit Unit Bool) :=
  [.request true () 7 () 0 3 zeroedPbMsg, .request true () 8 () 0 3 zeroedPbMsg,
    .serverRead true 65536 200 fun _ => untouched, .request false () 9 () 0 3 zeroedPbMsg,
    .serverRead false 65536 200 fun _ => untouched, .fire 0 2 zeroedPbMsg, .fire 0 1 zeroedPbMsg,
    .fire 0 0 zeroedPbMsg, .clientRead true 65536 200 fun _ => untouched,
    .clientRead false 65536 200 fun _ => untouched]

/-- New connections over zeroed memory to one server. -/
def joinedNetwork : StreamNetwork Unit Unit Bool :=
  StreamNetwork.start 7 [(7, SessionState.start)] (fun _ _ => 0) (fun _ _ => 0) fun _ => 0

/-- Nothing is left over when one of these reads begins. -/
theorem joinedDelays_clean :
    (StreamNetwork.machine WireCodec.protobuf fun _ => 0).Along StreamNetwork.ReadsClean
      joinedNetwork joinedDelays := by
  decide +kernel

/-- The three requests are answered, and then nothing is under way. -/
theorem joinedDelays_run : ∃ final, (StreamNetwork.machine WireCodec.protobuf fun _ => 0).run
    joinedNetwork joinedDelays = some final ∧ final.ledger.created = 3 ∧ final.Quiet := by
  have ends : ∃ final ∈ (StreamNetwork.machine WireCodec.protobuf fun _ => 0).run joinedNetwork
      joinedDelays, final.ledger.created = 3 ∧
        (∀ connection, final.requests.bytes connection = [] ∧
          (final.requests.rxBuf connection).leftoverDataSize = 0) ∧
        (∀ connection, final.replies.bytes connection = [] ∧
          (final.replies.rxBuf connection).leftoverDataSize = 0) ∧
        final.servers.all fun server => server.timers.isEmpty := by
    decide +kernel
  obtain ⟨final, reached, made, requests, replies, timers⟩ := ends
  refine ⟨final, reached, made, requests, replies, fun server member => ?_⟩
  exact List.isEmpty_iff.mp (List.all_eq_true.mp timers server member)

/-- Each of the three callbacks has run once. -/
theorem delayed_streams_matched_joined : ∃ final,
    (StreamNetwork.machine WireCodec.protobuf fun _ => 0).run joinedNetwork joinedDelays =
      some final ∧ final.ledger.answered.Perm (List.range 3) := by
  obtain ⟨final, reached, made, quiet⟩ := joinedDelays_run
  have answered := (delayed_streams_matched WireCodec.protobuf WireCodec.protobuf_oneField _ _ _ _ _
    _ joinedDelays joinedDelays_clean final reached).2 quiet
  rw [made] at answered
  exact ⟨final, reached, answered⟩

/-- No read of this run meets a fault. -/
theorem clean_reads_succeed_joined :
    (StreamNetwork.machine WireCodec.protobuf fun _ => 0).Along
      (StreamNetwork.Succeeds WireCodec.protobuf fun _ => 0) joinedNetwork joinedDelays :=
  clean_reads_succeed WireCodec.protobuf WireCodec.protobuf_oneField _ _ _ _ _ _ joinedDelays
    joinedDelays_clean

end Evlpc
