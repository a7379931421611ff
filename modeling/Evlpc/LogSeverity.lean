import Evlpc.StreamExchange

/-!
# The requests that set the severity of the log

The answer to a log configuration request is another one, of level 2. So while both
processes are there, none of these requests is lost and none is added: there are always as
many of them under way as in the beginning, and an exchange with one of them never comes to
rest, and can go on to any number of messages. A severity that is not the one an endpoint
started with was asked for by one of the first requests, or it is that of an answer.
-/

namespace Evlpc

open Library

universe u v
variable {δ : Type u} {κ : Type v}

/-- The severity that a log configuration request sets, also if it does not parse. -/
def severityOf (protobuf : Protobuf) (message : Frame) : UInt32 :=
  (protobuf.globalLogConfig.parseFromArray message.payload).2.getLogLevel.toUInt32

/-- The type of a log configuration request. -/
def IsGlcReq (message : Frame) : Prop :=
  message.hdr.payloadType = MsgTypes.globalLogConfigReq.code

instance : DecidablePred IsGlcReq := fun _ => inferInstanceAs (Decidable (_ = _))

/-- A whole log configuration request with a payload. -/
structure WholeGlcReq (message : Frame) : Prop where
  wellFormed : message.WellFormed
  nonEmpty : message.payload ≠ []
  isGlcReq : IsGlcReq message

/-- The number of log configuration requests on a channel. -/
def glcReqs (channel : List (Side × Frame)) : Nat :=
  channel.countP fun message => IsGlcReq message.2

/-- A first request to the side has this level, or it is the level of answers, and there is
a first request to answer. -/
def AskedFor (protobuf : Protobuf) (requests : List (Side × RequestMessage)) (side : Side)
    (level : UInt32) : Prop :=
  (∃ request ∈ requests, IsGlcReq request.2.frame ∧ request.1.other = side ∧
    level = severityOf protobuf request.2.frame) ∨
  (level = 2 ∧ ∃ request ∈ requests, IsGlcReq request.2.frame)

/-- What an exchange keeps to: its log configuration requests and severities are asked for,
and while both endpoints are there, the number of requests is the first one. -/
structure Exchange.Echoes (protobuf : Protobuf) (llC : Side → UInt32)
    (requests : List (Side × RequestMessage)) (exchange : Exchange δ κ) : Prop where
  messages : ∀ message ∈ exchange.channel, Ordinary message.2 ∨ WholeGlcReq message.2
  levels : ∀ message ∈ exchange.channel, IsGlcReq message.2 →
    AskedFor protobuf requests message.1 (severityOf protobuf message.2)
  severities : ∀ side endpoint, exchange.endpoints side = some endpoint →
    endpoint.llC = llC side ∨ AskedFor protobuf requests side endpoint.llC
  conserved : (∀ side, (exchange.endpoints side).isSome) →
    glcReqs exchange.channel = requests.countP fun request => IsGlcReq request.2.frame

/-- An ordinary message is no log configuration request. -/
theorem ordinary_not_glcReq (message : Frame) (ordinary : Ordinary message) :
    ¬ IsGlcReq message := by
  intro isGlcReq
  have type := ordinary.payloadType
  rw [isGlcReq] at type
  exact absurd type (by decide)

/-- Whatever severity is asked for, some first request asks for one. -/
theorem AskedFor.present {protobuf : Protobuf} {requests : List (Side × RequestMessage)}
    {side : Side} {level : UInt32} (asked : AskedFor protobuf requests side level) :
    ∃ request ∈ requests, IsGlcReq request.2.frame := by
  rcases asked with ⟨request, member, isGlcReq, -⟩ | ⟨-, present⟩
  · exact ⟨request, member, isGlcReq⟩
  · exact present

/-- What a side writes of log configuration requests, and the severity it has then, is asked
for if what it answered was; it writes as many of these requests as it took. -/
structure Answered (protobuf : Protobuf) (requests : List (Side × RequestMessage)) (side : Side)
    (endpoint : Endpoint δ κ Unit) (taken : Nat) (outcome : Outcome δ κ Unit) : Prop where
  messages : ∀ write ∈ outcome.writes, Ordinary write.pbmsg ∨ WholeGlcReq write.pbmsg
  number : glcReqs (toOther side outcome.writes) = taken
  levels : ∀ write ∈ outcome.writes, IsGlcReq write.pbmsg →
    AskedFor protobuf requests side.other (severityOf protobuf write.pbmsg)
  severity : outcome.endpoint.llC = endpoint.llC ∨
    AskedFor protobuf requests side outcome.endpoint.llC

/-- Only ordinary messages are written, and the severity is left alone. -/
theorem answered_ordinary (protobuf : Protobuf) (requests : List (Side × RequestMessage))
    (side : Side) (endpoint : Endpoint δ κ Unit) (outcome : Outcome δ κ Unit)
    (ordinary : ∀ write ∈ outcome.writes, Ordinary write.pbmsg)
    (same : outcome.endpoint.llC = endpoint.llC) :
    Answered protobuf requests side endpoint 0 outcome where
  messages := fun write member => .inl (ordinary write member)
  number := by
    rw [glcReqs, List.countP_eq_zero]
    intro message member
    obtain ⟨write, written, rfl⟩ := List.mem_map.mp member
    have type := ordinary write written
    exact fun isGlcReq => ordinary_not_glcReq _ type (of_decide_eq_true isGlcReq)
  levels := fun write member isGlcReq =>
    absurd isGlcReq (ordinary_not_glcReq _ (ordinary write member))
  severity := .inl same

section Receiving

variable (protobuf : Protobuf) (oneField : protobuf.OneField)

/-- Ordinary messages leave the severity alone. -/
theorem receive_severity (indeterminate : Indeterminate) (endpoint : Endpoint δ κ Unit)
    (message : Frame) (ordinary : Ordinary message) (outcome : Outcome δ κ Unit)
    (received : receiveMessage protobuf indeterminate endpoint () message = .ok outcome) :
    outcome.endpoint.llC = endpoint.llC := by
  have handled := receiveMessage_handled protobuf indeterminate endpoint () message
    ordinary.wellFormed ordinary.nonEmpty
  have type := ordinary.payloadType
  simp only [List.mem_cons, List.not_mem_nil, or_false] at type
  rcases type with publishReq | delayedReq | publishReply | stdReply
  · rw [handled .handlePublishReq (by rw [publishReq]; decide)] at received
    obtain rfl := Except.ok.inj received
    rfl
  · rw [receiveMessage_delayed protobuf indeterminate endpoint () message ordinary.wellFormed
      ordinary.nonEmpty delayedReq] at received
    obtain rfl := Except.ok.inj received
    rfl
  · rw [handled .handlePublishReply (by rw [publishReply]; decide)] at received
    obtain rfl := Except.ok.inj received
    rfl
  · rw [handled .handleStdReply (by rw [stdReply]; decide)] at received
    change handleStdReply endpoint () message indeterminate.stray = _ at received
    unfold handleStdReply at received
    split at received
    · cases received
    · obtain rfl := Except.ok.inj received
      rfl
    · obtain rfl := Except.ok.inj received
      rfl

include oneField

/-- A log configuration request sets the severity and is answered with another one, of
level 2. -/
theorem receive_glcReq
    (inverts : protobuf.globalLogConfig.Inverts GlobalLogConfig.Initialized)
    (indeterminate : Indeterminate) (endpoint : Endpoint δ κ Unit) (message : Frame)
    (whole : WholeGlcReq message) :
    ∃ write, receiveMessage protobuf indeterminate endpoint () message =
        .ok ⟨{ endpoint with llC := severityOf protobuf message }, [write], []⟩ ∧
      WholeGlcReq write.pbmsg ∧ severityOf protobuf write.pbmsg = 2 := by
  have handled := receiveMessage_handled protobuf indeterminate endpoint () message
    whole.wellFormed whole.nonEmpty .handleGlcReq (by rw [whole.isGlcReq]; decide)
  let response : A1GlobalLogConfig :=
    { A1GlobalLogConfig.construct indeterminate.memory with message := ⟨some 2⟩ }
  have size := oneField.globalLogConfig_field 2
  have carries := writeObject_carries protobuf.globalLogConfig oneField.globalLogConfig_size ()
    response size
  have written := writeObject_frame protobuf.globalLogConfig oneField.globalLogConfig_size ()
    response (Nat.le_trans size.2 (by decide))
  refine ⟨_, handled, ⟨carries.wellFormed, carries.nonEmpty, carries.payloadType⟩, ?_⟩
  have level : severityOf protobuf (response.frame protobuf.globalLogConfig) = 2 := by
    have parsed := inverts ⟨some 2⟩ rfl
    change (protobuf.globalLogConfig.parseFromArray
      (protobuf.globalLogConfig.serializeToArray ⟨some 2⟩)).2.getLogLevel.toUInt32 = 2
    rw [parsed]
    rfl
  exact (congrArg (severityOf protobuf) written).trans level

end Receiving

/-- A turn is one endpoint's, over messages that were on the channel, and its outcome answers
the log configuration requests that were taken off the channel. -/
structure Turn.Answers (protobuf : Protobuf) (requests : List (Side × RequestMessage))
    (exchange : Exchange δ κ) (turn : Turn δ κ) (endpoint : Endpoint δ κ Unit) (taken : Nat) :
    Prop where
  acting : exchange.endpoints turn.side = some endpoint
  channel : ∀ message ∈ turn.channel, message ∈ exchange.channel
  removed : glcReqs turn.channel + taken = glcReqs exchange.channel
  outcome : ∀ outcome, turn.result = .ok outcome →
    Answered protobuf requests turn.side endpoint taken outcome

/-- Taking a message away takes one request away if it is one. -/
theorem glcReqs_erase (channel : List (Side × Frame)) (index : Nat) (side : Side)
    (message : Frame) (found : channel[index]? = some (side, message)) :
    glcReqs (channel.eraseIdx index) + (if IsGlcReq message then 1 else 0) = glcReqs channel := by
  obtain ⟨bound, value⟩ := List.getElem?_eq_some_iff.mp found
  have taken := List.getElem_cons_eraseIdx_perm bound
  rw [value] at taken
  rw [glcReqs, glcReqs, ← taken.countP_eq, List.countP_cons]
  simp only [decide_eq_true_eq]

section Runs

variable (protobuf : Protobuf) (oneField : protobuf.OneField)
  (inverts : protobuf.globalLogConfig.Inverts GlobalLogConfig.Initialized)
  (llC : Side → UInt32) (requests : List (Side × RequestMessage))
include oneField inverts

/-- Every turn of an exchange that echoes answers what it takes. -/
theorem turn_answers (exchange : Exchange δ κ)
    (echoes : exchange.Echoes protobuf llC requests) (event : ExchangeEvent) (turn : Turn δ κ)
    (given : exchange.turn protobuf event = some turn) :
    ∃ endpoint taken, turn.Answers protobuf requests exchange endpoint taken := by
  cases event with
  | deliver index indeterminate =>
    cases found : exchange.channel[index]? with
    | none => simp [Exchange.turn, found] at given
    | some destined =>
      obtain ⟨side, message⟩ := destined
      simp only [Exchange.turn, found, Option.map_eq_some_iff] at given
      obtain ⟨endpoint, acting, rfl⟩ := given
      have member := List.mem_of_getElem? found
      refine ⟨endpoint, if IsGlcReq message then 1 else 0, {
        acting := acting
        channel := fun other member => List.mem_of_mem_eraseIdx member
        removed := glcReqs_erase exchange.channel index side message found
        outcome := ?_ }⟩
      intro outcome received
      rcases echoes.messages (side, message) member with ordinary | whole
      · have affordable := receive_affordable protobuf oneField indeterminate endpoint message
          ordinary outcome received
        rw [if_neg (ordinary_not_glcReq message ordinary)]
        exact answered_ordinary protobuf requests side endpoint outcome affordable.ordinary
          (receive_severity protobuf indeterminate endpoint message ordinary outcome received)
      · have asked := echoes.levels (side, message) member whole.isGlcReq
        obtain ⟨write, answer, echo, level⟩ :=
          receive_glcReq protobuf oneField inverts indeterminate endpoint message whole
        obtain rfl := Except.ok.inj (received.symm.trans answer)
        have only : ∀ other ∈ [write], other = write := fun other member =>
          List.mem_singleton.mp member
        refine ⟨?_, ?_, ?_, .inr asked⟩
        · intro other member
          rw [only other member]
          exact .inr echo
        · rw [if_pos whole.isGlcReq]
          exact List.countP_eq_length.mpr fun other member => by
            obtain ⟨_, written, rfl⟩ := List.mem_map.mp member
            rw [only _ written]
            exact decide_eq_true echo.isGlcReq
        · intro other member _
          rw [only other member, level]
          exact .inr ⟨rfl, asked.present⟩
  | fire side index memory =>
    cases acting : exchange.endpoints side with
    | none => simp [Exchange.turn, acting] at given
    | some endpoint =>
      simp only [Exchange.turn, acting, Option.map_eq_some_iff] at given
      obtain ⟨outcome, fired, rfl⟩ := given
      refine ⟨endpoint, 0, {
        acting := acting
        channel := fun _ member => member
        removed := rfl
        outcome := ?_ }⟩
      intro other same
      obtain rfl := Except.ok.inj same
      have affordable := fire_affordable protobuf oneField memory endpoint index outcome fired
      obtain ⟨replySessionData, armed, rfl⟩ :=
        (delayedResponseCb_some protobuf memory endpoint index outcome).mp fired
      exact answered_ordinary protobuf requests side endpoint _ affordable.ordinary rfl

omit oneField inverts in
/-- Applying a turn that answers what it takes keeps the exchange an echo. If an endpoint
meets a fault, the number of requests no longer counts. -/
theorem apply_echoes (exchange : Exchange δ κ) (echoes : exchange.Echoes protobuf llC requests)
    (turn : Turn δ κ) (endpoint : Endpoint δ κ Unit) (taken : Nat)
    (answers : turn.Answers protobuf requests exchange endpoint taken) :
    (exchange.apply turn).Echoes protobuf llC requests := by
  have removed := answers.removed
  rw [Exchange.apply]
  cases result : turn.result with
  | error fault =>
    refine ⟨fun message member => echoes.messages message (answers.channel message member),
      fun message member => echoes.levels message (answers.channel message member), ?_, ?_⟩
    · intro side other there
      dsimp only at there
      split at there
      · cases there
      · exact echoes.severities side other there
    · intro alive
      have gone := alive turn.side
      dsimp only at gone
      rw [if_pos rfl] at gone
      cases gone
  | ok outcome =>
    have answered := answers.outcome outcome result
    have members : ∀ message ∈ turn.channel ++ toOther turn.side outcome.writes,
        message ∈ exchange.channel ∨
          ∃ write ∈ outcome.writes, (turn.side.other, write.pbmsg) = message := by
      intro message member
      exact (List.mem_append.mp member).imp (answers.channel message) List.mem_map.mp
    constructor
    · intro message member
      rcases members message member with before | ⟨write, written, rfl⟩
      · exact echoes.messages message before
      · exact answered.messages write written
    · intro message member isGlcReq
      rcases members message member with before | ⟨write, written, rfl⟩
      · exact echoes.levels message before isGlcReq
      · exact answered.levels write written isGlcReq
    · intro side other there
      dsimp only at there
      split at there
      next own =>
        obtain rfl := Option.some.inj there
        subst own
        rcases answered.severity with same | asked
        · rw [same]
          exact echoes.severities _ endpoint answers.acting
        · exact .inr asked
      next => exact echoes.severities side other there
    · intro alive
      have before : ∀ side, (exchange.endpoints side).isSome := by
        intro side
        have after := alive side
        dsimp only at after
        split at after
        next own =>
          rw [own, answers.acting]
          rfl
        next => exact after
      have number := answered.number
      have same := echoes.conserved before
      change glcReqs (turn.channel ++ toOther turn.side outcome.writes) = _
      rw [glcReqs, List.countP_append, ← glcReqs, ← glcReqs]
      omega

/-- Every event keeps the requests and severities to what is asked for. -/
theorem step_echoes (exchange : Exchange δ κ) (echoes : exchange.Echoes protobuf llC requests)
    (event : ExchangeEvent) (next : Exchange δ κ)
    (moved : (exchangeMachine protobuf).step exchange event = some next) :
    next.Echoes protobuf llC requests := by
  obtain ⟨turn, given, rfl⟩ := Option.map_eq_some_iff.mp moved
  obtain ⟨endpoint, taken, answers⟩ :=
    turn_answers protobuf oneField inverts llC requests exchange echoes event turn given
  exact apply_echoes protobuf llC requests exchange echoes turn endpoint taken answers

omit oneField inverts in
/-- The first requests ask for their own levels. -/
theorem start_echoes (sessions : Side → SessionState δ κ) :
    (Exchange.start llC sessions requests).Echoes protobuf llC requests := by
  constructor
  · intro message member
    obtain ⟨request, _, rfl⟩ := List.mem_map.mp member
    rcases request.2.payloadType with glcReq | publishReq | delayedReq
    · exact .inr ⟨request.2.wellFormed, request.2.nonEmpty, glcReq⟩
    · refine .inl ⟨request.2.wellFormed, request.2.nonEmpty, ?_⟩
      rw [publishReq]
      decide
    · refine .inl ⟨request.2.wellFormed, request.2.nonEmpty, ?_⟩
      rw [delayedReq]
      decide
  · intro message member isGlcReq
    obtain ⟨request, isFirst, rfl⟩ := List.mem_map.mp member
    exact .inl ⟨request, isFirst, isGlcReq, rfl, rfl⟩
  · intro side endpoint there
    obtain rfl := Option.some.inj there
    exact .inl rfl
  · intro _
    exact List.countP_map

/-- So does every run. -/
theorem run_echoes (sessions : Side → SessionState δ κ) (events : List ExchangeEvent)
    (final : Exchange δ κ)
    (reached : (exchangeMachine protobuf).run (Exchange.start llC sessions requests) events =
      some final) : final.Echoes protobuf llC requests :=
  (exchangeMachine protobuf).run_invariant (Exchange.Echoes protobuf llC requests)
    (fun exchange event next holds moved =>
      step_echoes protobuf oneField inverts llC requests exchange holds event next moved)
    _ final events (start_echoes protobuf llC requests sessions) reached

/-- In every run of messages, delivered in any order, while both endpoints are there, as many
log configuration requests are under way as were among the first requests. -/
theorem glc_reqs_conserved (sessions : Side → SessionState δ κ) (events : List ExchangeEvent)
    (final : Exchange δ κ)
    (reached : (exchangeMachine protobuf).run (Exchange.start llC sessions requests) events =
      some final) (alive : ∀ side, (final.endpoints side).isSome) :
    glcReqs final.channel = requests.countP fun request => IsGlcReq request.2.frame := by
  have echoes := run_echoes protobuf oneField inverts llC requests sessions events final reached
  exact echoes.conserved alive

/-- The echo of a request that both endpoints are there to answer can go on for any number of
messages. Induct over their number: the answer to the request is the next one to deliver. -/
theorem echo_goes_on (number : Nat) (exchange : Exchange δ κ)
    (alive : ∀ side, (exchange.endpoints side).isSome) (message : Side × Frame)
    (member : message ∈ exchange.channel) (whole : WholeGlcReq message.2) :
    ∃ events final, (exchangeMachine protobuf).run exchange events = some final ∧
      final.sent = exchange.sent + number ∧ ∀ side, (final.endpoints side).isSome := by
  induction number generalizing exchange message with
  | zero => exact ⟨[], exchange, rfl, rfl, alive⟩
  | succ number inductionHypothesis =>
    obtain ⟨side, message⟩ := message
    obtain ⟨endpoint, acting⟩ := Option.isSome_iff_exists.mp (alive side)
    obtain ⟨index, found⟩ := List.mem_iff_getElem?.mp member
    obtain ⟨write, answer, echo, -⟩ :=
      receive_glcReq protobuf oneField inverts untouched endpoint message whole
    let turn : Turn δ κ := ⟨side, message.hdr.payloadType, exchange.channel.eraseIdx index,
      receiveMessage protobuf untouched endpoint () message⟩
    have moved : (exchangeMachine protobuf).step exchange (.deliver index untouched) =
        some (exchange.apply turn) := by
      simp only [exchangeMachine, Exchange.turn, found, acting, Option.map_some, turn]
    have applied : exchange.apply turn = {
        endpoints := fun other => if other = side then
          some { endpoint with llC := severityOf protobuf message } else exchange.endpoints other
        channel := exchange.channel.eraseIdx index ++ [(side.other, write.pbmsg)]
        sent := exchange.sent + 1 } := by
      simp only [Exchange.apply, turn, answer, List.map_cons, List.map_nil, List.length_singleton]
    have still : ∀ other, ((exchange.apply turn).endpoints other).isSome := by
      intro other
      rw [applied]
      dsimp only
      split
      · rfl
      · exact alive other
    obtain ⟨events, final, reached, sent, there⟩ := inductionHypothesis (exchange.apply turn) still
      (side.other, write.pbmsg) (by rw [applied]; exact List.mem_append_right _ (.head _)) echo
    refine ⟨.deliver index untouched :: events, final,
      (Machine.run_cons_some _).mpr ⟨_, moved, reached⟩, ?_, there⟩
    rw [sent, applied]
    dsimp only
    omega

/-- With a log configuration request among the first ones, the endpoints can send any number
of messages more than the first ones, both of them alive. -/
theorem glc_exchange_unbounded (sessions : Side → SessionState δ κ)
    (present : ∃ request ∈ requests, IsGlcReq request.2.frame) (number : Nat) :
    ∃ events final,
      (exchangeMachine protobuf).run (Exchange.start llC sessions requests) events = some final ∧
      final.sent = requests.length + number ∧ ∀ side, (final.endpoints side).isSome := by
  obtain ⟨request, isFirst, isGlcReq⟩ := present
  exact echo_goes_on protobuf oneField inverts number (Exchange.start llC sessions requests)
    (fun _ => rfl) (request.1.other, request.2.frame)
    (List.mem_map.mpr ⟨request, isFirst, rfl⟩)
    ⟨request.2.wellFormed, request.2.nonEmpty, isGlcReq⟩

/-- Both endpoints are there, and nothing is under way or left over. -/
def StreamExchange.AtRest (bytes : StreamExchange δ κ) : Prop :=
  ∀ side, (bytes.endpoints side).isSome ∧ bytes.streams.bytes side = [] ∧
    (bytes.streams.rxBuf side).leftoverDataSize = 0

/-- However the bytes are cut, a severity that is not the one an endpoint started with was
asked for by a first request to it, or it is 2 and some first request asked for a severity;
and with such a request the streams never come to rest. -/
theorem severities_over_streams (sessions : Side → SessionState δ κ)
    (memory : Side → Store UInt8) (rxBufSize : Side → UInt32) (events : List StreamEvent)
    (final : StreamExchange δ κ)
    (clean : (StreamExchange.machine protobuf).Along StreamExchange.ReadsClean
      (StreamExchange.start llC sessions memory rxBufSize requests) events)
    (reached : (StreamExchange.machine protobuf).run
      (StreamExchange.start llC sessions memory rxBufSize requests) events = some final) :
    (∀ side endpoint, final.endpoints side = some endpoint →
      endpoint.llC = llC side ∨ AskedFor protobuf requests side endpoint.llC) ∧
    (final.AtRest → ∀ request ∈ requests, ¬ IsGlcReq request.2.frame) := by
  obtain ⟨deliveries, last, delivered, explains⟩ := run_explained protobuf oneField _ final _
    (start_explained llC sessions memory rxBufSize requests) events clean reached
  have echoes :=
    run_echoes protobuf oneField inverts llC requests sessions deliveries last delivered
  rw [← explains.endpoints]
  refine ⟨echoes.severities, ?_⟩
  intro atRest request member isGlcReq
  have nothing := explains.carry.none atRest
  have conserved := echoes.conserved fun side => by
    rw [explains.endpoints]
    exact (atRest side).1
  rw [nothing] at conserved
  exact List.countP_eq_zero.mp conserved.symm request member (decide_eq_true isGlcReq)

end Runs

/-- One log configuration request of the first side. -/
def oneGlcReq : List (Side × RequestMessage) :=
  [(.first, twoByteRequest .globalLogConfigReq (by decide))]

/-- The one request has been answered twice, and there is still one. -/
theorem glc_reqs_conserved_echo : ∃ final,
    (exchangeMachine WireCodec.protobuf).run (Exchange.start (fun _ => 7) noSessions oneGlcReq)
      glcEcho = some final ∧ glcReqs final.channel = 1 := by
  have alive : ((exchangeMachine WireCodec.protobuf).run (Exchange.start (fun _ => 7) noSessions
      oneGlcReq) glcEcho).map (fun final => ((final.endpoints .first).isSome,
        (final.endpoints .second).isSome)) = some (true, true) := by
    decide +kernel
  obtain ⟨final, reached, both⟩ := Option.map_eq_some_iff.mp alive
  obtain ⟨first, second⟩ := Prod.mk.inj both
  exact ⟨final, reached, glc_reqs_conserved WireCodec.protobuf WireCodec.protobuf_oneField
    WireCodec.protobuf_exact.globalLogConfig_inverts _ oneGlcReq noSessions glcEcho final reached
    fun side => by cases side; exacts [first, second]⟩

/-- The one request leads to a hundred messages more. -/
theorem glc_exchange_unbounded_hundred : ∃ events final,
    (exchangeMachine WireCodec.protobuf).run (Exchange.start (fun _ => 7) noSessions oneGlcReq)
      events = some final ∧
    final.sent = 101 ∧ ∀ side, (final.endpoints side).isSome :=
  glc_exchange_unbounded WireCodec.protobuf WireCodec.protobuf_oneField
    WireCodec.protobuf_exact.globalLogConfig_inverts _ oneGlcReq noSessions
    ⟨_, .head _, by decide⟩ 100

/-- Two log configuration requests of the first side. -/
def twoGlcReqs : List (Side × RequestMessage) :=
  [(.first, twoByteRequest .globalLogConfigReq (by decide)),
    (.first, twoByteRequest .globalLogConfigReq (by decide))]

/-- The second side reads one request, the first side reads the answer, and the second
side reads the other request with the first ten bytes of what the first one wrote back.
The ten bytes are left over, so this is the last read of that side that begins clean. -/
def readGlcReqs : List StreamEvent :=
  [.read .second 65536 34 fun _ => untouched, .read .first 65536 34 fun _ => untouched,
    .read .second 65536 44 fun _ => untouched]

/-- After three reads, the last of which ends within a message, the first side logs as
answers ask for and the second one as the requests do. -/
theorem severities_over_streams_read : ∃ final,
    (StreamExchange.machine WireCodec.protobuf).run
      (StreamExchange.start (fun _ => 7) noSessions (fun _ _ => 0) (fun _ => 0) twoGlcReqs)
      readGlcReqs = some final ∧
    (final.endpoints .first).map (fun endpoint => endpoint.llC) = some 2 ∧
    (final.endpoints .second).map (fun endpoint => endpoint.llC) = some 5 ∧
    (∀ side endpoint, final.endpoints side = some endpoint →
      endpoint.llC = 7 ∨ AskedFor WireCodec.protobuf twoGlcReqs side endpoint.llC) ∧
    ¬ final.AtRest := by
  have ends : ∃ final ∈ (StreamExchange.machine WireCodec.protobuf).run
      (StreamExchange.start (fun _ => 7) noSessions (fun _ _ => 0) (fun _ => 0) twoGlcReqs)
      readGlcReqs, (final.endpoints .first).map (fun endpoint => endpoint.llC) = some 2 ∧
        (final.endpoints .second).map (fun endpoint => endpoint.llC) = some 5 := by
    decide +kernel
  obtain ⟨final, reached, first, second⟩ := ends
  have clean : (StreamExchange.machine WireCodec.protobuf).Along StreamExchange.ReadsClean
      (StreamExchange.start (fun _ => 7) noSessions (fun _ _ => 0) (fun _ => 0) twoGlcReqs)
      readGlcReqs := by
    decide +kernel
  obtain ⟨severities, atRest⟩ := severities_over_streams WireCodec.protobuf
    WireCodec.protobuf_oneField WireCodec.protobuf_exact.globalLogConfig_inverts (fun _ => 7)
    twoGlcReqs noSessions (fun _ _ => 0) (fun _ => 0) readGlcReqs final clean reached
  exact ⟨final, reached, first, second, severities, fun rest => atRest rest _ (.head _) (by decide)⟩

end Evlpc
