import Evlpc.Handlers
import Evlpc.WireCodec
import Evlpc.Library.Machine

/-!
# Two endpoints on one channel

Both ends of a connection run all the handlers. The channel carries whole
messages and delivers them in any order; timers fire in any order. A process
that meets a fault is gone, and nothing is delivered to it any more.

A request costs at most one reply, at once or later through a timer. If every
reply has the type that belongs to its request, no reply is a request, and the
messages sent, the requests on the channel and the armed timers together never
exceed twice the number of the first requests.
-/

namespace Evlpc

open Library

universe u v
variable {δ : Type u} {κ : Type v}

/-- The two ends of the channel. -/
inductive Side where
  | first
  | second
deriving DecidableEq, Repr

/-- The peer of a side. -/
def Side.other : Side → Side
  | .first => .second
  | .second => .first

/-- The endpoints, none after a fault; the messages on the channel with their
destinations; and how many messages were sent so far. -/
structure Exchange (δ : Type u) (κ : Type v) where
  endpoints : Side → Option (Endpoint δ κ Unit)
  channel : List (Side × Frame)
  sent : Nat

/-- A message is delivered, or a timer of one side fires. -/
inductive ExchangeEvent where
  | deliver (index : Nat) (indeterminate : Indeterminate)
  | fire (side : Side) (index : Nat) (memory : PbMsg)

/-- What an event leads to: the side that acts, the type of the message it acts
on, what remains on the channel, and the outcome. -/
structure Turn (δ : Type u) (κ : Type v) where
  side : Side
  answered : UInt32
  channel : List (Side × Frame)
  result : Except Fault (Outcome δ κ Unit)

/-- The turn an event gives; a reply timer answers a delayed-response request. -/
def Exchange.turn (protobuf : Protobuf) (exchange : Exchange δ κ) :
    ExchangeEvent → Option (Turn δ κ)
  | .deliver index indeterminate =>
    match exchange.channel[index]? with
    | none => none
    | some (side, message) => (exchange.endpoints side).map fun endpoint =>
      { side := side
        answered := message.hdr.payloadType
        channel := exchange.channel.eraseIdx index
        result := receiveMessage protobuf indeterminate endpoint () message }
  | .fire side index memory =>
    match exchange.endpoints side with
    | none => none
    | some endpoint => (delayedResponseCb protobuf memory endpoint index).map fun outcome =>
      { side := side
        answered := MsgTypes.delayedResponseReq.code
        channel := exchange.channel
        result := .ok outcome }

/-- The exchange after a turn: what was written is on the channel. -/
def Exchange.apply (exchange : Exchange δ κ) (turn : Turn δ κ) : Exchange δ κ :=
  match turn.result with
  | .error _ =>
    { exchange with
      endpoints := fun side => if side = turn.side then none else exchange.endpoints side
      channel := turn.channel }
  | .ok outcome =>
    { endpoints := fun side =>
        if side = turn.side then some outcome.endpoint else exchange.endpoints side
      channel := turn.channel ++
        outcome.writes.map fun write => (turn.side.other, write.pbmsg)
      sent := exchange.sent + outcome.writes.length }

/-- Deliveries and timers, in any order. -/
def exchangeMachine (protobuf : Protobuf) : Machine (Exchange δ κ) ExchangeEvent :=
  ⟨fun exchange event => (exchange.turn protobuf event).map exchange.apply⟩

/-- The first requests are on the channel and no timer is armed. -/
def Exchange.start (llC : Side → UInt32) (sessions : Side → SessionState δ κ)
    (requests : List (Side × RequestMessage)) : Exchange δ κ where
  endpoints := fun side => some ⟨llC side, sessions side, []⟩
  channel := requests.map fun request => (request.1.other, request.2.frame)
  sent := requests.length

/-- Every message written in a turn has the type that belongs to what it answers;
where nothing belongs to it, nothing is written. -/
def RepliesProperly (protobuf : Protobuf) (exchange : Exchange δ κ) (event : ExchangeEvent) :
    Prop :=
  ∀ turn outcome, exchange.turn protobuf event = some turn → turn.result = .ok outcome →
    ∀ write ∈ outcome.writes, replyType turn.answered = some write.pbmsg.hdr.payloadType

/-- A whole message with a payload that is no log configuration request. -/
structure Ordinary (message : Frame) : Prop where
  wellFormed : message.WellFormed
  nonEmpty : message.payload ≠ []
  payloadType : message.hdr.payloadType ∈
    [MsgTypes.publishReq.code, MsgTypes.delayedResponseReq.code, MsgTypes.publishReply.code,
      MsgTypes.stdReply.code]

/-- The work a message of some type costs at most. -/
def cost (payloadType : UInt32) : Nat := if (replyType payloadType).isSome then 1 else 0

/-- An outcome is affordable: what it writes are ordinary replies of the type that
belongs to what is answered, and together with the timers they stay in a budget. -/
structure Affordable (endpoint : Endpoint δ κ Unit) (answered : UInt32) (budget : Nat)
    (outcome : Outcome δ κ Unit) : Prop where
  ordinary : ∀ write ∈ outcome.writes, Ordinary write.pbmsg
  proper : ∀ write ∈ outcome.writes, replyType answered = some write.pbmsg.hdr.payloadType
  free : ∀ write ∈ outcome.writes, replyType write.pbmsg.hdr.payloadType = none
  paid : outcome.writes.length + outcome.endpoint.timers.length ≤
    endpoint.timers.length + budget

/-- A single reply written for what it answers. -/
theorem affordable_reply (endpoint after : Endpoint δ κ Unit)
    (answered payloadType sid rid : UInt32) (budget : Nat) (write : Write Unit)
    (carries : Carries write () payloadType sid rid)
    (belongs : replyType answered = some payloadType)
    (isReply : payloadType ∈ [MsgTypes.publishReply.code, MsgTypes.stdReply.code])
    (paid : 1 + after.timers.length ≤ endpoint.timers.length + budget) :
    Affordable endpoint answered budget ⟨after, [write], []⟩ := by
  have only : ∀ other ∈ [write], other = write := fun other member => List.mem_singleton.mp member
  have reply : replyType payloadType = none ∧
      payloadType ∈ [MsgTypes.publishReq.code, MsgTypes.delayedResponseReq.code,
        MsgTypes.publishReply.code, MsgTypes.stdReply.code] := by
    rcases List.mem_pair.mp isReply with rfl | rfl
    · exact ⟨rfl, by simp⟩
    · exact ⟨rfl, by simp⟩
  refine ⟨?_, ?_, ?_, paid⟩
  · intro other member
    rw [only other member]
    exact ⟨carries.wellFormed, carries.nonEmpty, carries.payloadType ▸ reply.2⟩
  · intro other member
    rw [only other member, belongs, carries.payloadType]
  · intro other member
    rw [only other member, carries.payloadType]
    exact reply.1

/-- Nothing written. -/
theorem affordable_silent (endpoint after : Endpoint δ κ Unit) (answered : UInt32) (budget : Nat)
    (callbacks : List (CallbackRun δ κ Unit))
    (paid : after.timers.length ≤ endpoint.timers.length + budget) :
    Affordable endpoint answered budget ⟨after, [], callbacks⟩ :=
  ⟨by simp, by simp, by simp, by simpa using paid⟩

section Turns

variable (protobuf : Protobuf) (oneField : protobuf.OneField)
include oneField

/-- Receiving an ordinary message is paid for by its cost. One case for each of the
four types; only a standard reply can fail. -/
theorem receive_affordable (indeterminate : Indeterminate) (endpoint : Endpoint δ κ Unit)
    (message : Frame) (ordinary : Ordinary message) (outcome : Outcome δ κ Unit)
    (received : receiveMessage protobuf indeterminate endpoint () message = .ok outcome) :
    Affordable endpoint message.hdr.payloadType (cost message.hdr.payloadType) outcome := by
  have handled := receiveMessage_handled protobuf indeterminate endpoint () message
    ordinary.wellFormed ordinary.nonEmpty
  have type := ordinary.payloadType
  simp only [List.mem_cons, List.not_mem_nil, or_false] at type
  rcases type with publishReq | delayedReq | publishReply | stdReply
  · rw [handled .handlePublishReq (by rw [publishReq]; decide)] at received
    obtain ⟨write, writes, carries⟩ :=
      handlePublishReq_writes protobuf oneField indeterminate.memory endpoint ()
    obtain rfl := (Except.ok.inj received).symm.trans writes
    exact affordable_reply endpoint endpoint _ _ _ _ _ write carries (by rw [publishReq]; decide)
      (by decide) (by rw [publishReq]; exact Nat.le_of_eq (Nat.add_comm _ _))
  · rw [receiveMessage_delayed protobuf indeterminate endpoint () message ordinary.wellFormed
      ordinary.nonEmpty delayedReq] at received
    obtain rfl := Except.ok.inj received
    apply affordable_silent
    rw [delayedReq]
    exact Nat.le_of_eq (List.length_append)
  · rw [handled .handlePublishReply (by rw [publishReply]; decide)] at received
    obtain rfl := Except.ok.inj received
    exact affordable_silent endpoint endpoint _ _ [] (Nat.le_add_right _ _)
  · rw [handled .handleStdReply (by rw [stdReply]; decide)] at received
    change handleStdReply endpoint () message indeterminate.stray = _ at received
    unfold handleStdReply at received
    split at received
    · cases received
    · obtain rfl := Except.ok.inj received
      exact affordable_silent endpoint _ _ _ _ (Nat.le_add_right _ _)
    · obtain rfl := Except.ok.inj received
      exact affordable_silent endpoint _ _ _ _ (Nat.le_add_right _ _)

/-- A timer that fires is gone, which pays for its reply. -/
theorem fire_affordable (memory : PbMsg) (endpoint : Endpoint δ κ Unit) (index : Nat)
    (outcome : Outcome δ κ Unit)
    (fired : delayedResponseCb protobuf memory endpoint index = some outcome) :
    Affordable endpoint MsgTypes.delayedResponseReq.code 0 outcome := by
  obtain ⟨replySessionData, armed, rfl⟩ :=
    (delayedResponseCb_some protobuf memory endpoint index outcome).mp fired
  obtain ⟨bound, _⟩ := List.getElem?_eq_some_iff.mp armed
  have remaining : (endpoint.timers.eraseIdx index).length + 1 = endpoint.timers.length :=
    List.length_eraseIdx_add_one bound
  exact affordable_reply endpoint _ _ _ _ _ 0 _
    (sendAStdReply_carries protobuf oneField memory replySessionData) (by decide) (by decide)
    (by change 1 + (endpoint.timers.eraseIdx index).length ≤ _; omega)

end Turns

/-- The number of timers armed on a side. -/
def Exchange.armed (exchange : Exchange δ κ) (side : Side) : Nat :=
  ((exchange.endpoints side).map fun endpoint => endpoint.timers.length).getD 0

/-- The requests on a channel, which cost a reply each. -/
def channelCost (channel : List (Side × Frame)) : Nat :=
  channel.countP fun message => (replyType message.2.hdr.payloadType).isSome

/-- The channel holds ordinary messages, and the messages sent, those still to be
paid for and the armed timers are within a limit. -/
structure Exchange.Solvent (limit : Nat) (exchange : Exchange δ κ) : Prop where
  ordinary : ∀ message ∈ exchange.channel, Ordinary message.2
  within : exchange.sent + channelCost exchange.channel + exchange.armed .first +
    exchange.armed .second ≤ limit

/-- A turn is one endpoint's, over messages that were on the channel, and its
outcome is paid for by what was taken off the channel. -/
structure Turn.Paid (exchange : Exchange δ κ) (turn : Turn δ κ) (endpoint : Endpoint δ κ Unit)
    (budget : Nat) : Prop where
  acting : exchange.endpoints turn.side = some endpoint
  channel : ∀ message ∈ turn.channel, message ∈ exchange.channel
  taken : channelCost turn.channel + budget = channelCost exchange.channel
  outcome : ∀ outcome, turn.result = .ok outcome →
    Affordable endpoint turn.answered budget outcome

/-- Taking a message away takes away what it can cost. -/
theorem channelCost_erase (channel : List (Side × Frame)) (index : Nat) (side : Side)
    (message : Frame) (found : channel[index]? = some (side, message)) :
    channelCost (channel.eraseIdx index) + cost message.hdr.payloadType = channelCost channel := by
  obtain ⟨bound, value⟩ := List.getElem?_eq_some_iff.mp found
  have taken := List.getElem_cons_eraseIdx_perm bound
  rw [value] at taken
  rw [channelCost, channelCost, ← taken.countP_eq, List.countP_cons]
  rfl

/-- Replies on a channel cost nothing. -/
theorem written_free (side : Side) (writes : List (Write Unit))
    (free : ∀ write ∈ writes, replyType write.pbmsg.hdr.payloadType = none) :
    channelCost (writes.map fun write => (side, write.pbmsg)) = 0 := by
  rw [channelCost, List.countP_eq_zero]
  intro message member
  obtain ⟨write, written, rfl⟩ := List.mem_map.mp member
  simp [free write written]

/-- Replacing an endpoint exchanges its timers for those of the other. -/
theorem armed_replace (exchange : Exchange δ κ) (side : Side) (after : Option (Endpoint δ κ Unit))
    (channel : List (Side × Frame)) (sent : Nat) :
    (Exchange.armed ⟨fun other => if other = side then after else exchange.endpoints other,
        channel, sent⟩ .first +
      Exchange.armed ⟨fun other => if other = side then after else exchange.endpoints other,
        channel, sent⟩ .second) + exchange.armed side =
    exchange.armed .first + exchange.armed .second +
      (after.map fun endpoint => endpoint.timers.length).getD 0 := by
  cases side with
  | first =>
    simp only [Exchange.armed, if_true, reduceCtorEq, if_false]
    omega
  | second =>
    simp only [Exchange.armed, if_true, reduceCtorEq, if_false]
    omega

section Runs

variable (protobuf : Protobuf) (oneField : protobuf.OneField)
include oneField

/-- Every turn of a solvent exchange is paid for. -/
theorem turn_paid (exchange : Exchange δ κ)
    (ordinary : ∀ message ∈ exchange.channel, Ordinary message.2) (event : ExchangeEvent)
    (turn : Turn δ κ) (given : exchange.turn protobuf event = some turn) :
    ∃ endpoint budget, turn.Paid exchange endpoint budget := by
  cases event with
  | deliver index indeterminate =>
    cases found : exchange.channel[index]? with
    | none => simp [Exchange.turn, found] at given
    | some destined =>
      obtain ⟨side, message⟩ := destined
      simp only [Exchange.turn, found, Option.map_eq_some_iff] at given
      obtain ⟨endpoint, acting, rfl⟩ := given
      have present := ordinary (side, message) (List.mem_of_getElem? found)
      exact ⟨endpoint, cost message.hdr.payloadType, {
        acting := acting
        channel := fun other member => List.mem_of_mem_eraseIdx member
        taken := channelCost_erase exchange.channel index side message found
        outcome := receive_affordable protobuf oneField indeterminate endpoint message present }⟩
  | fire side index memory =>
    cases acting : exchange.endpoints side with
    | none => simp [Exchange.turn, acting] at given
    | some endpoint =>
      simp only [Exchange.turn, acting, Option.map_eq_some_iff] at given
      obtain ⟨outcome, fired, rfl⟩ := given
      exact ⟨endpoint, 0, {
        acting := acting
        channel := fun _ member => member
        taken := rfl
        outcome := fun other same => Except.ok.inj same ▸
          fire_affordable protobuf oneField memory endpoint index outcome fired }⟩

omit oneField in
/-- Applying a turn that is paid for keeps the exchange solvent. -/
theorem apply_solvent (limit : Nat) (exchange : Exchange δ κ) (solvent : exchange.Solvent limit)
    (turn : Turn δ κ) (endpoint : Endpoint δ κ Unit) (budget : Nat)
    (paid : turn.Paid exchange endpoint budget) : (exchange.apply turn).Solvent limit := by
  have within := solvent.within
  have taken := paid.taken
  have acting : exchange.armed turn.side = endpoint.timers.length := by
    rw [Exchange.armed, paid.acting, Option.map_some, Option.getD_some]
  rw [Exchange.apply]
  cases result : turn.result with
  | error fault =>
    have armed := armed_replace exchange turn.side none turn.channel exchange.sent
    rw [Option.map_none, Option.getD_none] at armed
    refine ⟨fun message member => solvent.ordinary message (paid.channel message member), ?_⟩
    simp only
    omega
  | ok outcome =>
    have affordable := paid.outcome outcome result
    have cheap := affordable.paid
    have free := written_free turn.side.other outcome.writes affordable.free
    have armed := armed_replace exchange turn.side (some outcome.endpoint)
      (turn.channel ++ outcome.writes.map fun write => (turn.side.other, write.pbmsg))
      (exchange.sent + outcome.writes.length)
    rw [Option.map_some, Option.getD_some] at armed
    constructor
    · intro message member
      rcases List.mem_append.mp member with member | member
      · exact solvent.ordinary message (paid.channel message member)
      · obtain ⟨write, written, rfl⟩ := List.mem_map.mp member
        exact affordable.ordinary write written
    · have cost : channelCost (turn.channel ++ outcome.writes.map fun write =>
          (turn.side.other, write.pbmsg)) = channelCost turn.channel := by
        rw [channelCost, List.countP_append, ← channelCost, ← channelCost, free, Nat.add_zero]
      simp only [cost]
      omega

/-- A step from a solvent exchange replies properly and keeps it solvent. -/
theorem step_solvent (limit : Nat) (exchange : Exchange δ κ) (solvent : exchange.Solvent limit)
    (event : ExchangeEvent) :
    RepliesProperly protobuf exchange event ∧
      ∀ next, (exchangeMachine protobuf).step exchange event = some next → next.Solvent limit := by
  constructor
  · intro turn outcome given result
    obtain ⟨endpoint, budget, paid⟩ :=
      turn_paid protobuf oneField exchange solvent.ordinary event turn given
    exact (paid.outcome outcome result).proper
  · intro next moved
    obtain ⟨turn, given, rfl⟩ := Option.map_eq_some_iff.mp moved
    obtain ⟨endpoint, budget, paid⟩ :=
      turn_paid protobuf oneField exchange solvent.ordinary event turn given
    exact apply_solvent limit exchange solvent turn endpoint budget paid

end Runs

/-- The first messages cost at most one each. -/
theorem start_solvent (llC : Side → UInt32) (sessions : Side → SessionState δ κ)
    (requests : List (Side × RequestMessage))
    (noGlcReq : ∀ request ∈ requests,
      request.2.frame.hdr.payloadType ≠ MsgTypes.globalLogConfigReq.code) :
    (Exchange.start llC sessions requests).Solvent (2 * requests.length) := by
  constructor
  · intro message member
    obtain ⟨request, isFirst, rfl⟩ := List.mem_map.mp member
    refine ⟨request.2.wellFormed, request.2.nonEmpty, ?_⟩
    rcases request.2.payloadType with glcReq | publishReq | delayedReq
    · exact absurd glcReq (noGlcReq request isFirst)
    · rw [publishReq]
      decide
    · rw [delayedReq]
      decide
  · have costs : channelCost (Exchange.start llC sessions requests).channel ≤ requests.length :=
      Nat.le_trans List.countP_le_length (Nat.le_of_eq (List.length_map _))
    have none : ∀ side, (Exchange.start llC sessions requests).armed side = 0 := fun _ => rfl
    have sent : (Exchange.start llC sessions requests).sent = requests.length := rfl
    rw [none, none, sent]
    omega

/-- What the exchange promises: in every run each message is answered by the type that
belongs to it, and no more than two messages are sent for a first one. -/
def BoundedExchange (protobuf : Protobuf) (llC : Side → UInt32) (sessions : Side → SessionState δ κ)
    (requests : List (Side × RequestMessage)) : Prop :=
  ∀ events,
    (exchangeMachine protobuf).Along (RepliesProperly protobuf)
      (Exchange.start llC sessions requests) events ∧
    ∀ final, (exchangeMachine protobuf).run (Exchange.start llC sessions requests) events =
      some final → final.sent ≤ 2 * requests.length

/-- The answer to a log configuration request on the channel is of the wrong type. -/
theorem glc_improper (protobuf : Protobuf) (oneField : protobuf.OneField) (exchange : Exchange δ κ)
    (side : Side) (endpoint : Endpoint δ κ Unit) (acting : exchange.endpoints side = some endpoint)
    (index : Nat) (request : RequestMessage)
    (found : exchange.channel[index]? = some (side, request.frame))
    (isGlcReq : request.frame.hdr.payloadType = MsgTypes.globalLogConfigReq.code) :
    ¬ RepliesProperly protobuf exchange (.deliver index untouched) := by
  intro proper
  have given : exchange.turn protobuf (.deliver index untouched) =
      some ⟨side, request.frame.hdr.payloadType, exchange.channel.eraseIdx index,
        receiveMessage protobuf untouched endpoint () request.frame⟩ := by
    simp only [Exchange.turn, found, acting, Option.map_some]
  have handled := receiveMessage_handled protobuf untouched endpoint () request.frame
    request.wellFormed request.nonEmpty .handleGlcReq (by rw [isGlcReq]; decide)
  obtain ⟨write, level, writes, carries⟩ :=
    handleGlcReq_writes protobuf oneField untouched.memory endpoint () request.frame
  have type := proper _ _ given (handled.trans (congrArg Except.ok writes)) write
    (List.mem_singleton_self write)
  change replyType request.frame.hdr.payloadType = _ at type
  rw [carries.payloadType, isGlcReq] at type
  exact absurd type (by decide)

/-- The exchange is bounded exactly if no first request is a log configuration
request: the answer to one of those is another one. -/
theorem bounded_exchange_iff (protobuf : Protobuf) (oneField : protobuf.OneField)
    (llC : Side → UInt32) (sessions : Side → SessionState δ κ)
    (requests : List (Side × RequestMessage)) :
    BoundedExchange protobuf llC sessions requests ↔
      ∀ request ∈ requests,
        request.2.frame.hdr.payloadType ≠ MsgTypes.globalLogConfigReq.code := by
  constructor
  · intro bounded request member isGlcReq
    obtain ⟨index, found⟩ := List.mem_iff_getElem?.mp member
    have onChannel : (Exchange.start llC sessions requests).channel[index]? =
        some (request.1.other, request.2.frame) := by
      rw [Exchange.start, List.getElem?_map, found, Option.map_some]
    exact glc_improper protobuf oneField _ request.1.other _ rfl index request.2 onChannel isGlcReq
      (bounded [.deliver index untouched]).1.1
  · intro noGlcReq events
    have solvent := start_solvent llC sessions requests noGlcReq
    constructor
    · exact (exchangeMachine protobuf).along_of_invariant (Exchange.Solvent (2 * requests.length))
        (RepliesProperly protobuf)
        (fun exchange event holds => (step_solvent protobuf oneField _ exchange holds event).1)
        (fun exchange event next holds moved =>
          (step_solvent protobuf oneField _ exchange holds event).2 next moved) _ events solvent
    · intro final reached
      have holds := (exchangeMachine protobuf).run_invariant
        (Exchange.Solvent (2 * requests.length))
        (fun exchange event next holds moved =>
          (step_solvent protobuf oneField _ exchange holds event).2 next moved) _ final events
        solvent reached
      have within := holds.within
      omega

/-- Sessions of endpoints that have made none. -/
def noSessions : Side → SessionState Unit Unit := fun _ => SessionState.start

/-- A publish request and a delayed request are answered once each. -/
theorem bounded_exchange_publish :
    BoundedExchange WireCodec.protobuf (fun _ => 7) noSessions
      [(.first, twoByteRequest .publishReq (by decide)),
        (.second, twoByteRequest .delayedResponseReq (by decide))] :=
  (bounded_exchange_iff WireCodec.protobuf WireCodec.protobuf_oneField _ noSessions _).mpr
    (by decide)

/-- Delivering one log configuration request and then its answer. -/
def glcEcho : List ExchangeEvent := [.deliver 0 untouched, .deliver 0 untouched]

/-- One log configuration request has led to three messages after two deliveries,
and there is another one on the channel. -/
theorem glc_requests_echo :
    ¬ BoundedExchange WireCodec.protobuf (fun _ => 7) noSessions
      [(.first, twoByteRequest .globalLogConfigReq (by decide))] := by
  intro bounded
  have sent : ((exchangeMachine WireCodec.protobuf).run (Exchange.start (fun _ => 7) noSessions
      [(.first, twoByteRequest .globalLogConfigReq (by decide))]) glcEcho).map
        (fun final => final.sent) = some 3 := by
    decide +kernel
  obtain ⟨final, reached, three⟩ := Option.map_eq_some_iff.mp sent
  have most := (bounded glcEcho).2 final reached
  rw [three] at most
  exact absurd most (by decide)

end Evlpc
