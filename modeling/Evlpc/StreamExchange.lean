import Evlpc.Exchange
import Evlpc.StreamReads

/-!
# Two endpoints on a byte stream

What the endpoints of an exchange really share is two streams of bytes. Each side reads
from the one and writes to the other, and a handler that meets a fault ends its process,
while what the handlers before it wrote stays written.

As long as nothing is left over when a read begins, every run over bytes is one of the
exchange of messages: a read delivers the messages it completes, in the order in which
they were written. What holds of all runs of messages therefore holds of the bytes,
however they are cut and joined.
-/

namespace Evlpc

open Library Channels

universe u v
variable {δ : Type u} {κ : Type v}

/-- The endpoints, none after a fault; the stream to each of them; and how many messages
were sent so far. -/
structure StreamExchange (δ : Type u) (κ : Type v) where
  endpoints : Side → Option (Endpoint δ κ Unit)
  streams : Streams Side
  sent : Nat

/-- A side reads some of the bytes under way to it, or one of its timers fires. The
handlers of a read find one indeterminate memory after the other. -/
inductive StreamEvent where
  | read (side : Side) (suggestedSize : UInt64) (count : Nat) (memories : Nat → Indeterminate)
  | fire (side : Side) (index : Nat) (memory : PbMsg)

/-- What a side writes is under way to the other one. -/
def toOther (side : Side) (writes : List (Write Unit)) : List (Side × Frame) :=
  writes.map fun write => (side.other, write.pbmsg)

namespace StreamExchange

/-- The exchange after the handlers of a side: its endpoint is replaced, and the messages it
wrote are under way to the other side. -/
def act (exchange : StreamExchange δ κ) (side : Side) (endpoint : Option (Endpoint δ κ Unit))
    (writes : List (Write Unit)) : StreamExchange δ κ where
  endpoints := Function.update exchange.endpoints side endpoint
  streams := exchange.streams.send (toOther side writes)
  sent := exchange.sent + writes.length

/-- The exchange once a side has read some bytes, with the receive buffer it has then. -/
def taking (exchange : StreamExchange δ κ) (side : Side) (count : Nat) (rxBuf : RxBufAddr) :
    StreamExchange δ κ :=
  { exchange with streams := exchange.streams.take side count rxBuf }

/-- A read and the callbacks it leads to, or a timer. -/
def step (protobuf : Protobuf) (exchange : StreamExchange δ κ) :
    StreamEvent → Option (StreamExchange δ κ)
  | .read side suggestedSize count memories =>
    match exchange.endpoints side with
    | none => none
    | some endpoint =>
      (readHandled protobuf () memories endpoint (exchange.streams.rxBuf side)
        (exchange.streams.reading side suggestedSize count)).map fun read =>
          (exchange.taking side count read.1).act side read.2.endpoint read.2.writes
  | .fire side index memory =>
    match exchange.endpoints side with
    | none => none
    | some endpoint => (delayedResponseCb protobuf memory endpoint index).map fun outcome =>
      exchange.act side (some outcome.endpoint) outcome.writes

/-- Reads and timers, in any order. -/
def machine (protobuf : Protobuf) : Machine (StreamExchange δ κ) StreamEvent := ⟨step protobuf⟩

/-- Nothing is left over when a read begins. -/
def ReadsClean (exchange : StreamExchange δ κ) : StreamEvent → Prop
  | .read side _ _ _ => (exchange.streams.rxBuf side).leftoverDataSize = 0
  | .fire _ _ _ => True

instance (exchange : StreamExchange δ κ) :
    (event : StreamEvent) → Decidable (exchange.ReadsClean event)
  | .read _ _ _ _ => inferInstanceAs (Decidable (_ = _))
  | .fire _ _ _ => isTrue trivial

/-- The first requests are under way on new connections and no timer is armed. -/
def start (llC : Side → UInt32) (sessions : Side → SessionState δ κ)
    (memory : Side → Store UInt8) (rxBufSize : Side → UInt32)
    (requests : List (Side × RequestMessage)) : StreamExchange δ κ where
  endpoints := fun side => some ⟨llC side, sessions side, []⟩
  streams := (Streams.opened memory rxBufSize).send
    (requests.map fun request => (request.1.other, request.2.frame))
  sent := requests.length

end StreamExchange

/-- What one side's handlers make of an exchange of messages: the endpoint of that side,
the messages it took and those it wrote to the other side. -/
structure Acted (exchange next : Exchange δ κ) (side : Side)
    (endpoint : Option (Endpoint δ κ Unit)) (taken : List Frame) (writes : List (Write Unit)) :
    Prop where
  endpoints : next.endpoints = Function.update exchange.endpoints side endpoint
  sent : next.sent = exchange.sent + writes.length
  moved : Moved side taken (toOther side writes) exchange.channel next.channel

/-- What is done in two parts is done. -/
theorem Acted.trans {exchange middle next : Exchange δ κ} {side : Side}
    {endpoint after : Option (Endpoint δ κ Unit)} {first second : List Frame}
    {writes more : List (Write Unit)} (one : Acted exchange middle side endpoint first writes)
    (two : Acted middle next side after second more) :
    Acted exchange next side after (first ++ second) (writes ++ more) where
  endpoints := by rw [two.endpoints, one.endpoints, Function.update_idem]
  sent := by rw [two.sent, one.sent, List.length_append, Nat.add_assoc]
  moved := by
    rw [toOther, List.map_append]
    exact one.moved.trans two.moved

/-- The side that acted has the endpoint that its handlers left. -/
theorem Acted.acting {exchange next : Exchange δ κ} {side : Side}
    {endpoint : Option (Endpoint δ κ Unit)} {taken : List Frame} {writes : List (Write Unit)}
    (acted : Acted exchange next side endpoint taken writes) : next.endpoints side = endpoint := by
  rw [acted.endpoints, Function.update_self]

section Delivering

variable (protobuf : Protobuf)

/-- The first message for a side is delivered to it. -/
theorem deliver_first (indeterminate : Indeterminate) (exchange : Exchange δ κ) (side : Side)
    (endpoint : Endpoint δ κ Unit) (acting : exchange.endpoints side = some endpoint)
    (message : Frame) (later : List Frame)
    (first : toward side exchange.channel = message :: later) :
    ∃ event next, (exchangeMachine protobuf).step exchange event = some next ∧
      match receiveMessage protobuf indeterminate endpoint () message with
      | .error _ => Acted exchange next side none [message] []
      | .ok outcome =>
        Acted exchange next side (some outcome.endpoint) [message] outcome.writes := by
  cases result : receiveMessage protobuf indeterminate endpoint () message with
  | error fault =>
    obtain ⟨index, found, moved⟩ := moved_first message exchange.channel later first []
    refine ⟨.deliver index indeterminate, exchange.apply ⟨side, message.hdr.payloadType,
      exchange.channel.eraseIdx index, .error fault⟩, ?_, ?_, rfl, ?_⟩
    · simp only [exchangeMachine, Exchange.turn, found, acting, Option.map_some, result]
    · funext other
      exact (Function.update_apply exchange.endpoints side none other).symm
    · rw [List.append_nil] at moved
      exact moved
  | ok outcome =>
    obtain ⟨index, found, moved⟩ := moved_first message exchange.channel later first
      (toOther side outcome.writes)
    refine ⟨.deliver index indeterminate, exchange.apply ⟨side, message.hdr.payloadType,
      exchange.channel.eraseIdx index, .ok outcome⟩, ?_, ?_, rfl, moved⟩
    · simp only [exchangeMachine, Exchange.turn, found, acting, Option.map_some, result]
    · funext other
      exact (Function.update_apply exchange.endpoints side _ other).symm

/-- Messages that a side receives one after the other can be delivered to it so. Induct over
the messages: behind a fault the others stay under way. -/
theorem messages_delivered (side : Side) (frames later : List Frame)
    (memories : Nat → Indeterminate) (exchange : Exchange δ κ) (endpoint : Endpoint δ κ Unit)
    (acting : exchange.endpoints side = some endpoint)
    (coming : toward side exchange.channel = frames ++ later) :
    ∃ events next taken, (exchangeMachine protobuf).run exchange events = some next ∧
      Acted exchange next side (receiveMessages protobuf () memories endpoint frames).endpoint
        taken (receiveMessages protobuf () memories endpoint frames).writes ∧
      ((receiveMessages protobuf () memories endpoint frames).endpoint.isSome →
        taken = frames) := by
  induction frames generalizing later memories exchange endpoint with
  | nil =>
    refine ⟨[], exchange, [], rfl, ⟨?_, rfl, ?_⟩, fun _ => rfl⟩
    · rw [receiveMessages, ← acting, Function.update_eq_self]
    · have nothing := moved_sent side [] exchange.channel
      rwa [List.append_nil] at nothing
  | cons frame frames inductionHypothesis =>
    obtain ⟨event, middle, moved, acted⟩ := deliver_first protobuf (memories 0) exchange side
      endpoint acting frame _ coming
    rw [receiveMessages]
    cases result : receiveMessage protobuf (memories 0) endpoint () frame with
    | error fault =>
      rw [result] at acted
      exact ⟨[event], middle, [frame], (Machine.run_cons_some _).mpr ⟨middle, moved, rfl⟩, acted,
        fun alive => by cases alive⟩
    | ok outcome =>
      rw [result] at acted
      have order := acted.moved.own
      rw [coming, List.append_assoc] at order
      have behind : toward side middle.channel =
          frames ++ (later ++ toward side (toOther side outcome.writes)) :=
        (List.cons.inj order).2.symm
      obtain ⟨events, next, taken, reached, rest, all⟩ := inductionHypothesis _
        (fun index => memories (index + 1)) middle outcome.endpoint acted.acting behind
      exact ⟨event :: events, next, frame :: taken,
        (Machine.run_cons_some _).mpr ⟨middle, moved, reached⟩, acted.trans rest,
        fun alive => congrArg (frame :: ·) (all alive)⟩

/-- A timer that fires writes its reply to the other side. -/
theorem fire_acted (exchange : Exchange δ κ) (side : Side) (endpoint : Endpoint δ κ Unit)
    (acting : exchange.endpoints side = some endpoint) (index : Nat) (memory : PbMsg)
    (outcome : Outcome δ κ Unit)
    (fired : delayedResponseCb protobuf memory endpoint index = some outcome) :
    ∃ next, (exchangeMachine protobuf).step exchange (.fire side index memory) = some next ∧
      Acted exchange next side (some outcome.endpoint) [] outcome.writes := by
  refine ⟨exchange.apply ⟨side, MsgTypes.delayedResponseReq.code, exchange.channel, .ok outcome⟩,
    ?_, ?_, rfl, moved_sent _ _ _⟩
  · simp only [exchangeMachine, Exchange.turn, acting, fired, Option.map_some]
  · funext other
    exact (Function.update_apply exchange.endpoints side _ other).symm

end Delivering

/-- An exchange of messages explains one of bytes: the endpoints and the number of messages
sent are the same, and the streams carry the messages on the channel. -/
structure Explains (bytes : StreamExchange δ κ) (exchange : Exchange δ κ) : Prop where
  endpoints : exchange.endpoints = bytes.endpoints
  sent : exchange.sent = bytes.sent
  carry : bytes.streams.Carry (fun side => (bytes.endpoints side).isSome) exchange.channel

/-- Before anything is read, the channel holds the first requests. -/
theorem start_explained (llC : Side → UInt32) (sessions : Side → SessionState δ κ)
    (memory : Side → Store UInt8) (rxBufSize : Side → UInt32)
    (requests : List (Side × RequestMessage)) :
    Explains (StreamExchange.start llC sessions memory rxBufSize requests)
      (Exchange.start llC sessions requests) where
  endpoints := rfl
  sent := rfl
  carry := by
    refine (Streams.opened_carry memory rxBufSize).send _ ?_
    intro message member
    obtain ⟨request, _, rfl⟩ := List.mem_map.mp member
    exact request.2.wellFormed

/-- Who is there after one of those who were there has acted was there before. -/
theorem updated_alive (endpoints : Side → Option (Endpoint δ κ Unit)) (side : Side)
    (endpoint : Endpoint δ κ Unit) (acted : Option (Endpoint δ κ Unit))
    (acting : endpoints side = some endpoint) (other : Side)
    (alive : (Function.update endpoints side acted other).isSome) :
    (endpoints other).isSome := by
  by_cases own : other = side
  · rw [own, acting]
    rfl
  · rwa [Function.update_of_ne own] at alive

section Runs

variable (protobuf : Protobuf) (oneField : protobuf.OneField)
include oneField

/-- A clean step over bytes is explained by a run of messages: a read by the deliveries of
the messages it completes, a timer by itself. -/
theorem step_explained (bytes next : StreamExchange δ κ) (exchange : Exchange δ κ)
    (explains : Explains bytes exchange) (event : StreamEvent) (clean : bytes.ReadsClean event)
    (moved : (StreamExchange.machine protobuf).step bytes event = some next) :
    ∃ events later, (exchangeMachine protobuf).run exchange events = some later ∧
      Explains next later := by
  have carry := explains.carry
  cases event with
  | read side suggestedSize count memories =>
    cases acting : bytes.endpoints side with
    | none =>
      simp only [StreamExchange.machine, StreamExchange.step, acting] at moved
      cases moved
    | some endpoint =>
      simp only [StreamExchange.machine, StreamExchange.step, acting, Option.map_eq_some_iff]
        at moved
      obtain ⟨⟨info, handled⟩, happens, rfl⟩ := moved
      have coming := carry.bytes side (by rw [acting]; rfl) clean
      have actingThere : exchange.endpoints side = some endpoint := by
        rw [explains.endpoints, acting]
      rw [Streams.reading, coming] at happens
      obtain ⟨sound, first, later, others, parts, rfl, remains⟩ := readHandled_messages protobuf ()
        memories endpoint _ info (carry.sound side) clean suggestedSize count _
        (carry.coming side) handled happens
      obtain ⟨events, next, taken, reached, acted, all⟩ := messages_delivered protobuf side first
        later others exchange endpoint actingThere parts
      refine ⟨events, next, reached, ?_, ?_, ?_⟩
      · rw [acted.endpoints, explains.endpoints]
        rfl
      · rw [acted.sent, explains.sent]
        rfl
      · have whole := receiveMessages_whole protobuf () others endpoint oneField first
          (fun frame member => carry.coming side frame (parts ▸ List.mem_append_left later member))
        refine carry.take side count info sound taken first later _ _ parts acted.moved ?_ _ ?_ ?_
          (coming ▸ remains)
        · intro message member
          obtain ⟨write, written, rfl⟩ := List.mem_map.mp member
          exact whole write written
        · exact fun other alive => updated_alive bytes.endpoints side endpoint _ acting other alive
        · intro alive
          change (Function.update bytes.endpoints side _ side).isSome at alive
          rw [Function.update_self] at alive
          exact all alive
  | fire side index memory =>
    cases acting : bytes.endpoints side with
    | none =>
      simp only [StreamExchange.machine, StreamExchange.step, acting] at moved
      cases moved
    | some endpoint =>
      simp only [StreamExchange.machine, StreamExchange.step, acting, Option.map_eq_some_iff]
        at moved
      obtain ⟨outcome, fired, rfl⟩ := moved
      have actingThere : exchange.endpoints side = some endpoint := by
        rw [explains.endpoints, acting]
      obtain ⟨later, turned, acted⟩ :=
        fire_acted protobuf exchange side endpoint actingThere index memory outcome fired
      obtain ⟨replySessionData, armed, rfl⟩ :=
        (delayedResponseCb_some protobuf memory endpoint index outcome).mp fired
      refine ⟨[.fire side index memory], later, (Machine.run_cons_some _).mpr ⟨later, turned, rfl⟩,
        ?_, ?_, ?_⟩
      · rw [acted.endpoints, explains.endpoints]
        rfl
      · rw [acted.sent, explains.sent]
        rfl
      · refine carry.moved side _ _ acted.moved ?_ _ ?_
        · intro message member
          obtain rfl := List.mem_singleton.mp member
          exact (sendAStdReply_carries protobuf oneField memory replySessionData).wellFormed
        · exact fun other alive => updated_alive bytes.endpoints side endpoint _ acting other alive

/-- A clean run over bytes is explained by one over messages. Each step adds its
deliveries. -/
theorem run_explained (bytes final : StreamExchange δ κ) (exchange : Exchange δ κ)
    (explains : Explains bytes exchange) (events : List StreamEvent)
    (clean : (StreamExchange.machine protobuf).Along StreamExchange.ReadsClean bytes events)
    (reached : (StreamExchange.machine protobuf).run bytes events = some final) :
    ∃ deliveries last, (exchangeMachine protobuf).run exchange deliveries = some last ∧
      Explains final last :=
  (StreamExchange.machine protobuf).guarded_simulated (exchangeMachine protobuf) Explains
    StreamExchange.ReadsClean
    (fun bytes event next exchange explains clean moved =>
      step_explained protobuf oneField bytes next exchange explains event clean moved)
    bytes final exchange events explains clean reached

/-- Every run over bytes whose reads begin clean is explained by a run of messages: however
the bytes are cut, a read delivers the messages it completes, in the order in which they
were written, and the endpoints and the messages sent are the same. -/
theorem stream_run_explained (llC : Side → UInt32) (sessions : Side → SessionState δ κ)
    (memory : Side → Store UInt8) (rxBufSize : Side → UInt32)
    (requests : List (Side × RequestMessage)) (events : List StreamEvent)
    (final : StreamExchange δ κ)
    (clean : (StreamExchange.machine protobuf).Along StreamExchange.ReadsClean
      (StreamExchange.start llC sessions memory rxBufSize requests) events)
    (reached : (StreamExchange.machine protobuf).run
      (StreamExchange.start llC sessions memory rxBufSize requests) events = some final) :
    ∃ deliveries last,
      (exchangeMachine protobuf).run (Exchange.start llC sessions requests) deliveries =
        some last ∧
      Explains final last :=
  run_explained protobuf oneField _ final _
    (start_explained llC sessions memory rxBufSize requests) events clean reached

/-- Without a log configuration request among the first ones, the endpoints send no more
than two messages for each of them, however the bytes are cut. -/
theorem stream_run_bounded (llC : Side → UInt32) (sessions : Side → SessionState δ κ)
    (memory : Side → Store UInt8) (rxBufSize : Side → UInt32)
    (requests : List (Side × RequestMessage))
    (noGlcReq : ∀ request ∈ requests,
      request.2.frame.hdr.payloadType ≠ MsgTypes.globalLogConfigReq.code)
    (events : List StreamEvent) (final : StreamExchange δ κ)
    (clean : (StreamExchange.machine protobuf).Along StreamExchange.ReadsClean
      (StreamExchange.start llC sessions memory rxBufSize requests) events)
    (reached : (StreamExchange.machine protobuf).run
      (StreamExchange.start llC sessions memory rxBufSize requests) events = some final) :
    final.sent ≤ 2 * requests.length := by
  obtain ⟨deliveries, last, delivered, explains⟩ := run_explained protobuf oneField _ final _
    (start_explained llC sessions memory rxBufSize requests) events clean reached
  have solvent := (exchangeMachine protobuf).run_invariant (Exchange.Solvent (2 * requests.length))
    (fun exchange event next holds moved =>
      (step_solvent protobuf oneField _ exchange holds event).2 next moved)
    _ last deliveries (start_solvent llC sessions requests noGlcReq) delivered
  have within := solvent.within
  have sent := explains.sent
  omega

end Runs

/-- Two requests of the first side. -/
def twoRequests : List (Side × RequestMessage) :=
  [(.first, twoByteRequest .publishReq (by decide)),
    (.first, twoByteRequest .delayedResponseReq (by decide))]

/-- Both requests come in one read, and the first reply is read before the second one is
written. -/
def joinedRequests : List StreamEvent :=
  [.read .second 65536 68 fun _ => untouched, .read .first 65536 100 fun _ => untouched,
    .fire .second 0 zeroedPbMsg]

/-- New connections over zeroed memory. -/
def joinedStart : StreamExchange Unit Unit :=
  StreamExchange.start (fun _ => 7) noSessions (fun _ _ => 0) (fun _ => 0) twoRequests

/-- Both requests have been answered by the end. -/
theorem joinedRequests_run : ∃ final, final.sent = 4 ∧
    (StreamExchange.machine WireCodec.protobuf).run joinedStart joinedRequests = some final := by
  have sent : ((StreamExchange.machine WireCodec.protobuf).run joinedStart joinedRequests).map
      (fun final => final.sent) = some 4 := by
    decide +kernel
  obtain ⟨final, reached, four⟩ := Option.map_eq_some_iff.mp sent
  exact ⟨final, four, reached⟩

/-- Nothing is left over when one of these reads begins. -/
theorem joinedRequests_clean :
    (StreamExchange.machine WireCodec.protobuf).Along StreamExchange.ReadsClean joinedStart
      joinedRequests := by
  refine ⟨rfl, fun next moved => ⟨?_, fun _ _ => ⟨trivial, fun _ _ => trivial⟩⟩⟩
  obtain ⟨read, -, rfl⟩ := Option.map_eq_some_iff.mp moved
  rfl

/-- The joined requests are delivered one after the other. -/
theorem stream_run_explained_joined : ∃ final,
    (StreamExchange.machine WireCodec.protobuf).run joinedStart joinedRequests = some final ∧
    ∃ deliveries last,
      (exchangeMachine WireCodec.protobuf).run
        (Exchange.start (fun _ => 7) noSessions twoRequests) deliveries = some last ∧
      Explains final last := by
  obtain ⟨final, -, reached⟩ := joinedRequests_run
  exact ⟨final, reached, stream_run_explained WireCodec.protobuf WireCodec.protobuf_oneField _ _ _
    _ _ _ final joinedRequests_clean reached⟩

/-- Two requests have led to four messages, as many as they may. -/
theorem stream_run_bounded_joined : ∃ final,
    (StreamExchange.machine WireCodec.protobuf).run joinedStart joinedRequests = some final ∧
    final.sent = 4 ∧ final.sent ≤ 2 * twoRequests.length := by
  obtain ⟨final, four, reached⟩ := joinedRequests_run
  exact ⟨final, reached, four, stream_run_bounded WireCodec.protobuf WireCodec.protobuf_oneField _ _
    _ _ twoRequests (by decide) _ final joinedRequests_clean reached⟩

end Evlpc
