import Evlpc.Handlers
import Evlpc.Library.Channels
import Evlpc.Reassembly

/-!
# Handling the messages of byte streams

The connections of a process are streams of bytes. A write puts the bytes of its message
behind those under way; a read takes some bytes from the front, as many as libuv gives it,
and `process_msg` runs the handlers of all the messages it finds in them, up to one that
meets a fault.

If nothing is left over when a read begins, its handlers are those of the messages that it
completes, in the order in which these were written, and if nothing is left over behind it,
the bytes that remain are those of the other messages.
-/

namespace Evlpc

open Library Channels

universe u v w
variable {δ : Type u} {κ : Type v} {χ : Type w}

/-- What the handlers of some messages leave: the endpoint, none after a fault, and what they
wrote and called. -/
structure HandledMessages (δ : Type u) (κ : Type v) (χ : Type w) where
  endpoint : Option (Endpoint δ κ χ)
  writes : List (Write χ)
  callbacks : List (CallbackRun δ κ χ)

/-- A handler, and what comes behind it unless it meets a fault. -/
def HandledMessages.behind (outcome : Except Fault (Outcome δ κ χ))
    (later : Endpoint δ κ χ → HandledMessages δ κ χ) : HandledMessages δ κ χ :=
  match outcome with
  | .error _ => ⟨none, [], []⟩
  | .ok outcome =>
    let rest := later outcome.endpoint
    ⟨rest.endpoint, outcome.writes ++ rest.writes, outcome.callbacks ++ rest.callbacks⟩

/-- The callbacks of a buffer up to the first fault. Each finds a memory of its own. -/
def runCalls (protobuf : Protobuf) (memory : Store UInt8) (connection : χ)
    (memories : Nat → Indeterminate) (endpoint : Endpoint δ κ χ) :
    List (Call PbCb) → HandledMessages δ κ χ
  | [] => ⟨some endpoint, [], []⟩
  | call :: later =>
    HandledMessages.behind
      (callHandler protobuf (memories 0) endpoint connection (call.frame memory) call.callback)
      fun endpoint =>
        runCalls protobuf memory connection (fun index => memories (index + 1)) endpoint later

/-- A read of a connection: the receive buffer afterwards, and what the handlers left. -/
def readHandled (protobuf : Protobuf) (connection : χ) (memories : Nat → Indeterminate)
    (endpoint : Endpoint δ κ χ) (info : RxBufAddr) (read : Read) :
    Option (RxBufAddr × HandledMessages δ κ χ) :=
  match readStep registerAllCbs info read with
  | some (next, .listened processed) =>
    some (next, runCalls protobuf (fill info read).1.memory connection memories endpoint
      processed.calls)
  | _ => none

/-- Whole messages that are received one after the other, up to the first fault. -/
def receiveMessages (protobuf : Protobuf) (connection : χ) (memories : Nat → Indeterminate)
    (endpoint : Endpoint δ κ χ) : List Frame → HandledMessages δ κ χ
  | [] => ⟨some endpoint, [], []⟩
  | message :: later =>
    HandledMessages.behind (receiveMessage protobuf (memories 0) endpoint connection message)
      fun endpoint =>
        receiveMessages protobuf connection (fun index => memories (index + 1)) endpoint later

section Receiving

variable (protobuf : Protobuf) (connection : χ)

/-- A whole message leads to the call of its handler, if it has a payload and a handler. -/
theorem receiveMessage_delivery (indeterminate : Indeterminate) (endpoint : Endpoint δ κ χ)
    (message : Frame) (wellFormed : message.WellFormed) :
    receiveMessage protobuf indeterminate endpoint connection message =
      match message.delivery registerAllCbs with
      | none => .ok ⟨endpoint, [], []⟩
      | some (handler, _) =>
        callHandler protobuf indeterminate endpoint connection message handler := by
  have given := processMsg_frame registerAllCbs (Store.write (fun _ => 0) 0 message.bytes) 0
    message wellFormed (Store.load_write _ _ _)
  cases delivery : message.delivery registerAllCbs with
  | none =>
    rw [delivery, Option.toList_none, List.map_eq_nil_iff] at given
    rw [receiveMessage, given]
    rfl
  | some delivered =>
    obtain ⟨handler, bytes⟩ := delivered
    have nonEmpty : message.payload ≠ [] := by
      intro empty
      rw [Frame.delivery, if_pos empty] at delivery
      cases delivery
    rw [Frame.delivery, if_neg nonEmpty, Option.map_eq_some_iff] at delivery
    obtain ⟨callback, registered, same⟩ := delivery
    obtain rfl : callback = handler := congrArg Prod.fst same
    exact receiveMessage_handled protobuf indeterminate endpoint connection message wellFormed
      nonEmpty callback registered

/-- The callbacks of a buffer receive its messages, one after the other. Induct over the
messages: one without a payload or a handler is received without a call. -/
theorem runCalls_messages (memory : Store UInt8) (frames : List Frame)
    (wellFormed : ∀ frame ∈ frames, frame.WellFormed) (calls : List (Call PbCb))
    (given : calls.map (Call.given memory) = frames.filterMap (Frame.delivery registerAllCbs))
    (memories : Nat → Indeterminate) (endpoint : Endpoint δ κ χ) :
    ∃ others, runCalls protobuf memory connection memories endpoint calls =
      receiveMessages protobuf connection others endpoint frames := by
  induction frames generalizing calls memories endpoint with
  | nil =>
    obtain rfl := List.map_eq_nil_iff.mp given
    exact ⟨memories, rfl⟩
  | cons frame frames inductionHypothesis =>
    have whole := wellFormed frame List.mem_cons_self
    have wholeLater : ∀ other ∈ frames, other.WellFormed := fun other member =>
      wellFormed other (List.mem_cons_of_mem frame member)
    cases delivery : frame.delivery registerAllCbs with
    | none =>
      rw [List.filterMap_cons_none delivery] at given
      obtain ⟨others, later⟩ := inductionHypothesis wholeLater calls given memories endpoint
      refine ⟨fun index => if index = 0 then untouched else others (index - 1), ?_⟩
      have nothing := receiveMessage_delivery protobuf connection untouched endpoint frame whole
      rw [delivery] at nothing
      rw [receiveMessages, if_pos rfl, nothing, later]
      rfl
    | some delivered =>
      rw [List.filterMap_cons_some delivery] at given
      obtain ⟨call, calls, rfl, found, rest⟩ := List.map_eq_cons_iff.mp given
      have bytes : delivered.2 = frame.bytes := by
        rw [Frame.delivery] at delivery
        split at delivery
        · cases delivery
        · obtain ⟨callback, -, rfl⟩ := Option.map_eq_some_iff.mp delivery
          rfl
      have callback : call.callback = delivered.1 := congrArg Prod.fst found
      have message : call.frame memory = frame := by
        rw [Call.frame, found, bytes, Frame.ofBytes_bytes]
      have called := receiveMessage_delivery protobuf connection (memories 0) endpoint frame whole
      rw [delivery] at called
      rw [runCalls, message, callback]
      cases result : callHandler protobuf (memories 0) endpoint connection frame delivered.1 with
      | error fault =>
        refine ⟨memories, ?_⟩
        simp only [receiveMessages, called, result]
        rfl
      | ok outcome =>
        obtain ⟨others, later⟩ := inductionHypothesis wholeLater calls rest
          (fun index => memories (index + 1)) outcome.endpoint
        refine ⟨fun index => if index = 0 then memories 0 else others (index - 1), ?_⟩
        simp only [receiveMessages, if_pos, called, result]
        simp only [HandledMessages.behind, later]
        rfl

/-- What a clean read takes of the bytes of whole messages: the callbacks are those of the
messages it completes, and if nothing is left over, the bytes of the others remain. -/
theorem read_takes (info next : RxBufAddr) (suggestedSize : UInt64) (count : Nat)
    (frames : List Frame) (wellFormed : ∀ frame ∈ frames, frame.WellFormed)
    (clean : info.leftoverDataSize = 0)
    (received : Received registerAllCbs info
      ⟨suggestedSize, (frames.map Frame.bytes).flatten.take count⟩
      (filledMemory info ⟨suggestedSize, (frames.map Frame.bytes).flatten.take count⟩)
      (totalDataRead info ⟨suggestedSize, (frames.map Frame.bytes).flatten.take count⟩) next) :
    ∃ first later, frames = first ++ later ∧
      (processMsg registerAllCbs
        (filledMemory info ⟨suggestedSize, (frames.map Frame.bytes).flatten.take count⟩)
        info.leftoverDataSize.toNat
        (totalDataRead info
          ⟨suggestedSize, (frames.map Frame.bytes).flatten.take count⟩)).calls.map
          (Call.given (filledMemory info
            ⟨suggestedSize, (frames.map Frame.bytes).flatten.take count⟩)) =
        first.filterMap (Frame.delivery registerAllCbs) ∧
      (next.leftoverDataSize = 0 →
        (frames.map Frame.bytes).flatten.drop count = (later.map Frame.bytes).flatten) := by
  obtain ⟨calls, left⟩ := received_clean registerAllCbs info next _ clean received
  have undivided := split_wellFormed frames wellFormed
  rw [← List.take_append_drop count (frames.map Frame.bytes).flatten] at undivided
  obtain ⟨delivered, kept, others, split, -, -, remaining, cutFrames⟩ :=
    pbFraming.split_append _ _ _ _ undivided
  obtain ⟨first, later, rfl, rfl, rfl⟩ := List.map_eq_append_iff.mp cutFrames
  refine ⟨first, later, rfl, ?_, ?_⟩
  · rw [calls, split, List.filterMap_map, deliver_comp_bytes]
  · intro none
    rw [split, keptLength, none] at left
    have nothing : kept = [] := List.length_eq_zero_iff.mp left.symm
    rw [nothing, List.nil_append] at remaining
    have exact := (pbFraming.split_exact
      (((first ++ later).map Frame.bytes).flatten.drop count)).1
    rwa [remaining, Framing.Rest.symbols, List.append_nil] at exact

variable (memories : Nat → Indeterminate) (endpoint : Endpoint δ κ χ)

/-- A read happens if it fits the part of the buffer that libuv is given. -/
theorem readHandled_isSome (info : RxBufAddr) (read : Read) (sound : info.Sound) :
    (readHandled protobuf connection memories endpoint info read).isSome ↔
      read.bytes.length ≤ (allocBuffer info read.suggestedSize).2.len.toNat := by
  constructor
  · intro happens
    by_contra longer
    rw [readHandled, readStep, if_neg longer] at happens
    cases happens
  · intro fits
    obtain ⟨next, received⟩ := readStep_received registerAllCbs info read sound fits
    rw [readHandled, received.step]
    rfl

/-- A clean read of the bytes of whole messages receives the messages it completes. -/
theorem readHandled_messages (info next : RxBufAddr) (sound : info.Sound)
    (clean : info.leftoverDataSize = 0) (suggestedSize : UInt64) (count : Nat)
    (frames : List Frame) (wellFormed : ∀ frame ∈ frames, frame.WellFormed)
    (handled : HandledMessages δ κ χ)
    (happens : readHandled protobuf connection memories endpoint info
      ⟨suggestedSize, (frames.map Frame.bytes).flatten.take count⟩ = some (next, handled)) :
    next.Sound ∧ ∃ first later others, frames = first ++ later ∧
      handled = receiveMessages protobuf connection others endpoint first ∧
      (next.leftoverDataSize = 0 →
        (frames.map Frame.bytes).flatten.drop count = (later.map Frame.bytes).flatten) := by
  have fits := (readHandled_isSome protobuf connection memories endpoint info _ sound).mp
    (by rw [happens]; rfl)
  obtain ⟨after, received⟩ := readStep_received registerAllCbs info _ sound fits
  rw [readHandled, received.step, fill_memory info _ sound] at happens
  obtain ⟨rfl, rfl⟩ := Prod.mk.inj (Option.some.inj happens)
  obtain ⟨first, later, parts, calls, remains⟩ := read_takes info after suggestedSize count
    frames wellFormed clean received
  obtain ⟨others, same⟩ := runCalls_messages protobuf connection _ first
    (fun frame member => wellFormed frame (parts ▸ List.mem_append_left later member)) _ calls
    memories endpoint
  exact ⟨received.sound, first, later, others, parts, same, remains⟩

/-- Every handler writes whole messages. -/
theorem callHandler_whole (oneField : protobuf.OneField) (indeterminate : Indeterminate)
    (message : Frame) (handler : PbCb) (outcome : Outcome δ κ χ)
    (called : callHandler protobuf indeterminate endpoint connection message handler =
      .ok outcome) :
    ∀ write ∈ outcome.writes, write.pbmsg.WellFormed := by
  intro write written
  cases handler with
  | handleGlcReq =>
    obtain ⟨reply, llC, writes, carries⟩ :=
      handleGlcReq_writes protobuf oneField indeterminate.memory endpoint connection message
    obtain rfl := (Except.ok.inj called).symm.trans writes
    rw [List.mem_singleton.mp written]
    exact carries.wellFormed
  | handlePublishReq =>
    obtain ⟨reply, writes, carries⟩ :=
      handlePublishReq_writes protobuf oneField indeterminate.memory endpoint connection
    obtain rfl := (Except.ok.inj called).symm.trans writes
    rw [List.mem_singleton.mp written]
    exact carries.wellFormed
  | handleGlcReply | handlePublishReply | handleDelayedResponseReq =>
    obtain rfl := Except.ok.inj called
    cases written
  | handleStdReply =>
    change handleStdReply endpoint connection message indeterminate.stray = _ at called
    unfold handleStdReply at called
    split at called
    · cases called
    · obtain rfl := Except.ok.inj called
      cases written
    · obtain rfl := Except.ok.inj called
      cases written

/-- Receiving whole messages writes whole messages. -/
theorem receiveMessage_whole (oneField : protobuf.OneField) (indeterminate : Indeterminate)
    (message : Frame) (wellFormed : message.WellFormed) (outcome : Outcome δ κ χ)
    (received : receiveMessage protobuf indeterminate endpoint connection message = .ok outcome) :
    ∀ write ∈ outcome.writes, write.pbmsg.WellFormed := by
  rw [receiveMessage_delivery protobuf connection indeterminate endpoint message wellFormed]
    at received
  split at received
  · obtain rfl := Except.ok.inj received
    exact List.forall_mem_nil _
  · exact callHandler_whole protobuf connection endpoint oneField indeterminate message _ outcome
      received

/-- Receiving whole messages one after the other writes whole messages. -/
theorem receiveMessages_whole (oneField : protobuf.OneField) (frames : List Frame)
    (wellFormed : ∀ frame ∈ frames, frame.WellFormed) :
    ∀ write ∈ (receiveMessages protobuf connection memories endpoint frames).writes,
      write.pbmsg.WellFormed := by
  induction frames generalizing memories endpoint with
  | nil => exact List.forall_mem_nil _
  | cons frame frames inductionHypothesis =>
    intro write written
    rw [receiveMessages] at written
    cases received : receiveMessage protobuf (memories 0) endpoint connection frame with
    | error fault =>
      rw [received] at written
      cases written
    | ok outcome =>
      rw [received] at written
      rcases List.mem_append.mp written with here | later
      · exact receiveMessage_whole protobuf connection endpoint oneField (memories 0) frame
          (wellFormed frame List.mem_cons_self) outcome received write here
      · exact inductionHypothesis _ _
          (fun other member => wellFormed other (List.mem_cons_of_mem frame member)) write later

end Receiving

/-- The streams of several connections in one direction: the receive buffers at their ends,
and the bytes under way. -/
structure Streams (χ : Type w) where
  rxBuf : χ → RxBufAddr
  bytes : χ → List UInt8

namespace Streams

/-- New connections with nothing under way. -/
def opened (memory : χ → Store UInt8) (rxBufSize : χ → UInt32) : Streams χ where
  rxBuf := fun connection => newRxBuf (memory connection) (rxBufSize connection)
  bytes := fun _ => []

/-- The bytes that a read gets, as many as there are up to a count. -/
def reading (streams : Streams χ) (connection : χ) (suggestedSize : UInt64) (count : Nat) :
    Read :=
  ⟨suggestedSize, (streams.bytes connection).take count⟩

variable [DecidableEq χ]

/-- Messages are written behind the bytes under way on their connections. -/
def send (streams : Streams χ) (sent : List (χ × Frame)) : Streams χ where
  rxBuf := streams.rxBuf
  bytes := fun connection =>
    streams.bytes connection ++ ((toward connection sent).map Frame.bytes).flatten

/-- Some bytes are read, and the receive buffer of the connection is another one then. -/
def take (streams : Streams χ) (connection : χ) (count : Nat) (rxBuf : RxBufAddr) : Streams χ where
  rxBuf := Function.update streams.rxBuf connection rxBuf
  bytes := Function.update streams.bytes connection ((streams.bytes connection).drop count)

/-- The bytes under way are those of messages, on each connection in the order in which they
were written. Only connections count whose reader is alive and has nothing left over. -/
structure Carry (streams : Streams χ) (Alive : χ → Prop) (messages : List (χ × Frame)) : Prop where
  sound : ∀ connection, (streams.rxBuf connection).Sound
  wellFormed : ∀ message ∈ messages, message.2.WellFormed
  bytes : ∀ connection, Alive connection → (streams.rxBuf connection).leftoverDataSize = 0 →
    streams.bytes connection = ((toward connection messages).map Frame.bytes).flatten

variable {streams : Streams χ} {Alive : χ → Prop} {messages : List (χ × Frame)}

/-- Nothing is sent. -/
theorem send_nil (streams : Streams χ) : streams.send [] = streams := by
  obtain ⟨rxBuf, bytes⟩ := streams
  rw [send]
  simp only [toward_nil, List.map_nil, List.flatten_nil, List.append_nil]

/-- New streams carry nothing. -/
theorem opened_carry (memory : χ → Store UInt8) (rxBufSize : χ → UInt32) :
    (opened memory rxBufSize).Carry Alive [] where
  sound := fun connection => newRxBuf_sound (memory connection) (rxBufSize connection)
  wellFormed := List.forall_mem_nil _
  bytes := fun _ _ _ => rfl

/-- What is written is carried behind the other messages. -/
theorem Carry.send (carry : streams.Carry Alive messages) (sent : List (χ × Frame))
    (whole : ∀ message ∈ sent, message.2.WellFormed) :
    (streams.send sent).Carry Alive (messages ++ sent) where
  sound := carry.sound
  wellFormed := fun message member =>
    (List.mem_append.mp member).elim (carry.wellFormed message) (whole message)
  bytes := by
    intro connection alive clean
    change streams.bytes connection ++ _ = _
    rw [carry.bytes connection alive clean, toward_append, List.map_append, List.flatten_append]

/-- Streams without bytes carry no messages. -/
theorem Carry.none (carry : streams.Carry Alive messages)
    (empty : ∀ connection, Alive connection ∧ streams.bytes connection = [] ∧
      (streams.rxBuf connection).leftoverDataSize = 0) : messages = [] := by
  apply List.eq_nil_iff_forall_not_mem.mpr
  rintro ⟨connection, message⟩ member
  obtain ⟨alive, nothing, clean⟩ := empty connection
  have bytes := carry.bytes connection alive clean
  have header : 0 < sizeofPbHeader.toNat := by decide
  have length := message.bytes_length
  have noBytes : message.bytes = [] := by
    rw [nothing] at bytes
    exact List.flatten_eq_nil_iff.mp bytes.symm message.bytes
      (List.mem_map_of_mem ((mem_toward connection message messages).mpr member))
  rw [noBytes, List.length_nil] at length
  omega

/-- Where nothing is read, the streams carry what was sent behind the other messages. -/
theorem Carry.moved (carry : streams.Carry Alive messages) (connection : χ)
    (sent after : List (χ × Frame)) (moved : Moved connection [] sent messages after)
    (whole : ∀ message ∈ sent, message.2.WellFormed) (Still : χ → Prop)
    (fewer : ∀ other, Still other → Alive other) : (streams.send sent).Carry Still after where
  sound := carry.sound
  wellFormed := fun message member =>
    (moved.members message member).elim (carry.wellFormed message) (whole message)
  bytes := by
    intro other alive clean
    have behind := (carry.send sent whole).bytes other (fewer other alive) clean
    rw [behind, toward_append]
    by_cases own : other = connection
    · rw [own, moved.own]
      rfl
    · rw [moved.others other own]

/-- The messages on a connection are whole. -/
theorem Carry.coming (carry : streams.Carry Alive messages) (connection : χ) :
    ∀ message ∈ toward connection messages, message.WellFormed := fun message member =>
  carry.wellFormed _ ((mem_toward connection message messages).mp member)

/-- A read takes messages off the front of its connection: if they are all taken, unless the
reader is gone then, the streams carry what remains and what was sent meanwhile. -/
theorem Carry.take (carry : streams.Carry Alive messages) (connection : χ) (count : Nat)
    (rxBuf : RxBufAddr) (sound : rxBuf.Sound) (taken first later : List Frame)
    (sent after : List (χ × Frame)) (coming : toward connection messages = first ++ later)
    (moved : Moved connection taken sent messages after)
    (whole : ∀ message ∈ sent, message.2.WellFormed) (Still : χ → Prop)
    (fewer : ∀ other, Still other → Alive other) (all : Still connection → taken = first)
    (remains : rxBuf.leftoverDataSize = 0 →
      (streams.bytes connection).drop count = (later.map Frame.bytes).flatten) :
    ((streams.take connection count rxBuf).send sent).Carry Still after where
  sound := by
    intro other
    change (Function.update streams.rxBuf connection rxBuf other).Sound
    by_cases own : other = connection
    · rw [own, Function.update_self]
      exact sound
    · rw [Function.update_of_ne own]
      exact carry.sound other
  wellFormed := fun message member =>
    (moved.members message member).elim (carry.wellFormed message) (whole message)
  bytes := by
    intro other alive clean
    change Function.update streams.bytes connection _ other ++ _ = _
    change (Function.update streams.rxBuf connection rxBuf other).leftoverDataSize = 0 at clean
    by_cases own : other = connection
    · subst own
      rw [Function.update_self] at clean
      have order := moved.own
      rw [coming, all alive, List.append_assoc] at order
      rw [Function.update_self, remains clean, ← List.append_cancel_left order, List.map_append,
        List.flatten_append]
    · rw [Function.update_of_ne own] at clean
      rw [Function.update_of_ne own, carry.bytes other (fewer other alive) clean,
        moved.others other own, List.map_append, List.flatten_append]

end Streams

end Evlpc
