import Evlpc.Handlers
import Evlpc.Connection
import Evlpc.WireCodec
import Evlpc.Library.Machine

/-!
# Delayed replies and closed connections

A timer keeps the connection its reply goes to. `readData` closes a connection
when a read fails, without looking at the timers; from then on libuv reports no
reads on it. A timer armed for the connection stays armed, and writes to it when
it fires.
-/

namespace Evlpc

open Library

universe u v w
variable {δ : Type u} {κ : Type v} {χ : Type w}

/-- A process with its connections: their receive buffers, and those on which
`uv_close` has been called. -/
structure Host (δ : Type u) (κ : Type v) (χ : Type w) where
  endpoint : Endpoint δ κ χ
  rxBufInfo : χ → RxBufAddr
  closed : List χ

/-- A whole request for a delayed response, with a payload. -/
structure DelayedRequest where
  frame : Frame
  wellFormed : frame.WellFormed
  nonEmpty : frame.payload ≠ []
  delayed : frame.hdr.payloadType = MsgTypes.delayedResponseReq.code

/-- A request for a delayed response arrives on a connection, a read on it fails,
or a timer fires. -/
inductive HostEvent (χ : Type w) where
  | delayedRequest (connection : χ) (message : DelayedRequest) (indeterminate : Indeterminate)
  | disconnect (connection : χ) (buf : UvBuf)
  | fire (index : Nat) (memory : PbMsg)

/-- A process with open connections and no armed timer. -/
def Host.start (llC : UInt32) (sessions : SessionState δ κ) (rxBufInfo : χ → RxBufAddr) :
    Host δ κ χ where
  endpoint := ⟨llC, sessions, []⟩
  rxBufInfo := rxBufInfo
  closed := []

section Machine

variable [DecidableEq χ]

/-- A read that fails: `readData` with -1 on an open connection. -/
def Host.failRead (host : Host δ κ χ) (connection : χ) (buf : UvBuf) : Host δ κ χ :=
  let (rxBufInfo, effect) := readData (some (processMsgListener registerAllCbs))
    (host.rxBufInfo connection) (-1) buf
  { host with
    rxBufInfo := fun other => if other = connection then rxBufInfo else host.rxBufInfo other
    closed :=
      match effect with
      | .uvClose => connection :: host.closed
      | _ => host.closed }

/-- The effect of an event. Nothing arrives on a closed connection. -/
def Host.step (protobuf : Protobuf) (host : Host δ κ χ) : HostEvent χ → Option (Host δ κ χ)
  | .delayedRequest connection message indeterminate =>
    if connection ∈ host.closed then none
    else
      match receiveMessage protobuf indeterminate host.endpoint connection message.frame with
      | .error _ => none
      | .ok outcome => some { host with endpoint := outcome.endpoint }
  | .disconnect connection buf =>
    if connection ∈ host.closed then none else some (host.failRead connection buf)
  | .fire index memory =>
    (delayedResponseCb protobuf memory host.endpoint index).map fun outcome =>
      { host with endpoint := outcome.endpoint }

/-- Messages, timers, closes and completed writes, in any order. -/
def hostMachine (protobuf : Protobuf) : Machine (Host δ κ χ) (HostEvent χ) :=
  ⟨Host.step protobuf⟩

end Machine

/-- A timer that fires writes to open connections only. -/
def WritesOpen (protobuf : Protobuf) (host : Host δ κ χ) : HostEvent χ → Prop
  | .fire index memory => ∀ outcome,
      delayedResponseCb protobuf memory host.endpoint index = some outcome →
      ∀ write ∈ outcome.writes, write.connection ∉ host.closed
  | _ => True

/-- A connection is closed only while no timer is armed for it. -/
def QuietDisconnect (host : Host δ κ χ) : HostEvent χ → Prop
  | .disconnect connection _ => ∀ timer ∈ host.endpoint.timers, timer.connection ≠ connection
  | _ => True

/-- Timers are armed for open connections only. -/
def Host.OpenTimers (host : Host δ κ χ) : Prop :=
  ∀ timer ∈ host.endpoint.timers, timer.connection ∉ host.closed

/-- Some timer is armed for a closed connection. -/
def Host.LateTimer (host : Host δ κ χ) : Prop :=
  ∃ timer ∈ host.endpoint.timers, timer.connection ∈ host.closed

/-- What the three events do to the timers and the closed connections. -/
inductive Host.Moves (host next : Host δ κ χ) : HostEvent χ → Prop
  | armed (connection : χ) (message : DelayedRequest) (indeterminate : Indeterminate)
      (isOpen : connection ∉ host.closed)
      (timers : next.endpoint.timers = host.endpoint.timers ++
        [⟨message.frame.hdr.sessionId, message.frame.hdr.randomId, connection⟩])
      (closed : next.closed = host.closed) :
      host.Moves next (.delayedRequest connection message indeterminate)
  | closed (connection : χ) (buf : UvBuf) (timers : next.endpoint.timers = host.endpoint.timers)
      (closed : next.closed = connection :: host.closed) :
      host.Moves next (.disconnect connection buf)
  | fired (index : Nat) (memory : PbMsg) (timer : ReplySessionData χ)
      (armed : host.endpoint.timers[index]? = some timer)
      (timers : next.endpoint.timers = host.endpoint.timers.eraseIdx index)
      (closed : next.closed = host.closed) : host.Moves next (.fire index memory)

/-- While timers are armed for open connections only, a timer writes to an open one. -/
theorem open_writes (protobuf : Protobuf) (host : Host δ κ χ) (openTimers : host.OpenTimers)
    (event : HostEvent χ) : WritesOpen protobuf host event := by
  cases event with
  | fire index memory =>
    intro outcome fired write member
    obtain ⟨timer, armed, rfl⟩ :=
      (delayedResponseCb_some protobuf memory host.endpoint index outcome).mp fired
    obtain rfl := List.mem_singleton.mp member
    exact openTimers timer (List.mem_of_getElem? armed)
  | delayedRequest connection message indeterminate => trivial
  | disconnect connection buf => trivial

/-- A timer armed for a closed connection writes to it when it fires. -/
theorem late_fires (protobuf : Protobuf) (host : Host δ κ χ) (index : Nat) (memory : PbMsg)
    (timer : ReplySessionData χ) (armed : host.endpoint.timers[index]? = some timer)
    (isClosed : timer.connection ∈ host.closed) :
    ¬ WritesOpen protobuf host (.fire index memory) := by
  intro writesOpen
  have fired :=
    (delayedResponseCb_some protobuf memory host.endpoint index _).mpr ⟨timer, armed, rfl⟩
  exact writesOpen _ fired _ List.mem_cons_self isClosed

section Steps

variable [DecidableEq χ] (protobuf : Protobuf) (host next : Host δ κ χ)

/-- What one event can do to the host. -/
theorem step_moves (event : HostEvent χ)
    (moved : (hostMachine protobuf).step host event = some next) : host.Moves next event := by
  cases event with
  | delayedRequest connection message indeterminate =>
    have received := receiveMessage_delayed protobuf indeterminate host.endpoint connection
      message.frame message.wellFormed message.nonEmpty message.delayed
    by_cases isClosed : connection ∈ host.closed
    · simp [hostMachine, Host.step, isClosed] at moved
    · simp only [hostMachine, Host.step, if_neg isClosed, received, Option.some.injEq] at moved
      subst moved
      exact .armed connection message indeterminate isClosed rfl rfl
  | disconnect connection buf =>
    by_cases isClosed : connection ∈ host.closed
    · simp [hostMachine, Host.step, isClosed] at moved
    · simp only [hostMachine, Host.step, if_neg isClosed, Option.some.injEq] at moved
      subst moved
      exact .closed connection buf rfl rfl
  | fire index memory =>
    obtain ⟨outcome, fired, rfl⟩ := Option.map_eq_some_iff.mp moved
    obtain ⟨timer, armed, rfl⟩ :=
      (delayedResponseCb_some protobuf memory host.endpoint index outcome).mp fired
    exact .fired index memory timer armed rfl rfl

/-- Closing only connections without timers keeps it so. -/
theorem step_openTimers (openTimers : host.OpenTimers) (event : HostEvent χ)
    (quiet : QuietDisconnect host event)
    (moved : (hostMachine protobuf).step host event = some next) : next.OpenTimers := by
  intro timer member
  cases step_moves protobuf host next event moved with
  | armed connection message indeterminate isOpen timers closed =>
    rw [timers] at member
    rw [closed]
    rcases List.mem_append.mp member with old | new
    · exact openTimers timer old
    · rw [List.mem_singleton.mp new]
      exact isOpen
  | closed connection buf timers closed =>
    rw [timers] at member
    rw [closed, List.mem_cons, not_or]
    exact ⟨quiet timer member, openTimers timer member⟩
  | fired index memory fired armed timers closed =>
    rw [timers] at member
    rw [closed]
    exact openTimers timer (List.mem_of_mem_eraseIdx member)

/-- A timer armed for a closed connection stays armed until it fires. -/
theorem late_step (late : host.LateTimer) (event : HostEvent χ)
    (writesOpen : WritesOpen protobuf host event)
    (moved : (hostMachine protobuf).step host event = some next) : next.LateTimer := by
  obtain ⟨timer, armed, isClosed⟩ := late
  cases step_moves protobuf host next event moved with
  | armed connection message indeterminate isOpen timers closed =>
    exact ⟨timer, timers ▸ List.mem_append_left _ armed, closed ▸ isClosed⟩
  | closed connection buf timers closed =>
    exact ⟨timer, timers ▸ armed, closed ▸ List.mem_cons_of_mem _ isClosed⟩
  | fired index memory fired atIndex timers closed =>
    refine ⟨timer, ?_, closed ▸ isClosed⟩
    obtain ⟨position, found⟩ := List.mem_iff_getElem?.mp armed
    rw [timers]
    refine List.mem_eraseIdx_iff_getElem?.mpr ⟨position, ?_, found⟩
    rintro rfl
    exact late_fires protobuf host position memory timer found isClosed writesOpen

/-- A disconnect after which no timer is late was quiet. -/
theorem quiet_of_next (event : HostEvent χ)
    (moved : (hostMachine protobuf).step host event = some next) (inTime : ¬ next.LateTimer) :
    QuietDisconnect host event := by
  cases step_moves protobuf host next event moved with
  | closed connection buf timers closed =>
    intro timer armed same
    exact inTime ⟨timer, timers ▸ armed, by rw [closed, same]; exact List.mem_cons_self⟩
  | armed connection message indeterminate isOpen timers closed => trivial
  | fired index memory fired atIndex timers closed => trivial

end Steps

/-- In a run and whenever its timers fire after it, no reply is written to a closed
connection, exactly if no connection was closed while a timer was armed for it. -/
theorem writes_open_iff [DecidableEq χ] (protobuf : Protobuf) (llC : UInt32)
    (sessions : SessionState δ κ) (rxBufInfo : χ → RxBufAddr) (events : List (HostEvent χ))
    (final : Host δ κ χ)
    (reached : (hostMachine protobuf).run (Host.start llC sessions rxBufInfo) events = some final) :
    (∀ fires : List (Nat × PbMsg), (hostMachine protobuf).Along (WritesOpen protobuf)
      (Host.start llC sessions rxBufInfo) (events ++ fires.map fun fire => .fire fire.1 fire.2)) ↔
    (hostMachine protobuf).Along QuietDisconnect (Host.start llC sessions rxBufInfo) events := by
  constructor
  · intro writesOpen
    refine (hostMachine protobuf).guard_of_extended (fun fire : Nat × PbMsg => .fire fire.1 fire.2)
      (fun _ => True) Host.LateTimer QuietDisconnect (WritesOpen protobuf)
      (fun _ _ _ _ _ => trivial) ?_ ?_ ?_ _ final events trivial reached writesOpen
    · exact fun host event next _ late writesOpen moved =>
        late_step protobuf host next late event writesOpen moved
    · rintro host - ⟨timer, armed, isClosed⟩ writesOpen
      obtain ⟨position, found⟩ := List.mem_iff_getElem?.mp armed
      exact late_fires protobuf host position untouched.memory timer found isClosed
        (writesOpen [(position, untouched.memory)]).1
    · exact fun host event next _ moved inTime =>
        quiet_of_next protobuf host next event moved inTime
  · intro quiet
    have start : (Host.start llC sessions rxBufInfo : Host δ κ χ).OpenTimers := by
      simp [Host.OpenTimers, Host.start]
    exact (hostMachine protobuf).along_extended (fun fire : Nat × PbMsg => .fire fire.1 fire.2)
      Host.OpenTimers QuietDisconnect (WritesOpen protobuf)
      (fun host event openTimers _ => open_writes protobuf host openTimers event)
      (fun host event next openTimers quiet moved =>
        step_openTimers protobuf host next openTimers event quiet moved)
      (fun _ _ => trivial) _ events start quiet

/-- A request with a payload of two bytes. -/
def delayedRequest : DelayedRequest where
  frame := (twoByteRequest .delayedResponseReq rfl).frame
  wellFormed := (twoByteRequest .delayedResponseReq rfl).wellFormed
  nonEmpty := (twoByteRequest .delayedResponseReq rfl).nonEmpty
  delayed := rfl

/-- Two connections, of a process that has made no sessions. -/
def twoConnections : Host Unit Unit Bool :=
  Host.start 7 SessionState.start fun _ => newRxBuf (fun _ => 0) 0

/-- One connection is closed while a timer is armed for the other. -/
def closesOther : List (HostEvent Bool) :=
  [.delayedRequest true delayedRequest untouched, .disconnect false ⟨0, 65536⟩]

/-- A connection is closed while its reply is due. -/
def closesOwn : List (HostEvent Bool) :=
  [.delayedRequest true delayedRequest untouched, .disconnect true ⟨0, 65536⟩,
    .fire 0 untouched.memory]

/-- Closing another connection does no harm to the timer of the first. -/
theorem writes_open_other :
    (hostMachine WireCodec.protobuf).Along (WritesOpen WireCodec.protobuf) twoConnections
      (closesOther ++ [.fire 0 untouched.memory]) := by
  have runs : ((hostMachine WireCodec.protobuf).run twoConnections closesOther).isSome := by
    decide +kernel
  obtain ⟨final, reached⟩ := Option.isSome_iff_exists.mp runs
  refine (writes_open_iff WireCodec.protobuf 7 SessionState.start _ closesOther final reached).mpr
    ⟨trivial, fun next moved => ⟨?_, fun _ _ => trivial⟩⟩ [(0, untouched.memory)]
  intro timer armed
  cases step_moves WireCodec.protobuf twoConnections next _ moved with
  | armed _ _ _ _ timers _ =>
    rw [timers] at armed
    rw [List.mem_singleton.mp armed]
    decide

/-- The reply is written to the connection that was closed before the timer fired. -/
theorem closed_connection_written :
    ¬ (hostMachine WireCodec.protobuf).Along (WritesOpen WireCodec.protobuf) twoConnections
      closesOwn := by
  intro writesOpen
  have before : ((hostMachine WireCodec.protobuf).run twoConnections
      [.delayedRequest true delayedRequest untouched, .disconnect true ⟨0, 65536⟩]).map
        (fun host => (host.endpoint.timers.map ReplySessionData.connection, host.closed)) =
      some ([true], [true]) := by
    decide +kernel
  obtain ⟨host, reached, state⟩ := Option.map_eq_some_iff.mp before
  obtain ⟨timers, closed⟩ := Prod.mk.inj state
  obtain ⟨timer, armed, connection⟩ := List.map_eq_singleton_iff.mp timers
  have fires := (((hostMachine WireCodec.protobuf).along_append _ _ _ _).mp
    (show (hostMachine WireCodec.protobuf).Along (WritesOpen WireCodec.protobuf) twoConnections
      ([.delayedRequest true delayedRequest untouched, .disconnect true ⟨0, 65536⟩] ++
        [.fire 0 untouched.memory]) from writesOpen)).2 host reached
  exact late_fires WireCodec.protobuf host 0 untouched.memory timer (by rw [armed]; rfl)
    (by rw [connection, closed]; exact List.mem_cons_self) fires.1

end Evlpc
