import Evlpc.Library.Machine

/-!
# The AF_UNIX log wrapper

`logtx` sends a log message with `sendto`, and `logrx` fills a buffer with
`recvfrom`. Both of the wrapper's socket types keep messages apart: a `sendto`
queues its bytes as one message, a `recvfrom` takes one message from the queue and
discards what does not fit the space it is given. Nothing is lost in between.

`logrx` goes on receiving until its buffer is full, as one reads a byte stream. A
message that does not fill the buffer is followed by the next one in the same
buffer, and cut to what is left there.
-/

namespace Evlpc

open Library

/-- A socket with its messages that wait to be received, and the receiver: the bytes
that its current `logrx` call has stored, and the buffers of the calls that
returned. The messages that were sent are recorded. -/
structure LogSocket where
  queue : List (List UInt8)
  stored : List UInt8
  returned : List (List UInt8)
  sent : List (List UInt8)
deriving DecidableEq, Repr

/-- Nothing has been sent, and the receiver has made its first call. -/
def LogSocket.start : LogSocket := ⟨[], [], [], []⟩

/-- `recvfrom` with space for `buflen` bytes; it blocks while no message waits. -/
def recvfrom (queue : List (List UInt8)) (buflen : Nat) :
    Option (List UInt8 × List (List UInt8)) :=
  match queue with
  | [] => none
  | message :: rest => some (message.take buflen, rest)

/-- `logtx` of a message, where `sendto` succeeds. It accepts all bytes at once, so
the loop is over then; it does not begin for an empty message. -/
def logtx (queue : List (List UInt8)) (buf : List UInt8) : List (List UInt8) :=
  if 0 < buf.length then queue ++ [buf] else queue

/-- One iteration of the loop of `logrx` with a buffer of `capacity` bytes. The call
returns once its buffer is full, and the receiver makes the next one. -/
def logrxStep (capacity : Nat) (socket : LogSocket) : Option LogSocket :=
  (recvfrom socket.queue (capacity - socket.stored.length)).map fun (received, rest) =>
    let stored := socket.stored ++ received
    if stored.length < capacity then { socket with queue := rest, stored := stored }
    else { socket with queue := rest, stored := [], returned := socket.returned ++ [stored] }

/-- A log message is sent, or the receiver's `recvfrom` returns. -/
inductive LogEvent where
  | tx (message : List UInt8) : LogEvent
  | rx : LogEvent

/-- Sender and receiver, with messages of one byte up to the receiver's buffer. -/
def logMachine (capacity : Nat) : Machine LogSocket LogEvent where
  step socket event :=
    match event with
    | .tx message =>
      if 1 ≤ message.length ∧ message.length ≤ capacity then
        some { socket with
          queue := logtx socket.queue message
          sent := socket.sent ++ [message] }
      else none
    | .rx => logrxStep capacity socket

/-- Every call of `logrx` that returned gave the bytes of its own message, and once
all messages have been received there was a call for each of them. -/
structure OneToOne (socket : LogSocket) : Prop where
  own : socket.returned <+: socket.sent
  all : socket.queue = [] → socket.returned = socket.sent

section Whole

variable (capacity : Nat)

/-- Messages that fill the buffer: the receiver is always between two calls. -/
structure LogSocket.Whole (socket : LogSocket) : Prop where
  filling : ∀ message ∈ socket.queue, message.length = capacity
  between : socket.stored = []
  received : socket.sent = socket.returned ++ socket.queue

/-- Between two calls, what was returned is what was sent, up to the messages in the
queue. -/
theorem LogSocket.Whole.oneToOne {socket : LogSocket} (whole : socket.Whole capacity) :
    OneToOne socket := by
  constructor
  · rw [whole.received]
    exact List.prefix_append _ _
  · intro empty
    rw [whole.received, empty, List.append_nil]

/-- What an event does: a message is queued, or the next message is stored, and a
full buffer is returned. -/
theorem logMachine_step (socket next : LogSocket) (event : LogEvent)
    (moved : (logMachine capacity).step socket event = some next) :
    (∃ message, event = .tx message ∧ 1 ≤ message.length ∧ message.length ≤ capacity ∧
      next = { socket with queue := socket.queue ++ [message], sent := socket.sent ++ [message] }) ∨
    ∃ message rest stored, event = .rx ∧ socket.queue = message :: rest ∧
      stored = socket.stored ++ message.take (capacity - socket.stored.length) ∧
      next =
        if stored.length < capacity then { socket with queue := rest, stored := stored }
        else
          { socket with queue := rest, stored := [], returned := socket.returned ++ [stored] } := by
  cases event with
  | tx message =>
    left
    simp only [logMachine] at moved
    split at moved
    case isTrue lengths =>
      obtain rfl := Option.some.inj moved
      refine ⟨message, rfl, lengths.1, lengths.2, ?_⟩
      rw [logtx, if_pos (by omega)]
    case isFalse => cases moved
  | rx =>
    right
    cases queued : socket.queue with
    | nil => simp [logMachine, logrxStep, recvfrom, queued] at moved
    | cons message rest =>
      simp only [logMachine, logrxStep, recvfrom, queued, Option.map_some,
        Option.some.injEq] at moved
      exact ⟨message, rest, _, rfl, rfl, rfl, moved.symm⟩

/-- Every buffer that is returned is full, and every message sent fits in one. -/
structure LogSocket.Filled (socket : LogSocket) : Prop where
  stored : socket.stored.length ≤ capacity
  returned : ∀ buf ∈ socket.returned, buf.length = capacity

/-- Every call that returns has filled its buffer. -/
theorem logMachine_filled (socket next : LogSocket) (event : LogEvent)
    (filled : socket.Filled capacity)
    (moved : (logMachine capacity).step socket event = some next) : next.Filled capacity := by
  rcases logMachine_step capacity socket next event moved with
    ⟨message, -, -, -, rfl⟩ | ⟨message, rest, stored, -, -, contents, rfl⟩
  · exact ⟨filled.stored, filled.returned⟩
  · have room := filled.stored
    have bound : stored.length ≤ capacity := by
      rw [contents, List.length_append, List.length_take]
      omega
    by_cases partly : stored.length < capacity
    · rw [if_pos partly]
      exact ⟨bound, filled.returned⟩
    · rw [if_neg partly]
      refine ⟨Nat.zero_le _, ?_⟩
      intro buf member
      rcases List.mem_append.mp member with earlier | latest
      · exact filled.returned buf earlier
      · rw [List.mem_singleton.mp latest]
        omega

/-- A message that fills the buffer is returned by its own call. -/
theorem logMachine_whole (socket next : LogSocket) (event : LogEvent)
    (whole : socket.Whole capacity)
    (moved : (logMachine capacity).step socket event = some next)
    (filling : ∀ message ∈ next.sent, message.length = capacity) : next.Whole capacity := by
  rcases logMachine_step capacity socket next event moved with
    ⟨message, -, -, -, rfl⟩ | ⟨message, rest, stored, -, queued, contents, rfl⟩
  · refine ⟨?_, whole.between, ?_⟩
    · intro other member
      rcases List.mem_append.mp member with waiting | new
      · exact whole.filling other waiting
      · exact filling other (List.mem_append_right _ new)
    · rw [whole.received, List.append_assoc]
  · have length := whole.filling message (queued ▸ List.mem_cons_self)
    rw [whole.between, List.nil_append, List.length_nil, Nat.sub_zero, ← length,
      List.take_length] at contents
    rw [if_neg (by rw [contents, length]; exact Nat.lt_irrefl _)]
    refine ⟨?_, rfl, ?_⟩
    · intro other member
      exact whole.filling other (queued ▸ List.mem_cons_of_mem _ member)
    · rw [whole.received, queued, contents, List.append_assoc, List.singleton_append]

/-- Sending adds to the messages sent, and receiving does not change them. -/
theorem logMachine_sent (socket next : LogSocket) (event : LogEvent)
    (moved : (logMachine capacity).step socket event = some next) :
    socket.sent <+: next.sent := by
  rcases logMachine_step capacity socket next event moved with
    ⟨message, -, -, -, rfl⟩ | ⟨message, rest, stored, -, -, -, rfl⟩
  · exact List.prefix_append _ _
  · split <;> exact List.prefix_rfl

/-- What holds in every reachable state: returned buffers are full, and if all
messages fill a buffer, the receiver is between two calls. -/
structure LogSocket.Sound (socket : LogSocket) : Prop where
  filled : socket.Filled capacity
  whole : (∀ message ∈ socket.sent, message.length = capacity) → socket.Whole capacity

/-- Every event keeps to this. -/
theorem logMachine_sound (socket next : LogSocket) (event : LogEvent)
    (sound : socket.Sound capacity)
    (moved : (logMachine capacity).step socket event = some next) : next.Sound capacity := by
  refine ⟨logMachine_filled capacity socket next event sound.filled moved, ?_⟩
  intro filling
  have sent := logMachine_sent capacity socket next event moved
  have earlier : ∀ message ∈ socket.sent, message.length = capacity :=
    fun message member => filling message (sent.subset member)
  exact logMachine_whole capacity socket next event (sound.whole earlier) moved filling

/-- A new socket has nothing sent and nothing received. -/
theorem logStart_sound : LogSocket.start.Sound capacity := by
  refine ⟨⟨Nat.zero_le _, ?_⟩, fun _ => ⟨?_, rfl, rfl⟩⟩
  · intro buf member
    cases member
  · intro message member
    cases member

/-- Receiving sends nothing. -/
theorem logMachine_receives (socket later : LogSocket) (count : Nat)
    (continued : (logMachine capacity).run socket (List.replicate count .rx) = some later) :
    later.sent = socket.sent := by
  induction count generalizing socket with
  | zero => exact congrArg LogSocket.sent (Option.some.inj continued).symm
  | succ count inductionHypothesis =>
    obtain ⟨next, moved, rest⟩ := (logMachine capacity).run_cons_some.mp continued
    rw [inductionHypothesis next rest]
    rcases logMachine_step capacity socket next .rx moved with
      ⟨message, impossible, -⟩ | ⟨message, queue, stored, -, -, -, rfl⟩
    · cases impossible
    · split <;> rfl

/-- The messages that wait can all be received. -/
theorem logMachine_drains (socket : LogSocket) :
    ∃ later, (logMachine capacity).run socket (List.replicate socket.queue.length .rx) =
        some later ∧ later.queue = [] := by
  generalize waiting : socket.queue = queue
  induction queue generalizing socket with
  | nil => exact ⟨socket, rfl, waiting⟩
  | cons message rest inductionHypothesis =>
    have moved : ∃ next, (logMachine capacity).step socket .rx = some next ∧
        next.queue = rest := by
      simp only [logMachine, logrxStep, recvfrom, waiting, Option.map_some]
      refine ⟨_, rfl, ?_⟩
      split <;> rfl
    obtain ⟨next, step, remaining⟩ := moved
    obtain ⟨later, drained, empty⟩ := inductionHypothesis next remaining
    exact ⟨later, (logMachine capacity).run_cons_some.mpr ⟨next, step, drained⟩, empty⟩

end Whole

/-- After any sending and receiving, and while the receiver goes on, every call of
`logrx` returns exactly its own message, if and only if every message sent has as
many bytes as the receiver's buffer. -/
theorem one_to_one_iff (capacity : Nat) (socket : LogSocket) (events : List LogEvent)
    (reached : (logMachine capacity).run LogSocket.start events = some socket) :
    (∀ count later, (logMachine capacity).run socket (List.replicate count .rx) = some later →
        OneToOne later) ↔
      ∀ message ∈ socket.sent, message.length = capacity := by
  have invariant := (logMachine capacity).run_invariant (fun state => state.Sound capacity)
    (fun state event next sound moved => logMachine_sound capacity state next event sound moved)
  have sound := invariant LogSocket.start socket events (logStart_sound capacity) reached
  constructor
  · intro oneToOne
    obtain ⟨later, drained, empty⟩ := logMachine_drains capacity socket
    have laterSound := invariant socket later _ sound drained
    have returned := (oneToOne _ later drained).all empty
    rw [logMachine_receives capacity socket later _ drained] at returned
    intro message member
    exact laterSound.filled.returned message (returned ▸ member)
  · intro filling count later continued
    have laterSound := invariant socket later _ sound continued
    rw [← logMachine_receives capacity socket later count continued] at filling
    exact (laterSound.whole filling).oneToOne

/-- With a receiver's buffer of two bytes, messages of two bytes are received one to one,
and a message of one byte is not. -/
theorem one_to_one_full :
    (∀ count later, (logMachine 2).run ⟨[[3, 4]], [], [[1, 2]], [[1, 2], [3, 4]]⟩
        (List.replicate count .rx) = some later → OneToOne later) ∧
    ¬ ∀ count later, (logMachine 2).run ⟨[[3], [4, 5]], [], [[1, 2]], [[1, 2], [3], [4, 5]]⟩
        (List.replicate count .rx) = some later → OneToOne later := by
  constructor
  · exact (one_to_one_iff 2 _ [.tx [1, 2], .tx [3, 4], .rx] (by decide)).mpr (by decide)
  · intro oneToOne
    have filling := (one_to_one_iff 2 _ [.tx [1, 2], .tx [3], .rx, .tx [4, 5]]
      (by decide)).mp oneToOne
    exact absurd filling (by decide)

/-- A message of two bytes and one of four: the first call returns the first message
with half of the second, and the rest is lost. -/
theorem short_message_merged :
    ∃ socket, (logMachine 4).run LogSocket.start [.tx [1, 2], .tx [3, 4, 5, 6], .rx, .rx] =
      some socket ∧ socket.returned = [[1, 2, 3, 4]] ∧ ¬ OneToOne socket := by
  refine ⟨⟨[], [], [[1, 2, 3, 4]], [[1, 2], [3, 4, 5, 6]]⟩, by decide, rfl, ?_⟩
  intro oneToOne
  exact absurd (oneToOne.all rfl) (by decide)

end Evlpc
