import Evlpc.Messages
import Evlpc.Session
import Evlpc.WireCodec
import Evlpc.Library.Machine

/-!
# The requests of `delayed_response_test`

All requests of the test are built in one object on the stack. libuv keeps a
pointer to its `PbMsg` and a length for every `uv_write`, and reads the bytes when
it transmits the buffer: at any time, even in the middle of an iteration, and
after the function has returned, when the stack holds something else.

The statements of an iteration are steps of their own. Next to the object there
are the buffers handed to `uv_write`, the ids that were issued, in order, and the
frames put on the wire.
-/

namespace Evlpc

open Library

universe u v
variable {δ : Type u} {κ : Type v}

/-- How far the function has got. Within an iteration, `sid` and `r` are its
local variables. -/
inductive Progress where
  | loop
  | sessionMade (sid r : UInt32)
  | sessionIdSet (sid r : UInt32)
  | randomIdSet (sid r : UInt32)
  | msgMade (sid r : UInt32)
  | returned
deriving DecidableEq

/-- The test while it runs: the session table, `req`, the lengths of the buffers
that libuv holds, oldest first, the ids issued, and the frames transmitted. -/
structure Test (δ : Type u) (κ : Type v) where
  sessions : SessionState δ κ
  req : A1DelayedResponse
  progress : Progress
  queue : List UInt32
  issued : List (UInt32 × UInt32)
  wire : List Frame

/-- A statement of the function, or the transmission of the oldest buffer. `r`
and the delay are results of `rand`, `rc` is that of `uv_write`, and `stack` is
what the stack holds where `req` was, once the function has returned. -/
inductive TestEvent where
  | makeNewSession (r currentTimeSec : UInt32)
  | setSessionId
  | setRandomId
  | makeMsg (delay : Int32)
  | uvWrite (rc : Int32)
  | returns
  | transmit (stack : PbMsg)

/-- The function before its first iteration. `req` is constructed in whatever
memory it has. -/
def Test.start (sessions : SessionState δ κ) (memory : PbMsg) : Test δ κ where
  sessions := sessions
  req := A1DelayedResponse.construct memory MsgTypes.delayedResponseReq.code
  progress := .loop
  queue := []
  issued := []
  wire := []

/-- What libuv reads from the object when it transmits a buffer. -/
def Test.readBuffer (test : Test δ κ) (stack : PbMsg) (length : UInt32) : Frame :=
  let pbmsg := if test.progress = .returned then stack else test.req.pbmsg
  Frame.ofBytes ((pbmsg.hdr.bytes ++ pbmsg.message).take length.toNat)

/-- The next state, if the event is the next statement or a buffer is waiting. -/
def Test.step (protobuf : Protobuf) (data : δ) (cb : κ) (test : Test δ κ) :
    TestEvent → Option (Test δ κ)
  | .makeNewSession r currentTimeSec =>
    match test.progress with
    | .loop =>
      match makeNewSession test.sessions data r cb currentTimeSec with
      | .error _ => none
      | .ok (sid, sessions) => some { test with
          sessions := sessions
          progress := .sessionMade sid r
          issued := test.issued ++ [(sid, r)] }
    | _ => none
  | .setSessionId =>
    match test.progress with
    | .sessionMade sid r =>
      let hdr := { test.req.pbmsg.hdr with sessionId := sid }
      some { test with
        req := { test.req with pbmsg := { test.req.pbmsg with hdr := hdr } }
        progress := .sessionIdSet sid r }
    | _ => none
  | .setRandomId =>
    match test.progress with
    | .sessionIdSet sid r =>
      let hdr := { test.req.pbmsg.hdr with randomId := r }
      some { test with
        req := { test.req with pbmsg := { test.req.pbmsg with hdr := hdr } }
        progress := .randomIdSet sid r }
    | _ => none
  | .makeMsg delay =>
    match test.progress with
    | .randomIdSet sid r => some { test with
        req := A1DelayedResponse.makeMsg protobuf { test.req with message := ⟨some delay⟩ }
        progress := .msgMade sid r }
    | _ => none
  | .uvWrite rc =>
    match test.progress with
    | .msgMade _ _ => some { test with
        queue := if rc < 0 then test.queue else test.queue ++ [getMsgSize test.req]
        progress := .loop }
    | _ => none
  | .returns =>
    match test.progress with
    | .loop => some { test with progress := .returned }
    | _ => none
  | .transmit stack =>
    match test.queue with
    | [] => none
    | length :: later => some { test with
        queue := later
        wire := test.wire ++ [test.readBuffer stack length] }

/-- The statements of the function and the transmissions among them. -/
def testMachine (protobuf : Protobuf) (data : δ) (cb : κ) : Machine (Test δ κ) TestEvent :=
  ⟨Test.step protobuf data cb⟩

/-- The ids of a frame. -/
def Frame.ids (frame : Frame) : UInt32 × UInt32 := (frame.hdr.sessionId, frame.hdr.randomId)

/-- The ids that the frames on the wire carry, in order. -/
def Test.carried (test : Test δ κ) : List (UInt32 × UInt32) := test.wire.map Frame.ids

/-- The ids issued in the current iteration, whose buffer is not handed over yet. -/
def Progress.pending : Progress → List (UInt32 × UInt32)
  | .loop => []
  | .sessionMade sid r => [(sid, r)]
  | .sessionIdSet sid r => [(sid, r)]
  | .randomIdSet sid r => [(sid, r)]
  | .msgMade sid r => [(sid, r)]
  | .returned => []

/-- Each frame on the wire carries the ids of its own session, and when no buffer
waits, no session's request is missing. -/
def Test.OwnIds (test : Test δ κ) : Prop :=
  test.carried <+: test.issued ∧
    (test.queue = [] → test.carried ++ test.progress.pending = test.issued)

/-- The wire is right, and stays so whatever the stack holds at a transmission. -/
def KeepsIds (protobuf : Protobuf) (data : δ) (cb : κ) (test : Test δ κ) : TestEvent → Prop
  | .transmit _ => test.OwnIds ∧
      ∀ stack next, test.step protobuf data cb (.transmit stack) = some next → next.OwnIds
  | _ => test.OwnIds

/-- No buffer waits when the ids in the object are overwritten or the function
returns, and libuv accepts every buffer. -/
def Flushed (test : Test δ κ) : TestEvent → Prop
  | .setSessionId => test.queue = []
  | .returns => test.queue = []
  | .uvWrite rc => ¬ rc < 0
  | _ => True

instance (test : Test δ κ) : (event : TestEvent) → Decidable (Flushed test event)
  | .setSessionId => inferInstanceAs (Decidable (test.queue = []))
  | .returns => inferInstanceAs (Decidable (test.queue = []))
  | .uvWrite rc => inferInstanceAs (Decidable (¬ rc < 0))
  | .makeNewSession _ _ => isTrue trivial
  | .setRandomId => isTrue trivial
  | .makeMsg _ => isTrue trivial
  | .transmit _ => isTrue trivial

/-- The ids that a waiting buffer will carry. At most one buffer waits, and only
while the object still holds what it held when the buffer was handed over. -/
inductive Test.Waiting (test : Test δ κ) : List (UInt32 × UInt32) → Prop
  | none (empty : test.queue = []) : test.Waiting []
  | one (length : UInt32) (only : test.queue = [length])
      (whole : sizeofPbHeader.toNat ≤ length.toNat) (active : test.progress ≠ .returned) :
      test.Waiting [(test.req.pbmsg.hdr.sessionId, test.req.pbmsg.hdr.randomId)]

/-- No ids wait without a buffer. -/
theorem Test.Waiting.eq_nil {test : Test δ κ} {ids : List (UInt32 × UInt32)}
    (waiting : test.Waiting ids) (empty : test.queue = []) : ids = [] := by
  cases waiting with
  | none _ => rfl
  | one length only whole active => exact absurd (empty.symm.trans only) (List.cons_ne_nil _ _).symm

/-- What the statements executed so far have put into the object. -/
def Test.Stamped (test : Test δ κ) : Prop :=
  match test.progress with
  | .sessionIdSet sid _ => test.queue = [] ∧ test.req.pbmsg.hdr.sessionId = sid
  | .randomIdSet sid r => test.queue = [] ∧ test.req.pbmsg.hdr.sessionId = sid ∧
      test.req.pbmsg.hdr.randomId = r
  | .msgMade sid r => test.queue = [] ∧ test.req.pbmsg.hdr.sessionId = sid ∧
      test.req.pbmsg.hdr.randomId = r ∧ sizeofPbHeader.toNat ≤ (getMsgSize test.req).toNat
  | _ => True

/-- While a buffer waits, nothing is required of the object. -/
theorem Test.Stamped.waiting {test : Test δ κ} (stamped : test.Stamped) (queue : test.queue ≠ [])
    (other : Test δ κ) (progress : other.progress = test.progress) : other.Stamped := by
  unfold Test.Stamped at stamped ⊢
  rw [progress]
  cases here : test.progress with
  | sessionIdSet sid r =>
    rw [here] at stamped
    exact absurd stamped.1 queue
  | randomIdSet sid r =>
    rw [here] at stamped
    exact absurd stamped.1 queue
  | msgMade sid r =>
    rw [here] at stamped
    exact absurd stamped.1 queue
  | loop => trivial
  | sessionMade sid r => trivial
  | returned => trivial

/-- Every id issued is on the wire, in a waiting buffer or pending, in order. -/
structure Test.InOrder (test : Test δ κ) : Prop where
  accounted : ∃ waiting, test.Waiting waiting ∧
    test.issued = test.carried ++ waiting ++ test.progress.pending
  stamped : test.Stamped

/-- What each event does to the test. -/
inductive Test.Moves (protobuf : Protobuf) (data : δ) (cb : κ) (test : Test δ κ) :
    TestEvent → Test δ κ → Prop
  | sessionMade (r currentTimeSec sid : UInt32) (sessions : SessionState δ κ)
      (progress : test.progress = .loop)
      (made : makeNewSession test.sessions data r cb currentTimeSec = .ok (sid, sessions)) :
      test.Moves protobuf data cb (.makeNewSession r currentTimeSec) { test with
        sessions := sessions
        progress := .sessionMade sid r
        issued := test.issued ++ [(sid, r)] }
  | sessionIdSet (sid r : UInt32) (progress : test.progress = .sessionMade sid r) :
      test.Moves protobuf data cb .setSessionId { test with
        req := { test.req with
          pbmsg := { test.req.pbmsg with hdr := { test.req.pbmsg.hdr with sessionId := sid } } }
        progress := .sessionIdSet sid r }
  | randomIdSet (sid r : UInt32) (progress : test.progress = .sessionIdSet sid r) :
      test.Moves protobuf data cb .setRandomId { test with
        req := { test.req with
          pbmsg := { test.req.pbmsg with hdr := { test.req.pbmsg.hdr with randomId := r } } }
        progress := .randomIdSet sid r }
  | msgMade (delay : Int32) (sid r : UInt32) (progress : test.progress = .randomIdSet sid r) :
      test.Moves protobuf data cb (.makeMsg delay) { test with
        req := A1DelayedResponse.makeMsg protobuf { test.req with message := ⟨some delay⟩ }
        progress := .msgMade sid r }
  | handedOver (rc : Int32) (sid r : UInt32) (progress : test.progress = .msgMade sid r) :
      test.Moves protobuf data cb (.uvWrite rc) { test with
        queue := if rc < 0 then test.queue else test.queue ++ [getMsgSize test.req]
        progress := .loop }
  | returned (progress : test.progress = .loop) :
      test.Moves protobuf data cb .returns { test with progress := .returned }
  | transmitted (stack : PbMsg) (length : UInt32) (later : List UInt32)
      (queue : test.queue = length :: later) :
      test.Moves protobuf data cb (.transmit stack) { test with
        queue := later
        wire := test.wire ++ [test.readBuffer stack length] }

/-- Inversion of a step: the statement must be the next one. -/
theorem step_test_moves (protobuf : Protobuf) (data : δ) (cb : κ) (test next : Test δ κ)
    (event : TestEvent) (moved : (testMachine protobuf data cb).step test event = some next) :
    test.Moves protobuf data cb event next := by
  cases event with
  | makeNewSession r currentTimeSec =>
    cases progress : test.progress with
    | loop =>
      cases made : makeNewSession test.sessions data r cb currentTimeSec with
      | error fault => simp [testMachine, Test.step, progress, made] at moved
      | ok result =>
        simp only [testMachine, Test.step, progress, made, Option.some.injEq] at moved
        subst moved
        exact .sessionMade r currentTimeSec result.1 result.2 progress made
    | _ => simp [testMachine, Test.step, progress] at moved
  | setSessionId =>
    cases progress : test.progress with
    | sessionMade sid r =>
      simp only [testMachine, Test.step, progress, Option.some.injEq] at moved
      subst moved
      exact .sessionIdSet sid r progress
    | _ => simp [testMachine, Test.step, progress] at moved
  | setRandomId =>
    cases progress : test.progress with
    | sessionIdSet sid r =>
      simp only [testMachine, Test.step, progress, Option.some.injEq] at moved
      subst moved
      exact .randomIdSet sid r progress
    | _ => simp [testMachine, Test.step, progress] at moved
  | makeMsg delay =>
    cases progress : test.progress with
    | randomIdSet sid r =>
      simp only [testMachine, Test.step, progress, Option.some.injEq] at moved
      subst moved
      exact .msgMade delay sid r progress
    | _ => simp [testMachine, Test.step, progress] at moved
  | uvWrite rc =>
    cases progress : test.progress with
    | msgMade sid r =>
      simp only [testMachine, Test.step, progress, Option.some.injEq] at moved
      subst moved
      exact .handedOver rc sid r progress
    | _ => simp [testMachine, Test.step, progress] at moved
  | returns =>
    cases progress : test.progress with
    | loop =>
      simp only [testMachine, Test.step, progress, Option.some.injEq] at moved
      subst moved
      exact .returned progress
    | _ => simp [testMachine, Test.step, progress] at moved
  | transmit stack =>
    cases queue : test.queue with
    | nil => simp [testMachine, Test.step, queue] at moved
    | cons length later =>
      simp only [testMachine, Test.step, queue, Option.some.injEq] at moved
      subst moved
      exact .transmitted stack length later queue

/-- A buffer as long as a header is read with the header its memory holds. -/
theorem readBuffer_hdr (test : Test δ κ) (stack : PbMsg) (length : UInt32)
    (whole : sizeofPbHeader.toNat ≤ length.toNat) :
    (test.readBuffer stack length).hdr =
      if test.progress = .returned then stack.hdr else test.req.pbmsg.hdr := by
  have header : ∀ pbmsg : PbMsg,
      (Frame.ofBytes ((pbmsg.hdr.bytes ++ pbmsg.message).take length.toNat)).hdr = pbmsg.hdr := by
    intro pbmsg
    rw [List.take_append, List.take_of_length_le (by rw [PbHeader.bytes_length]; exact whole)]
    exact PbHeader.ofBytes_bytes _ _
  rw [Test.readBuffer]
  by_cases returned : test.progress = .returned
  · rw [if_pos returned, if_pos returned]
    exact header stack
  · rw [if_neg returned, if_neg returned]
    exact header test.req.pbmsg

/-- The message of a request is longer than its header. -/
theorem makeMsg_whole (protobuf : Protobuf) (oneField : protobuf.OneField) (req : A1DelayedResponse)
    (delay : Int32) :
    sizeofPbHeader.toNat ≤ (getMsgSize
      (A1DelayedResponse.makeMsg protobuf { req with message := ⟨some delay⟩ })).toNat := by
  have size := oneField.delayedResponse_field delay
  have fits : (protobuf.delayedResponse.serializeToArray ⟨some delay⟩).length ≤ maxPbMsgSize :=
    Nat.le_trans size.2 (by decide)
  have made := makeMsg_length protobuf.delayedResponse { req with message := ⟨some delay⟩ }
    oneField.delayedResponse_size fits
  have wellFormed := frame_wellFormed protobuf.delayedResponse
    { req with message := ⟨some delay⟩ } fits
  rw [A1DelayedResponse.makeMsg, made, wellFormed]
  exact Nat.le_add_right _ _

section Ordered

variable (protobuf : Protobuf) (oneField : protobuf.OneField) (data : δ) (cb : κ)
include oneField

/-- Flushed steps keep every issued id accounted for. One case for each statement:
the ids of the object change only while no buffer waits. -/
theorem step_inOrder (test next : Test δ κ) (inOrder : test.InOrder) (event : TestEvent)
    (flushed : Flushed test event) (moves : test.Moves protobuf data cb event next) :
    next.InOrder := by
  obtain ⟨⟨waiting, isWaiting, accounted⟩, stamped⟩ := inOrder
  cases moves with
  | sessionMade r currentTimeSec sid sessions progress made =>
    rw [progress, Progress.pending, List.append_nil] at accounted
    refine ⟨⟨waiting, ?_, ?_⟩, trivial⟩
    · cases isWaiting with
      | none empty => exact .none empty
      | one length only whole active => exact .one length only whole (by simp)
    · change test.issued ++ [(sid, r)] = test.carried ++ waiting ++ [(sid, r)]
      rw [accounted]
  | sessionIdSet sid r progress =>
    have empty : test.queue = [] := flushed
    obtain rfl := isWaiting.eq_nil empty
    rw [progress] at accounted
    exact ⟨⟨[], .none empty, accounted⟩, empty, rfl⟩
  | randomIdSet sid r progress =>
    rw [Test.Stamped, progress] at stamped
    obtain ⟨empty, sessionId⟩ := stamped
    obtain rfl := isWaiting.eq_nil empty
    rw [progress] at accounted
    exact ⟨⟨[], .none empty, accounted⟩, empty, sessionId, rfl⟩
  | msgMade delay sid r progress =>
    rw [Test.Stamped, progress] at stamped
    obtain ⟨empty, sessionId, randomId⟩ := stamped
    obtain rfl := isWaiting.eq_nil empty
    rw [progress] at accounted
    exact ⟨⟨[], .none empty, accounted⟩, empty, sessionId, randomId,
      makeMsg_whole protobuf oneField test.req delay⟩
  | handedOver rc sid r progress =>
    rw [Test.Stamped, progress] at stamped
    obtain ⟨empty, sessionId, randomId, whole⟩ := stamped
    obtain rfl := isWaiting.eq_nil empty
    rw [progress] at accounted
    have accepted : ¬ rc < 0 := flushed
    refine ⟨⟨[(test.req.pbmsg.hdr.sessionId, test.req.pbmsg.hdr.randomId)],
      .one (getMsgSize test.req) ?_ whole (by simp), ?_⟩, trivial⟩
    · simp only [if_neg accepted, empty, List.nil_append]
    · rw [sessionId, randomId]
      simpa [Progress.pending, Test.carried] using accounted
  | returned progress =>
    have empty : test.queue = [] := flushed
    obtain rfl := isWaiting.eq_nil empty
    rw [progress] at accounted
    exact ⟨⟨[], .none empty, accounted⟩, trivial⟩
  | transmitted stack length later queue =>
    cases isWaiting with
    | none empty => exact absurd (empty.symm.trans queue) (by simp)
    | one other only whole active =>
      obtain ⟨rfl, rfl⟩ := List.cons.inj (queue.symm.trans only)
      have hdr : (test.readBuffer stack length).hdr = test.req.pbmsg.hdr := by
        rw [readBuffer_hdr test stack length whole, if_neg active]
      refine ⟨⟨[], .none rfl, ?_⟩, ?_⟩
      · rw [accounted]
        simp [Test.carried, Frame.ids, hdr]
      · exact stamped.waiting (by rw [queue]; exact List.cons_ne_nil _ _) _ rfl

omit oneField in
/-- If every issued id is accounted for, the wire is right. -/
theorem inOrder_ownIds (test : Test δ κ) (inOrder : test.InOrder) : test.OwnIds := by
  obtain ⟨⟨waiting, isWaiting, accounted⟩, _⟩ := inOrder
  refine ⟨⟨waiting ++ test.progress.pending, by rw [accounted, List.append_assoc]⟩, ?_⟩
  intro empty
  obtain rfl := isWaiting.eq_nil empty
  rw [accounted, List.append_nil]

/-- Also behind a transmission, whatever the stack holds. -/
theorem inOrder_keeps (test : Test δ κ) (inOrder : test.InOrder) (event : TestEvent) :
    KeepsIds protobuf data cb test event := by
  have own := inOrder_ownIds test inOrder
  cases event with
  | transmit _ =>
    refine ⟨own, fun stack next moved => ?_⟩
    have moves := step_test_moves protobuf data cb test next (.transmit stack) moved
    exact inOrder_ownIds next
      (step_inOrder protobuf oneField data cb test next inOrder (.transmit stack) trivial moves)
  | makeNewSession r currentTimeSec => exact own
  | setSessionId => exact own
  | setRandomId => exact own
  | makeMsg delay => exact own
  | uvWrite rc => exact own
  | returns => exact own

end Ordered

/-- Nothing is issued, waiting or transmitted at the start. -/
theorem start_inOrder (sessions : SessionState δ κ) (memory : PbMsg) :
    (Test.start sessions memory).InOrder :=
  ⟨⟨[], .none rfl, rfl⟩, trivial⟩

/-- What holds of the test in any run over a table that agrees with its sessions:
the ids issued are different and belong to outstanding sessions, a buffer is
accounted for at most once, and every buffer has room for a header. -/
structure Test.Tracked (test : Test δ κ) (outstanding : List (ObSession δ κ)) : Prop where
  consistent : Consistent test.sessions outstanding
  known : ∀ ids ∈ test.issued, ids.1 ∈ outstanding.map ObSession.sid
  distinct : (test.issued.map Prod.fst).Nodup
  last : ∃ earlier, test.issued = earlier ++ test.progress.pending
  counted : test.wire.length + test.queue.length + test.progress.pending.length ≤
    test.issued.length
  whole : ∀ length ∈ test.queue, sizeofPbHeader.toNat ≤ length.toNat
  madeWhole : ∀ sid r, test.progress = .msgMade sid r →
    sizeofPbHeader.toNat ≤ (getMsgSize test.req).toNat

section Tracking

variable (protobuf : Protobuf) (oneField : protobuf.OneField) (data : δ) (cb : κ)

/-- A session that could be made has an id of its own. -/
theorem made_fresh (sessions next : SessionState δ κ) (outstanding : List (ObSession δ κ))
    (consistent : Consistent sessions outstanding) (r currentTimeSec sid : UInt32)
    (made : makeNewSession sessions data r cb currentTimeSec = .ok (sid, next)) :
    sid ∉ outstanding.map ObSession.sid ∧
      Consistent next (⟨sid, r, data, cb⟩ :: outstanding) := by
  have room : outstanding.length < maxSessions := by
    apply Nat.lt_of_le_of_ne consistent.outstanding_bound
    intro full
    rw [makeNewSession_full consistent full] at made
    cases made
  obtain ⟨other, table, result, _, fresh, after⟩ :=
    makeNewSession_room consistent room data r cb currentTimeSec
  obtain ⟨rfl, rfl⟩ := Prod.mk.inj (Except.ok.inj (made.symm.trans result))
  exact ⟨fresh, after⟩

/-- The id of a session that is made is different from those issued before. -/
theorem made_tracked (test : Test δ κ) (outstanding : List (ObSession δ κ))
    (tracked : test.Tracked outstanding) (r currentTimeSec sid : UInt32)
    (sessions : SessionState δ κ) (progress : test.progress = .loop)
    (made : makeNewSession test.sessions data r cb currentTimeSec = .ok (sid, sessions)) :
    Test.Tracked { test with
        sessions := sessions
        progress := .sessionMade sid r
        issued := test.issued ++ [(sid, r)] } (⟨sid, r, data, cb⟩ :: outstanding) := by
  have counted := tracked.counted
  rw [progress] at counted
  obtain ⟨fresh, consistent⟩ := made_fresh data cb test.sessions sessions outstanding
    tracked.consistent r currentTimeSec sid made
  refine ⟨consistent, ?_, ?_, ⟨test.issued, rfl⟩, ?_, tracked.whole, by simp⟩
  · intro ids member
    rcases List.mem_append.mp member with old | new
    · exact List.mem_cons_of_mem _ (tracked.known ids old)
    · rw [List.mem_singleton.mp new]
      exact List.mem_cons_self
  · rw [List.map_append, List.map_singleton, List.nodup_append]
    refine ⟨tracked.distinct, List.nodup_singleton _, ?_⟩
    intro old isOld other isOther same
    obtain ⟨ids, member, rfl⟩ := List.mem_map.mp isOld
    have known := tracked.known ids member
    rw [same, List.mem_singleton.mp isOther] at known
    exact fresh known
  · simp only [Progress.pending, List.length_nil, List.length_append,
      List.length_singleton] at counted ⊢
    omega

include oneField in
/-- Every statement and every transmission can be kept track of. -/
theorem step_tracked (test next : Test δ κ) (outstanding : List (ObSession δ κ))
    (tracked : test.Tracked outstanding) (event : TestEvent)
    (moves : test.Moves protobuf data cb event next) :
    ∃ outstanding', next.Tracked outstanding' := by
  have counted := tracked.counted
  obtain ⟨earlier, last⟩ := tracked.last
  cases moves with
  | sessionMade r currentTimeSec sid sessions progress made =>
    exact ⟨_, made_tracked data cb test outstanding tracked r currentTimeSec sid sessions progress
      made⟩
  | sessionIdSet sid r progress =>
    rw [progress] at counted last
    exact ⟨outstanding, { tracked with last := ⟨earlier, last⟩, counted, madeWhole := by simp }⟩
  | randomIdSet sid r progress =>
    rw [progress] at counted last
    exact ⟨outstanding, { tracked with last := ⟨earlier, last⟩, counted, madeWhole := by simp }⟩
  | msgMade delay sid r progress =>
    rw [progress] at counted last
    exact ⟨outstanding, { tracked with
      last := ⟨earlier, last⟩
      counted
      madeWhole := fun _ _ _ => makeMsg_whole protobuf oneField test.req delay }⟩
  | handedOver rc sid r progress =>
    have size := tracked.madeWhole sid r progress
    rw [progress] at counted
    refine ⟨outstanding, { tracked with
      last := ⟨test.issued, (List.append_nil _).symm⟩
      counted := ?_
      whole := ?_
      madeWhole := by simp }⟩
    · simp only [Progress.pending, List.length_nil, List.length_singleton] at counted ⊢
      split
      · omega
      · rw [List.length_append, List.length_singleton]
        omega
    · intro length member
      by_cases refused : rc < 0
      · simp only [if_pos refused] at member
        exact tracked.whole length member
      · simp only [if_neg refused] at member
        rcases List.mem_append.mp member with old | new
        · exact tracked.whole length old
        · exact List.mem_singleton.mp new ▸ size
  | returned progress =>
    rw [progress] at counted
    exact ⟨outstanding, { tracked with
      last := ⟨test.issued, (List.append_nil _).symm⟩, counted, madeWhole := by simp }⟩
  | transmitted stack length later queue =>
    rw [queue] at counted
    refine ⟨outstanding, { tracked with
      counted := ?_
      whole := fun other member => tracked.whole other (queue ▸ List.mem_cons_of_mem _ member) }⟩
    simp only [List.length_cons, List.length_append, List.length_nil] at counted ⊢
    omega

/-- A waiting buffer is going to carry an id that is not its own: the object holds
the id of a later session, or the stack has been given up. -/
def Test.Doomed (test : Test δ κ) : Prop :=
  ∃ sid r, test.queue ≠ [] ∧ test.issued[test.wire.length]? = some (sid, r) ∧
    (test.progress = .returned ∨
      (test.req.pbmsg.hdr.sessionId ≠ sid ∧
        ∀ later r, test.progress = .sessionMade later r → later ≠ sid))

/-- What leaves the buffers, the ids issued and the session id in the object alone
leaves a doomed state doomed. -/
theorem Test.Doomed.continued {test next : Test δ κ} (doomed : test.Doomed)
    (active : test.progress ≠ .returned) (queue : test.queue ≠ [] → next.queue ≠ [])
    (issued : next.issued = test.issued) (wire : next.wire = test.wire)
    (sessionId : next.req.pbmsg.hdr.sessionId = test.req.pbmsg.hdr.sessionId)
    (notMade : ∀ later r, next.progress ≠ .sessionMade later r) : next.Doomed := by
  obtain ⟨own, random, notEmpty, first, wrong⟩ := doomed
  refine ⟨own, random, queue notEmpty, ?_, Or.inr ⟨?_, ?_⟩⟩
  · rw [issued, wire, first]
  · rw [sessionId]
    exact (wrong.resolve_left active).1
  · intro later r made
    exact absurd made (notMade later r)

/-- A buffer was refused: fewer requests are on their way than ids were issued. -/
def Test.Lacking (test : Test δ κ) : Prop :=
  test.wire.length + test.queue.length + test.progress.pending.length < test.issued.length

/-- The wire goes wrong if a frame with another session id than the issued one is
transmitted. -/
theorem transmit_wrong (test : Test δ κ) (frame : Frame) (later : List UInt32) (sid r : UInt32)
    (issued : test.issued[test.wire.length]? = some (sid, r))
    (different : frame.hdr.sessionId ≠ sid) :
    ¬ ({ test with queue := later, wire := test.wire ++ [frame] } : Test δ κ).OwnIds := by
  rintro ⟨⟨rest, within⟩, _⟩
  have sameIssued : ({ test with queue := later, wire := test.wire ++ [frame] } : Test δ κ).issued =
      test.issued := rfl
  have carried : ({ test with queue := later, wire := test.wire ++ [frame] } : Test δ κ).carried =
      test.carried ++ [frame.ids] := by
    simp [Test.carried]
  have length : test.carried.length = test.wire.length := List.length_map _
  rw [sameIssued, carried, List.append_assoc, List.singleton_append] at within
  have found : test.issued[test.carried.length]? = some frame.ids := by
    rw [← within, List.getElem?_append_right (Nat.le_refl _), Nat.sub_self]
    rfl
  rw [length, issued] at found
  exact different (congrArg Prod.fst (Option.some.inj found)).symm

/-- From a doomed state no transmission keeps the ids, whatever the stack holds. -/
theorem doomed_transmit (test : Test δ κ) (outstanding : List (ObSession δ κ))
    (tracked : test.Tracked outstanding) (doomed : test.Doomed) (stack : PbMsg) :
    ¬ KeepsIds protobuf data cb test (.transmit stack) := by
  obtain ⟨sid, r, notEmpty, issued, wrong⟩ := doomed
  rintro ⟨_, keeps⟩
  obtain ⟨length, later, queue⟩ := List.exists_cons_of_ne_nil notEmpty
  have whole := tracked.whole length (by rw [queue]; exact List.mem_cons_self)
  have moved : ∀ other, test.step protobuf data cb (.transmit other) =
      some { test with queue := later, wire := test.wire ++ [test.readBuffer other length] } := by
    intro other
    simp only [Test.step, queue]
  by_cases returned : test.progress = .returned
  · let other : PbMsg := ⟨⟨0, 0, 0, sid + 1, 0, 0, 0⟩, []⟩
    refine transmit_wrong test _ later sid r issued ?_ (keeps other _ (moved other))
    rw [readBuffer_hdr test other length whole, if_pos returned]
    intro same
    have next : sid + 1 = sid := same
    simp at next
  · refine transmit_wrong test _ later sid r issued ?_ (keeps stack _ (moved stack))
    rw [readBuffer_hdr test stack length whole, if_neg returned]
    exact (wrong.resolve_left returned).1

/-- A doomed state stays doomed until a transmission. -/
theorem doomed_step (test next : Test δ κ) (outstanding : List (ObSession δ κ))
    (tracked : test.Tracked outstanding) (doomed : test.Doomed) (event : TestEvent)
    (keeps : KeepsIds protobuf data cb test event)
    (moves : test.Moves protobuf data cb event next) : next.Doomed := by
  cases moves with
  | transmitted stack length later queue =>
    exact absurd keeps (doomed_transmit protobuf data cb test outstanding tracked doomed stack)
  | sessionMade r currentTimeSec sid sessions progress made =>
    obtain ⟨own, random, notEmpty, issued, wrong⟩ := doomed
    obtain ⟨fresh, _⟩ := made_fresh data cb test.sessions sessions outstanding tracked.consistent r
      currentTimeSec sid made
    have different := (wrong.resolve_left (by simp [progress])).1
    have known : own ∈ outstanding.map ObSession.sid :=
      tracked.known (own, random) (List.mem_of_getElem? issued)
    have bound := (List.getElem?_eq_some_iff.mp issued).1
    refine ⟨own, random, notEmpty, ?_, Or.inr ⟨different, ?_⟩⟩
    · change (test.issued ++ [(sid, r)])[test.wire.length]? = _
      rw [List.getElem?_append_left bound, issued]
    · intro later _ same
      obtain ⟨rfl, _⟩ := Progress.sessionMade.inj same
      exact fun equal => fresh (equal ▸ known)
  | sessionIdSet sid r progress =>
    obtain ⟨own, random, notEmpty, issued, wrong⟩ := doomed
    have later := (wrong.resolve_left (by simp [progress])).2
    exact ⟨own, random, notEmpty, issued, Or.inr ⟨later sid r progress, by simp⟩⟩
  | randomIdSet sid r progress =>
    exact doomed.continued (by simp [progress]) id rfl rfl rfl (by simp)
  | msgMade delay sid r progress =>
    exact doomed.continued (by simp [progress]) id rfl rfl rfl (by simp)
  | handedOver rc sid r progress =>
    refine doomed.continued (by simp [progress]) ?_ rfl rfl rfl (by simp)
    intro notEmpty
    simp only
    split
    · exact notEmpty
    · simp
  | returned progress =>
    obtain ⟨own, random, notEmpty, issued, _⟩ := doomed
    exact ⟨own, random, notEmpty, issued, Or.inl rfl⟩

/-- What is lacking is never made up for. -/
theorem lacking_step (test next : Test δ κ) (lacking : test.Lacking) (event : TestEvent)
    (moves : test.Moves protobuf data cb event next) : next.Lacking := by
  unfold Test.Lacking at lacking ⊢
  cases moves with
  | handedOver rc sid r progress =>
    rw [progress] at lacking
    simp only [Progress.pending, List.length_nil, List.length_singleton] at lacking ⊢
    split
    · omega
    · rw [List.length_append, List.length_singleton]
      omega
  | transmitted stack length later queue =>
    rw [queue] at lacking
    simp only [List.length_cons, List.length_append, List.length_nil] at lacking ⊢
    omega
  | sessionMade r currentTimeSec sid sessions progress made =>
    rw [progress] at lacking
    simp only [Progress.pending, List.length_nil, List.length_append,
      List.length_singleton] at lacking ⊢
    omega
  | sessionIdSet sid r progress => rwa [progress] at lacking
  | randomIdSet sid r progress => rwa [progress] at lacking
  | msgMade delay sid r progress => rwa [progress] at lacking
  | returned progress => rwa [progress] at lacking

/-- Once all buffers are transmitted, a lacking request is missing on the wire. -/
theorem lacking_missed (test : Test δ κ) (lacking : test.Lacking)
    (keeps : ∀ contents : List PbMsg, (testMachine protobuf data cb).Along
      (KeepsIds protobuf data cb) test (contents.map .transmit)) : False := by
  generalize queue : test.queue = waiting
  induction waiting generalizing test with
  | nil =>
    have complete := ((keeps [zeroedPbMsg]).1.1.2 queue)
    have lengths := congrArg List.length complete
    have carried : test.carried.length = test.wire.length := List.length_map _
    rw [List.length_append, carried] at lengths
    unfold Test.Lacking at lacking
    rw [queue, List.length_nil] at lacking
    omega
  | cons length later inductionHypothesis =>
    have moved : (testMachine protobuf data cb).step test (.transmit zeroedPbMsg) =
        some { test with
          queue := later
          wire := test.wire ++ [test.readBuffer zeroedPbMsg length] } := by
      simp only [testMachine, Test.step, queue]
    exact inductionHypothesis _ (lacking_step protobuf data cb test _ lacking _
      (step_test_moves protobuf data cb test _ _ moved))
      (fun contents => (keeps (zeroedPbMsg :: contents)).2 _ moved) rfl

/-- A step after which nothing is doomed or lacking was flushed. -/
theorem flushed_of_next (test next : Test δ κ) (outstanding : List (ObSession δ κ))
    (tracked : test.Tracked outstanding) (event : TestEvent)
    (moves : test.Moves protobuf data cb event next) (sound : ¬ next.Doomed)
    (complete : ¬ next.Lacking) : Flushed test event := by
  have counted := tracked.counted
  obtain ⟨earlier, last⟩ := tracked.last
  have distinct := tracked.distinct
  cases moves with
  | sessionIdSet sid r progress =>
    by_contra notFlushed
    have notEmpty : test.queue ≠ [] := notFlushed
    have some := List.length_pos_iff.mpr notEmpty
    rw [progress, Progress.pending] at counted last
    rw [last, List.length_append, List.length_singleton] at counted
    have early : test.wire.length < earlier.length := by omega
    apply sound
    refine ⟨earlier[test.wire.length].1, earlier[test.wire.length].2, notEmpty, ?_,
      Or.inr ⟨?_, by simp⟩⟩
    · change test.issued[test.wire.length]? = _
      rw [last, List.getElem?_append_left early, List.getElem?_eq_getElem early]
    · rw [last, List.map_append, List.nodup_append] at distinct
      intro same
      exact distinct.2.2 _ (List.mem_map_of_mem (List.getElem_mem early)) sid (by simp) same.symm
  | returned progress =>
    by_contra notFlushed
    have notEmpty : test.queue ≠ [] := notFlushed
    have some := List.length_pos_iff.mpr notEmpty
    have bound : test.wire.length < test.issued.length := by omega
    exact sound ⟨test.issued[test.wire.length].1, test.issued[test.wire.length].2, notEmpty,
      List.getElem?_eq_getElem bound, Or.inl rfl⟩
  | handedOver rc sid r progress =>
    intro refused
    apply complete
    rw [progress] at counted
    simp only [Progress.pending, List.length_singleton] at counted
    simp only [Test.Lacking, if_pos refused, Progress.pending, List.length_nil]
    omega
  | sessionMade r currentTimeSec sid sessions progress made => trivial
  | randomIdSet sid r progress => trivial
  | msgMade delay sid r progress => trivial
  | transmitted stack length later queue => trivial

end Tracking

/-- Nothing has been issued at the start. -/
theorem start_tracked (sessions : SessionState δ κ) (memory : PbMsg)
    (outstanding : List (ObSession δ κ)) (consistent : Consistent sessions outstanding) :
    (Test.start sessions memory).Tracked outstanding where
  consistent := consistent
  known := by simp [Test.start]
  distinct := List.nodup_nil
  last := ⟨[], rfl⟩
  counted := Nat.le_refl 0
  whole := by simp [Test.start]
  madeWhole := by simp [Test.start]

/-- For any number of iterations: if no buffer waits when the ids are overwritten
and when the function returns, and every buffer is accepted, then in every state
the frames on the wire carry the ids of their own sessions, and none is missing
once no buffer waits. Over a session table that agrees with its sessions the
condition is exact: otherwise some later transmissions put wrong ids on the wire
or leave a request out. -/
theorem own_ids_on_wire (protobuf : Protobuf) (oneField : protobuf.OneField) (data : δ) (cb : κ)
    (sessions : SessionState δ κ) (memory : PbMsg) (events : List TestEvent) :
    ((testMachine protobuf data cb).Along Flushed (Test.start sessions memory) events →
      ∀ contents : List PbMsg, (testMachine protobuf data cb).Along (KeepsIds protobuf data cb)
        (Test.start sessions memory) (events ++ contents.map .transmit)) ∧
    (∀ outstanding final, Consistent sessions outstanding →
      (testMachine protobuf data cb).run (Test.start sessions memory) events = some final →
      (∀ contents : List PbMsg, (testMachine protobuf data cb).Along (KeepsIds protobuf data cb)
        (Test.start sessions memory) (events ++ contents.map .transmit)) →
      (testMachine protobuf data cb).Along Flushed (Test.start sessions memory) events) := by
  constructor
  · intro flushed
    exact (testMachine protobuf data cb).along_extended TestEvent.transmit Test.InOrder Flushed
      (KeepsIds protobuf data cb)
      (fun test event inOrder _ => inOrder_keeps protobuf oneField data cb test inOrder event)
      (fun test event next inOrder flushed moved =>
        step_inOrder protobuf oneField data cb test next inOrder event flushed
          (step_test_moves protobuf data cb test next event moved))
      (fun _ _ => trivial) _ events (start_inOrder sessions memory) flushed
  · intro outstanding final consistent reached keeps
    refine (testMachine protobuf data cb).guard_of_extended TestEvent.transmit
      (fun test => ∃ outstanding, test.Tracked outstanding) (fun test => test.Doomed ∨ test.Lacking)
      Flushed (KeepsIds protobuf data cb) ?_ ?_ ?_ ?_ _ final events
      ⟨outstanding, start_tracked sessions memory outstanding consistent⟩ reached keeps
    · rintro test event next ⟨outstanding, tracked⟩ moved
      exact step_tracked protobuf oneField data cb test next outstanding tracked event
        (step_test_moves protobuf data cb test next event moved)
    · rintro test event next ⟨outstanding, tracked⟩ bad keeps moved
      have moves := step_test_moves protobuf data cb test next event moved
      rcases bad with doomed | lacking
      · exact Or.inl
          (doomed_step protobuf data cb test next outstanding tracked doomed event keeps moves)
      · exact Or.inr (lacking_step protobuf data cb test next lacking event moves)
    · rintro test ⟨outstanding, tracked⟩ bad keeps
      rcases bad with doomed | lacking
      · exact doomed_transmit protobuf data cb test outstanding tracked doomed zeroedPbMsg
          (keeps [zeroedPbMsg]).1
      · exact lacking_missed protobuf data cb test lacking keeps
    · rintro test event next ⟨outstanding, tracked⟩ moved sound
      obtain ⟨notDoomed, notLacking⟩ := not_or.mp sound
      exact flushed_of_next protobuf data cb test next outstanding tracked event
        (step_test_moves protobuf data cb test next event moved) notDoomed notLacking

/-- The statements of one iteration. -/
def iteration (r : UInt32) (delay : Int32) : List TestEvent :=
  [.makeNewSession r 0, .setSessionId, .setRandomId, .makeMsg delay, .uvWrite 0]

/-- Two iterations while the socket is not writable. -/
def transmittedLate : List TestEvent := iteration 5 1 ++ iteration 6 2 ++ [.transmit zeroedPbMsg]

/-- Two iterations, each with its transmission, and the return. -/
def transmittedInTime : List TestEvent :=
  iteration 5 1 ++ [.transmit zeroedPbMsg] ++ iteration 6 2 ++ [.transmit zeroedPbMsg, .returns]

/-- A message that is transmitted before the next one is made carries its own ids, and one
that is transmitted late does not. -/
theorem own_ids_of_two :
    (∀ contents : List PbMsg, (testMachine WireCodec.protobuf () ()).Along
      (KeepsIds WireCodec.protobuf () ()) (Test.start SessionState.start zeroedPbMsg)
      (transmittedInTime ++ contents.map .transmit)) ∧
    ¬ ∀ contents : List PbMsg, (testMachine WireCodec.protobuf () ()).Along
      (KeepsIds WireCodec.protobuf () ()) (Test.start SessionState.start zeroedPbMsg)
      (transmittedLate ++ contents.map .transmit) := by
  constructor
  · exact (own_ids_on_wire WireCodec.protobuf WireCodec.protobuf_oneField () ()
      SessionState.start zeroedPbMsg transmittedInTime).1 (by decide +kernel)
  · intro keeps
    have runs : ((testMachine WireCodec.protobuf () ()).run
        (Test.start SessionState.start zeroedPbMsg) transmittedLate).isSome = true := by
      decide +kernel
    obtain ⟨final, reached⟩ := Option.isSome_iff_exists.mp runs
    have flushed := (own_ids_on_wire WireCodec.protobuf WireCodec.protobuf_oneField () ()
      SessionState.start zeroedPbMsg transmittedLate).2 [] final start_consistent reached keeps
    exact absurd flushed (by decide +kernel)

/-- The first frame on the wire carries the ids of the second session. -/
theorem second_ids_on_wire :
    ∃ final, (testMachine WireCodec.protobuf () ()).run (Test.start SessionState.start zeroedPbMsg)
        transmittedLate = some final ∧
      final.issued = [(0, 5), (1, 6)] ∧ final.carried = [(1, 6)] ∧ ¬ final.OwnIds := by
  have ends : ((testMachine WireCodec.protobuf () ()).run
      (Test.start SessionState.start zeroedPbMsg) transmittedLate).map
        (fun test => (test.issued, test.carried)) =
      some ([(0, 5), (1, 6)], [(1, 6)]) := by
    decide +kernel
  obtain ⟨final, reached, ids⟩ := Option.map_eq_some_iff.mp ends
  obtain ⟨issued, carried⟩ := Prod.mk.inj ids
  refine ⟨final, reached, issued, carried, ?_⟩
  rintro ⟨ordered, _⟩
  rw [issued, carried] at ordered
  exact absurd ordered (by decide)

end Evlpc
