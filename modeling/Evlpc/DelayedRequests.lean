import Evlpc.DelayedResponseTest
import Evlpc.SessionAccess

/-!
# Where delayed requests go, and what they leave behind

`delayed_response_test` looks for the connection to the service monitor, gives up
if there is none or if it is closed, and then sends its requests. For each it makes
a session first. `uv_write` may refuse the request; the session stays.

The search keeps its candidate in a variable that is not initialised. A pointer is
NULL, or points to a connection, or is what the stack happened to hold.
-/

namespace Evlpc

open Library

universe u v
variable {δ : Type u} {κ : Type v}

section Refused

/-- A request of the test: its ids and what `uv_write` returned for it. -/
structure TestRequest where
  sid : UInt32
  r : UInt32
  rc : Int32
deriving DecidableEq, Repr

/-- The results of `uv_write` in a run, in order. -/
def writeResults : List TestEvent → List Int32
  | [] => []
  | .uvWrite rc :: events => rc :: writeResults events
  | _ :: events => writeResults events

/-- The requests of a run: the ids issued, with the results of their writes. -/
def testRequests (test : Test δ κ) (events : List TestEvent) : List TestRequest :=
  (test.issued.zip (writeResults events)).map fun request =>
    ⟨request.1.1, request.1.2, request.2⟩

/-- `uv_write` accepted the request. -/
def TestRequest.Accepted (request : TestRequest) : Prop := ¬ request.rc < 0

instance (request : TestRequest) : Decidable request.Accepted :=
  inferInstanceAs (Decidable (¬ _))

/-- The valid entries of the table are the slots of the used ids. -/
def SessionState.validEntry (state : SessionState δ κ) (sid : UInt32) :
    Option (ObSessionInfo δ κ) :=
  if sid ∈ state.usedList then state.obSessions[sid.toNat]? else none

/-- The slot holds the session that was made with the ids. -/
structure ObSessionInfo.MadeFor (slot : ObSessionInfo δ κ) (data : δ) (cb : κ) (sid r : UInt32) :
    Prop where
  obSid : slot.obSid = sid
  magic : slot.magic = r
  data : slot.data = some data
  cb : slot.cb = some cb

/-- Next to the sessions from before there is one of its own for each accepted request,
and no other; the ids of the refused ones are free, and replies to them are ignored. -/
structure LeavesNoSession (data : δ) (cb : κ) (before : SessionState δ κ)
    (requests : List TestRequest) (after : SessionState δ κ) : Prop where
  used : after.usedList.Perm (before.usedList ++
    (requests.filter (·.Accepted)).map TestRequest.sid)
  distinct : ((requests.filter (·.Accepted)).map TestRequest.sid).Nodup
  new : ∀ request ∈ requests, request.Accepted → request.sid ∉ before.usedList
  kept : ∀ sid ∈ before.usedList, after.validEntry sid = before.validEntry sid
  made : ∀ request ∈ requests, request.Accepted → ∃ slot,
    after.validEntry request.sid = some slot ∧ slot.MadeFor data cb request.sid request.r
  freed : ∀ request ∈ requests, ¬ request.Accepted → request.sid ∈ after.freeList
  refused : ∀ request ∈ requests, ¬ request.Accepted → ∀ stray,
    answerSession after request.sid request.r stray = .ok (none, after)

/-- Ids from a first one on, as `create_free_sids` counts them. -/
def newSids (first : UInt32) (count : Nat) : List UInt32 :=
  (List.range count).map fun offset => first + UInt32.ofNat offset

/-- The next ids in line: those of the free list, then new ones. -/
def upcomingSids (state : SessionState δ κ) (count : Nat) : List UInt32 :=
  (state.freeList ++ newSids state.currentMaxSid count).take count

/-- No ids are in line for no sessions. -/
theorem upcomingSids_none (state : SessionState δ κ) : upcomingSids state 0 = [] := List.take_zero

/-- The next ids in line are different and none of them is used. -/
def TakesFreshSids (state : SessionState δ κ) (count : Nat) : Prop :=
  (upcomingSids (initSessions state) count).Nodup ∧
    ∀ sid ∈ upcomingSids (initSessions state) count, sid ∉ state.usedList

/-- Ids are counted on. -/
theorem newSids_add (first : UInt32) (count more : Nat) :
    newSids first (count + more) =
      newSids first count ++ newSids (first + UInt32.ofNat count) more := by
  rw [newSids, List.range_add, List.map_append, List.map_map]
  congr 1
  apply List.map_congr_left
  intro offset _
  rw [Function.comp_apply, UInt32.ofNat_add, UInt32.add_assoc]

/-- New ids beyond the ones asked for are not taken. -/
theorem take_newSids (free : List UInt32) (first : UInt32) (count more : Nat) :
    (free ++ newSids first (count + more)).take count =
      (free ++ newSids first count).take count := by
  have length : (newSids first count).length = count := by
    rw [newSids, List.length_map, List.length_range]
  rw [newSids_add, ← List.append_assoc, List.take_append_of_le_length]
  rw [List.length_append]
  omega

/-- A free list that has run out grows by ten ids. -/
theorem createFreeSids_next (state : SessionState δ κ) (empty : state.freeList = [])
    (grows : (state.currentMaxSid + 10).toNat = state.currentMaxSid.toNat + 10) :
    (createFreeSids state).freeList = newSids state.currentMaxSid 10 := by
  have ten : (state.currentMaxSid + 10).toNat - state.currentMaxSid.toNat = 10 := by omega
  rw [createFreeSids, empty, List.nil_append, sidRange, ten, newSids]

/-- Ten more free ids do not change the ids in line. -/
theorem createFreeSids_upcoming (state : SessionState δ κ) (empty : state.freeList = [])
    (grows : (state.currentMaxSid + 10).toNat = state.currentMaxSid.toNat + 10) (count : Nat) :
    upcomingSids (createFreeSids state) count = upcomingSids state count := by
  have onward := take_newSids [] state.currentMaxSid count 10
  rw [Nat.add_comm, newSids_add, List.nil_append, List.nil_append] at onward
  rw [upcomingSids, upcomingSids, createFreeSids_next state empty grows, empty, List.nil_append,
    ← onward]
  rfl

/-- The id that is found is the next in line, and becomes used. -/
theorem findFreeSid_upcoming (state found : SessionState δ κ) (sid : UInt32)
    (free : findFreeSid state = .ok (sid, found)) :
    (∀ count, upcomingSids state (count + 1) = sid :: upcomingSids found count) ∧
      found.usedList = state.usedList ++ [sid] := by
  obtain ⟨grown, rest, list, rfl, source⟩ := findFreeSid_cases state found sid free
  have same : (∀ count, upcomingSids grown count = upcomingSids state count) ∧
      grown.usedList = state.usedList := by
    rcases source with rfl | ⟨rfl, empty, grows⟩
    · exact ⟨fun _ => rfl, rfl⟩
    · exact ⟨createFreeSids_upcoming state empty grows, rfl⟩
  refine ⟨?_, congrArg (· ++ [sid]) same.2⟩
  intro count
  rw [← same.1, upcomingSids, list, List.cons_append, List.take_succ_cons, take_newSids]
  rfl

/-- The session is stored in its slot. -/
def SessionState.store (state : SessionState δ κ) (sid : UInt32) (slot : ObSessionInfo δ κ) :
    SessionState δ κ :=
  { state with obSessions := state.obSessions.set sid.toNat slot }

/-- A used id leads to the session that was stored at it. -/
theorem store_self (state : SessionState δ κ) (sid : UInt32) (slot : ObSessionInfo δ κ)
    (used : sid ∈ state.usedList) (below : sid.toNat < state.obSessions.length) :
    (state.store sid slot).validEntry sid = some slot := by
  rw [SessionState.validEntry, SessionState.store, if_pos used, List.getElem?_set_self below]

/-- At any other id nothing has changed. -/
theorem store_other (state : SessionState δ κ) (sid : UInt32) (slot : ObSessionInfo δ κ)
    (other : UInt32) (different : other ≠ sid) :
    (state.store sid slot).validEntry other = state.validEntry other := by
  rw [SessionState.validEntry, SessionState.store, List.getElem?_set_ne (index_ne different),
    SessionState.validEntry]

/-- A process that has made no session uses no id. -/
def Untouched (state : SessionState δ κ) : Prop := state.inited = false → state.usedList = []

/-- `init_sessions` has been called from then on. -/
theorem initSessions_inited (state : SessionState δ κ) : (initSessions state).inited = true := by
  unfold initSessions
  split
  · assumption
  · rfl

/-- An untouched state has no used ids to lose. -/
theorem initSessions_used (state : SessionState δ κ) (untouched : Untouched state) :
    (initSessions state).usedList = state.usedList := by
  unfold initSessions
  split
  · rfl
  · rename_i notInited
    exact (untouched (Bool.eq_false_iff.mpr notInited)).symm

/-- An untouched state has no sessions to lose. -/
theorem initSessions_validEntry (state : SessionState δ κ) (untouched : Untouched state)
    (sid : UInt32) : (initSessions state).validEntry sid = state.validEntry sid := by
  cases inited : state.inited with
  | true =>
    have same : initSessions state = state := if_pos inited
    rw [same]
  | false =>
    have none := untouched inited
    have noneReady := (initSessions_used state untouched).trans none
    rw [SessionState.validEntry, SessionState.validEntry, none, noneReady,
      if_neg List.not_mem_nil, if_neg List.not_mem_nil]

/-- A session stored under a new id changes no other entry. -/
theorem store_others (state found : SessionState δ κ) (untouched : Untouched state) (sid : UInt32)
    (free : findFreeSid (initSessions state) = .ok (sid, found)) (slot : ObSessionInfo δ κ)
    (other : UInt32) (different : other ≠ sid) :
    (found.store sid slot).validEntry other = state.validEntry other := by
  obtain ⟨-, table⟩ := findFreeSid_table _ found sid free
  obtain ⟨-, used⟩ := findFreeSid_upcoming _ found sid free
  have same : other ∈ found.usedList ↔ other ∈ (initSessions state).usedList := by
    simp [used, different]
  rw [store_other found sid slot other different, ← initSessions_validEntry state untouched,
    SessionState.validEntry, SessionState.validEntry, table]
  simp only [same]

/-- While the table agrees with its outstanding sessions, the ids in line are different
and unused, as many as the counter can count. -/
theorem consistent_takes_fresh (state : SessionState δ κ) (outstanding : List (ObSession δ κ))
    (consistent : Consistent state outstanding) (count : Nat)
    (counts : state.currentMaxSid.toNat + count < 4294967296) : TakesFreshSids state count := by
  have ready := (initSessions_consistent consistent).1
  have counter : (initSessions state).currentMaxSid = state.currentMaxSid := by
    unfold initSessions
    split <;> rfl
  have used : (initSessions state).usedList.Perm state.usedList :=
    ready.used.trans consistent.used.symm
  have created : sidRange 0 (UInt32.ofNat (state.currentMaxSid.toNat + count)) =
      sidRange 0 state.currentMaxSid ++ newSids state.currentMaxSid count := by
    have zero : (0 : UInt32).toNat = 0 := rfl
    have whole : sidRange 0 (UInt32.ofNat (state.currentMaxSid.toNat + count)) =
        newSids 0 (state.currentMaxSid.toNat + count) := by
      rw [sidRange, UInt32.toNat_ofNat_of_lt' counts, zero, Nat.sub_zero, newSids]
    rw [whole, newSids_add, UInt32.ofNat_toNat, UInt32.zero_add]
    rfl
  have pool : ((initSessions state).freeList ++ (initSessions state).usedList).Perm
      (sidRange 0 state.currentMaxSid) := counter ▸ ready.pool
  have line : ((initSessions state).freeList ++ newSids (initSessions state).currentMaxSid count ++
      (initSessions state).usedList).Nodup := by
    have moved : ((initSessions state).freeList ++ newSids state.currentMaxSid count ++
        (initSessions state).usedList).Perm ((initSessions state).freeList ++
          (initSessions state).usedList ++ newSids state.currentMaxSid count) := by
      rw [List.append_assoc, List.append_assoc]
      exact List.Perm.append_left _ List.perm_append_comm
    rw [counter]
    refine (moved.trans (List.Perm.append_right _ pool)).nodup_iff.mpr ?_
    rw [← created]
    exact sidRange_nodup _
  obtain ⟨distinct, -, apart⟩ := List.nodup_append.mp line
  refine ⟨List.Sublist.nodup (List.take_sublist _ _) distinct, ?_⟩
  intro sid member isUsed
  exact apart sid (List.mem_of_mem_take member) sid (used.mem_iff.mpr isUsed) rfl

/-- Whatever happened before, replies included, only made sessions use ids. -/
theorem reached_untouched (events : List (SessionEvent δ κ)) (ledger : Ledger δ κ)
    (reached : ledgerMachine.run Ledger.start events = some ledger) :
    Untouched ledger.sessions := by
  have kept := ledgerMachine.run_invariant
    (fun ledger : Ledger δ κ => Sized ledger.sessions ∧ Untouched ledger.sessions) ?_
    Ledger.start ledger events ⟨rfl, fun _ => rfl⟩ reached
  · exact kept.2
  intro ledger event next holds moved
  obtain ⟨sizedNext, initedNext⟩ := ledgerMachine_sized ledger next event holds.1 moved
  refine ⟨sizedNext, ?_⟩
  intro notInited
  have before : ledger.sessions.inited = false := by
    rw [← Bool.not_eq_true]
    intro inited
    rw [initedNext.mpr (Or.inl inited)] at notInited
    cases notInited
  cases event with
  | make data magic cb currentTimeSec =>
    rw [initedNext.mpr (Or.inr trivial)] at notInited
    cases notInited
  | reply sid magic stray =>
    have outside : ledger.sessions.obSessions.length ≤ sid.toNat := by
      rw [holds.1, before]
      exact Nat.zero_le _
    cases answered : answerSession ledger.sessions sid magic stray with
    | error fault => simp [ledgerMachine, Ledger.step, answered] at moved
    | ok result =>
      obtain ⟨called, sessions⟩ := result
      obtain ⟨rfl, rfl⟩ := answerSession_outside sid magic stray outside called sessions answered
      simp only [ledgerMachine, Ledger.step, answered, Option.some.injEq] at moved
      subst moved
      exact holds.2 before

variable (protobuf : Protobuf) (data : δ) (cb : κ)

/-- What is known of the sessions while the test issues ids. -/
structure Issuing (start sessions : SessionState δ κ) (issued : List (UInt32 × UInt32)) :
    Prop where
  untouched : Untouched sessions
  used : sessions.usedList = start.usedList ++ issued.map Prod.fst
  upcoming : ∀ count, upcomingSids (initSessions start) (issued.length + count) =
    issued.map Prod.fst ++ upcomingSids (initSessions sessions) count
  kept : ∀ sid ∉ issued.map Prod.fst, sessions.validEntry sid = start.validEntry sid
  made : (issued.map Prod.fst).Nodup → ∀ ids ∈ issued, ∃ slot,
    sessions.validEntry ids.1 = some slot ∧ slot.MadeFor data cb ids.1 ids.2

/-- When the function begins, it has issued no ids. -/
theorem start_issuing (start : SessionState δ κ) (untouched : Untouched start) :
    Issuing data cb start start [] where
  untouched := untouched
  used := (List.append_nil _).symm
  upcoming count := by
    rw [List.length_nil, Nat.zero_add]
    rfl
  kept _ _ := rfl
  made _ _ member := absurd member List.not_mem_nil

/-- A session that is made gets the next id in line, and its slot. -/
theorem made_issuing (start sessions next : SessionState δ κ) (issued : List (UInt32 × UInt32))
    (issuing : Issuing data cb start sessions issued) (r currentTimeSec sid : UInt32)
    (made : makeNewSession sessions data r cb currentTimeSec = .ok (sid, next)) :
    Issuing data cb start next (issued ++ [(sid, r)]) := by
  obtain ⟨found, free, below, stored⟩ := makeNewSession_cases sessions next data r cb
    currentTimeSec sid made
  change next = found.store sid _ at stored
  subst stored
  obtain ⟨inited, -⟩ := findFreeSid_table _ found sid free
  obtain ⟨taken, used⟩ := findFreeSid_upcoming _ found sid free
  have initedNow : found.inited = true := inited.trans (initSessions_inited sessions)
  rw [initSessions_used sessions issuing.untouched] at used
  have issuedIds : (issued ++ [(sid, r)]).map Prod.fst = issued.map Prod.fst ++ [sid] := by
    rw [List.map_append]
    rfl
  have isUsed : sid ∈ found.usedList := by
    rw [used]
    exact List.mem_append_right _ (List.mem_singleton_self sid)
  have others := store_others sessions found issuing.untouched sid free
  refine ⟨?_, ?_, ?_, ?_, ?_⟩
  · intro notInited
    exact absurd (initedNow.symm.trans notInited) (by decide)
  · change found.usedList = _
    rw [used, issuing.used, issuedIds, List.append_assoc]
  · intro count
    have ready (slot : ObSessionInfo δ κ) :
        initSessions (found.store sid slot) = found.store sid slot := if_pos initedNow
    have sum : (issued ++ [(sid, r)]).length + count = issued.length + (count + 1) := by
      rw [List.length_append, List.length_singleton]
      omega
    rw [sum, issuing.upcoming, taken, issuedIds, ready, List.append_assoc]
    rfl
  · intro other notIssued
    rw [issuedIds, List.mem_append, List.mem_singleton, not_or] at notIssued
    rw [others _ other notIssued.2]
    exact issuing.kept other notIssued.1
  · rw [issuedIds]
    intro distinct ids member
    obtain ⟨before, -, apart⟩ := List.nodup_append.mp distinct
    rcases List.mem_append.mp member with earlier | last
    · have different : ids.1 ≠ sid :=
        apart ids.1 (List.mem_map_of_mem earlier) sid (List.mem_singleton_self sid)
      rw [others _ ids.1 different]
      exact issuing.made before ids earlier
    · obtain rfl := List.mem_singleton.mp last
      exact ⟨_, store_self found sid _ isUsed below, rfl, rfl, rfl, rfl⟩

/-- Only the step that makes a session touches the sessions. -/
theorem step_issuing (start : SessionState δ κ) (test next : Test δ κ) (event : TestEvent)
    (issuing : Issuing data cb start test.sessions test.issued)
    (moves : test.Moves protobuf data cb event next) :
    Issuing data cb start next.sessions next.issued := by
  cases moves with
  | sessionMade r currentTimeSec sid sessions progress made =>
    exact made_issuing data cb start test.sessions sessions test.issued issuing r currentTimeSec
      sid made
  | sessionIdSet sid r progress => exact issuing
  | randomIdSet sid r progress => exact issuing
  | msgMade delay sid r progress => exact issuing
  | handedOver rc sid r progress => exact issuing
  | returned progress => exact issuing
  | transmitted stack length later queue => exact issuing

/-- A step issues an id that is pending until the result of its write. -/
theorem step_counted (test next : Test δ κ) (event : TestEvent)
    (moves : test.Moves protobuf data cb event next) :
    next.issued.length + test.progress.pending.length =
      test.issued.length + next.progress.pending.length + (writeResults [event]).length := by
  cases moves with
  | sessionMade r currentTimeSec sid sessions progress made =>
    simp only [progress, Progress.pending, writeResults, List.length_append, List.length_nil,
      List.length_singleton]
  | sessionIdSet sid r progress => simp [progress, Progress.pending, writeResults]
  | randomIdSet sid r progress => simp [progress, Progress.pending, writeResults]
  | msgMade delay sid r progress => simp [progress, Progress.pending, writeResults]
  | handedOver rc sid r progress => simp [progress, Progress.pending, writeResults]
  | returned progress => simp [progress, Progress.pending, writeResults]
  | transmitted stack length later queue => simp [writeResults]

/-- The results of the writes are those of the first statement and of the others. -/
theorem writeResults_cons (event : TestEvent) (events : List TestEvent) :
    writeResults (event :: events) = writeResults [event] ++ writeResults events := by
  cases event <;> rfl

/-- In a run every id issued has the result of its write, or is pending. -/
theorem run_counted (test final : Test δ κ) (events : List TestEvent)
    (ran : (testMachine protobuf data cb).run test events = some final) :
    final.issued.length + test.progress.pending.length =
      test.issued.length + final.progress.pending.length + (writeResults events).length := by
  induction events generalizing test with
  | nil =>
    obtain rfl := Option.some.inj ran
    rfl
  | cons event events inductionHypothesis =>
    obtain ⟨next, moved, rest⟩ := ((testMachine protobuf data cb).run_cons_some).mp ran
    have first := step_counted protobuf data cb test next event
      (step_test_moves protobuf data cb test next event moved)
    have later := inductionHypothesis next rest
    rw [writeResults_cons, List.length_append]
    omega

/-- When the function returns, each id issued has the result of its write. -/
theorem returned_counted (sessions : SessionState δ κ) (memory : PbMsg) (final : Test δ κ)
    (events : List TestEvent)
    (ran : (testMachine protobuf data cb).run (Test.start sessions memory) events = some final)
    (returned : final.progress = .returned) :
    final.issued.length = (writeResults events).length := by
  have counted := run_counted protobuf data cb _ final events ran
  rw [returned] at counted
  simp only [Test.start, Progress.pending, List.length_nil] at counted
  omega

/-- The requests have the ids that were issued. -/
theorem returned_ids (sessions : SessionState δ κ) (memory : PbMsg) (final : Test δ κ)
    (events : List TestEvent)
    (ran : (testMachine protobuf data cb).run (Test.start sessions memory) events = some final)
    (returned : final.progress = .returned) :
    (testRequests final events).map (fun request => (request.sid, request.r)) = final.issued := by
  have counted := returned_counted protobuf data cb sessions memory final events ran returned
  have first := List.map_fst_zip (Nat.le_of_eq counted)
  rw [testRequests, List.map_map]
  exact first

/-- The requests have the results of the writes. -/
theorem returned_results (sessions : SessionState δ κ) (memory : PbMsg) (final : Test δ κ)
    (events : List TestEvent)
    (ran : (testMachine protobuf data cb).run (Test.start sessions memory) events = some final)
    (returned : final.progress = .returned) :
    (testRequests final events).map TestRequest.rc = writeResults events := by
  have counted := returned_counted protobuf data cb sessions memory final events ran returned
  have second := List.map_snd_zip (Nat.le_of_eq counted.symm)
  rw [testRequests, List.map_map]
  exact second

/-- Ids of accepted requests are added one by one, so no request was refused if the used
ids are those of the accepted ones. -/
theorem all_accepted (used : List UInt32) (requests : List TestRequest)
    (same : (used ++ requests.map TestRequest.sid).Perm
      (used ++ (requests.filter (·.Accepted)).map TestRequest.sid)) :
    ∀ request ∈ requests, request.Accepted := by
  have lengths := same.length_eq
  rw [List.length_append, List.length_append, List.length_map, List.length_map,
    Nat.add_left_cancel_iff] at lengths
  intro request member
  exact of_decide_eq_true (List.length_filter_eq_length_iff.mp lengths.symm request member)

/-- If all requests were accepted and their ids are new, each has a session of its own. -/
theorem leaves_accepted (start sessions : SessionState δ κ) (issued : List (UInt32 × UInt32))
    (issuing : Issuing data cb start sessions issued) (requests : List TestRequest)
    (ids : requests.map (fun request => (request.sid, request.r)) = issued)
    (accepted : ∀ request ∈ requests, request.Accepted)
    (distinct : (requests.map TestRequest.sid).Nodup)
    (new : ∀ sid ∈ requests.map TestRequest.sid, sid ∉ start.usedList) :
    LeavesNoSession data cb start requests sessions := by
  have whole : requests.filter (·.Accepted) = requests :=
    List.filter_eq_self.mpr fun request member => decide_eq_true (accepted request member)
  have sids : issued.map Prod.fst = requests.map TestRequest.sid := by
    rw [← ids, List.map_map]
    rfl
  refine ⟨?_, ?_, ?_, ?_, ?_, ?_, ?_⟩
  · rw [whole, issuing.used, sids]
  · rw [whole]
    exact distinct
  · intro request member _
    exact new request.sid (List.mem_map_of_mem member)
  · intro sid isUsed
    exact issuing.kept sid fun isIssued => new sid (sids ▸ isIssued) isUsed
  · intro request member _
    have isIssued : (request.sid, request.r) ∈ issued := by
      rw [← ids]
      exact List.mem_map_of_mem (f := fun request => (request.sid, request.r)) member
    exact issuing.made (sids ▸ distinct) (request.sid, request.r) isIssued
  · intro request member refused
    exact absurd (accepted request member) refused
  · intro request member refused
    exact absurd (accepted request member) refused

/-- Whatever sessions were made and whatever replies arrived before, and whatever happens
while the function runs: when it returns there is a session for each accepted request and
none for the others if and only if every write was accepted and the ids that were in line
for the requests were different and unused. -/
theorem failed_writes_leave_iff (before : List (SessionEvent δ κ)) (ledger : Ledger δ κ)
    (reached : ledgerMachine.run Ledger.start before = some ledger) (data : Nat × δ)
    (memory : PbMsg) (events : List TestEvent) (final : Test (Nat × δ) κ)
    (ran : (testMachine protobuf data cb).run (Test.start ledger.sessions memory) events =
      some final)
    (returned : final.progress = .returned) :
    LeavesNoSession data cb ledger.sessions (testRequests final events) final.sessions ↔
      (∀ rc ∈ writeResults events, ¬ rc < 0) ∧
        TakesFreshSids ledger.sessions (writeResults events).length := by
  have issuing := (testMachine protobuf data cb).run_invariant
    (fun test => Issuing data cb ledger.sessions test.sessions test.issued)
    (fun test event next holds moved => step_issuing protobuf data cb ledger.sessions test next
      event holds (step_test_moves protobuf data cb test next event moved))
    (Test.start ledger.sessions memory) final events
    (start_issuing data cb ledger.sessions (reached_untouched before ledger reached)) ran
  have results := returned_results protobuf data cb ledger.sessions memory final events ran returned
  have ids := returned_ids protobuf data cb ledger.sessions memory final events ran returned
  have counted := returned_counted protobuf data cb ledger.sessions memory final events ran returned
  have sids : final.issued.map Prod.fst = (testRequests final events).map TestRequest.sid := by
    rw [← ids, List.map_map]
    rfl
  have inLine : upcomingSids (initSessions ledger.sessions) (writeResults events).length =
      (testRequests final events).map TestRequest.sid := by
    have all := issuing.upcoming 0
    rw [Nat.add_zero, counted, sids, upcomingSids_none, List.append_nil] at all
    exact all
  rw [TakesFreshSids, inLine, ← results]
  constructor
  · intro leaves
    have used := issuing.used
    rw [sids] at used
    have accepted := all_accepted ledger.sessions.usedList (testRequests final events)
      (used ▸ leaves.used)
    have whole : (testRequests final events).filter (·.Accepted) = testRequests final events :=
      List.filter_eq_self.mpr fun request member => decide_eq_true (accepted request member)
    refine ⟨?_, whole ▸ leaves.distinct, ?_⟩
    · intro rc member
      obtain ⟨request, isRequest, rfl⟩ := List.mem_map.mp member
      exact accepted request isRequest
    · intro sid member
      obtain ⟨request, isRequest, rfl⟩ := List.mem_map.mp member
      exact leaves.new request isRequest (accepted request isRequest)
  · rintro ⟨written, distinct, new⟩
    have accepted : ∀ request ∈ testRequests final events, request.Accepted :=
      fun request member => written request.rc (List.mem_map_of_mem member)
    exact leaves_accepted data cb ledger.sessions final.sessions final.issued issuing
      (testRequests final events) ids accepted distinct new

/-- The statements of an iteration whose write has the given result. -/
def iterationWith (r : UInt32) (delay rc : Int32) : List TestEvent :=
  [.makeNewSession r 0, .setSessionId, .setRandomId, .makeMsg delay, .uvWrite rc]

/-- The three iterations of the function and its return. -/
def threeRequests (first second third : Int32) : List TestEvent :=
  iterationWith 5 1 first ++ iterationWith 6 2 second ++ iterationWith 7 3 third ++ [.returns]

/-- New sessions, before any request is made. -/
def freshSessions : SessionState (Nat × Unit) Unit := (Ledger.start : Ledger Unit Unit).sessions

/-- Whatever the second write gives, the function returns. -/
theorem threeRequests_returns (second : Int32) (isResult : second = 0 ∨ second = -1) :
    ∃ final, (testMachine WireCodec.protobuf (0, ()) ()).run
        (Test.start freshSessions zeroedPbMsg) (threeRequests 0 second 0) = some final ∧
      final.progress = .returned := by
  have ends : ((testMachine WireCodec.protobuf (0, ()) ()).run
      (Test.start freshSessions zeroedPbMsg) (threeRequests 0 second 0)).map Test.progress =
        some .returned := by
    rcases isResult with rfl | rfl <;> decide +kernel
  obtain ⟨final, ran, returned⟩ := Option.map_eq_some_iff.mp ends
  exact ⟨final, ran, returned⟩

/-- Three accepted writes leave the sessions as they should be, with new ids. Three of
which the second is refused do not. -/
theorem failed_writes_leave_none :
    (∃ final, (testMachine WireCodec.protobuf (0, ()) ()).run
        (Test.start freshSessions zeroedPbMsg) (threeRequests 0 0 0) = some final ∧
      LeavesNoSession (0, ()) () freshSessions (testRequests final (threeRequests 0 0 0))
        final.sessions ∧ TakesFreshSids freshSessions 3) ∧
    ∃ final, (testMachine WireCodec.protobuf (0, ()) ()).run
        (Test.start freshSessions zeroedPbMsg) (threeRequests 0 (-1) 0) = some final ∧
      ¬ LeavesNoSession (0, ()) () freshSessions (testRequests final (threeRequests 0 (-1) 0))
        final.sessions := by
  have inLine : upcomingSids (initSessions freshSessions) 3 = [0, 1, 2] := by decide +kernel
  have fresh : TakesFreshSids freshSessions 3 := by
    rw [TakesFreshSids, inLine]
    exact ⟨by decide, fun _ _ => List.not_mem_nil⟩
  have results (second : Int32) : writeResults (threeRequests 0 second 0) = [0, second, 0] := rfl
  have accepted : ∀ rc ∈ writeResults (threeRequests 0 0 0), ¬ rc < 0 := by
    rw [results]
    simp
  constructor
  · obtain ⟨final, ran, returned⟩ := threeRequests_returns 0 (Or.inl rfl)
    exact ⟨final, ran, (failed_writes_leave_iff WireCodec.protobuf () [] Ledger.start rfl (0, ())
      zeroedPbMsg _ final ran returned).mpr ⟨accepted, fresh⟩, fresh⟩
  · obtain ⟨final, ran, returned⟩ := threeRequests_returns (-1) (Or.inr rfl)
    refine ⟨final, ran, fun leaves => ?_⟩
    have written := ((failed_writes_leave_iff WireCodec.protobuf () [] Ledger.start rfl (0, ())
      zeroedPbMsg _ final ran returned).mp leaves).1
    rw [results] at written
    exact written (-1) (by simp) (by decide)

/-- The second of three writes fails. The id of its session stays in use. -/
theorem failed_write_leaks : ∃ final,
    (testMachine WireCodec.protobuf (0, ()) ()).run
      (Test.start (Ledger.start (δ := Unit) (κ := Unit)).sessions zeroedPbMsg)
      (threeRequests 0 (-1) 0) = some final ∧ final.progress = .returned ∧
    ¬ LeavesNoSession (0, ()) () (Ledger.start (δ := Unit) (κ := Unit)).sessions
      (testRequests final (threeRequests 0 (-1) 0)) final.sessions := by
  have ends : ((testMachine WireCodec.protobuf (0, ()) ()).run
      (Test.start (Ledger.start (δ := Unit) (κ := Unit)).sessions zeroedPbMsg)
      (threeRequests 0 (-1) 0)).map (fun test =>
        (test.progress, testRequests test (threeRequests 0 (-1) 0), test.sessions.freeList)) =
      some (.returned, [⟨0, 5, 0⟩, ⟨1, 6, -1⟩, ⟨2, 7, 0⟩], [3, 4, 5, 6, 7, 8, 9]) := by
    decide +kernel
  obtain ⟨final, ran, seen⟩ := Option.map_eq_some_iff.mp ends
  obtain ⟨returned, requests⟩ := Prod.mk.inj seen
  obtain ⟨requested, free⟩ := Prod.mk.inj requests
  refine ⟨final, ran, returned, ?_⟩
  intro leaves
  have freed := leaves.freed ⟨1, 6, -1⟩ (by rw [requested]; decide) (by decide)
  rw [free] at freed
  exact absurd freed (by decide)

end Refused

section Monitor

variable {η : Type u}

/-- A pointer: to an object, to nothing, or not initialised and none of these. -/
inductive Pointer (γ : Type u) where
  | null : Pointer γ
  | to (object : γ) : Pointer γ
  | stray : Pointer γ

/-- `app_server_connection_t`: the configured port and the handle. -/
structure AppServerConnection (η : Type u) where
  port : Int32
  handle : η

/-- The port of the service monitor. -/
def serviceMonitorPort : Int32 := 8124

/-- `get_service_monitor_connection` from its loop on, with the value that `c` has. -/
def getServiceMonitorConnection (c : Pointer (AppServerConnection η)) :
    List (AppServerConnection η) → Pointer (AppServerConnection η)
  | [] => c
  | connection :: connections =>
    if connection.port = serviceMonitorPort then .to connection
    else getServiceMonitorConnection (.to connection) connections

/-- What `delayed_response_test` has done when it returns. -/
structure TestResult (δ : Type u) (κ : Type v) where
  result : Int32
  sessions : SessionState δ κ
  writes : List δ

/-- `delayed_response_test`, with the statements of its loop and the transmissions
among them. `c` is what `get_service_monitor_connection` has in its variable at first,
and `uvIsActive` that of libuv. There is no result if the statements do not end with
the return, or if their effect is undefined. -/
def delayedResponseTest (protobuf : Protobuf) (onReplyToIdlingRequest : κ)
    (uvIsActive : η → Bool) (c : Pointer (AppServerConnection η))
    (gconnections : List (AppServerConnection η))
    (sessions : SessionState (AppServerConnection η) κ) (memory : PbMsg)
    (events : List TestEvent) : Option (TestResult (AppServerConnection η) κ) :=
  match getServiceMonitorConnection c gconnections with
  | .null => some ⟨-1, sessions, []⟩
  | .stray => none
  | .to connection =>
    if uvIsActive connection.handle then
      ((testMachine protobuf connection onReplyToIdlingRequest).run
        (Test.start sessions memory) events).bind fun test =>
          match test.progress with
          | .returned => some ⟨0, test.sessions, (writeResults events).map fun _ => connection⟩
          | _ => none
    else some ⟨-1, sessions, []⟩

/-- The search finds a connection to the service monitor if there is one; otherwise it
returns NULL, and the test returns -1 and makes no session and no write. -/
structure MonitorOnly (κ : Type v) (c : Pointer (AppServerConnection η))
    (gconnections : List (AppServerConnection η)) : Prop where
  found : (∃ connection ∈ gconnections, connection.port = serviceMonitorPort) →
    ∃ connection ∈ gconnections, connection.port = serviceMonitorPort ∧
      getServiceMonitorConnection c gconnections = .to connection
  absent : (∀ connection ∈ gconnections, connection.port ≠ serviceMonitorPort) →
    getServiceMonitorConnection c gconnections = .null ∧
      ∀ (protobuf : Protobuf) (onReplyToIdlingRequest : κ) (uvIsActive : η → Bool)
        (sessions : SessionState (AppServerConnection η) κ) (memory : PbMsg)
        (events : List TestEvent),
        delayedResponseTest protobuf onReplyToIdlingRequest uvIsActive c gconnections sessions
          memory events = some ⟨-1, sessions, []⟩

/-- A connection to the service monitor is found, wherever it stands. -/
theorem search_found (c : Pointer (AppServerConnection η))
    (gconnections : List (AppServerConnection η))
    (present : ∃ connection ∈ gconnections, connection.port = serviceMonitorPort) :
    ∃ connection ∈ gconnections, connection.port = serviceMonitorPort ∧
      getServiceMonitorConnection c gconnections = .to connection := by
  induction gconnections generalizing c with
  | nil =>
    obtain ⟨connection, member, -⟩ := present
    cases member
  | cons connection connections inductionHypothesis =>
    by_cases monitor : connection.port = serviceMonitorPort
    · exact ⟨connection, List.mem_cons_self, monitor, if_pos monitor⟩
    · have later : ∃ connection ∈ connections, connection.port = serviceMonitorPort := by
        obtain ⟨other, member, port⟩ := present
        rcases List.mem_cons.mp member with rfl | inLater
        · exact absurd port monitor
        · exact ⟨other, inLater, port⟩
      obtain ⟨other, member, port, returned⟩ := inductionHypothesis (.to connection) later
      refine ⟨other, List.mem_cons_of_mem connection member, port, ?_⟩
      rw [getServiceMonitorConnection, if_neg monitor]
      exact returned

/-- A search that finds no connection to the service monitor returns the last one it
has seen. -/
theorem search_exhausted (c : Pointer (AppServerConnection η))
    (gconnections : List (AppServerConnection η))
    (absent : ∀ connection ∈ gconnections, connection.port ≠ serviceMonitorPort) :
    getServiceMonitorConnection c gconnections =
      (gconnections.getLast?.map Pointer.to).getD c := by
  induction gconnections generalizing c with
  | nil => rfl
  | cons connection connections inductionHypothesis =>
    rw [getServiceMonitorConnection, if_neg (absent connection List.mem_cons_self),
      inductionHypothesis (.to connection)
        (fun other member => absent other (List.mem_cons_of_mem connection member)),
      List.getLast?_cons]
    cases connections.getLast? <;> rfl

/-- A test that is given NULL does nothing. -/
theorem delayedResponseTest_null (protobuf : Protobuf) (onReplyToIdlingRequest : κ)
    (uvIsActive : η → Bool) (c : Pointer (AppServerConnection η))
    (gconnections : List (AppServerConnection η))
    (null : getServiceMonitorConnection c gconnections = .null)
    (sessions : SessionState (AppServerConnection η) κ) (memory : PbMsg)
    (events : List TestEvent) :
    delayedResponseTest protobuf onReplyToIdlingRequest uvIsActive c gconnections sessions memory
      events = some ⟨-1, sessions, []⟩ := by
  rw [delayedResponseTest, null]

/-- The requests go to the service monitor only if and only if there is a connection
to it, or there is no connection at all and the variable of the search happens to be
NULL. -/
theorem monitor_only_iff (κ : Type v) (c : Pointer (AppServerConnection η))
    (gconnections : List (AppServerConnection η)) :
    MonitorOnly κ c gconnections ↔
      (∃ connection ∈ gconnections, connection.port = serviceMonitorPort) ∨
        (gconnections = [] ∧ c = .null) := by
  by_cases present : ∃ connection ∈ gconnections, connection.port = serviceMonitorPort
  · refine iff_of_true ⟨search_found c gconnections, ?_⟩ (Or.inl present)
    intro absent
    obtain ⟨connection, member, port⟩ := present
    exact absurd port (absent connection member)
  · have absent : ∀ connection ∈ gconnections, connection.port ≠ serviceMonitorPort :=
      fun connection member port => present ⟨connection, member, port⟩
    have exhausted := search_exhausted c gconnections absent
    constructor
    · intro monitorOnly
      have null := (monitorOnly.absent absent).1
      rw [exhausted] at null
      cases last : gconnections.getLast? with
      | none =>
        rw [last] at null
        exact Or.inr ⟨List.getLast?_eq_none_iff.mp last, null⟩
      | some connection =>
        rw [last] at null
        cases null
    · rintro (found | ⟨rfl, rfl⟩)
      · exact absurd found present
      · exact ⟨fun found => absurd found present, fun _ => ⟨rfl, fun protobuf callback active
          sessions memory events =>
            delayedResponseTest_null protobuf callback active _ _ rfl sessions memory events⟩⟩

/-- The only connection is to another port. It is returned in the place of NULL. -/
theorem other_port_returned :
    ¬ MonitorOnly Unit .null [(⟨7000, ()⟩ : AppServerConnection Unit)] := by
  intro monitorOnly
  have absent : ∀ connection ∈ [(⟨7000, ()⟩ : AppServerConnection Unit)],
      connection.port ≠ serviceMonitorPort := by
    intro connection member
    rw [List.mem_singleton.mp member]
    decide
  have null := (monitorOnly.absent absent).1
  cases null

end Monitor

end Evlpc
