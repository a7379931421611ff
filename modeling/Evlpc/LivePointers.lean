import Evlpc.ConfigAgent

/-!
# The pointers that the agent keeps

`cfgagent` hands pointers to its connections to the sessions and to the requests that it
writes, and the callback of a session gets its pointer back with the reply. Connections are
never taken off the list, so these pointers stay good for the whole life of the agent. The
one exception is a test before any connection is completed: the variable of its search is
not initialised, and has to be NULL by luck.
-/

namespace Evlpc

open Library

universe u v
variable {δ : Type u} {κ : Type v}

/-- What all slots of the table hold as callback and data. -/
def SessionState.Holding (Holds : Option κ → Option δ → Prop) (state : SessionState δ κ) : Prop :=
  ∀ slot ∈ state.obSessions, Holds slot.cb slot.data

section Contents

variable (Holds : Option κ → Option δ → Prop)

/-- A new session adds its own callback and data to what the table holds. -/
theorem makeNewSession_holding (state next : SessionState δ κ) (data : δ) (magic : UInt32)
    (cb : κ) (currentTimeSec sid : UInt32) (unused : Holds none none)
    (own : Holds (some cb) (some data)) (holding : state.Holding Holds)
    (made : makeNewSession state data magic cb currentTimeSec = .ok (sid, next)) :
    next.Holding Holds := by
  have ready : (initSessions state).Holding Holds := by
    rw [initSessions]
    split
    · exact holding
    · intro slot member
      rw [List.eq_of_mem_replicate member]
      exact unused
  obtain ⟨found, free, -, rfl⟩ := makeNewSession_cases state next data magic cb currentTimeSec sid
    made
  obtain ⟨-, table⟩ := findFreeSid_table _ found sid free
  intro slot member
  rcases List.mem_or_eq_of_mem_set member with before | rfl
  · exact ready slot (table ▸ before)
  · exact own

/-- A reply runs a callback with data that the table holds, and leaves them there. -/
theorem answerSession_holding (state next : SessionState δ κ) (sid magic : UInt32)
    (stray : Option UInt32) (called : Option (κ × Option δ)) (holding : state.Holding Holds)
    (answered : answerSession state sid magic stray = .ok (called, next)) :
    next.Holding Holds ∧ ∀ run ∈ called, Holds (some run.1) run.2 := by
  cases found : state.obSessions[sid.toNat]? with
  | none =>
    have outside := List.getElem?_eq_none_iff.mp found
    obtain ⟨rfl, rfl⟩ := answerSession_outside sid magic stray outside called next answered
    exact ⟨holding, fun run isRun => by cases isRun⟩
  | some slot =>
    have held := holding slot (List.mem_of_getElem? found)
    rw [answerSession, findStoredSession_slot sid magic stray slot found] at answered
    by_cases different : slot.magic ≠ magic
    · rw [if_pos different] at answered
      obtain ⟨rfl, rfl⟩ := Prod.mk.inj (Except.ok.inj answered)
      exact ⟨holding, fun run isRun => by cases isRun⟩
    · rw [if_neg different] at answered
      cases callback : slot.cb with
      | none =>
        simp only [callback] at answered
        cases answered
      | some cb =>
        simp only [callback] at answered
        obtain ⟨rfl, rfl⟩ := Prod.mk.inj (Except.ok.inj answered)
        constructor
        · intro other member
          rcases List.mem_or_eq_of_mem_set member with before | rfl
          · exact holding other before
          · exact callback ▸ held
        · intro run isRun
          obtain rfl := Option.some.inj isRun
          exact callback ▸ held

/-- The test only adds sessions for its own connection. -/
theorem test_holding (protobuf : Protobuf) (data : δ) (cb : κ) (unused : Holds none none)
    (own : Holds (some cb) (some data)) (test final : Test δ κ) (events : List TestEvent)
    (holding : test.sessions.Holding Holds)
    (reached : (testMachine protobuf data cb).run test events = some final) :
    final.sessions.Holding Holds := by
  refine (testMachine protobuf data cb).run_invariant
    (fun test => test.sessions.Holding Holds) ?_ test final events holding reached
  intro test event next holding moved
  cases step_test_moves protobuf data cb test next event moved with
  | sessionMade r currentTimeSec sid sessions progress made =>
    exact makeNewSession_holding Holds test.sessions sessions data r cb currentTimeSec sid unused
      own holding made
  | sessionIdSet sid r progress => exact holding
  | randomIdSet sid r progress => exact holding
  | msgMade delay sid r progress => exact holding
  | handedOver rc sid r progress => exact holding
  | returned progress => exact holding
  | transmitted stack length later queue => exact holding

end Contents

namespace ConfigAgent

variable {Address : Type}

/-- A slot is unused, or its data is one of the connections. -/
def Remembers (gconnections : List (AppServerConnection Nat)) (cb : Option κ)
    (data : Option (AppServerConnection Nat)) : Prop :=
  cb = none ∨ ∃ connection ∈ gconnections, data = some connection

/-- All sessions are for connections of the list, and all requests were written to them. -/
structure KeepsLive (agent : ConfigAgent Address κ) : Prop where
  sessions : agent.sessions.Holding (Remembers agent.gconnections)
  written : ∀ connection ∈ agent.written, connection ∈ agent.gconnections

/-- A test that finds no connection at all finds NULL in its variable. -/
def SearchesSafely (agent : ConfigAgent Address κ) : AgentEvent → Prop
  | .timer1 inputs => agent.timer1Listener = .myTimer1Listener2 → agent.gconnections = [] →
      inputs.c = .null
  | _ => True

deriving instance DecidableEq for Pointer

instance (agent : ConfigAgent Address κ) : (event : AgentEvent) →
    Decidable (agent.SearchesSafely event)
  | .timer1 _ => inferInstanceAs (Decidable (_ → _ → _))
  | .onClientConnect _ _ => inferInstanceAs (Decidable True)
  | .handleStdReply _ _ _ => inferInstanceAs (Decidable True)

/-- A reply runs no callback, or runs it with a connection of the list. -/
def RunsLive (agent : ConfigAgent Address κ) : AgentEvent → Prop
  | .handleStdReply sid magic stray => ∀ called next,
      answerSession agent.sessions sid magic stray = .ok (some called, next) →
      ∃ connection ∈ agent.gconnections, called.2 = some connection
  | _ => True

/-- The search finds a connection of the list, or what it had in its variable. -/
theorem search_member {η : Type u} (c : Pointer (AppServerConnection η))
    (gconnections : List (AppServerConnection η)) (found : AppServerConnection η)
    (safe : gconnections = [] → c = .null)
    (searched : getServiceMonitorConnection c gconnections = .to found) :
    found ∈ gconnections := by
  by_cases present : ∃ connection ∈ gconnections, connection.port = serviceMonitorPort
  · obtain ⟨connection, member, -, returned⟩ := search_found c gconnections present
    rw [searched] at returned
    exact Pointer.to.inj returned ▸ member
  · have exhausted := search_exhausted c gconnections
      fun connection member port => present ⟨connection, member, port⟩
    rw [searched] at exhausted
    cases last : gconnections.getLast? with
    | none =>
      rw [last, safe (List.getLast?_eq_none_iff.mp last)] at exhausted
      cases exhausted
    | some connection =>
      rw [last] at exhausted
      exact Pointer.to.inj exhausted ▸ List.mem_of_getLast? last

variable (uvIp4Addr : List UInt8 → Int32 → Address) (protobuf : Protobuf)
  (onReplyToIdlingRequest : κ)

/-- More connections leave the sessions with connections of the list. -/
theorem holding_longer (sessions : SessionState (AppServerConnection Nat) κ)
    (gconnections more : List (AppServerConnection Nat))
    (holding : sessions.Holding (Remembers gconnections)) :
    sessions.Holding (Remembers (gconnections ++ more)) := by
  intro slot member
  rcases holding slot member with unused | ⟨connection, known, data⟩
  · exact Or.inl unused
  · exact Or.inr ⟨connection, List.mem_append_left more known, data⟩

/-- No event makes a pointer of the agent stale. -/
theorem step_keepsLive (agent next : ConfigAgent Address κ) (event : AgentEvent)
    (live : agent.KeepsLive) (safe : agent.SearchesSafely event)
    (moved : agent.step uvIp4Addr protobuf onReplyToIdlingRequest event = some next) :
    next.KeepsLive := by
  cases event with
  | timer1 inputs =>
    rw [step] at moved
    cases listener : agent.timer1Listener with
    | myTimer1Listener =>
      rw [listener] at moved
      obtain ⟨requests, -, rfl⟩ := Option.map_eq_some_iff.mp moved
      exact ⟨live.sessions, live.written⟩
    | myTimer1Listener2 =>
      rw [listener] at moved
      obtain ⟨test, tested, rfl⟩ := Option.map_eq_some_iff.mp moved
      rcases delayedResponseTest_cases protobuf onReplyToIdlingRequest inputs.uvIsActive inputs.c
        agent.gconnections agent.sessions inputs.memory inputs.events test tested with
        ⟨sessions, writes⟩ | ⟨found, ended, searched, ran, sessions, count, writes⟩
      · refine ⟨?_, ?_⟩
        · exact sessions ▸ live.sessions
        · rw [writes, List.append_nil]
          exact live.written
      · have member := search_member inputs.c agent.gconnections found (safe listener) searched
        refine ⟨?_, ?_⟩
        · have kept := test_holding (Remembers agent.gconnections) protobuf found
            onReplyToIdlingRequest (Or.inl rfl) (Or.inr ⟨found, member, rfl⟩)
            (Test.start agent.sessions inputs.memory) ended inputs.events live.sessions ran
          exact sessions ▸ kept
        · intro connection written
          rcases List.mem_append.mp written with before | new
          · exact live.written connection before
          · rw [writes] at new
            exact List.eq_of_mem_replicate new ▸ member
  | onClientConnect index status =>
    obtain ⟨request, -, rfl⟩ := Option.map_eq_some_iff.mp moved
    split
    · exact ⟨live.sessions, live.written⟩
    · exact ⟨holding_longer agent.sessions agent.gconnections _ live.sessions,
        fun connection written => List.mem_append_left _ (live.written connection written)⟩
  | handleStdReply sid magic stray =>
    cases answered : answerSession agent.sessions sid magic stray with
    | error fault =>
      rw [step, answered] at moved
      cases moved
    | ok result =>
      rw [step, answered] at moved
      obtain rfl := Option.some.inj moved
      have kept := answerSession_holding (Remembers agent.gconnections) agent.sessions result.2 sid
        magic stray result.1 live.sessions answered
      exact ⟨kept.1, live.written⟩

/-- Sessions for connections of the list run their callbacks with these. -/
theorem keepsLive_runs (agent : ConfigAgent Address κ) (live : agent.KeepsLive)
    (event : AgentEvent) : agent.RunsLive event := by
  cases event with
  | timer1 inputs => trivial
  | onClientConnect index status => trivial
  | handleStdReply sid magic stray =>
    intro called next answered
    have held := (answerSession_holding (Remembers agent.gconnections) agent.sessions next sid magic
      stray (some called) live.sessions answered).2 called rfl
    rcases held with unused | known
    · cases unused
    · exact known

/-- As long as no test starts its search in vain with a stray pointer, every callback that a
reply runs gets a connection of the list, and every request was written to one. -/
theorem pointers_stay_live (config : Configuration) (events : List AgentEvent)
    (safe : (machine uvIp4Addr protobuf onReplyToIdlingRequest).Along SearchesSafely
      (start config) events) :
    (machine uvIp4Addr protobuf onReplyToIdlingRequest).Along RunsLive (start config) events ∧
      ∀ final, (machine uvIp4Addr protobuf onReplyToIdlingRequest).run (start config) events =
        some final → ∀ connection ∈ final.written, connection ∈ final.gconnections := by
  have initial : (start config : ConfigAgent Address κ).KeepsLive :=
    ⟨List.forall_mem_nil _, List.forall_mem_nil _⟩
  have preserved : ∀ agent event next, agent.KeepsLive → agent.SearchesSafely event →
      (machine uvIp4Addr protobuf onReplyToIdlingRequest).step agent event = some next →
      next.KeepsLive :=
    fun agent event next live safe moved =>
      step_keepsLive uvIp4Addr protobuf onReplyToIdlingRequest agent next event live safe moved
  constructor
  · exact (machine uvIp4Addr protobuf onReplyToIdlingRequest).along_of_guard KeepsLive
      SearchesSafely RunsLive (fun agent event live _ => keepsLive_runs agent live event) preserved
      (start config) events initial safe
  · intro final reached
    exact ((machine uvIp4Addr protobuf onReplyToIdlingRequest).guarded_invariant KeepsLive
      SearchesSafely preserved (start config) final events initial safe reached).written

/-- A request is written to the first connection and answered when there are two. -/
theorem pointers_stay_live_answered :
    (machine Prod.mk WireCodec.protobuf ()).Along RunsLive
        (start twoPorts : ConfigAgent (List UInt8 × Int32) Unit)
        (otherFirst ++ [.handleStdReply 0 5 none]) ∧
      ∃ final : ConfigAgent (List UInt8 × Int32) Unit,
        (machine Prod.mk WireCodec.protobuf ()).run (start twoPorts)
            (otherFirst ++ [.handleStdReply 0 5 none]) = some final ∧
          final.sessions.usedList = [] ∧
          ∀ connection ∈ final.written, connection ∈ final.gconnections := by
  have safe : (machine Prod.mk WireCodec.protobuf ()).Along SearchesSafely
      (start twoPorts : ConfigAgent (List UInt8 × Int32) Unit)
      (otherFirst ++ [.handleStdReply 0 5 none]) := by
    decide +kernel
  have ran : ((machine Prod.mk WireCodec.protobuf ()).run
      (start twoPorts : ConfigAgent (List UInt8 × Int32) Unit)
      (otherFirst ++ [.handleStdReply 0 5 none])).map (fun final => final.sessions.usedList) =
        some [] := by
    decide +kernel
  obtain ⟨final, reached, used⟩ := Option.map_eq_some_iff.mp ran
  obtain ⟨runs, written⟩ := pointers_stay_live Prod.mk WireCodec.protobuf () twoPorts
    (otherFirst ++ [.handleStdReply 0 5 none]) safe
  exact ⟨runs, final, reached, used, written final reached⟩

end ConfigAgent

end Evlpc
