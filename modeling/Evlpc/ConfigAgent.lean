import Evlpc.ConfigFiles
import Evlpc.DelayedRequests
import Evlpc.Library.Pool

/-!
# The configuration agent

`cfgagent` reads its file and then acts on its timer. The first time it asks for a connection
to every port of the file and points the timer to another function, which from then on sends
requests again and again. Connections are completed or refused in any order meanwhile; those
that are completed are kept in a list for ever, also when they are closed.

The requests for connections and their handles are numbered. At any time the numbers of the
connections, of the requests under way and of the refused ones are those of the ports of the
file, each once. Which connection the test requests are written to depends on the order in
which the connections are completed, until there is one to the port of the service monitor.
-/

namespace Evlpc

open Library CStrings

universe u v
variable {Address : Type} {κ : Type u}

deriving instance DecidableEq for AppServerConnection

/-- The functions that `timer1Listener` of the event loop points to. -/
inductive Timer1Listener where
  | myTimer1Listener
  | myTimer1Listener2
deriving DecidableEq

/-- A request for a connection under way: its copy of the configured port, the address, and
the number of its handle. -/
structure ConnectReq (Address : Type) where
  appServerPort : List UInt8
  reqAddr : Address
  client : Nat

/-- What `cfgagent` works with: the configuration, the function and the delay of the timer,
how many connections it has asked for, the requests under way and the refused ones, the
list of connections, the sessions, and the connections of the requests that it wrote. -/
structure ConfigAgent (Address : Type) (κ : Type u) where
  config : Configuration
  timer1Listener : Timer1Listener
  delay : Nat
  asked : Nat
  connectReqs : List (ConnectReq Address)
  refused : List Nat
  gconnections : List (AppServerConnection Nat)
  sessions : SessionState (AppServerConnection Nat) κ
  written : List (AppServerConnection Nat)

/-- What `delayed_response_test` finds when it is called: the variable of the search, which
connections are active, the memory of its request, and what happens in its loop. -/
structure TestInputs where
  c : Pointer (AppServerConnection Nat)
  uvIsActive : Nat → Bool
  memory : PbMsg
  events : List TestEvent

/-- The timer fires, a request for a connection is completed with a status, or a reply to a
request comes in. -/
inductive AgentEvent where
  | timer1 (inputs : TestInputs)
  | onClientConnect (index : Nat) (status : Int32)
  | handleStdReply (sid magic : UInt32) (stray : Option UInt32)

/-- The requests of `start_all_client_connections`, with the number of the first one. -/
def connectReqsFrom (uvIp4Addr : List UInt8 → Int32 → Address) (client : Nat) :
    List (List UInt8) → Option (List (ConnectReq Address))
  | [] => some []
  | appServerPort :: later => do
    let host ← recordHost appServerPort
    let requests ← connectReqsFrom uvIp4Addr (client + 1) later
    some (⟨appServerPort, uvIp4Addr host (recordPort appServerPort), client⟩ :: requests)

/-- A request for a connection is for the configured port of its number. -/
def ConnectReq.IsFor (uvIp4Addr : List UInt8 → Int32 → Address) (ports : List PortSetting)
    (request : ConnectReq Address) : Prop :=
  ∃ setting host, ports[request.client]? = some setting ∧
    request.appServerPort = setting.record ∧ recordHost setting.record = some host ∧
    request.reqAddr = uvIp4Addr host setting.port

namespace ConfigAgent

/-- The agent when `main` starts the event loop. -/
def start (config : Configuration) : ConfigAgent Address κ where
  config := config
  timer1Listener := .myTimer1Listener
  delay := 1000
  asked := 0
  connectReqs := []
  refused := []
  gconnections := []
  sessions := SessionState.start
  written := []

variable (uvIp4Addr : List UInt8 → Int32 → Address) (protobuf : Protobuf)
  (onReplyToIdlingRequest : κ)

/-- `myTimer1Listener` and `myTimer1Listener2`, which arm the timer again,
`on_client_connect`, and `handle_std_reply`. -/
def step (agent : ConfigAgent Address κ) : AgentEvent → Option (ConfigAgent Address κ)
  | .timer1 inputs =>
    match agent.timer1Listener with
    | .myTimer1Listener =>
      (connectReqsFrom uvIp4Addr agent.asked agent.config.appServerPorts).map fun requests =>
        { agent with
          timer1Listener := .myTimer1Listener2
          delay := 3000
          asked := agent.asked + requests.length
          connectReqs := agent.connectReqs ++ requests }
    | .myTimer1Listener2 =>
      (delayedResponseTest protobuf onReplyToIdlingRequest inputs.uvIsActive inputs.c
        agent.gconnections agent.sessions inputs.memory inputs.events).map fun test =>
          { agent with
            delay := 30000
            sessions := test.sessions
            written := agent.written ++ test.writes }
  | .onClientConnect index status =>
    (agent.connectReqs[index]?).map fun request =>
      if status = -1 then
        { agent with
          connectReqs := agent.connectReqs.eraseIdx index
          refused := agent.refused ++ [request.client] }
      else
        { agent with
          connectReqs := agent.connectReqs.eraseIdx index
          gconnections := agent.gconnections ++
            [⟨recordPort request.appServerPort, request.client⟩] }
  | .handleStdReply sid magic stray =>
    (answerSession agent.sessions sid magic stray).toOption.map fun answered =>
      { agent with sessions := answered.2 }

/-- The firings of the timer, connections and replies, in any order. -/
def machine : Machine (ConfigAgent Address κ) AgentEvent :=
  ⟨step uvIp4Addr protobuf onReplyToIdlingRequest⟩

/-- The numbers of all requests for connections. -/
def handles (agent : ConfigAgent Address κ) : List Nat :=
  agent.gconnections.map AppServerConnection.handle ++
    (agent.connectReqs.map ConnectReq.client ++ agent.refused)

/-- Every configured port is asked for once, when the timer fires first, and never again:
the requests under way, the refused ones and the connections are together those of the
configured ports, and each connection is to the port of its number. -/
structure ConnectsOnce (ports : List PortSetting) (agent : ConfigAgent Address κ) : Prop where
  config : agent.config.appServerPorts = ports.map PortSetting.record
  asked : agent.asked =
    if agent.timer1Listener = .myTimer1Listener then 0 else ports.length
  handles : agent.handles.Perm (List.range agent.asked)
  requests : ∀ request ∈ agent.connectReqs, request.IsFor uvIp4Addr ports
  connections : ∀ connection ∈ agent.gconnections, ∃ setting,
    ports[connection.handle]? = some setting ∧ connection.port = setting.port

end ConfigAgent

section Connecting

variable (uvIp4Addr : List UInt8 → Int32 → Address)

/-- The addresses are those that `start_all_client_connections` connects to. -/
theorem connectReqsFrom_addresses (client : Nat) (config : Configuration) :
    (connectReqsFrom uvIp4Addr client config.appServerPorts).map (List.map ConnectReq.reqAddr) =
      startAllClientConnections uvIp4Addr config := by
  rw [startAllClientConnections]
  generalize config.appServerPorts = ports
  induction ports generalizing client with
  | nil => rfl
  | cons appServerPort later inductionHypothesis =>
    rw [connectReqsFrom, List.mapM_cons]
    cases recordHost appServerPort with
    | none => rfl
    | some host =>
      rw [← inductionHypothesis (client + 1)]
      cases connectReqsFrom uvIp4Addr (client + 1) later <;> rfl

/-- The requests are numbered, and each is for its port. -/
theorem connectReqsFrom_isFor (front ports : List PortSetting)
    (requests : List (ConnectReq Address))
    (made : connectReqsFrom uvIp4Addr front.length (ports.map PortSetting.record) =
      some requests) :
    requests.map ConnectReq.client = List.range' front.length ports.length ∧
      ∀ request ∈ requests, request.IsFor uvIp4Addr (front ++ ports) := by
  induction ports generalizing front requests with
  | nil =>
    obtain rfl := Option.some.inj made
    exact ⟨rfl, fun request member => by cases member⟩
  | cons setting later inductionHypothesis =>
    rw [List.map_cons, connectReqsFrom] at made
    obtain ⟨host, read, rest⟩ := Option.bind_eq_some_iff.mp made
    obtain ⟨others, connected, joined⟩ := Option.bind_eq_some_iff.mp rest
    obtain rfl := Option.some.inj joined
    have next : (front ++ [setting]).length = front.length + 1 := List.length_append
    rw [← next] at connected
    obtain ⟨numbered, others⟩ := inductionHypothesis (front ++ [setting]) others connected
    rw [List.append_assoc, List.singleton_append] at others
    refine ⟨?_, List.forall_mem_cons.mpr ⟨?_, others⟩⟩
    · rw [List.map_cons, numbered, next, List.length_cons, List.range'_succ]
    · refine ⟨setting, host, ?_, rfl, read, ?_⟩
      · change (front ++ setting :: later)[front.length]? = _
        rw [List.getElem?_append_right (Nat.le_refl _), Nat.sub_self]
        rfl
      · change uvIp4Addr host (recordPort setting.record) = _
        rw [recordPort_record]

end Connecting

namespace ConfigAgent

/-- A file that configures port 7000 and that of the service monitor. -/
def twoPortsFile : List UInt8 :=
  [91, 100, 101, 102, 97, 117, 108, 116, 95, 112, 111, 114, 116, 93, 10,
    97, 61, 55, 48, 48, 48, 10, 109, 61, 56, 49, 50, 52, 10]

/-- What the file gives. -/
def twoPorts : Configuration :=
  (fileSettings cfgagentName (Inih.entries twoPortsFile)).configuration
    (programName cfgagentName).chars

/-- The file gives the configuration with both ports. -/
theorem twoPorts_read :
    readIniConfigFile (fun _ => blankRecord) cfgagentName (some twoPortsFile) =
      some (twoPorts, 0) :=
  readIniConfigFile_settings _ cfgagentName twoPortsFile

/-- What a firing of the timer finds in a test of one iteration. -/
def oneRequest : TestInputs where
  c := .stray
  uvIsActive := fun _ => true
  memory := zeroedPbMsg
  events := iteration 5 1 ++ [.transmit zeroedPbMsg, .returns]

/-- The other port is connected and written to before the service monitor is. -/
def otherFirst : List AgentEvent :=
  [.timer1 oneRequest, .onClientConnect 0 0, .timer1 oneRequest, .onClientConnect 0 0]

section Connected

variable (uvIp4Addr : List UInt8 → Int32 → Address) (protobuf : Protobuf)
  (onReplyToIdlingRequest : κ) (ports : List PortSetting)

/-- Nothing has been asked for when the event loop starts. -/
theorem start_connectsOnce (config : Configuration)
    (read : config.appServerPorts = ports.map PortSetting.record) :
    (start config : ConfigAgent Address κ).ConnectsOnce uvIp4Addr ports where
  config := read
  asked := rfl
  handles := List.Perm.refl _
  requests := fun request member => by cases member
  connections := fun connection member => by cases member

/-- The timer fires for the first time: all ports are asked for, and none was before. -/
theorem asked_connectsOnce (agent : ConfigAgent Address κ)
    (connects : agent.ConnectsOnce uvIp4Addr ports) (delay : Nat)
    (first : agent.timer1Listener = .myTimer1Listener) (requests : List (ConnectReq Address))
    (made : connectReqsFrom uvIp4Addr agent.asked agent.config.appServerPorts = some requests) :
    ConnectsOnce uvIp4Addr ports
      { agent with
        timer1Listener := .myTimer1Listener2
        delay := delay
        asked := agent.asked + requests.length
        connectReqs := agent.connectReqs ++ requests } := by
  have nothing : agent.asked = 0 := by rw [connects.asked, if_pos first]
  have noHandles : agent.handles = [] := by
    have handles := connects.handles
    rw [nothing] at handles
    exact List.perm_nil.mp handles
  obtain ⟨noConnections, others⟩ := List.append_eq_nil_iff.mp noHandles
  obtain ⟨noRequests, noRefused⟩ := List.append_eq_nil_iff.mp others
  rw [nothing, connects.config] at made
  obtain ⟨numbered, isFor⟩ := connectReqsFrom_isFor uvIp4Addr [] ports requests made
  have length : requests.length = ports.length := by
    rw [← List.length_map ConnectReq.client, numbered, List.length_range']
  have underWay : agent.connectReqs = [] := List.map_eq_nil_iff.mp noRequests
  refine ⟨connects.config, ?_, ?_, ?_, connects.connections⟩
  · change agent.asked + requests.length = ports.length
    rw [nothing, Nat.zero_add, length]
  · rw [handles]
    simp only
    rw [noConnections, underWay, noRefused, List.nil_append, List.nil_append, List.append_nil,
      numbered, nothing, Nat.zero_add, length, List.range_eq_range']
    exact List.Perm.refl _
  · simp only
    rw [underWay, List.nil_append]
    exact isFor

/-- A request that is completed is no longer under way, and its handle is that of a
connection or of a refused request. -/
theorem completed_connectsOnce (agent : ConfigAgent Address κ)
    (connects : agent.ConnectsOnce uvIp4Addr ports) (index : Nat) (request : ConnectReq Address)
    (found : agent.connectReqs[index]? = some request) :
    ConnectsOnce uvIp4Addr ports
        { agent with
          connectReqs := agent.connectReqs.eraseIdx index
          refused := agent.refused ++ [request.client] } ∧
      ConnectsOnce uvIp4Addr ports
        { agent with
          connectReqs := agent.connectReqs.eraseIdx index
          gconnections := agent.gconnections ++
            [⟨recordPort request.appServerPort, request.client⟩] } := by
  have remaining : ∀ other ∈ agent.connectReqs.eraseIdx index, other.IsFor uvIp4Addr ports :=
    fun other member => connects.requests other (List.mem_of_mem_eraseIdx member)
  have taken := (perm_cons_eraseIdx agent.connectReqs index request found).map
    ConnectReq.client
  rw [List.map_cons] at taken
  have before := connects.handles
  rw [handles] at before
  constructor
  · refine ⟨connects.config, connects.asked, ?_, remaining, connects.connections⟩
    refine List.Perm.trans ?_ before
    refine List.Perm.append_left _ ?_
    rw [← List.append_assoc]
    refine List.perm_append_comm.trans ?_
    exact (List.Perm.append_right agent.refused taken).symm
  · refine ⟨connects.config, connects.asked, ?_, remaining, ?_⟩
    · refine List.Perm.trans ?_ before
      rw [handles]
      simp only [List.map_append, List.map_cons, List.map_nil]
      rw [List.append_assoc]
      refine List.Perm.append_left _ ?_
      exact (List.Perm.append_right agent.refused taken).symm
    · intro connection member
      rcases List.mem_append.mp member with known | new
      · exact connects.connections connection known
      · obtain rfl := List.mem_singleton.mp new
        obtain ⟨setting, host, numbered, record, -, -⟩ :=
          connects.requests request (List.mem_of_getElem? found)
        exact ⟨setting, numbered, by rw [record, recordPort_record]⟩

/-- No event asks for a port again. -/
theorem step_connectsOnce (agent next : ConfigAgent Address κ) (event : AgentEvent)
    (connects : agent.ConnectsOnce uvIp4Addr ports)
    (moved : agent.step uvIp4Addr protobuf onReplyToIdlingRequest event = some next) :
    next.ConnectsOnce uvIp4Addr ports := by
  cases event with
  | timer1 inputs =>
    rw [step] at moved
    cases listener : agent.timer1Listener with
    | myTimer1Listener =>
      rw [listener] at moved
      obtain ⟨requests, made, rfl⟩ := Option.map_eq_some_iff.mp moved
      exact asked_connectsOnce uvIp4Addr ports agent connects 3000 listener requests made
    | myTimer1Listener2 =>
      rw [listener] at moved
      obtain ⟨test, -, rfl⟩ := Option.map_eq_some_iff.mp moved
      have asked := connects.asked
      rw [listener] at asked
      exact ⟨connects.config, asked, connects.handles, connects.requests, connects.connections⟩
  | onClientConnect index status =>
    obtain ⟨request, found, rfl⟩ := Option.map_eq_some_iff.mp moved
    obtain ⟨refused, completed⟩ :=
      completed_connectsOnce uvIp4Addr ports agent connects index request found
    split
    · exact refused
    · exact completed
  | handleStdReply sid magic stray =>
    obtain ⟨answered, -, rfl⟩ := Option.map_eq_some_iff.mp moved
    exact ⟨connects.config, connects.asked, connects.handles, connects.requests,
      connects.connections⟩

/-- Every run keeps to the configured ports. -/
theorem run_connectsOnce (config : Configuration)
    (configured : config.appServerPorts = ports.map PortSetting.record)
    (final : ConfigAgent Address κ) (events : List AgentEvent)
    (reached : (machine uvIp4Addr protobuf onReplyToIdlingRequest).run (start config) events =
      some final) : final.ConnectsOnce uvIp4Addr ports := by
  refine (machine uvIp4Addr protobuf onReplyToIdlingRequest).run_invariant
    (ConnectsOnce uvIp4Addr ports) ?_ (start config) final events
    (start_connectsOnce uvIp4Addr ports config configured) reached
  intro agent event next connects moved
  exact step_connectsOnce uvIp4Addr protobuf onReplyToIdlingRequest ports agent next event
    connects moved

variable (memory : Nat → AppServerPort) (file : List UInt8) (config : Configuration)

/-- The records are those of the ports that the file configures. -/
theorem readIniConfigFile_ports
    (read : readIniConfigFile memory cfgagentName (some file) = some (config, 0)) :
    config.appServerPorts =
      (configuredPorts emptyString (Inih.entries file)).map PortSetting.record := by
  rw [readIniConfigFile_settings] at read
  obtain ⟨rfl, -⟩ := Prod.mk.inj (Option.some.inj read)
  rw [Settings.configuration, fileSettings, foldl_ports]
  rfl

/-- The agent asks for a connection to every port that its file configures, once and in the
order of the file, whatever order the requests are completed in. -/
theorem configured_connections
    (read : readIniConfigFile memory cfgagentName (some file) = some (config, 0))
    (events : List AgentEvent) (final : ConfigAgent Address κ)
    (reached : (machine uvIp4Addr protobuf onReplyToIdlingRequest).run (start config) events =
      some final) :
    final.ConnectsOnce uvIp4Addr (configuredPorts emptyString (Inih.entries file)) := by
  exact run_connectsOnce uvIp4Addr protobuf onReplyToIdlingRequest _ config
    (readIniConfigFile_ports memory file config read) final events reached

/-- The connections to both ports of a file. -/
theorem configured_connections_two :
    ∃ final : ConfigAgent (List UInt8 × Int32) Unit,
      (machine Prod.mk WireCodec.protobuf ()).run (start twoPorts) otherFirst = some final ∧
        final.handles = [0, 1] ∧
        final.ConnectsOnce Prod.mk (configuredPorts emptyString (Inih.entries twoPortsFile)) := by
  have handles : ((machine Prod.mk WireCodec.protobuf ()).run
      (start twoPorts : ConfigAgent (List UInt8 × Int32) Unit) otherFirst).map handles =
        some [0, 1] := by
    decide +kernel
  obtain ⟨final, reached, both⟩ := Option.map_eq_some_iff.mp handles
  exact ⟨final, reached, both, configured_connections Prod.mk WireCodec.protobuf ()
    (fun _ => blankRecord) twoPortsFile twoPorts twoPorts_read otherFirst final reached⟩

end Connected

section Monitored

/-- The first connection to the port of the service monitor. -/
def firstMonitor (agent : ConfigAgent Address κ) : Option (AppServerConnection Nat) :=
  agent.gconnections.find? fun connection => connection.port = serviceMonitorPort

/-- The search stops at the first connection to the service monitor, if there is one. -/
theorem search_first {η : Type v} (c : Pointer (AppServerConnection η))
    (gconnections : List (AppServerConnection η)) (monitor : AppServerConnection η)
    (first : gconnections.find? (fun connection => connection.port = serviceMonitorPort) =
      some monitor) :
    getServiceMonitorConnection c gconnections = .to monitor := by
  induction gconnections generalizing c with
  | nil => cases first
  | cons connection connections inductionHypothesis =>
    rw [getServiceMonitorConnection]
    by_cases port : connection.port = serviceMonitorPort
    · simp only [List.find?_cons, decide_eq_true port] at first
      rw [if_pos port, Option.some.inj first]
    · simp only [List.find?_cons, decide_eq_false port] at first
      rw [if_neg port]
      exact inductionHypothesis (.to connection) first

/-- A call of the test that returns has done nothing, or has gone through its loop with the
connection that it has found. -/
theorem delayedResponseTest_cases {η : Type v} (protobuf : Protobuf) (onReplyToIdlingRequest : κ)
    (uvIsActive : η → Bool) (c : Pointer (AppServerConnection η))
    (gconnections : List (AppServerConnection η))
    (sessions : SessionState (AppServerConnection η) κ) (memory : PbMsg)
    (events : List TestEvent) (result : TestResult (AppServerConnection η) κ)
    (tested : delayedResponseTest protobuf onReplyToIdlingRequest uvIsActive c gconnections
      sessions memory events = some result) :
    (result.sessions = sessions ∧ result.writes = []) ∨
      ∃ found test, getServiceMonitorConnection c gconnections = .to found ∧
        (testMachine protobuf found onReplyToIdlingRequest).run (Test.start sessions memory)
          events = some test ∧
        result.sessions = test.sessions ∧
        ∃ count, result.writes = List.replicate count found := by
  rw [delayedResponseTest] at tested
  rcases searched : getServiceMonitorConnection c gconnections with _ | found | _
  · rw [searched] at tested
    obtain rfl := Option.some.inj tested
    exact Or.inl ⟨rfl, rfl⟩
  · rw [searched] at tested
    simp only at tested
    split at tested
    · obtain ⟨test, ran, ended⟩ := Option.bind_eq_some_iff.mp tested
      split at ended
      · obtain rfl := Option.some.inj ended
        exact Or.inr ⟨found, test, rfl, ran, rfl, _, List.map_const' ..⟩
      · cases ended
    · obtain rfl := Option.some.inj tested
      exact Or.inl ⟨rfl, rfl⟩
  · rw [searched] at tested
    cases tested

variable (uvIp4Addr : List UInt8 → Int32 → Address) (protobuf : Protobuf)
  (onReplyToIdlingRequest : κ)

/-- The first connection to the service monitor stays the first one, and what is written goes
to it. -/
theorem step_monitor (agent next : ConfigAgent Address κ) (event : AgentEvent)
    (monitor : AppServerConnection Nat) (first : agent.firstMonitor = some monitor)
    (moved : agent.step uvIp4Addr protobuf onReplyToIdlingRequest event = some next) :
    next.firstMonitor = some monitor ∧
      ∃ count, next.written = agent.written ++ List.replicate count monitor := by
  have nothing : agent.written = agent.written ++ List.replicate 0 monitor :=
    (List.append_nil agent.written).symm
  cases event with
  | timer1 inputs =>
    rw [step] at moved
    cases listener : agent.timer1Listener with
    | myTimer1Listener =>
      rw [listener] at moved
      obtain ⟨requests, -, rfl⟩ := Option.map_eq_some_iff.mp moved
      exact ⟨first, 0, nothing⟩
    | myTimer1Listener2 =>
      rw [listener] at moved
      obtain ⟨test, tested, rfl⟩ := Option.map_eq_some_iff.mp moved
      rcases delayedResponseTest_cases protobuf onReplyToIdlingRequest inputs.uvIsActive inputs.c
        agent.gconnections agent.sessions inputs.memory inputs.events test tested with
        ⟨-, nothingWritten⟩ | ⟨found, ended, searched, -, -, count, writes⟩
      · exact ⟨first, 0, congrArg (agent.written ++ ·) nothingWritten⟩
      · rw [search_first inputs.c agent.gconnections monitor first] at searched
        obtain rfl := Pointer.to.inj searched
        exact ⟨first, count, congrArg (agent.written ++ ·) writes⟩
  | onClientConnect index status =>
    obtain ⟨request, -, rfl⟩ := Option.map_eq_some_iff.mp moved
    split
    · exact ⟨first, 0, nothing⟩
    · refine ⟨?_, 0, nothing⟩
      rw [firstMonitor] at first ⊢
      simp only
      rw [List.find?_append, first]
      rfl
  | handleStdReply sid magic stray =>
    obtain ⟨answered, -, rfl⟩ := Option.map_eq_some_iff.mp moved
    exact ⟨first, 0, nothing⟩

/-- The first monitor stays the first one, and all requests are written to it. -/
theorem run_monitor (agent final : ConfigAgent Address κ) (events : List AgentEvent)
    (monitor : AppServerConnection Nat) (first : agent.firstMonitor = some monitor)
    (reached : (machine uvIp4Addr protobuf onReplyToIdlingRequest).run agent events =
      some final) :
    final.firstMonitor = some monitor ∧
      ∃ count, final.written = agent.written ++ List.replicate count monitor := by
  refine (machine uvIp4Addr protobuf onReplyToIdlingRequest).run_invariant
    (fun later => later.firstMonitor = some monitor ∧
      ∃ count, later.written = agent.written ++ List.replicate count monitor) ?_ agent final
    events ⟨first, 0, (List.append_nil agent.written).symm⟩ reached
  rintro later event next ⟨stays, count, written⟩ moved
  obtain ⟨kept, more, rest⟩ :=
    step_monitor uvIp4Addr protobuf onReplyToIdlingRequest later next event monitor stays moved
  refine ⟨kept, count + more, ?_⟩
  rw [rest, written, List.append_assoc, List.replicate_append_replicate]

variable (memory : Nat → AppServerPort) (file : List UInt8) (config : Configuration)

/-- As soon as a connection to the port of the service monitor is completed, all requests go
to the first such connection for ever, which is one to a configured port. -/
theorem requests_to_monitor
    (read : readIniConfigFile memory cfgagentName (some file) = some (config, 0))
    (earlier later : List AgentEvent) (agent final : ConfigAgent Address κ)
    (reached : (machine uvIp4Addr protobuf onReplyToIdlingRequest).run (start config) earlier =
      some agent)
    (continued : (machine uvIp4Addr protobuf onReplyToIdlingRequest).run agent later =
      some final)
    (monitor : AppServerConnection Nat) (first : agent.firstMonitor = some monitor) :
    (∃ setting, (configuredPorts emptyString (Inih.entries file))[monitor.handle]? =
        some setting ∧ setting.port = serviceMonitorPort) ∧
      final.firstMonitor = some monitor ∧
      ∃ count, final.written = agent.written ++ List.replicate count monitor := by
  obtain ⟨stays, written⟩ := run_monitor uvIp4Addr protobuf onReplyToIdlingRequest agent final
    later monitor first continued
  refine ⟨?_, stays, written⟩
  have connects := run_connectsOnce uvIp4Addr protobuf onReplyToIdlingRequest _ config
    (readIniConfigFile_ports memory file config read) agent earlier reached
  obtain ⟨setting, numbered, port⟩ :=
    connects.connections monitor (List.mem_of_find?_eq_some first)
  have found := List.find?_some first
  exact ⟨setting, numbered, port ▸ of_decide_eq_true found⟩

/-- The first request goes to the other port, and those from then on to the service
monitor. -/
theorem requests_to_monitor_second :
    ∃ agent final : ConfigAgent (List UInt8 × Int32) Unit,
      (machine Prod.mk WireCodec.protobuf ()).run (start twoPorts) otherFirst = some agent ∧
        (machine Prod.mk WireCodec.protobuf ()).run agent [.timer1 oneRequest] = some final ∧
        agent.written = [⟨7000, 0⟩] ∧ final.firstMonitor = some ⟨8124, 1⟩ ∧
        ∃ count, final.written = agent.written ++ List.replicate count ⟨8124, 1⟩ := by
  have ran : (((machine Prod.mk WireCodec.protobuf ()).run
      (start twoPorts : ConfigAgent (List UInt8 × Int32) Unit) otherFirst).bind fun agent =>
        ((machine Prod.mk WireCodec.protobuf ()).run agent [.timer1 oneRequest]).map fun _ =>
          (agent.written, agent.firstMonitor)) = some ([⟨7000, 0⟩], some ⟨8124, 1⟩) := by
    decide +kernel
  obtain ⟨agent, toAgent, later⟩ := Option.bind_eq_some_iff.mp ran
  obtain ⟨final, toFinal, found⟩ := Option.map_eq_some_iff.mp later
  obtain ⟨written, monitor⟩ := Prod.mk.inj found
  obtain ⟨-, stays, more⟩ := requests_to_monitor Prod.mk WireCodec.protobuf ()
    (fun _ => blankRecord) twoPortsFile twoPorts twoPorts_read otherFirst [.timer1 oneRequest]
    agent final toAgent toFinal ⟨8124, 1⟩ monitor
  exact ⟨agent, final, toAgent, toFinal, written, stays, more⟩

end Monitored

end ConfigAgent

end Evlpc
