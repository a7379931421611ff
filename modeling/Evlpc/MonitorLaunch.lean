import Evlpc.ProcessConfig
import Evlpc.ServiceMonitor

/-!
# From the configuration to the processes

When its timer fires, the service monitor walks over the list of groups that it has read
and, for each of them, over the list of its processes. For a process it builds the path of
the binary and calls `uv_spawn`; a call that fails ends the launch of the group, and the
next group is launched all the same.

The calls are those that the document configures, in its order. The arguments of a group
and of a process are put together and printed; a process is given its own name, instance
and port alone.
-/

namespace Evlpc

open Library CStrings NodeHeap

/-- What `uv_spawn` is called with: the path, and the strings of `all_args` up to NULL. -/
structure Spawn where
  file : List UInt8
  args : List (List UInt8)
deriving DecidableEq, Repr

/-- The options of a process, with its path built in `fullpath`. -/
def spawnOptions (strings : ProcessStrings) (arrays : LaunchArrays) : Option Spawn :=
  (text arrays.fullpath).map fun fullpath =>
    { file := fullpath
      args := [strings.binary.string, strings.name.string, strings.instanceId.string,
        strings.defaultPort.string] }

section Launching

variable (uvSpawn : Nat → Option Pid) (stack : Nat → LaunchArrays)

/-- `launch_processes` from a node on, for no more than a number of nodes: the calls made by
then, and its result. `stack` has the contents of the arrays at each call. -/
def launchProcessesFrom (heap : NodeHeap ProcessInfo) (commonArgs : CharArray 256) :
    Nat → Option Nat → List Spawn → Option (List Spawn × Int32)
  | _, none, spawns => some (spawns, 0)
  | 0, some _, _ => none
  | steps + 1, some curNode, spawns =>
    heap.cells[curNode]?.bind fun node =>
      (launchProcessesStrings (stack spawns.length) node.value.primaryArgs.contents
        node.value.strings commonArgs).bind fun arrays =>
        (spawnOptions node.value.strings arrays).bind fun spawn =>
          match uvSpawn spawns.length with
          | none => some (spawns ++ [spawn], 1)
          | some _ =>
            launchProcessesFrom heap commonArgs steps node.next (spawns ++ [spawn])

/-- `launch_all_processes` from a group on. The result of a group is only printed. -/
def launchPgroupsFrom (heap : ConfigHeap) (nodes : Nat) :
    Nat → Option Nat → List Spawn → Option (List Spawn)
  | _, none, spawns => some spawns
  | 0, some _, _ => none
  | steps + 1, some pgroupCurNode, spawns =>
    heap.pgroups.cells[pgroupCurNode]?.bind fun pgroup =>
      (launchProcessesFrom uvSpawn stack heap.processes pgroup.value.commonArgs nodes
        pgroup.value.processInfoNode spawns).bind fun launched =>
        launchPgroupsFrom heap nodes steps pgroup.next launched.1

/-- The service monitor: `read_pgroups` on the nodes of the document, and, once the timer
fires, `launch_all_processes`, for no more than a number of nodes in each list. -/
def launchConfiguration (readers : Readers) (steps : Nat) (document : List XmlNode) :
    Option (List Spawn) :=
  let read := readPgroups readers ⟨⟨[]⟩, ⟨[]⟩⟩ document
  launchPgroupsFrom uvSpawn stack read.1 steps steps read.2 []

end Launching

/-- A directory that is not empty, up to a slash. -/
def withSlash (dir : List UInt8) : List UInt8 :=
  if 0 < dir.length then if dir[dir.length - 1]? ≠ some 47 then dir ++ [47] else dir else dir

/-- The call for a process. -/
def configuredSpawn (strings : ProcessStrings) : Spawn where
  file := withSlash strings.dir.string ++ strings.binary.string
  args := [strings.binary.string, strings.name.string, strings.instanceId.string,
    strings.defaultPort.string]

/-- The calls for a group after a number of calls: up to the first one that fails. -/
def groupSpawns (uvSpawn : Nat → Option Pid) (calls : Nat) : List ProcessInfo → List Spawn
  | [] => []
  | process :: later =>
    configuredSpawn process.strings ::
      match uvSpawn calls with
      | none => []
      | some _ => groupSpawns uvSpawn (calls + 1) later

/-- The calls for all groups. -/
def configuredSpawns (uvSpawn : Nat → Option Pid) (calls : Nat) :
    List ConfiguredGroup → List Spawn
  | [] => []
  | group :: later =>
    groupSpawns uvSpawn calls group.processes ++
      configuredSpawns uvSpawn (calls + (groupSpawns uvSpawn calls group.processes).length) later

section Paths

variable (strings : ProcessStrings) (commonArgs : CharArray 256)

/-- A slash is put behind a short directory that needs one. -/
theorem addSlash_text (array dir : List UInt8) (length : array.length = launchArraySize)
    (present : text array = some dir) (short : dir.length < 128) :
    ∃ slashed, addSlash array = some slashed ∧ text slashed = some (withSlash dir) ∧
      slashed.length = launchArraySize := by
  have size : launchArraySize = 256 := rfl
  have one : ([47] : List UInt8).length = 1 := rfl
  obtain ⟨-, behind, whole⟩ := text_split array dir present
  simp only [addSlash, withSlash, Option.bind_eq_bind, present, Option.bind_some]
  by_cases notEmpty : 0 < dir.length
  · have last : array[dir.length - 1]? = dir[dir.length - 1]? := by
      rw [whole, List.getElem?_append_left (by omega)]
    rw [if_pos notEmpty, if_pos notEmpty, last]
    by_cases closed : dir[dir.length - 1]? ≠ some 47
    · rw [if_pos closed, if_pos closed]
      obtain ⟨slashed, put, slashedText, slashedLength⟩ := (strncat_whole array dir slash [47]
        (launchArraySize - 1) present rfl (by decide)).1 (by omega)
      exact ⟨slashed, put, slashedText, slashedLength.trans length⟩
    · rw [if_neg closed, if_neg closed]
      exact ⟨array, rfl, present, length⟩
  · rw [if_neg notEmpty, if_neg notEmpty]
    exact ⟨array, rfl, present, length⟩

/-- A slash adds at most one character. -/
theorem withSlash_length (dir : List UInt8) : (withSlash dir).length ≤ dir.length + 1 := by
  rw [withSlash]
  split
  · split
    · exact Nat.le_of_eq List.length_append
    · exact Nat.le_succ _
  · exact Nat.le_succ _

/-- `fullpath` is the directory with a slash, and the binary. -/
theorem buildFullpath_text (array : List UInt8) (length : array.length = launchArraySize) :
    ∃ fullpath, buildFullpath array strings = some fullpath ∧
      text fullpath = some (withSlash strings.dir.string ++ strings.binary.string) := by
  have size : launchArraySize = 256 := rfl
  have dirShort := strings.dir.shorter
  have binaryShort := strings.binary.shorter
  have slashedShort := withSlash_length strings.dir.string
  obtain ⟨copied, done, present, copiedLength⟩ := strncpy_shorter array _ _ (launchArraySize - 1)
    strings.dir.holds (by omega) (by omega)
  obtain ⟨slashed, stepped, slashedText, slashedLength⟩ :=
    addSlash_text copied _ (by omega) present dirShort
  obtain ⟨fullpath, appended, path, -⟩ := (strncat_whole slashed _ strings.binary.contents _
    (launchArraySize - 1) slashedText strings.binary.holds (by omega)).1 (by omega)
  refine ⟨fullpath, ?_, path⟩
  simp only [buildFullpath, done, Option.bind_eq_bind, Option.bind_some, stepped, appended]

/-- The strings of a process that fits are built, and give its call. -/
theorem launch_spawns (arrays : LaunchArrays) (sized : arrays.Sized)
    (fits : FitsCommandLine strings commonArgs) :
    ∃ built, launchProcessesStrings arrays (primaryArgsArray strings).contents strings
        commonArgs = some built ∧
      spawnOptions strings built = some (configuredSpawn strings) := by
  obtain ⟨built, launched⟩ := Option.isSome_iff_exists.mp ((buildStrings_fits strings commonArgs
    arrays sized _ (primaryArgsArray_text strings)).mpr fits)
  obtain ⟨fullpath, path, pathText⟩ := buildFullpath_text strings arrays.fullpath sized.fullpath
  have same : built.fullpath = fullpath := by
    simp only [buildStrings, Option.bind_eq_bind, Option.bind_eq_some_iff] at launched
    obtain ⟨args, -, pargs, -, other, again, same⟩ := launched
    rw [← Option.some.inj same]
    exact Option.some.inj (again.symm.trans path)
  refine ⟨built, launched, ?_⟩
  rw [spawnOptions, same, pathText]
  rfl

end Paths

/-- What is read about a process has the primary arguments of its strings. -/
theorem configured_primary (readers : Readers) (node : XmlNode) (process : ProcessInfo)
    (configured : configuredProcess readers node = some process) :
    process.primaryArgs = primaryArgsArray process.strings := by
  rw [configuredProcess] at configured
  split at configured
  · split at configured
    · obtain rfl := Option.some.inj configured
      rfl
    · cases configured
  · cases configured

/-- What is read about every process of a group has the primary arguments of its strings. -/
theorem group_primary (readers : Readers) (node : XmlNode) (group : ConfiguredGroup)
    (configured : configuredGroup readers node = some group) :
    ∀ process ∈ group.processes, process.primaryArgs = primaryArgsArray process.strings := by
  intro process member
  rw [group_processes readers node group configured] at member
  obtain ⟨child, -, same⟩ := List.mem_filterMap.mp member
  exact configured_primary readers child process same

section Walking

variable (uvSpawn : Nat → Option Pid) (stack : Nat → LaunchArrays)
  (sized : ∀ call, (stack call).Sized)
include sized

/-- Walking over a list of processes that fit makes the calls of their group. Induct over the
list; the heap has a node for each process. -/
theorem launchProcessesFrom_chain (heap : NodeHeap ProcessInfo) (commonArgs : CharArray 256)
    (head : Option Nat) (processes : List ProcessInfo) (chain : Chain heap head processes)
    (primary : ∀ process ∈ processes, process.primaryArgs = primaryArgsArray process.strings)
    (fits : ∀ process ∈ processes, FitsCommandLine process.strings commonArgs) (steps : Nat)
    (enough : processes.length ≤ steps) (spawns : List Spawn) :
    ∃ rc, launchProcessesFrom uvSpawn stack heap commonArgs steps head spawns =
      some (spawns ++ groupSpawns uvSpawn spawns.length processes, rc) := by
  induction chain generalizing steps spawns with
  | null =>
    refine ⟨0, ?_⟩
    rw [launchProcessesFrom, groupSpawns, List.append_nil]
  | node address cell rest stored behind inductionHypothesis =>
    rw [List.length_cons] at enough
    obtain ⟨remaining, rfl⟩ := Nat.exists_eq_add_of_le' (Nat.le_of_add_left_le enough)
    have own := primary cell.value List.mem_cons_self
    obtain ⟨built, launched, spawned⟩ := launch_spawns cell.value.strings commonArgs
      (stack spawns.length) (sized _) (fits cell.value List.mem_cons_self)
    rw [← own] at launched
    rw [launchProcessesFrom, groupSpawns, stored, Option.bind_some, launched, Option.bind_some,
      spawned, Option.bind_some]
    cases uvSpawn spawns.length with
    | none => exact ⟨1, rfl⟩
    | some pid =>
      obtain ⟨rc, walked⟩ := inductionHypothesis
        (fun process member => primary process (List.mem_cons_of_mem _ member))
        (fun process member => fits process (List.mem_cons_of_mem _ member)) remaining (by omega)
        (spawns ++ [configuredSpawn cell.value.strings])
      refine ⟨rc, ?_⟩
      rw [List.length_append, List.length_singleton, List.append_assoc,
        List.singleton_append] at walked
      exact walked

/-- Walking over a list of groups makes the calls of all of them. -/
theorem launchPgroupsFrom_chain (heap : ConfigHeap) (head : Option Nat) (infos : List PgroupInfo)
    (groups : List ConfiguredGroup) (chain : Chain heap.pgroups head infos)
    (holds : List.Forall₂ (HoldsGroup heap.processes) infos groups)
    (primary : ∀ group ∈ groups, ∀ process ∈ group.processes,
      process.primaryArgs = primaryArgsArray process.strings)
    (fits : ∀ group ∈ groups, ∀ process ∈ group.processes,
      FitsCommandLine process.strings group.commonArgs)
    (nodes : Nat) (many : ∀ group ∈ groups, group.processes.length ≤ nodes) (steps : Nat)
    (enough : groups.length ≤ steps) (spawns : List Spawn) :
    launchPgroupsFrom uvSpawn stack heap nodes steps head spawns =
      some (spawns ++ configuredSpawns uvSpawn spawns.length groups) := by
  induction chain generalizing groups steps spawns with
  | null =>
    cases holds
    rw [launchPgroupsFrom, configuredSpawns, List.append_nil]
  | node address cell rest stored behind inductionHypothesis =>
    cases holds with
    | cons held others =>
      rename_i group groups
      rw [List.length_cons] at enough
      obtain ⟨remaining, rfl⟩ := Nat.exists_eq_add_of_le' (Nat.le_of_add_left_le enough)
      have among : ∀ other ∈ groups, other ∈ group :: groups := fun other member =>
        List.mem_cons_of_mem _ member
      obtain ⟨rc, launched⟩ := launchProcessesFrom_chain uvSpawn stack sized heap.processes
        group.commonArgs cell.value.processInfoNode group.processes held.processes
        (primary group List.mem_cons_self) (fits group List.mem_cons_self) nodes
        (many group List.mem_cons_self) spawns
      have later := inductionHypothesis groups others
        (fun other member => primary other (among other member))
        (fun other member => fits other (among other member))
        (fun other member => many other (among other member)) remaining (by omega)
        (spawns ++ groupSpawns uvSpawn spawns.length group.processes)
      rw [List.length_append, List.append_assoc] at later
      rw [launchPgroupsFrom, stored, Option.bind_some, held.commonArgs, launched,
        Option.bind_some, configuredSpawns]
      exact later

/-- Whatever the document holds and whichever calls fail, if the command lines of the
configured processes fit their arrays, the service monitor calls `uv_spawn` for the processes
that are configured: group by group, in the order of the document, and in each group up to
the first call that fails. Where all texts leave room, the strings of a process are those
that the readers of the source leave for its element. -/
theorem configuration_launched (readers : Readers) (document : List XmlNode)
    (fits : ∀ group ∈ document.filterMap (configuredGroup readers),
      ∀ process ∈ group.processes, FitsCommandLine process.strings group.commonArgs) :
    (∃ enough, ∀ steps, enough ≤ steps →
      launchConfiguration uvSpawn stack readers steps document =
        some (configuredSpawns uvSpawn 0 (document.filterMap (configuredGroup readers)))) ∧
    ∀ libxml, readers.FromSource libxml →
      (∀ pgroup ∈ document, ∀ node ∈ pgroup.children, ProcessRoom libxml node) →
      ∀ group ∈ document.filterMap (configuredGroup readers), ∀ process ∈ group.processes,
        ∃ pgroup ∈ document, ∃ node ∈ pgroup.children,
          ProcessLeft libxml node process.strings := by
  let groups := document.filterMap (configuredGroup readers)
  obtain ⟨infos, chain, holds⟩ := readPgroupsLoop_builds readers ⟨[]⟩ ⟨⟨[]⟩, ⟨[]⟩⟩ none none [] []
    document .empty (Extends.refl _) .nil
  refine ⟨⟨groups.length + (groups.map ConfiguredGroup.processes).flatten.length, ?_⟩,
    fun libxml source room => configured_processes_left libxml readers source document room⟩
  intro steps enough
  have primary : ∀ group ∈ groups, ∀ process ∈ group.processes,
      process.primaryArgs = primaryArgsArray process.strings := by
    intro group member
    obtain ⟨node, -, configured⟩ := List.mem_filterMap.mp member
    exact group_primary readers node group configured
  have many : ∀ group ∈ groups, group.processes.length ≤ steps := by
    intro group member
    have among : group.processes ∈ groups.map ConfiguredGroup.processes :=
      List.mem_map_of_mem member
    have part := (List.sublist_flatten_of_mem among).length_le
    omega
  exact launchPgroupsFrom_chain uvSpawn stack sized _ _ infos groups chain holds primary fits
    steps many steps (Nat.le_of_add_right_le enough) []

end Walking

instance (strings : ProcessStrings) (commonArgs : CharArray 256) :
    Decidable (FitsCommandLine strings commonArgs) :=
  inferInstanceAs (Decidable (_ < _))

/-- A process element with a name, an instance and a binary. -/
def processElement (name binary : List UInt8) : XmlNode :=
  .node xmlElementNode "process" [("name", name), ("instance", [49])] []
    [.node xmlElementNode "binary" [] binary []]

/-- Two groups, the first one of two processes. -/
def twoGroups : List XmlNode :=
  [.node xmlElementNode "process_group" [("group_id", [49])] []
      [processElement [97] [98], processElement [99] [100]],
    .node xmlElementNode "process_group" [("group_id", [50])] [] [processElement [101] [102]]]

/-- Arrays of zeros. -/
def zeroedArrays : LaunchArrays :=
  ⟨List.replicate launchArraySize 0, List.replicate launchArraySize 0,
    List.replicate launchArraySize 0⟩

/-- The arrays have their sizes. -/
theorem zeroedArrays_sized : zeroedArrays.Sized :=
  ⟨List.length_replicate, List.length_replicate, List.length_replicate⟩

/-- The first call fails and the others succeed. -/
def firstFails (calls : Nat) : Option Pid := if calls = 0 then none else some ⟨100, by decide⟩

instance (chars : List UInt8) (n : Nat) : Decidable (LeavesRoom chars n) :=
  decidable_of_iff (0 ∉ chars ∧ chars.length < n - 1)
    ⟨fun both => ⟨both.1, both.2⟩, fun room => ⟨room.noNul, room.short⟩⟩

/-- A process element with a short name and a short binary leaves room. -/
theorem processElement_room (name binary : List UInt8) (nameRoom : LeavesRoom name 32)
    (binaryRoom : LeavesRoom binary 64) :
    ProcessRoom flatLibxml (processElement name binary) where
  name := by
    intro chars found
    obtain rfl : name = chars := Option.some.inj found
    exact nameRoom
  instanceId := by
    intro chars found
    obtain rfl : [49] = chars := Option.some.inj found
    decide
  defaultPort := by
    intro element found
    cases found
  binary := by
    intro element found
    obtain rfl := Option.some.inj found
    exact binaryRoom
  dir := by
    intro element found
    cases found
  args := by
    intro element found
    cases found
  overrideArgs := by
    intro element found
    cases found

/-- All texts of the two groups leave room. -/
theorem twoGroups_room :
    ∀ pgroup ∈ twoGroups, ∀ node ∈ pgroup.children, ProcessRoom flatLibxml node := by
  intro pgroup isPgroup node isNode
  simp only [twoGroups, List.mem_cons, List.not_mem_nil, or_false] at isPgroup
  rcases isPgroup with rfl | rfl
  · simp only [XmlNode.children, List.mem_cons, List.not_mem_nil, or_false] at isNode
    rcases isNode with rfl | rfl
    · exact processElement_room [97] [98] (by decide) (by decide)
    · exact processElement_room [99] [100] (by decide) (by decide)
  · simp only [XmlNode.children, List.mem_cons, List.not_mem_nil, or_false] at isNode
    obtain rfl := isNode
    exact processElement_room [101] [102] (by decide) (by decide)

/-- The first call fails, which ends the launch of its group, and the other group is
launched. -/
theorem configuration_launched_failing :
    (∃ enough, ∀ steps, enough ≤ steps →
      launchConfiguration firstFails (fun _ => zeroedArrays) (trimmingReaders flatLibxml) steps
          twoGroups =
        some [⟨[98], [[98], [97], [49], []]⟩, ⟨[102], [[102], [101], [49], []]⟩]) ∧
    ∀ group ∈ twoGroups.filterMap (configuredGroup (trimmingReaders flatLibxml)),
      ∀ process ∈ group.processes, ∃ pgroup ∈ twoGroups, ∃ node ∈ pgroup.children,
        ProcessLeft flatLibxml node process.strings := by
  obtain ⟨⟨enough, launched⟩, left⟩ := configuration_launched firstFails (fun _ => zeroedArrays)
    (fun _ => zeroedArrays_sized) (trimmingReaders flatLibxml) twoGroups (by decide +kernel)
  have calls : configuredSpawns firstFails 0
      (twoGroups.filterMap (configuredGroup (trimmingReaders flatLibxml))) =
        [⟨[98], [[98], [97], [49], []]⟩, ⟨[102], [[102], [101], [49], []]⟩] := by
    decide +kernel
  rw [calls] at launched
  exact ⟨⟨enough, launched⟩,
    left flatLibxml (trimmingReaders_fromSource flatLibxml) twoGroups_room⟩

end Evlpc
