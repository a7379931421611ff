import Evlpc.Library.Machine

/-!
# Launching and terminating the monitored processes

The service monitor launches the processes of all groups, is told by `on_exit` when
one of them ends, and terminates them with `uv_process_kill`. A node's `pid` is that
of its `child_req`: cleared before `uv_spawn` and set by it if it succeeds. A spawn
that fails ends the launch of its group, and leaves the rest of it with the zeros of
`read_processes`.

The source does not record that a child has ended. Here a node carries this, so that
it can be said which children are alive.
-/

namespace Evlpc

open Library

universe u
variable {γ : Type u}

/-- What a successful `uv_spawn` stores. -/
abbrev Pid : Type := { pid : Int32 // pid ≠ 0 }

/-- `ProcessInfoNode_t`: what was read about the process, the pid of its `child_req`,
and whether `on_exit` was called for it. -/
structure ProcessInfoNode (γ : Type u) where
  info : γ
  pid : Int32
  exited : Bool

/-- The node that `read_processes` returns for a process. -/
def ProcessInfoNode.read (info : γ) : ProcessInfoNode γ := ⟨info, 0, false⟩

/-- The child of a node was spawned and has not exited. -/
def ProcessInfoNode.Live (node : ProcessInfoNode γ) : Prop := node.pid ≠ 0 ∧ node.exited = false

instance (node : ProcessInfoNode γ) : Decidable node.Live := inferInstanceAs (Decidable (_ ∧ _))

/-- What a launch leaves: the nodes, the number of `uv_spawn` calls made by then, and
the result. -/
structure Launched (α : Type u) where
  nodes : List α
  calls : Nat
  rc : Int32

/-- `launch_processes`. The result of each `uv_spawn` is given by the number of calls
made before. -/
def launchProcesses (uvSpawn : Nat → Option Pid) (calls : Nat) :
    List (ProcessInfoNode γ) → Launched (ProcessInfoNode γ)
  | [] => ⟨[], calls, 0⟩
  | node :: later =>
    match uvSpawn calls with
    | none => ⟨⟨node.info, 0, false⟩ :: later, calls + 1, 1⟩
    | some pid =>
      let launched := launchProcesses uvSpawn (calls + 1) later
      { launched with nodes := ⟨node.info, pid.val, false⟩ :: launched.nodes }

/-- `launch_all_processes`. -/
def launchAllProcesses (uvSpawn : Nat → Option Pid) (calls : Nat) :
    List (List (ProcessInfoNode γ)) → Launched (List (ProcessInfoNode γ))
  | [] => ⟨[], calls, 0⟩
  | group :: later =>
    let launched := launchProcesses uvSpawn calls group
    let others := launchAllProcesses uvSpawn launched.calls later
    { others with nodes := launched.nodes :: others.nodes }

/-- `on_exit` for the child of one of the nodes, given by its group and its place
there. It only prints and closes the handle; that it was called is recorded. -/
def onExit (groups : List (List (ProcessInfoNode γ))) (group place : Nat) :
    Option (List (List (ProcessInfoNode γ))) :=
  match (groups[group]?).bind fun nodes => nodes[place]? with
  | none => none
  | some node =>
    if node.Live then
      some (groups.modify group fun nodes =>
        nodes.modify place fun node => { node with exited := true })
    else none

/-- Children that exit, one after the other. -/
def exitMachine : Machine (List (List (ProcessInfoNode γ))) (Nat × Nat) where
  step groups exit := onExit groups exit.1 exit.2

/-- `normal_terminate_processes`: the nodes on which it calls `uv_process_kill`. -/
def normalTerminateProcesses : List (ProcessInfoNode γ) → List (ProcessInfoNode γ)
  | [] => []
  | node :: later => node :: normalTerminateProcesses later

/-- `normal_terminate_pgroups`: the nodes on which it calls `uv_process_kill`. -/
def normalTerminatePgroups : List (List (ProcessInfoNode γ)) → List (ProcessInfoNode γ)
  | [] => []
  | group :: later => normalTerminateProcesses group ++ normalTerminatePgroups later

/-- The nodes whose children are alive are signalled, and no others. -/
structure SignalsLive (groups : List (List (ProcessInfoNode γ))) : Prop where
  live : normalTerminatePgroups groups = groups.flatten.filter fun node => node.Live
  only : ∀ node ∈ normalTerminatePgroups groups, node.pid ≠ 0 ∧ node.exited = false

/-- Every process of the list is signalled. -/
theorem normalTerminateProcesses_all (nodes : List (ProcessInfoNode γ)) :
    normalTerminateProcesses nodes = nodes := by
  induction nodes with
  | nil => rfl
  | cons node later inductionHypothesis => rw [normalTerminateProcesses, inductionHypothesis]

/-- Every node is signalled, whatever became of its child. -/
theorem normalTerminatePgroups_all (groups : List (List (ProcessInfoNode γ))) :
    normalTerminatePgroups groups = groups.flatten := by
  induction groups with
  | nil => rfl
  | cons group later inductionHypothesis =>
    rw [normalTerminatePgroups, normalTerminateProcesses_all, inductionHypothesis,
      List.flatten_cons]

/-- Only live processes are signalled exactly if all are live. -/
theorem signalsLive_iff (groups : List (List (ProcessInfoNode γ))) :
    SignalsLive groups ↔ ∀ node ∈ groups.flatten, node.Live := by
  constructor
  · intro signals node member
    rw [← normalTerminatePgroups_all] at member
    exact signals.only node member
  · intro allLive
    constructor
    · rw [normalTerminatePgroups_all, eq_comm, List.filter_eq_self]
      intro node member
      exact decide_eq_true (allLive node member)
    · rw [normalTerminatePgroups_all]
      exact allLive

section Launching

variable (uvSpawn : Nat → Option Pid)

/-- A number of `uv_spawn` calls succeed, after the calls made before. -/
def SpawnsSucceed (calls count : Nat) : Prop :=
  ∀ index < count, (uvSpawn (calls + index)).isSome

/-- Calls succeed if the first ones do and then the others. -/
theorem spawnsSucceed_add (calls first second : Nat) :
    SpawnsSucceed uvSpawn calls (first + second) ↔
      SpawnsSucceed uvSpawn calls first ∧ SpawnsSucceed uvSpawn (calls + first) second := by
  constructor
  · intro succeed
    constructor
    · intro index below
      exact succeed index (by omega)
    · intro index below
      rw [Nat.add_assoc]
      exact succeed (first + index) (by omega)
  · rintro ⟨early, late⟩ index below
    by_cases among : index < first
    · exact early index among
    · have shifted := late (index - first) (by omega)
      rwa [Nat.add_assoc, Nat.add_sub_cancel' (Nat.not_lt.mp among)] at shifted

/-- No calls always succeed. -/
theorem spawnsSucceed_none (calls : Nat) : SpawnsSucceed uvSpawn calls 0 := by
  intro index below
  exact absurd below (Nat.not_lt_zero index)

/-- One call succeeds if it returns a process. -/
theorem spawnsSucceed_one (calls : Nat) :
    SpawnsSucceed uvSpawn calls 1 ↔ (uvSpawn calls).isSome := by
  constructor
  · intro succeed
    exact succeed 0 Nat.one_pos
  · intro succeeds index below
    obtain rfl := Nat.lt_one_iff.mp below
    exact succeeds

/-- A group whose spawns all succeed takes one call for each node. -/
theorem launchProcesses_calls (calls : Nat) (nodes : List (ProcessInfoNode γ))
    (succeed : SpawnsSucceed uvSpawn calls nodes.length) :
    (launchProcesses uvSpawn calls nodes).calls = calls + nodes.length := by
  induction nodes generalizing calls with
  | nil => rfl
  | cons node later inductionHypothesis =>
    rw [List.length_cons, Nat.add_comm, spawnsSucceed_add, spawnsSucceed_one] at succeed
    obtain ⟨pid, spawned⟩ := Option.isSome_iff_exists.mp succeed.1
    simp only [launchProcesses, spawned]
    rw [inductionHypothesis (calls + 1) succeed.2, List.length_cons]
    omega

/-- The launch of a group leaves only live children exactly if none of its spawns
fails. -/
theorem launchProcesses_live (calls : Nat) (nodes : List (ProcessInfoNode γ)) :
    (∀ node ∈ (launchProcesses uvSpawn calls nodes).nodes, node.Live) ↔
      SpawnsSucceed uvSpawn calls nodes.length := by
  induction nodes generalizing calls with
  | nil =>
    apply iff_of_true
    · intro node member
      cases member
    · exact spawnsSucceed_none uvSpawn calls
  | cons node later inductionHypothesis =>
    rw [List.length_cons, Nat.add_comm, spawnsSucceed_add, spawnsSucceed_one]
    cases spawned : uvSpawn calls with
    | none =>
      simp only [launchProcesses, spawned]
      apply iff_of_false
      · intro allLive
        exact (allLive _ List.mem_cons_self).1 rfl
      · rintro ⟨impossible, -⟩
        cases impossible
    | some pid =>
      simp only [launchProcesses, spawned]
      rw [List.forall_mem_cons, inductionHypothesis (calls + 1)]
      exact and_congr_left fun _ => iff_of_true ⟨pid.property, rfl⟩ rfl

/-- The same for all groups. -/
theorem launchAllProcesses_live (calls : Nat) (groups : List (List (ProcessInfoNode γ))) :
    (∀ node ∈ (launchAllProcesses uvSpawn calls groups).nodes.flatten, node.Live) ↔
      SpawnsSucceed uvSpawn calls groups.flatten.length := by
  induction groups generalizing calls with
  | nil =>
    apply iff_of_true
    · intro node member
      cases member
    · exact spawnsSucceed_none uvSpawn calls
  | cons group later inductionHypothesis =>
    simp only [launchAllProcesses, List.flatten_cons, List.length_append, List.forall_mem_append]
    rw [spawnsSucceed_add, launchProcesses_live, inductionHypothesis]
    apply and_congr_right
    intro succeed
    rw [launchProcesses_calls uvSpawn calls group succeed]

end Launching

section Exits

variable {groups after : List (List (ProcessInfoNode γ))}

/-- The node of a child that exits stays among the nodes, and is not live. -/
theorem onExit_not_live {group place : Nat} (exit : onExit groups group place = some after) :
    ∃ node ∈ after.flatten, ¬ node.Live := by
  unfold onExit at exit
  split at exit
  · cases exit
  · rename_i node found
    split at exit
    · obtain ⟨nodes, groupFound, nodeFound⟩ := Option.bind_eq_some_iff.mp found
      obtain rfl := Option.some.inj exit
      refine ⟨{ node with exited := true }, ?_, fun live => Bool.noConfusion live.2⟩
      have changedNode : (nodes.modify place fun node => { node with exited := true })[place]? =
          some { node with exited := true } := by
        rw [List.getElem?_modify_eq, nodeFound]
        rfl
      have changedGroup : (groups.modify group fun nodes =>
          nodes.modify place fun node => { node with exited := true })[group]? =
            some (nodes.modify place fun node => { node with exited := true }) := by
        rw [List.getElem?_modify_eq, groupFound]
        rfl
      exact List.mem_flatten.mpr
        ⟨_, List.mem_of_getElem? changedGroup, List.mem_of_getElem? changedNode⟩
    · cases exit

/-- After any exits but none, some node is not live. -/
theorem exits_not_live {exits : List (Nat × Nat)} (some_exit : exits ≠ [])
    (reached : exitMachine.run groups exits = some after) :
    ∃ node ∈ after.flatten, ¬ node.Live := by
  induction exits generalizing groups with
  | nil => exact absurd rfl some_exit
  | cons exit exits inductionHypothesis =>
    obtain ⟨next, moved, rest⟩ := (exitMachine.run_cons_some).mp reached
    cases exits with
    | nil =>
      obtain rfl := Option.some.inj rest
      exact onExit_not_live moved
    | cons other others => exact inductionHypothesis (List.cons_ne_nil other others) rest

end Exits

/-- The termination signals the live children and no other node exactly if every
`uv_spawn` succeeded and no child has exited. -/
theorem signals_live_iff (uvSpawn : Nat → Option Pid) (config : List (List γ))
    (exits : List (Nat × Nat)) (final : List (List (ProcessInfoNode γ)))
    (reached : exitMachine.run
      (launchAllProcesses uvSpawn 0 (config.map (List.map ProcessInfoNode.read))).nodes exits =
        some final) :
    SignalsLive final ↔
      (∀ call < config.flatten.length, (uvSpawn call).isSome) ∧ exits = [] := by
  have spawns := launchAllProcesses_live uvSpawn 0 (config.map (List.map ProcessInfoNode.read))
  simp only [← List.map_flatten, List.length_map, SpawnsSucceed, Nat.zero_add] at spawns
  rw [signalsLive_iff]
  constructor
  · intro allLive
    by_cases noExit : exits = []
    · subst noExit
      obtain rfl := Option.some.inj reached
      exact ⟨spawns.mp allLive, rfl⟩
    · obtain ⟨node, member, dead⟩ := exits_not_live noExit reached
      exact absurd (allLive node member) dead
  · rintro ⟨succeeded, rfl⟩
    obtain rfl := Option.some.inj reached
    exact spawns.mpr succeeded

/-- Two groups whose processes all start and stay alive. -/
theorem signals_live_started :
    SignalsLive (γ := String)
      [[⟨"session", 100, false⟩, ⟨"logger", 101, false⟩], [⟨"tunnel", 102, false⟩]] :=
  (signals_live_iff
    (fun call => ([⟨100, by decide⟩, ⟨101, by decide⟩, ⟨102, by decide⟩] : List Pid)[call]?)
    [["session", "logger"], ["tunnel"]] [] _ rfl).mpr ⟨by decide, rfl⟩

/-- A group whose first process does not start is signalled all the same, with pid 0
for the process that failed and for the one that was never spawned. So is a child
that has exited. -/
theorem failed_spawn_signalled :
    (exitMachine.run (launchAllProcesses (fun _ => none) 0
        ([["session", "logger"]].map (List.map ProcessInfoNode.read))).nodes [] =
          some [[⟨"session", 0, false⟩, ⟨"logger", 0, false⟩]] ∧
      ¬ SignalsLive (γ := String) [[⟨"session", 0, false⟩, ⟨"logger", 0, false⟩]]) ∧
    (exitMachine.run (launchAllProcesses (fun _ => some ⟨100, by decide⟩) 0
        ([["session"]].map (List.map ProcessInfoNode.read))).nodes [(0, 0)] =
          some [[⟨"session", 100, true⟩]] ∧
      ¬ SignalsLive (γ := String) [[⟨"session", 100, true⟩]]) := by
  refine ⟨⟨rfl, fun signals => ?_⟩, ⟨rfl, fun signals => ?_⟩⟩
  · exact (signals.only _ List.mem_cons_self).1 rfl
  · exact Bool.noConfusion (signals.only _ List.mem_cons_self).2

end Evlpc
