import Evlpc.EventBatch

/-!
# Runs of the event loop

`run` waits for events again and again. `epoll_wait` gives it no more than 32, each for
another registered descriptor, or is interrupted by a signal; the listeners of a batch
are called before it waits again, and change the table that the next batch is taken
from.

Nothing in the loop keeps an event from a listener that took the slot of a removed
descriptor, so the listeners have to. It is enough that a callback removes no
descriptor of another event of its batch, and that nothing is added without a
listener: then every event of every batch reaches the listener it was raised for.
-/

namespace Evlpc

open Library

universe u v
variable {Λ : Type u} {β : Type v}

/-- `MAX_EVENTS`. -/
def maxEvents : Nat := 32

/-- An event as `epoll_wait` stores it, and the calls that its callback makes. -/
structure Wakeup (Λ : Type u) where
  slot : Slot
  events : UInt32
  calls : List (ListenerCall Λ)

/-- What `epoll_wait` returns: nothing, as a signal came in, or a batch. -/
inductive Wait (Λ : Type u) where
  | interrupted : Wait Λ
  | returned (batch : List (Wakeup Λ)) : Wait Λ

/-- The events of a batch, each raised for a registered descriptor. -/
def raisedFor (raised : EventLoop Λ) :
    List (Wakeup Λ) → Option (List (Ready raised × List (ListenerCall Λ)))
  | [] => some []
  | wakeup :: batch =>
    if registered : raised.fds wakeup.slot ≠ 0 then
      (raisedFor raised batch).map fun readies =>
        (⟨wakeup.slot, registered, wakeup.events⟩, wakeup.calls) :: readies
    else none

/-- A batch: a bounded number of events, at most one for each descriptor. -/
def epollWait (raised : EventLoop Λ) (batch : List (Wakeup Λ)) :
    Option (List (Ready raised × List (ListenerCall Λ))) :=
  if batch.length ≤ maxEvents ∧ (batch.map Wakeup.slot).Nodup then
    raisedFor raised batch
  else none

/-- `run`: the loop goes on after a signal, and after a batch whose events have all been
passed on. -/
def runMachine (callback : Λ → Option β) : Machine (Watched Λ) (Wait Λ) where
  step watched
    | .interrupted => some watched
    | .returned batch =>
      match epollWait watched.loop batch with
      | none => none
      | some readies =>
        ((batchMachine callback watched.loop).run (Serving.begin watched) readies).map
          Serving.watched

/-- No call removes the descriptor of another event of the batch, and every descriptor is
added with a listener. -/
def Spares (watched : Watched Λ) : Wait Λ → Prop
  | .interrupted => True
  | .returned batch => ∀ wakeup ∈ batch, ∀ call ∈ wakeup.calls,
      (∀ fd ∈ call.removes, ∀ other ∈ batch, watched.loop.fds other.slot = fd →
        other.slot = wakeup.slot) ∧
      ∀ fd sock listener accepted, call = .add fd sock listener accepted → listener ≠ none

/-- Every event of a batch takes effect as it should. -/
def DeliversBatch (callback : Λ → Option β) (watched : Watched Λ) : Wait Λ → Prop
  | .interrupted => True
  | .returned batch => ∀ readies, epollWait watched.loop batch = some readies →
      (batchMachine callback watched.loop).Along (TakesEffectAtOnce callback watched.loop)
        (Serving.begin watched) readies

/-- Every descriptor was added with a listener. -/
def Watched.Listening (watched : Watched Λ) : Prop :=
  ∀ fd sock listener, watched.given fd = some (sock, listener) → listener ≠ none

/-- A taken slot has a listener if none was added without one. -/
theorem Watched.Listening.listens {watched : Watched Λ} (listening : watched.Listening)
    (sound : watched.Sound) (slot : Slot) (taken : watched.loop.fds slot ≠ 0) :
    watched.loop.listeners slot ≠ none :=
  listening _ _ _ (sound.kept slot taken)

/-- A call that adds nothing without a listener keeps every descriptor listening. -/
theorem listening_step (watched next : Watched Λ) (call : LoopCall Λ)
    (listening : watched.Listening) (moved : loopMachine.step watched call = some next)
    (listens : ∀ fd sock listener accepted, call = .add fd sock listener accepted →
      listener ≠ none) : next.Listening := by
  cases call with
  | add fd sock listener accepted =>
    obtain ⟨result, -, rfl⟩ := Option.map_eq_some_iff.mp moved
    intro other otherSock otherListener given
    by_cases added : result.2 = 0
    · simp only [if_pos added] at given
      by_cases same : other = fd.val
      · rw [same, Function.update_self] at given
        obtain ⟨rfl, rfl⟩ := Prod.mk.inj (Option.some.inj given)
        exact listens fd sock listener accepted rfl
      · rw [Function.update_of_ne same] at given
        exact listening other otherSock otherListener given
    · simp only [if_neg added] at given
      exact listening other otherSock otherListener given
  | delete fd =>
    obtain ⟨result, -, rfl⟩ := Option.map_eq_some_iff.mp moved
    exact listening
  | deleteAll =>
    obtain ⟨result, -, rfl⟩ := Option.map_eq_some_iff.mp moved
    exact listening

/-- So do any calls that do. -/
theorem listening_run (watched final : Watched Λ) (calls : List (LoopCall Λ))
    (listening : watched.Listening) (reached : loopMachine.run watched calls = some final)
    (listens : ∀ fd sock listener accepted, LoopCall.add fd sock listener accepted ∈ calls →
      listener ≠ none) : final.Listening := by
  induction calls generalizing watched with
  | nil => exact Option.some.inj reached ▸ listening
  | cons call calls inductionHypothesis =>
    obtain ⟨next, moved, rest⟩ := loopMachine.run_cons_some.mp reached
    have kept := listening_step watched next call listening moved
      fun fd sock listener accepted same =>
        listens fd sock listener accepted (same ▸ List.mem_cons_self)
    exact inductionHypothesis next kept rest fun fd sock listener accepted member =>
      listens fd sock listener accepted (List.mem_cons_of_mem _ member)

section Batch

variable (callback : Λ → Option β) (raised : EventLoop Λ)

/-- What the calls of a callback leave: only what they remove is removed, and every
descriptor is still listening if they add nothing without a listener. -/
theorem calls_leave (serving next : Serving Λ) (calls : List (ListenerCall Λ))
    (listening : serving.watched.Listening) (reached : callMachine.run serving calls = some next)
    (listens : ∀ call ∈ calls, ∀ fd sock listener accepted,
      call = ListenerCall.add fd sock listener accepted → listener ≠ none) :
    next.watched.Listening ∧ ∀ fd ∈ next.removed, fd ∈ serving.removed ∨
      ∃ call ∈ calls, fd ∈ call.removes := by
  induction calls generalizing serving with
  | nil =>
    obtain rfl := Option.some.inj reached
    exact ⟨listening, fun fd removed => Or.inl removed⟩
  | cons call calls inductionHypothesis =>
    obtain ⟨middle, moved, rest⟩ := callMachine.run_cons_some.mp reached
    obtain ⟨watched, called, rfl⟩ := Option.map_eq_some_iff.mp moved
    have kept : watched.Listening := by
      refine listening_step serving.watched watched call.toLoopCall listening called ?_
      intro fd sock listener accepted same
      cases call with
      | add ownFd ownSock ownListener ownAccepted =>
        obtain ⟨rfl, rfl, rfl, rfl⟩ := LoopCall.add.inj same
        exact listens _ List.mem_cons_self ownFd ownSock ownListener ownAccepted rfl
      | delete ownFd => cases same
    obtain ⟨last, removed⟩ := inductionHypothesis _ kept rest
      fun other member => listens other (List.mem_cons_of_mem _ member)
    refine ⟨last, ?_⟩
    intro fd member
    rcases removed fd member with before | ⟨other, among, removes⟩
    · rcases List.mem_append.mp before with own | earlier
      · exact Or.inr ⟨call, List.mem_cons_self, own⟩
      · exact Or.inl earlier
    · exact Or.inr ⟨other, List.mem_cons_of_mem _ among, removes⟩

/-- An event leaves what the calls of its callback leave, or nothing new. -/
theorem event_leaves (serving next : Serving Λ) (event : Ready raised × List (ListenerCall Λ))
    (listening : serving.watched.Listening)
    (moved : (batchMachine callback raised).step serving event = some next)
    (listens : ∀ call ∈ event.2, ∀ fd sock listener accepted,
      call = ListenerCall.add fd sock listener accepted → listener ≠ none) :
    next.watched.Listening ∧ ∀ fd ∈ next.removed, fd ∈ serving.removed ∨
      ∃ call ∈ event.2, fd ∈ call.removes := by
  simp only [batchMachine] at moved
  split at moved
  · cases moved
  · cases moved
  · obtain rfl := Option.some.inj moved
    exact ⟨listening, fun fd removed => Or.inl removed⟩
  · exact calls_leave serving next event.2 listening moved listens

/-- Events of distinct slots whose descriptors are not removed, neither before nor by one
another, all take effect as they should, and the last one leaves every descriptor
listening. Induct over the events: what the callback of one removes is of no other. -/
theorem spared_delivered (sound : ∀ slot, raised.fds slot ≠ 0 → raised.listeners slot ≠ none)
    (serving : Serving Λ) (holds : serving.Sound raised) (listening : serving.watched.Listening)
    (readies : List (Ready raised × List (ListenerCall Λ)))
    (distinct : (readies.map fun event => event.1.slot).Nodup)
    (there : ∀ event ∈ readies, raised.fds event.1.slot ∉ serving.removed)
    (spares : ∀ event ∈ readies, ∀ call ∈ event.2,
      (∀ fd ∈ call.removes, ∀ other ∈ readies, raised.fds other.1.slot = fd →
        other.1.slot = event.1.slot) ∧
      ∀ fd sock listener accepted, call = ListenerCall.add fd sock listener accepted →
        listener ≠ none) :
    (batchMachine callback raised).Along (TakesEffectAtOnce callback raised) serving readies ∧
      ∀ final, (batchMachine callback raised).run serving readies = some final →
        final.watched.Sound ∧ final.watched.Listening := by
  induction readies generalizing serving with
  | nil =>
    refine ⟨trivial, ?_⟩
    intro final reached
    obtain rfl := Option.some.inj reached
    exact ⟨holds.watched, listening⟩
  | cons event readies inductionHypothesis =>
    obtain ⟨alone, others⟩ := List.nodup_cons.mp distinct
    have later : ∀ next, (batchMachine callback raised).step serving event = some next →
        (batchMachine callback raised).Along (TakesEffectAtOnce callback raised) next readies ∧
          ∀ final, (batchMachine callback raised).run next readies = some final →
            final.watched.Sound ∧ final.watched.Listening := by
      intro next moved
      obtain ⟨kept, removed⟩ := event_leaves callback raised serving next event listening moved
        fun call member => (spares event List.mem_cons_self call member).2
      refine inductionHypothesis next (batchMachine_sound raised callback serving next event holds
        moved) kept others ?_ ?_
      · intro other member gone
        have among := List.mem_cons_of_mem event member
        rcases removed _ gone with before | ⟨call, own, removes⟩
        · exact there other among before
        · have same := (spares event List.mem_cons_self call own).1 _ removes other among rfl
          exact alone (List.mem_map.mpr ⟨other, member, same⟩)
      · intro other member call own
        obtain ⟨apart, listens⟩ := spares other (List.mem_cons_of_mem _ member) call own
        exact ⟨fun fd removes third among => apart fd removes third (List.mem_cons_of_mem _ among),
          listens⟩
    have here := (undisturbed_iff raised callback serving event holds).mp (Or.inr (Or.inl
      ⟨there event List.mem_cons_self, sound event.1.slot event.1.registered⟩))
    refine ⟨⟨here, fun next moved => (later next moved).1⟩, ?_⟩
    intro final reached
    obtain ⟨next, moved, rest⟩ := (Machine.run_cons_some _).mp reached
    exact (later next moved).2 final rest

end Batch

/-- The events of a batch have the slots and the calls of what `epoll_wait` stored. -/
theorem raisedFor_same (raised : EventLoop Λ) (batch : List (Wakeup Λ))
    (readies : List (Ready raised × List (ListenerCall Λ)))
    (given : raisedFor raised batch = some readies) :
    readies.map (fun event => (event.1.slot, event.2)) =
      batch.map fun wakeup => (wakeup.slot, wakeup.calls) := by
  induction batch generalizing readies with
  | nil =>
    obtain rfl := Option.some.inj given
    rfl
  | cons wakeup batch inductionHypothesis =>
    rw [raisedFor] at given
    split at given
    · obtain ⟨rest, raisedRest, rfl⟩ := Option.map_eq_some_iff.mp given
      rw [List.map_cons, List.map_cons, inductionHypothesis rest raisedRest]
    · cases given

/-- A batch that spares the others delivers all of its events, and leaves a table in which
every descriptor has a listener. -/
theorem batch_spared (callback : Λ → Option β) (watched : Watched Λ) (sound : watched.Sound)
    (listening : watched.Listening) (batch : List (Wakeup Λ))
    (spares : Spares watched (.returned batch))
    (readies : List (Ready watched.loop × List (ListenerCall Λ)))
    (given : epollWait watched.loop batch = some readies) :
    (batchMachine callback watched.loop).Along (TakesEffectAtOnce callback watched.loop)
        (Serving.begin watched) readies ∧
      ∀ final, (batchMachine callback watched.loop).run (Serving.begin watched) readies =
        some final → final.watched.Sound ∧ final.watched.Listening := by
  rw [epollWait] at given
  split at given
  case isFalse => cases given
  case isTrue bounded =>
    have same := raisedFor_same watched.loop batch readies given
    have slots : readies.map (fun event => event.1.slot) = batch.map Wakeup.slot := by
      have first := congrArg (List.map Prod.fst) same
      rwa [List.map_map, List.map_map] at first
    have stored : ∀ event ∈ readies, ∃ wakeup ∈ batch,
        wakeup.slot = event.1.slot ∧ wakeup.calls = event.2 := by
      intro event member
      have among : (event.1.slot, event.2) ∈ batch.map fun wakeup =>
          (wakeup.slot, wakeup.calls) := same ▸ List.mem_map.mpr ⟨event, member, rfl⟩
      obtain ⟨wakeup, inBatch, pair⟩ := List.mem_map.mp among
      obtain ⟨slot, calls⟩ := Prod.mk.inj pair
      exact ⟨wakeup, inBatch, slot, calls⟩
    refine spared_delivered callback watched.loop (listening.listens sound)
      (Serving.begin watched) (begin_sound watched sound) listening readies (slots ▸ bounded.2)
      (fun _ _ => List.not_mem_nil) ?_
    intro event member call own
    obtain ⟨wakeup, inBatch, slot, calls⟩ := stored event member
    obtain ⟨apart, listens⟩ := spares wakeup inBatch call (calls ▸ own)
    refine ⟨?_, listens⟩
    intro fd removes other otherMember names
    obtain ⟨otherWakeup, otherInBatch, otherSlot, -⟩ := stored other otherMember
    rw [← otherSlot, ← slot]
    exact apart fd removes otherWakeup otherInBatch (otherSlot ▸ names)

/-- If callbacks spare the other events of their batches, then along every run of the loop,
with whatever was added before it, every event is delivered to the listener of the
descriptor it was raised for, or dropped, and the table agrees with epoll at the end. -/
theorem spared_runs_deliver (callback : Λ → Option β) (epfd : Int32) (loop : EventLoop Λ)
    (constructed : EventLoop.construct epfd = some loop) (calls : List (LoopCall Λ))
    (watched : Watched Λ) (reached : loopMachine.run (Watched.start loop) calls = some watched)
    (listens : ∀ fd sock listener accepted, LoopCall.add fd sock listener accepted ∈ calls →
      listener ≠ none)
    (waits : List (Wait Λ)) (spares : (runMachine callback).Along Spares watched waits) :
    (runMachine callback).Along (DeliversBatch callback) watched waits ∧
      ∀ final, (runMachine callback).run watched waits = some final → final.Agrees := by
  obtain ⟨start, again, startSound⟩ :=
    loopMachine_run (Watched.start loop) (Watched.start_sound epfd loop constructed) calls
  obtain rfl := Option.some.inj (reached.symm.trans again)
  have none : (Watched.start loop).Listening := by
    intro fd sock listener given
    cases given
  have startListening := listening_run _ _ calls none reached listens
  have preserved : ∀ (state : Watched Λ) wait next, state.Sound ∧ state.Listening →
      Spares state wait → (runMachine callback).step state wait = some next →
      next.Sound ∧ next.Listening := by
    rintro state wait next ⟨sound, listening⟩ spared moved
    cases wait with
    | interrupted => exact Option.some.inj moved ▸ ⟨sound, listening⟩
    | returned batch =>
      simp only [runMachine] at moved
      cases given : epollWait state.loop batch with
      | none =>
        rw [given] at moved
        cases moved
      | some readies =>
        simp only [given, Option.map_eq_some_iff] at moved
        obtain ⟨final, served, rfl⟩ := moved
        exact (batch_spared callback state sound listening batch spared readies given).2 final
          served
  constructor
  · refine (runMachine callback).along_of_guard (fun state => state.Sound ∧ state.Listening) Spares
      (DeliversBatch callback) ?_ preserved watched waits ⟨startSound, startListening⟩ spares
    rintro state wait ⟨sound, listening⟩ spared
    cases wait with
    | interrupted => trivial
    | returned batch =>
      intro readies given
      exact (batch_spared callback state sound listening batch spared readies given).1
  · intro final served
    exact ((runMachine callback).guarded_invariant
      (fun state => state.Sound ∧ state.Listening) Spares preserved watched final waits
      ⟨startSound, startListening⟩ spares served).1.agrees

/-- Two descriptors are ready and their callbacks remove them, the second one after adding
another; then a signal comes in, and then data for the new one in the slot of the first. -/
def ownRemovals (slot next : Slot) (first second added : OpenFd) : List (Wait Nat) :=
  [.returned [⟨slot, epollIn, [.delete first]⟩,
      ⟨next, epollIn, [.add added 3 (some 90) true, .delete second]⟩],
    .interrupted, .returned [⟨slot, epollIn, []⟩]]

/-- Callbacks that remove their own descriptors spare the others. -/
theorem spared_runs_deliver_own :
    (runMachine some).Along (DeliversBatch some) twoWatched
        (ownRemovals 0 1 ⟨7, by decide⟩ ⟨8, by decide⟩ ⟨9, by decide⟩) ∧
      ∀ final, (runMachine some).run twoWatched
        (ownRemovals 0 1 ⟨7, by decide⟩ ⟨8, by decide⟩ ⟨9, by decide⟩) = some final →
        final.Agrees := by
  refine spared_runs_deliver some 4 emptyLoop (by rfl) twoDescriptors twoWatched
    (Option.some_get twoDescriptors_run).symm ?_ _ ?_
  · intro fd sock listener accepted member
    rcases List.mem_pair.mp member with first | second
    · obtain ⟨-, -, rfl, -⟩ := LoopCall.add.inj first
      exact Option.some_ne_none 70
    · obtain ⟨-, -, rfl, -⟩ := LoopCall.add.inj second
      exact Option.some_ne_none 80
  · refine ⟨?_, fun _ _ => ⟨trivial, fun _ _ => ⟨?_, fun _ _ => trivial⟩⟩⟩
    · have first : twoWatched.loop.fds 0 = 7 := by decide
      have second : twoWatched.loop.fds 1 = 8 := by decide
      intro wakeup member call own
      rcases List.mem_pair.mp member with rfl | rfl
      · obtain rfl := List.mem_singleton.mp own
        refine ⟨?_, fun _ _ _ _ same => by cases same⟩
        intro fd removes other otherMember names
        obtain rfl := List.mem_singleton.mp removes
        rcases List.mem_pair.mp otherMember with rfl | rfl
        · rfl
        · rw [second] at names
          exact absurd names (by decide)
      · rcases List.mem_pair.mp own with rfl | rfl
        · refine ⟨fun _ removes => absurd removes List.not_mem_nil, ?_⟩
          intro fd sock listener accepted same
          obtain ⟨-, -, rfl, -⟩ := ListenerCall.add.inj same
          exact Option.some_ne_none 90
        · refine ⟨?_, fun _ _ _ _ same => by cases same⟩
          intro fd removes other otherMember names
          obtain rfl := List.mem_singleton.mp removes
          rcases List.mem_pair.mp otherMember with rfl | rfl
          · rw [first] at names
            exact absurd names (by decide)
          · rfl
    · intro wakeup member call own
      obtain rfl := List.mem_singleton.mp member
      exact absurd own List.not_mem_nil

end Evlpc
