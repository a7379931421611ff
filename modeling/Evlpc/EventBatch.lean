import Evlpc.EventLoop

/-!
# A batch of ready events

`run` takes a batch of events from `epoll_wait`, each with the slot of its
descriptor, and passes them one after the other to the listeners that stand in the
slots by then. The callbacks add and remove descriptors, so a slot may have been
freed, or freed and taken again, when the event that was raised for it is reached.

The calls that the callbacks make are numbered from 1. A slot is said to be filled
by the call that took it, and by 0 if it is taken since before the batch.
-/

namespace Evlpc

open Library

universe u v
variable {Λ : Type u} {β : Type v}

/-- `EPOLLIN`. -/
def epollIn : UInt32 := 0x001

/-- `EPOLLERR`. -/
def epollErr : UInt32 := 0x008

/-- `EPOLLHUP`. -/
def epollHup : UInt32 := 0x010

/-- An event of a batch: the slot it carries, whose descriptor was registered when
`epoll_wait` returned, and its flags. -/
structure Ready (raised : EventLoop Λ) where
  slot : Slot
  registered : raised.fds slot ≠ 0
  events : UInt32

/-- The flags with which `run` gives up. -/
def Faulty (events : UInt32) : Prop :=
  events &&& epollErr ≠ 0 ∨ events &&& epollHup ≠ 0 ∨ events &&& epollIn = 0

instance (events : UInt32) : Decidable (Faulty events) := inferInstanceAs (Decidable (_ ∨ _))

/-- What `run` does with an event. -/
inductive Handled (β : Type v) where
  | exits : Handled β
  | derefsNull : Handled β
  | drops : Handled β
  | delivers (callback : β) (fd userData : Int32) : Handled β

/-- The body of the loop over a batch. `callback` is the function pointer of a
listener, none for NULL. -/
def handleEvent (callback : Λ → Option β) (loop : EventLoop Λ) (slot : Slot) (events : UInt32) :
    Handled β :=
  if Faulty events then .exits
  else
    match loop.listeners slot with
    | none => .derefsNull
    | some listener =>
      match callback listener with
      | none => .drops
      | some function => .delivers function (loop.fds slot) (loop.userData slot)

/-- A call that a callback makes. -/
inductive ListenerCall (Λ : Type u) where
  | add (fd : OpenFd) (sock : Int32) (listener : Option Λ) (accepted : Bool) : ListenerCall Λ
  | delete (fd : OpenFd) : ListenerCall Λ

/-- The call as one of any caller. -/
def ListenerCall.toLoopCall : ListenerCall Λ → LoopCall Λ
  | .add fd sock listener accepted => .add fd sock listener accepted
  | .delete fd => .delete fd

/-- The descriptors that a call removes. -/
def ListenerCall.removes : ListenerCall Λ → List Int32
  | .add _ _ _ _ => []
  | .delete fd => [fd.val]

/-- The loop while a batch is processed: the number of the next call, the calls that
filled the slots, and the descriptors removed since the batch was taken. -/
structure Serving (Λ : Type u) where
  watched : Watched Λ
  calls : Nat
  filledBy : Slot → Nat
  removed : List Int32

/-- `epoll_wait` has returned. -/
def Serving.begin (watched : Watched Λ) : Serving Λ := ⟨watched, 1, fun _ => 0, []⟩

/-- The calls of the callbacks. -/
def callMachine : Machine (Serving Λ) (ListenerCall Λ) where
  step serving call :=
    (loopMachine.step serving.watched call.toLoopCall).map fun next =>
      { watched := next
        calls := serving.calls + 1
        filledBy := fun slot =>
          if serving.watched.loop.fds slot = 0 then serving.calls else serving.filledBy slot
        removed := call.removes ++ serving.removed }

/-- The loop over a batch. An event comes with the calls that the callback makes, if
one is invoked. There is no next event after an exit or a null pointer. -/
def batchMachine (callback : Λ → Option β) (raised : EventLoop Λ) :
    Machine (Serving Λ) (Ready raised × List (ListenerCall Λ)) where
  step serving event :=
    match handleEvent callback serving.watched.loop event.1.slot event.1.events with
    | .exits => none
    | .derefsNull => none
    | .drops => some serving
    | .delivers _ _ _ => callMachine.run serving event.2

/-- An event is dropped, or delivered to the listener of the descriptor it was raised
for, which has been registered ever since; and no null pointer is used. -/
def TakesEffectAtOnce (callback : Λ → Option β) (raised : EventLoop Λ) (serving : Serving Λ)
    (event : Ready raised × List (ListenerCall Λ)) : Prop :=
  match handleEvent callback serving.watched.loop event.1.slot event.1.events with
  | .exits => True
  | .derefsNull => False
  | .drops => True
  | .delivers function fd userData =>
    serving.filledBy event.1.slot = 0 ∧ serving.watched.loop.fds event.1.slot ≠ 0 ∧
      fd = raised.fds event.1.slot ∧ userData = raised.userData event.1.slot ∧
      (raised.listeners event.1.slot).bind callback = some function

/-- `run` gives up on the event; or its descriptor was registered with a listener, and
no callback of the batch has removed it; or its slot holds a listener without a
callback by now. -/
def Undisturbed (callback : Λ → Option β) (raised : EventLoop Λ) (serving : Serving Λ)
    (event : Ready raised × List (ListenerCall Λ)) : Prop :=
  Faulty event.1.events ∨
    (raised.fds event.1.slot ∉ serving.removed ∧ raised.listeners event.1.slot ≠ none) ∨
    ∃ listener, serving.watched.loop.listeners event.1.slot = some listener ∧
      callback listener = none

instance (callback : Λ → Option β) (raised : EventLoop Λ) (serving : Serving Λ)
    (event : Ready raised × List (ListenerCall Λ)) :
    Decidable (Undisturbed callback raised serving event) :=
  decidable_of_iff (Faulty event.1.events ∨
    (raised.fds event.1.slot ∉ serving.removed ∧
      (raised.listeners event.1.slot).isSome = true) ∨
    ∃ listener ∈ serving.watched.loop.listeners event.1.slot, (callback listener).isNone = true)
    (by simp only [Undisturbed, Option.isSome_iff_ne_none, Option.isNone_iff_eq_none,
      Option.mem_def])

/-- A slot that was taken when the batch began: it is as it was then, or its
descriptor was removed and the slot is free or was filled since. -/
inductive Serving.Tracks (raised : EventLoop Λ) (serving : Serving Λ) (slot : Slot) : Prop
  | untouched (kept : raised.fds slot ∉ serving.removed)
      (fds : serving.watched.loop.fds slot = raised.fds slot)
      (userData : serving.watched.loop.userData slot = raised.userData slot)
      (listeners : serving.watched.loop.listeners slot = raised.listeners slot)
      (before : serving.filledBy slot = 0)
  | freed (removed : raised.fds slot ∈ serving.removed)
      (after : serving.watched.loop.fds slot ≠ 0 → serving.filledBy slot ≠ 0)

/-- What holds while a batch is processed. -/
structure Serving.Sound (raised : EventLoop Λ) (serving : Serving Λ) : Prop where
  watched : serving.watched.Sound
  counting : serving.calls ≠ 0
  tracks : ∀ slot, raised.fds slot ≠ 0 → serving.Tracks raised slot

/-- When a batch begins, every slot is as it was when its event was raised. -/
theorem begin_sound (watched : Watched Λ) (sound : watched.Sound) :
    (Serving.begin watched).Sound watched.loop := by
  refine ⟨sound, Nat.one_ne_zero, ?_⟩
  intro slot _
  exact .untouched List.not_mem_nil rfl rfl rfl rfl

section Calls

/-- What a call does to the table: a descriptor is added at a free slot, or the one of
a slot is deleted, or nothing; and a call that deletes nothing names no descriptor of
the table. -/
theorem loopMachine_cases (watched next : Watched Λ) (sound : watched.Sound)
    (call : ListenerCall Λ) (moved : loopMachine.step watched call.toLoopCall = some next) :
    (next.loop = watched.loop ∧ ∀ fd ∈ call.removes, ∀ slot, watched.loop.fds slot ≠ fd) ∨
    (∃ place fd sock listener, call.removes = [] ∧ watched.loop.fds place = 0 ∧
      next.loop = addedAt watched.loop place fd sock listener) ∨
    ∃ place fd, call.removes = [fd] ∧ watched.loop.fds place = fd ∧ fd ≠ 0 ∧
      next.loop = deletedAt watched.loop place fd := by
  cases call with
  | add fd sock listener accepted =>
    rcases addFd_cases watched sound fd.val sock listener accepted with
      refused | ⟨place, vacant, -, added⟩
    · simp only [loopMachine, ListenerCall.toLoopCall, refused, Option.map_some,
        Option.some.injEq] at moved
      subst moved
      exact Or.inl ⟨rfl, fun fd member => absurd member List.not_mem_nil⟩
    · simp only [loopMachine, ListenerCall.toLoopCall, added, Option.map_some,
        Option.some.injEq] at moved
      subst moved
      exact Or.inr (Or.inl ⟨place, fd.val, sock, listener, rfl, vacant, rfl⟩)
  | delete fd =>
    by_cases known : ∃ slot, watched.loop.fds slot = fd.val
    · obtain ⟨place, stored⟩ := known
      have deleted := deleteFromEventLoop_found watched sound fd place stored
      simp only [loopMachine, ListenerCall.toLoopCall, deleted, Option.map_some,
        Option.some.injEq] at moved
      subst moved
      exact Or.inr (Or.inr ⟨place, fd.val, rfl, stored, fd.ne_zero, rfl⟩)
    · rcases deleteFromEventLoop_cases watched sound fd with unknown | ⟨place, stored, -⟩
      · simp only [loopMachine, ListenerCall.toLoopCall, unknown, Option.map_some,
          Option.some.injEq] at moved
        subst moved
        refine Or.inl ⟨rfl, ?_⟩
        intro other member slot stored
        rw [List.mem_singleton.mp member] at stored
        exact known ⟨slot, stored⟩
      · exact absurd ⟨place, stored⟩ known

/-- A call leaves a taken slot alone unless it removes its descriptor, and then frees
it. -/
theorem loopMachine_slot (watched next : Watched Λ) (sound : watched.Sound)
    (call : ListenerCall Λ) (moved : loopMachine.step watched call.toLoopCall = some next)
    (slot : Slot) (taken : watched.loop.fds slot ≠ 0) :
    (watched.loop.fds slot ∉ call.removes → next.loop.fds slot = watched.loop.fds slot ∧
      next.loop.userData slot = watched.loop.userData slot ∧
      next.loop.listeners slot = watched.loop.listeners slot) ∧
    (watched.loop.fds slot ∈ call.removes → next.loop.fds slot = 0) := by
  rcases loopMachine_cases watched next sound call moved with
    ⟨same, names⟩ | ⟨place, fd, sock, listener, none, vacant, added⟩ |
      ⟨place, fd, one, stored, occupied, deleted⟩
  · rw [same]
    exact ⟨fun _ => ⟨rfl, rfl, rfl⟩, fun member => absurd rfl (names _ member slot)⟩
  · have elsewhere : slot ≠ place := by
      rintro rfl
      exact taken vacant
    rw [added, none]
    simp only [addedAt, useSlot, Function.update_of_ne elsewhere]
    exact ⟨fun _ => ⟨trivial, trivial, trivial⟩, fun member => absurd member List.not_mem_nil⟩
  · rw [deleted, one, List.mem_singleton]
    constructor
    · intro different
      have elsewhere : slot ≠ place := by
        rintro rfl
        exact different stored
      simp only [deletedAt, freeSlot, Function.update_of_ne elsewhere]
      exact ⟨trivial, trivial, trivial⟩
    · intro here
      obtain rfl := sound.mirrored.distinct slot place taken (here.trans stored.symm)
      simp only [deletedAt, freeSlot, Function.update_self]

variable (raised : EventLoop Λ)

/-- A call keeps track of every slot that was taken when the batch began. -/
theorem callMachine_sound (serving next : Serving Λ) (call : ListenerCall Λ)
    (sound : serving.Sound raised) (moved : callMachine.step serving call = some next) :
    next.Sound raised := by
  obtain ⟨watched, called, rfl⟩ := Option.map_eq_some_iff.mp moved
  obtain ⟨reached, again, watchedSound⟩ :=
    loopMachine_step serving.watched sound.watched call.toLoopCall
  obtain rfl := Option.some.inj (called.symm.trans again)
  refine ⟨watchedSound, Nat.succ_ne_zero _, ?_⟩
  intro slot taken
  cases sound.tracks slot taken with
  | untouched kept fds userData listeners before =>
    have occupied : serving.watched.loop.fds slot ≠ 0 := fds ▸ taken
    obtain ⟨alone, freed⟩ := loopMachine_slot serving.watched watched sound.watched call called slot
      occupied
    rw [fds, userData, listeners] at alone
    rw [fds] at freed
    by_cases removes : raised.fds slot ∈ call.removes
    · exact .freed (List.mem_append_left _ removes) fun filled => absurd (freed removes) filled
    · obtain ⟨sameFds, sameUserData, sameListeners⟩ := alone removes
      refine .untouched ?_ sameFds sameUserData sameListeners ?_
      · intro member
        exact (List.mem_append.mp member).elim removes kept
      · exact (if_neg occupied).trans before
  | freed removed after =>
    refine .freed (List.mem_append_right _ removed) ?_
    intro filled
    by_cases vacant : serving.watched.loop.fds slot = 0
    · simp only [if_pos vacant]
      exact sound.counting
    · simp only [if_neg vacant]
      exact after vacant

variable (callback : Λ → Option β)

/-- So does an event. -/
theorem batchMachine_sound (serving next : Serving Λ)
    (event : Ready raised × List (ListenerCall Λ)) (sound : serving.Sound raised)
    (moved : (batchMachine callback raised).step serving event = some next) :
    next.Sound raised := by
  simp only [batchMachine] at moved
  split at moved
  · cases moved
  · cases moved
  · obtain rfl := Option.some.inj moved
    exact sound
  · exact callMachine.run_invariant (Serving.Sound raised)
      (fun state call after sound moved => callMachine_sound raised state after call sound moved)
      serving next event.2 sound moved

/-- An event takes effect as it should exactly if it is not disturbed. -/
theorem undisturbed_iff (serving : Serving Λ) (event : Ready raised × List (ListenerCall Λ))
    (sound : serving.Sound raised) :
    Undisturbed callback raised serving event ↔
      TakesEffectAtOnce callback raised serving event := by
  obtain ⟨⟨slot, taken, events⟩, calls⟩ := event
  unfold Undisturbed TakesEffectAtOnce handleEvent
  by_cases faulty : Faulty events
  · simp [faulty]
  · simp only [faulty, if_false, false_or]
    cases sound.tracks slot taken with
    | untouched kept fds userData listeners before =>
      rw [listeners]
      cases given : raised.listeners slot with
      | none => simp
      | some listener =>
        cases pointer : callback listener with
        | none => simp [pointer]
        | some function => simp [pointer, kept, before, fds, userData, taken]
    | freed removed after =>
      cases present : serving.watched.loop.listeners slot with
      | none => simp [removed]
      | some listener =>
        have filled : serving.watched.loop.fds slot ≠ 0 := by
          intro vacant
          have cleared := (sound.watched.cleared slot vacant).2
          rw [present] at cleared
          cases cleared
        cases pointer : callback listener with
        | none => simp [pointer]
        | some function => simp [pointer, removed, after filled]

end Calls

/-- A new event loop on the epoll descriptor 4. -/
def emptyLoop : EventLoop Nat := ⟨4, fun _ => 0, fun _ => 0, fun _ => none, fun _ => none⟩

/-- The descriptors 7 and 8 are added. -/
def twoDescriptors : List (LoopCall Nat) :=
  [.add ⟨7, by decide⟩ 1 (some 70) true, .add ⟨8, by decide⟩ 2 (some 80) true]

/-- Both descriptors are added. -/
theorem twoDescriptors_run :
    (loopMachine.run (Watched.start emptyLoop) twoDescriptors).isSome = true := by
  decide

/-- The loop with the two descriptors in its first two slots. -/
def twoWatched : Watched Nat :=
  (loopMachine.run (Watched.start emptyLoop) twoDescriptors).get twoDescriptors_run

/-- Data for both of them, and the calls that the two callbacks make. -/
def bothReady (first second : List (ListenerCall Nat)) :
    List (Ready twoWatched.loop × List (ListenerCall Nat)) :=
  [(⟨0, by decide, epollIn⟩, first), (⟨1, by decide, epollIn⟩, second)]

end Evlpc
