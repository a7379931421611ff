import Evlpc.Library.Machine
import Evlpc.Library.SlotTable

/-!
# The descriptor table of the event loop

The `EventLoop` of `libcommon` keeps the descriptors it watches in a table of 64
slots: the descriptor, the number its user passes along and the listener. The
descriptor is registered with epoll under its slot as the token, by which `run`
finds the listener of an event. A slot with descriptor 0 is free.

The kernel's side is the interest list of the loop's epoll descriptor, a map from
registered descriptors to tokens. It refuses a descriptor that is registered and
may refuse any other, for reasons that the calls choose. Descriptors are positive
and stay open while they are registered. A failed assertion ends the process.
-/

namespace Evlpc

open Library

universe u
variable {Λ : Type u}

/-- `MAX_FD_IN_LOOP`. -/
abbrev maxFdInLoop : Nat := 64

/-- An index of the three arrays. -/
abbrev Slot : Type := Fin maxFdInLoop

/-- `EventLoop`, with the interest list that the kernel keeps for `epfd`. A
listener is a pointer, and `none` is NULL. -/
structure EventLoop (Λ : Type u) where
  epfd : Int32
  fds : Slot → Int32
  userData : Slot → Int32
  listeners : Slot → Option Λ
  epoll : Int32 → Option Slot

/-- `initLoopFd` and `initLocalData`, which the constructor calls, where
`epoll_create1` returns `epfd`. -/
def EventLoop.construct (epfd : Int32) : Option (EventLoop Λ) :=
  if 0 < epfd then some ⟨epfd, fun _ => 0, fun _ => 0, fun _ => none, fun _ => none⟩ else none

/-- `epoll_ctl` with `EPOLL_CTL_ADD`, on a descriptor that the kernel is otherwise
willing to accept or not. -/
def epollCtlAdd (loop : EventLoop Λ) (fd : Int32) (token : Slot) (accepted : Bool) :
    EventLoop Λ × Int32 :=
  if accepted = true ∧ loop.epoll fd = none then
    ({ loop with epoll := Function.update loop.epoll fd (some token) }, 0)
  else (loop, -1)

/-- `epoll_ctl` with `EPOLL_CTL_DEL`. -/
def epollCtlDel (loop : EventLoop Λ) (fd : Int32) : EventLoop Λ × Int32 :=
  if loop.epoll fd = none then (loop, -1)
  else ({ loop with epoll := Function.update loop.epoll fd none }, 0)

/-- `freeSlot`. -/
def freeSlot (loop : EventLoop Λ) (slot : Slot) : EventLoop Λ :=
  { loop with
    fds := Function.update loop.fds slot 0
    userData := Function.update loop.userData slot 0
    listeners := Function.update loop.listeners slot none }

/-- `useSlot`. -/
def useSlot (loop : EventLoop Λ) (slot : Slot) (fd sock : Int32) (listener : Option Λ) :
    EventLoop Λ :=
  { loop with
    fds := Function.update loop.fds slot fd
    userData := Function.update loop.userData slot sock
    listeners := Function.update loop.listeners slot listener }

/-- `addToEventLoop`. -/
def addToEventLoop (loop : EventLoop Λ) (fd : Int32) (slot : Slot) (accepted : Bool) :
    Option (EventLoop Λ × Int32) :=
  if 0 ≤ loop.epfd then
    let (added, rc) := epollCtlAdd loop fd slot accepted
    if rc ≠ 0 then some (added, -1) else some (added, 0)
  else none

/-- `addFd`, from the given slot of its loop on. -/
def addFdFrom (loop : EventLoop Λ) (fd sock : Int32) (listener : Option Λ) (accepted : Bool) :
    List Slot → Option (EventLoop Λ × Int32)
  | [] => some (loop, -1)
  | slot :: slots =>
    if loop.fds slot = 0 then
      match addToEventLoop (useSlot loop slot fd sock listener) fd slot accepted with
      | none => none
      | some (added, rc) => if rc = 0 then some (added, 0) else some (freeSlot added slot, -1)
    else addFdFrom loop fd sock listener accepted slots

/-- `addFd`. -/
def addFd (loop : EventLoop Λ) (fd sock : Int32) (listener : Option Λ) (accepted : Bool) :
    Option (EventLoop Λ × Int32) :=
  addFdFrom loop fd sock listener accepted (List.finRange maxFdInLoop)

/-- `deleteFromEventLoop2`. Its third assertion bounds the slot, as the type does. -/
def deleteFromEventLoop2 (loop : EventLoop Λ) (fd : Int32) : Option (EventLoop Λ × Int32) :=
  if 0 < loop.epfd ∧ 0 < fd then
    let (deleted, rc) := epollCtlDel loop fd
    if rc ≠ 0 then some (deleted, -1) else some (deleted, 0)
  else none

/-- The loop of `deleteFromEventLoop`, from the given slot on. -/
def deleteFrom (loop : EventLoop Λ) (fd : Int32) : List Slot → Option (EventLoop Λ × Int32)
  | [] => some (loop, -1)
  | slot :: slots =>
    if fd = loop.fds slot then
      (deleteFromEventLoop2 (freeSlot loop slot) fd).map fun (deleted, _) => (deleted, 0)
    else deleteFrom loop fd slots

/-- `deleteFromEventLoop`. -/
def deleteFromEventLoop (loop : EventLoop Λ) (fd : Int32) : Option (EventLoop Λ × Int32) :=
  if 0 < fd then deleteFrom loop fd (List.finRange maxFdInLoop) else none

/-- The loop of `deleteAllFds`, from the given slot on. -/
def deleteAllFrom (loop : EventLoop Λ) : List Slot → Option (EventLoop Λ)
  | [] => some loop
  | slot :: slots =>
    let fd := loop.fds slot
    if 0 < fd then
      (deleteFromEventLoop2 (freeSlot loop slot) fd).bind fun (deleted, _) =>
        deleteAllFrom deleted slots
    else deleteAllFrom loop slots

/-- `deleteAllFds`. -/
def deleteAllFds (loop : EventLoop Λ) : Option (EventLoop Λ) :=
  deleteAllFrom loop (List.finRange maxFdInLoop)

/-- A descriptor as the kernel numbers those it opens for this process. -/
abbrev OpenFd : Type := { fd : Int32 // 0 < fd }

/-- The calls that change the table. -/
inductive LoopCall (Λ : Type u) where
  | add (fd : OpenFd) (sock : Int32) (listener : Option Λ) (accepted : Bool) : LoopCall Λ
  | delete (fd : OpenFd) : LoopCall Λ
  | deleteAll : LoopCall Λ

/-- The loop with a record of what the latest successful `addFd` of each
descriptor was given. -/
structure Watched (Λ : Type u) where
  loop : EventLoop Λ
  given : Int32 → Option (Int32 × Option Λ)

/-- A loop that nothing was ever added to. -/
def Watched.start (loop : EventLoop Λ) : Watched Λ := ⟨loop, fun _ => none⟩

/-- The effect of a call; none stands for a failed assertion. -/
def loopMachine : Machine (Watched Λ) (LoopCall Λ) where
  step watched call :=
    match call with
    | .add fd sock listener accepted =>
      (addFd watched.loop fd sock listener accepted).map fun (loop, rc) =>
        ⟨loop, if rc = 0 then Function.update watched.given fd.val (some (sock, listener))
          else watched.given⟩
    | .delete fd =>
      (deleteFromEventLoop watched.loop fd).map fun (loop, _) => ⟨loop, watched.given⟩
    | .deleteAll => (deleteAllFds watched.loop).map fun loop => ⟨loop, watched.given⟩

/-- The table agrees with epoll, and each slot with the call that filled it. -/
structure Watched.Agrees (watched : Watched Λ) : Prop where
  registered : ∀ fd slot, watched.loop.epoll fd = some slot ↔ watched.loop.fds slot = fd ∧ fd ≠ 0
  distinct : ∀ first second, watched.loop.fds first ≠ 0 →
    watched.loop.fds first = watched.loop.fds second → first = second
  cleared : ∀ slot, watched.loop.fds slot = 0 →
    watched.loop.userData slot = 0 ∧ watched.loop.listeners slot = none
  kept : ∀ slot, watched.loop.fds slot ≠ 0 → watched.given (watched.loop.fds slot) =
    some (watched.loop.userData slot, watched.loop.listeners slot)

/-- What every call preserves. -/
structure Watched.Sound (watched : Watched Λ) : Prop where
  opened : 0 < watched.loop.epfd
  mirrored : Mirrors watched.loop.epoll watched.loop.fds 0
  cleared : ∀ slot, watched.loop.fds slot = 0 →
    watched.loop.userData slot = 0 ∧ watched.loop.listeners slot = none
  kept : ∀ slot, watched.loop.fds slot ≠ 0 → watched.given (watched.loop.fds slot) =
    some (watched.loop.userData slot, watched.loop.listeners slot)

/-- What every call preserves is all that has to agree. -/
theorem Watched.Sound.agrees {watched : Watched Λ} (sound : watched.Sound) : watched.Agrees where
  registered := sound.mirrored
  distinct := sound.mirrored.distinct
  cleared := sound.cleared
  kept := sound.kept

/-- A new loop has an empty table and an empty interest list. -/
theorem Watched.start_sound (epfd : Int32) (loop : EventLoop Λ)
    (constructed : EventLoop.construct epfd = some loop) : (Watched.start loop).Sound := by
  unfold EventLoop.construct at constructed
  split at constructed
  case isTrue opened =>
    obtain rfl := Option.some.inj constructed
    exact ⟨opened, Mirrors.empty fun _ => rfl, fun _ _ => ⟨rfl, rfl⟩,
      fun _ occupied => absurd rfl occupied⟩
  case isFalse => cases constructed

/-- No open descriptor looks like a free slot. -/
theorem OpenFd.ne_zero (fd : OpenFd) : fd.val ≠ 0 := by
  intro zero
  have positive := fd.property
  rw [zero] at positive
  exact absurd positive (by decide)

/-- The loop after a descriptor has been added at a slot. -/
def addedAt (loop : EventLoop Λ) (slot : Slot) (fd sock : Int32) (listener : Option Λ) :
    EventLoop Λ :=
  { useSlot loop slot fd sock listener with
    epoll := Function.update loop.epoll fd (some slot) }

/-- The loop after the descriptor of a slot has been deleted. -/
def deletedAt (loop : EventLoop Λ) (slot : Slot) (fd : Int32) : EventLoop Λ :=
  { freeSlot loop slot with epoll := Function.update loop.epoll fd none }

/-- Taking a free slot and freeing it again restores its zeros. -/
theorem freeSlot_useSlot (loop : EventLoop Λ) (slot : Slot) (fd sock : Int32)
    (listener : Option Λ) (vacant : loop.fds slot = 0)
    (cleared : loop.userData slot = 0 ∧ loop.listeners slot = none) :
    freeSlot (useSlot loop slot fd sock listener) slot = loop := by
  have fds : Function.update loop.fds slot 0 = loop.fds := by
    rw [← vacant, Function.update_eq_self]
  have userData : Function.update loop.userData slot 0 = loop.userData := by
    rw [← cleared.1, Function.update_eq_self]
  have listeners : Function.update loop.listeners slot none = loop.listeners := by
    rw [← cleared.2, Function.update_eq_self]
  simp only [freeSlot, useSlot, Function.update_idem, fds, userData, listeners]

/-- The loop of `addFd` stops at the first free slot. -/
theorem addFdFrom_stops (loop : EventLoop Λ) (fd sock : Int32) (listener : Option Λ)
    (accepted : Bool) (opened : 0 < loop.epfd) (cleared : ∀ slot, loop.fds slot = 0 →
      loop.userData slot = 0 ∧ loop.listeners slot = none) (slots : List Slot) :
    ((∀ slot ∈ slots, loop.fds slot ≠ 0) ∧
      addFdFrom loop fd sock listener accepted slots = some (loop, -1)) ∨
    ∃ slot, loop.fds slot = 0 ∧ addFdFrom loop fd sock listener accepted slots =
      if accepted = true ∧ loop.epoll fd = none then some (addedAt loop slot fd sock listener, 0)
      else some (loop, -1) := by
  induction slots with
  | nil => exact Or.inl ⟨fun slot member => absurd member List.not_mem_nil, rfl⟩
  | cons slot slots inductionHypothesis =>
    by_cases vacant : loop.fds slot = 0
    · right
      refine ⟨slot, vacant, ?_⟩
      have restored := freeSlot_useSlot loop slot fd sock listener vacant (cleared slot vacant)
      have usable : 0 ≤ (useSlot loop slot fd sock listener).epfd := Int32.le_of_lt opened
      have unchanged : (useSlot loop slot fd sock listener).epoll = loop.epoll := rfl
      simp only [addFdFrom, if_pos vacant, addToEventLoop, if_pos usable, epollCtlAdd, unchanged]
      by_cases taken : accepted = true ∧ loop.epoll fd = none
      · simp [if_pos taken, addedAt]
      · simp [if_neg taken, restored]
    · rcases inductionHypothesis with ⟨occupied, full⟩ | ⟨place, free, stopped⟩
      · left
        refine ⟨?_, by rw [addFdFrom, if_neg vacant, full]⟩
        intro place member
        rcases List.mem_cons.mp member with rfl | later
        · exact vacant
        · exact occupied place later
      · right
        exact ⟨place, free, by rw [addFdFrom, if_neg vacant, stopped]⟩

/-- `addFd` either adds the descriptor at a free slot or changes nothing. -/
theorem addFd_cases (watched : Watched Λ) (sound : watched.Sound) (fd sock : Int32)
    (listener : Option Λ) (accepted : Bool) :
    addFd watched.loop fd sock listener accepted = some (watched.loop, -1) ∨
    ∃ slot, watched.loop.fds slot = 0 ∧ watched.loop.epoll fd = none ∧
      addFd watched.loop fd sock listener accepted =
        some (addedAt watched.loop slot fd sock listener, 0) := by
  rcases addFdFrom_stops watched.loop fd sock listener accepted sound.opened sound.cleared
    (List.finRange maxFdInLoop) with ⟨-, full⟩ | ⟨slot, vacant, stopped⟩
  · exact Or.inl full
  · by_cases taken : accepted = true ∧ watched.loop.epoll fd = none
    · rw [if_pos taken] at stopped
      exact Or.inr ⟨slot, vacant, taken.2, stopped⟩
    · rw [if_neg taken] at stopped
      exact Or.inl stopped

/-- A free slot and the kernel's consent are enough for `addFd`. -/
theorem addFd_accepted (watched : Watched Λ) (sound : watched.Sound) (fd sock : Int32)
    (listener : Option Λ) (unregistered : watched.loop.epoll fd = none)
    (fewer : Set.ncard {fd | watched.loop.epoll fd ≠ none} < maxFdInLoop) :
    ∃ added, addFd watched.loop fd sock listener true = some (added, 0) := by
  obtain ⟨place, free⟩ := sound.mirrored.room (by simpa using fewer)
  rcases addFdFrom_stops watched.loop fd sock listener true sound.opened sound.cleared
    (List.finRange maxFdInLoop) with ⟨occupied, -⟩ | ⟨slot, -, stopped⟩
  · exact absurd free (occupied place (List.mem_finRange place))
  · rw [if_pos ⟨rfl, unregistered⟩] at stopped
    exact ⟨_, stopped⟩

/-- Adding an unregistered descriptor at a free slot keeps the table in order. -/
theorem addedAt_sound (watched : Watched Λ) (sound : watched.Sound) (fd : OpenFd) (sock : Int32)
    (listener : Option Λ) (slot : Slot) (vacant : watched.loop.fds slot = 0)
    (unregistered : watched.loop.epoll fd.val = none) :
    Watched.Sound ⟨addedAt watched.loop slot fd.val sock listener,
      Function.update watched.given fd.val (some (sock, listener))⟩ := by
  refine ⟨sound.opened, ?_, ?_, ?_⟩
  · exact sound.mirrored.occupy fd.val slot vacant unregistered fd.ne_zero
  · intro place free
    by_cases same : place = slot
    · subst same
      simp only [addedAt, useSlot, Function.update_self] at free
      exact absurd free fd.ne_zero
    · simp only [addedAt, useSlot, Function.update_of_ne same] at free ⊢
      exact sound.cleared place free
  · intro place occupied
    by_cases same : place = slot
    · subst same
      simp only [addedAt, useSlot, Function.update_self]
    · have other := sound.mirrored.absent fd.val place unregistered fd.ne_zero
      simp only [addedAt, useSlot, Function.update_of_ne same, Function.update_of_ne other]
        at occupied ⊢
      exact sound.kept place occupied

/-- Deleting the descriptor of a slot keeps the table in order. -/
theorem deletedAt_sound (watched : Watched Λ) (sound : watched.Sound) (slot : Slot)
    (occupied : watched.loop.fds slot ≠ 0) :
    Watched.Sound ⟨deletedAt watched.loop slot (watched.loop.fds slot), watched.given⟩ := by
  refine ⟨sound.opened, ?_, ?_, ?_⟩
  · exact sound.mirrored.release _ slot (sound.mirrored.token slot occupied)
  · intro place free
    by_cases same : place = slot
    · subst same
      simp only [deletedAt, freeSlot, Function.update_self, and_self]
    · simp only [deletedAt, freeSlot, Function.update_of_ne same] at free ⊢
      exact sound.cleared place free
  · intro place filled
    by_cases same : place = slot
    · subst same
      simp only [deletedAt, freeSlot, Function.update_self] at filled
      exact absurd rfl filled
    · simp only [deletedAt, freeSlot, Function.update_of_ne same] at filled ⊢
      exact sound.kept place filled

/-- Deleting the descriptor of an occupied slot meets no failed assertion, and
epoll knows the descriptor. -/
theorem deleteFromEventLoop2_occupied (watched : Watched Λ) (sound : watched.Sound) (slot : Slot)
    (positive : 0 < watched.loop.fds slot) (occupied : watched.loop.fds slot ≠ 0) :
    deleteFromEventLoop2 (freeSlot watched.loop slot) (watched.loop.fds slot) =
      some (deletedAt watched.loop slot (watched.loop.fds slot), 0) := by
  have passed : 0 < (freeSlot watched.loop slot).epfd ∧ 0 < watched.loop.fds slot :=
    ⟨sound.opened, positive⟩
  have unchanged : (freeSlot watched.loop slot).epoll = watched.loop.epoll := rfl
  have known := sound.mirrored.token slot occupied
  simp [deleteFromEventLoop2, if_pos passed, epollCtlDel, unchanged, known, deletedAt]

/-- The loop of `deleteFromEventLoop` stops at the slot of the descriptor. -/
theorem deleteFrom_cases (watched : Watched Λ) (sound : watched.Sound) (fd : OpenFd)
    (slots : List Slot) :
    deleteFrom watched.loop fd.val slots = some (watched.loop, -1) ∨
    ∃ slot, watched.loop.fds slot = fd.val ∧
      deleteFrom watched.loop fd.val slots = some (deletedAt watched.loop slot fd.val, 0) := by
  induction slots with
  | nil => exact Or.inl rfl
  | cons slot slots inductionHypothesis =>
    by_cases here : fd.val = watched.loop.fds slot
    · right
      refine ⟨slot, here.symm, ?_⟩
      have deleted := deleteFromEventLoop2_occupied watched sound slot (here ▸ fd.property)
        (here ▸ fd.ne_zero)
      rw [← here] at deleted
      rw [deleteFrom, if_pos here, deleted]
      rfl
    · rw [deleteFrom, if_neg here]
      exact inductionHypothesis

/-- `deleteFromEventLoop` either frees the slot of the descriptor or changes
nothing. -/
theorem deleteFromEventLoop_cases (watched : Watched Λ) (sound : watched.Sound) (fd : OpenFd) :
    deleteFromEventLoop watched.loop fd.val = some (watched.loop, -1) ∨
    ∃ slot, watched.loop.fds slot = fd.val ∧ deleteFromEventLoop watched.loop fd.val =
      some (deletedAt watched.loop slot fd.val, 0) := by
  rw [deleteFromEventLoop, if_pos fd.property]
  exact deleteFrom_cases watched sound fd (List.finRange maxFdInLoop)

/-- `deleteFromEventLoop` finds a descriptor that stands in some slot. -/
theorem deleteFrom_found (watched : Watched Λ) (sound : watched.Sound) (fd : OpenFd) (slot : Slot)
    (stored : watched.loop.fds slot = fd.val) (slots : List Slot) (member : slot ∈ slots) :
    deleteFrom watched.loop fd.val slots = some (deletedAt watched.loop slot fd.val, 0) := by
  induction slots with
  | nil => cases member
  | cons place slots inductionHypothesis =>
    by_cases here : fd.val = watched.loop.fds place
    · have occupied : watched.loop.fds place ≠ 0 := here ▸ fd.ne_zero
      obtain rfl := sound.mirrored.distinct place slot occupied (here.symm.trans stored.symm)
      have deleted :=
        deleteFromEventLoop2_occupied watched sound place (here ▸ fd.property) occupied
      rw [← here] at deleted
      rw [deleteFrom, if_pos here, deleted]
      rfl
    · have elsewhere : slot ≠ place := by
        rintro rfl
        exact here stored.symm
      rw [deleteFrom, if_neg here]
      exact inductionHypothesis ((List.mem_cons.mp member).resolve_left elsewhere)

/-- `deleteFromEventLoop` deletes the descriptor of any slot. -/
theorem deleteFromEventLoop_found (watched : Watched Λ) (sound : watched.Sound) (fd : OpenFd)
    (slot : Slot) (stored : watched.loop.fds slot = fd.val) :
    deleteFromEventLoop watched.loop fd.val = some (deletedAt watched.loop slot fd.val, 0) := by
  rw [deleteFromEventLoop, if_pos fd.property]
  exact deleteFrom_found watched sound fd slot stored _ (List.mem_finRange slot)

/-- The loop of `deleteAllFds` meets no failed assertion. -/
theorem deleteAllFrom_sound (watched : Watched Λ) (sound : watched.Sound) (slots : List Slot) :
    ∃ loop, deleteAllFrom watched.loop slots = some loop ∧
      Watched.Sound ⟨loop, watched.given⟩ := by
  induction slots generalizing watched with
  | nil => exact ⟨watched.loop, rfl, sound⟩
  | cons slot slots inductionHypothesis =>
    by_cases positive : 0 < watched.loop.fds slot
    · have occupied : watched.loop.fds slot ≠ 0 := OpenFd.ne_zero ⟨_, positive⟩
      have deleted := deleteFromEventLoop2_occupied watched sound slot positive occupied
      obtain ⟨loop, rest, kept⟩ := inductionHypothesis
        ⟨deletedAt watched.loop slot (watched.loop.fds slot), watched.given⟩
        (deletedAt_sound watched sound slot occupied)
      refine ⟨loop, ?_, kept⟩
      simp only [deleteAllFrom, if_pos positive, deleted, Option.bind_some, rest]
    · obtain ⟨loop, rest, kept⟩ := inductionHypothesis watched sound
      exact ⟨loop, by simp only [deleteAllFrom, if_neg positive, rest], kept⟩

/-- No call fails an assertion, and every call keeps the table in order. -/
theorem loopMachine_step (watched : Watched Λ) (sound : watched.Sound) (call : LoopCall Λ) :
    ∃ next, loopMachine.step watched call = some next ∧ next.Sound := by
  cases call with
  | add fd sock listener accepted =>
    rcases addFd_cases watched sound fd.val sock listener accepted with
      refused | ⟨slot, vacant, unregistered, added⟩
    · refine ⟨watched, ?_, sound⟩
      simp [loopMachine, refused]
    · refine ⟨_, ?_, addedAt_sound watched sound fd sock listener slot vacant unregistered⟩
      simp [loopMachine, added]
  | delete fd =>
    rcases deleteFromEventLoop_cases watched sound fd with unknown | ⟨slot, stored, deleted⟩
    · refine ⟨watched, ?_, sound⟩
      simp [loopMachine, unknown]
    · have occupied : watched.loop.fds slot ≠ 0 := stored ▸ fd.ne_zero
      refine ⟨_, ?_, deletedAt_sound watched sound slot occupied⟩
      simp [loopMachine, deleted, stored]
  | deleteAll =>
    obtain ⟨loop, deleted, kept⟩ :=
      deleteAllFrom_sound watched sound (List.finRange maxFdInLoop)
    refine ⟨⟨loop, watched.given⟩, ?_, kept⟩
    simp [loopMachine, deleteAllFds, deleted]

/-- No call of a run fails an assertion, and the table is in order behind all of them. -/
theorem loopMachine_run (watched : Watched Λ) (sound : watched.Sound) (calls : List (LoopCall Λ)) :
    ∃ final, loopMachine.run watched calls = some final ∧ final.Sound := by
  induction calls generalizing watched with
  | nil => exact ⟨watched, rfl, sound⟩
  | cons call calls inductionHypothesis =>
    obtain ⟨next, moved, kept⟩ := loopMachine_step watched sound call
    obtain ⟨final, reached, finalSound⟩ := inductionHypothesis next kept
    exact ⟨final, Machine.run_cons_some _ |>.mpr ⟨next, moved, reached⟩, finalSound⟩

/-- A descriptor is added whenever the kernel accepts it and fewer than
`MAX_FD_IN_LOOP` are registered. -/
def AddsWithRoom (loop : EventLoop Λ) : Prop :=
  ∀ (fd : OpenFd) (sock : Int32) (listener : Option Λ), loop.epoll fd.val = none →
    Set.ncard {fd | loop.epoll fd ≠ none} < maxFdInLoop →
    ∃ added, addFd loop fd.val sock listener true = some (added, 0)

/-- A call that returns -1 has changed neither the table nor epoll. -/
def FailsUnchanged (loop : EventLoop Λ) : Prop :=
  (∀ (fd : OpenFd) (sock : Int32) (listener : Option Λ) (accepted : Bool) (after : EventLoop Λ),
    addFd loop fd.val sock listener accepted = some (after, -1) → after = loop) ∧
  ∀ (fd : OpenFd) (after : EventLoop Λ),
    deleteFromEventLoop loop fd.val = some (after, -1) → after = loop

/-- Calls that fail in an orderly table have changed nothing. -/
theorem Watched.Sound.failsUnchanged {watched : Watched Λ} (sound : watched.Sound) :
    FailsUnchanged watched.loop := by
  constructor
  · intro fd sock listener accepted after failed
    rcases addFd_cases watched sound fd.val sock listener accepted with
      refused | ⟨slot, -, -, added⟩
    · rw [refused] at failed
      simpa using failed.symm
    · rw [added] at failed
      simp at failed
  · intro fd after failed
    rcases deleteFromEventLoop_cases watched sound fd with unknown | ⟨slot, -, deleted⟩
    · rw [unknown] at failed
      simpa using failed.symm
    · rw [deleted] at failed
      simp at failed

/-- A call that returns 0 has done what it is for and nothing else: `addFd` has filled
a free slot and registered a descriptor that epoll did not know, and
`deleteFromEventLoop` has freed the slot of the descriptor and removed it from epoll.
The latter returns 0 for every registered descriptor. -/
structure SucceedsWithEffect (loop : EventLoop Λ) : Prop where
  added : ∀ (fd : OpenFd) (sock : Int32) (listener : Option Λ) (accepted : Bool)
    (after : EventLoop Λ), addFd loop fd.val sock listener accepted = some (after, 0) →
    ∃ slot, loop.fds slot = 0 ∧ loop.epoll fd.val = none ∧
      after = addedAt loop slot fd.val sock listener
  deleted : ∀ (fd : OpenFd) (after : EventLoop Λ),
    deleteFromEventLoop loop fd.val = some (after, 0) →
    ∃ slot, loop.fds slot = fd.val ∧ after = deletedAt loop slot fd.val
  deletes : ∀ (fd : OpenFd), loop.epoll fd.val ≠ none →
    ∃ after, deleteFromEventLoop loop fd.val = some (after, 0)

/-- Calls that succeed in an orderly table have their effect. -/
theorem Watched.Sound.succeedsWithEffect {watched : Watched Λ} (sound : watched.Sound) :
    SucceedsWithEffect watched.loop where
  added := by
    intro fd sock listener accepted after succeeded
    rcases addFd_cases watched sound fd.val sock listener accepted with
      refused | ⟨slot, vacant, unregistered, added⟩
    · rw [refused] at succeeded
      simp at succeeded
    · rw [added] at succeeded
      exact ⟨slot, vacant, unregistered, by simpa using succeeded.symm⟩
  deleted := by
    intro fd after succeeded
    rcases deleteFromEventLoop_cases watched sound fd with unknown | ⟨slot, stored, deleted⟩
    · rw [unknown] at succeeded
      simp at succeeded
    · rw [deleted] at succeeded
      exact ⟨slot, stored, by simpa using succeeded.symm⟩
  deletes := by
    intro fd registered
    obtain ⟨slot, token⟩ := Option.ne_none_iff_exists'.mp registered
    have stored : watched.loop.fds slot = fd.val := ((sound.mirrored fd.val slot).mp token).1
    exact ⟨_, deleteFromEventLoop_found watched sound fd slot stored⟩

/-- After any calls on a new event loop, none of which fails an assertion, the
table agrees with epoll, descriptors are added while there is room, calls that fail
have no effect, and calls that succeed have theirs. -/
theorem table_agrees_with_epoll (epfd : Int32) (loop : EventLoop Λ)
    (constructed : EventLoop.construct epfd = some loop) (calls : List (LoopCall Λ)) :
    ∃ final, loopMachine.run (Watched.start loop) calls = some final ∧ final.Agrees ∧
      AddsWithRoom final.loop ∧ FailsUnchanged final.loop ∧
      SucceedsWithEffect final.loop := by
  obtain ⟨final, reached, sound⟩ :=
    loopMachine_run (Watched.start loop) (Watched.start_sound epfd loop constructed) calls
  refine ⟨final, reached, sound.agrees, ?_, sound.failsUnchanged, sound.succeedsWithEffect⟩
  intro fd sock listener unregistered fewer
  exact addFd_accepted final sound fd.val sock listener unregistered fewer

/-- A descriptor that is added, added again, deleted and added again. -/
theorem table_agrees_with_epoll_again :
    let calls : List (LoopCall Nat) := [.add ⟨7, by decide⟩ 1 (some 5) true,
      .add ⟨7, by decide⟩ 2 none true, .delete ⟨7, by decide⟩,
      .add ⟨7, by decide⟩ 3 (some 6) true]
    ∃ final, loopMachine.run (Watched.start ⟨4, fun _ => 0, fun _ => 0, fun _ => none,
        fun _ => none⟩) calls = some final ∧ final.Agrees ∧
      AddsWithRoom final.loop ∧ FailsUnchanged final.loop ∧
      SucceedsWithEffect final.loop :=
  table_agrees_with_epoll 4 _ (by rfl) _

end Evlpc
