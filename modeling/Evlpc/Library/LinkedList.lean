import Mathlib.Data.List.Basic

/-!
# Linked lists on a heap

A node has a value and the address of the next one, or NULL. Nodes are allocated one
after the other and never freed; a node's address is the number of those allocated
before it. A list is built with two cursors, to its first and to its last node: a new
node is linked behind the last one. Nodes that are allocated and not linked stay apart.

What is built after some point uses only nodes allocated since, so the lists that were
there before are left alone.
-/

namespace Evlpc.Library

universe u
variable {α : Type u}

/-- A node: its value, and the next node if there is one. -/
structure Cell (α : Type u) where
  value : α
  next : Option Nat

/-- The nodes allocated so far. -/
structure NodeHeap (α : Type u) where
  cells : List (Cell α)

namespace NodeHeap

/-- A new node, and its address. -/
def malloc (heap : NodeHeap α) (value : α) : NodeHeap α × Nat :=
  (⟨heap.cells ++ [⟨value, none⟩]⟩, heap.cells.length)

/-- The value of a node is changed. -/
def setValue (heap : NodeHeap α) (address : Nat) (change : α → α) : NodeHeap α :=
  ⟨heap.cells.modify address fun cell => { cell with value := change cell.value }⟩

/-- The next pointer of a node is set. -/
def setNext (heap : NodeHeap α) (address : Nat) (next : Option Nat) : NodeHeap α :=
  ⟨heap.cells.modify address fun cell => { cell with next := next }⟩

/-- The list that starts at a pointer: its values, up to NULL. -/
inductive Chain (heap : NodeHeap α) : Option Nat → List α → Prop
  | null : Chain heap none []
  | node (address : Nat) (cell : Cell α) (rest : List α) (stored : heap.cells[address]? = some cell)
      (behind : Chain heap cell.next rest) : Chain heap (some address) (cell.value :: rest)

/-- The nodes from one to the last, all of them allocated since a point. -/
inductive Segment (heap : NodeHeap α) (start last : Nat) : Nat → List α → Prop
  | last (value : α) (stored : heap.cells[last]? = some ⟨value, none⟩) (own : start ≤ last) :
      Segment heap start last last [value]
  | node (address next : Nat) (value : α) (rest : List α)
      (stored : heap.cells[address]? = some ⟨value, some next⟩) (own : start ≤ address)
      (behind : Segment heap start last next rest) :
      Segment heap start last address (value :: rest)

/-- A list being built since a point: the pointers to its first and last node, and its
values. -/
inductive Building (heap : NodeHeap α) (start : Nat) : Option Nat → Option Nat → List α → Prop
  | empty : Building heap start none none []
  | linked (first last : Nat) (values : List α) (segment : Segment heap start last first values) :
      Building heap start (some first) (some last) values

/-- Every node of the old heap is in the new one as it was. -/
structure Extends (old new : NodeHeap α) : Prop where
  length : old.cells.length ≤ new.cells.length
  kept : ∀ (address : Nat) (cell : Cell α), old.cells[address]? = some cell →
    new.cells[address]? = some cell

/-- A further node on the heap. -/
def push (heap : NodeHeap α) (value : α) : NodeHeap α := (heap.malloc value).1

/-- `malloc` puts a cell behind the others. -/
theorem malloc_push (heap : NodeHeap α) (value : α) :
    heap.malloc value = (heap.push value, heap.cells.length) := rfl

/-- A heap has all of its own cells. -/
theorem Extends.refl (heap : NodeHeap α) : Extends heap heap :=
  ⟨Nat.le_refl _, fun _ _ stored => stored⟩

/-- Cells that are kept twice are kept. -/
theorem Extends.trans {first second third : NodeHeap α} (before : Extends first second)
    (after : Extends second third) : Extends first third :=
  ⟨Nat.le_trans before.length after.length,
    fun address cell stored => after.kept address cell (before.kept address cell stored)⟩

/-- A new cell changes none of the others. -/
theorem extends_push (heap : NodeHeap α) (value : α) : Extends heap (heap.push value) := by
  constructor
  · rw [push, malloc, List.length_append]
    exact Nat.le_add_right _ _
  · intro address cell stored
    obtain ⟨inside, -⟩ := List.getElem?_eq_some_iff.mp stored
    rw [push, malloc, List.getElem?_append_left inside]
    exact stored

/-- Setting a pointer of a newer node leaves the old ones alone. -/
theorem Extends.setNext {old heap : NodeHeap α} (grown : Extends old heap) (address : Nat)
    (next : Option Nat) (newer : old.cells.length ≤ address) :
    Extends old (heap.setNext address next) := by
  constructor
  · rw [NodeHeap.setNext, List.length_modify]
    exact grown.length
  · intro other cell stored
    obtain ⟨inside, -⟩ := List.getElem?_eq_some_iff.mp stored
    have elsewhere : address ≠ other := by omega
    rw [NodeHeap.setNext, List.getElem?_modify_ne _ _ elsewhere]
    exact grown.kept other cell stored

/-- A node that was just allocated is changed in place. -/
theorem setValue_push (heap : NodeHeap α) (value : α) (change : α → α) :
    (heap.push value).setValue heap.cells.length change = heap.push (change value) := by
  rw [push, malloc, setValue, List.modify_eq_take_cons_drop (by simp)]
  simp [push, malloc]

/-- A new cell already has no next one. -/
theorem setNext_push (heap : NodeHeap α) (value : α) :
    (heap.push value).setNext heap.cells.length none = heap.push value := by
  rw [push, malloc, setNext, List.modify_eq_take_cons_drop (by simp)]
  simp

/-- A list is the same in a heap that keeps its nodes. -/
theorem Chain.kept {old new : NodeHeap α} {head : Option Nat} {values : List α}
    (chain : Chain old head values) (grown : Extends old new) : Chain new head values := by
  induction chain with
  | null => exact .null
  | node address cell rest stored _ inductionHypothesis =>
    exact .node address cell rest (grown.kept address cell stored) inductionHypothesis

/-- The nodes of a segment end with NULL. -/
theorem Segment.chain {heap : NodeHeap α} {start last first : Nat} {values : List α}
    (segment : Segment heap start last first values) : Chain heap (some first) values := by
  induction segment with
  | last value stored _ => exact .node last ⟨value, none⟩ [] stored .null
  | node address next value rest stored _ _ inductionHypothesis =>
    exact .node address ⟨value, some next⟩ rest stored inductionHypothesis

/-- What is built so far is a list. -/
theorem Building.chain {heap : NodeHeap α} {start : Nat} {head cur : Option Nat} {values : List α}
    (building : Building heap start head cur values) : Chain heap head values := by
  cases building with
  | empty => exact .null
  | linked first last values segment => exact segment.chain

/-- A segment is the same in a heap that keeps its nodes. -/
theorem Segment.kept {heap other : NodeHeap α} {start last first : Nat} {values : List α}
    (segment : Segment heap start last first values) (grown : Extends heap other) :
    Segment other start last first values := by
  induction segment with
  | last value stored own => exact .last value (grown.kept _ _ stored) own
  | node address next value rest stored own _ inductionHypothesis =>
    exact .node address next value rest (grown.kept _ _ stored) own inductionHypothesis

/-- A list under construction stays what it is as the heap grows. -/
theorem Building.kept {heap other : NodeHeap α} {start : Nat} {head cur : Option Nat}
    {values : List α} (building : Building heap start head cur values)
    (grown : Extends heap other) : Building other start head cur values := by
  cases building with
  | empty => exact .empty
  | linked first last values segment => exact .linked first last values (segment.kept grown)

/-- The last node of a segment has no next one. -/
theorem Segment.last_stored {heap : NodeHeap α} {start last first : Nat} {values : List α}
    (segment : Segment heap start last first values) :
    (∃ value, heap.cells[last]? = some ⟨value, none⟩) ∧ start ≤ last := by
  induction segment with
  | last value stored own => exact ⟨⟨value, stored⟩, own⟩
  | node address next value rest stored own _ inductionHypothesis => exact inductionHypothesis

/-- A new node is linked behind the last one. Induct over the segment; only its last
node is changed. -/
theorem Segment.link {heap : NodeHeap α} {start last first : Nat} {values : List α}
    (segment : Segment heap start last first values) (value : α) :
    Segment ((heap.push value).setNext last (some heap.cells.length)) start heap.cells.length first
      (values ++ [value]) := by
  obtain ⟨⟨lastValue, lastStored⟩, lastOwn⟩ := segment.last_stored
  obtain ⟨lastInside, -⟩ := List.getElem?_eq_some_iff.mp lastStored
  have kept := (extends_push heap value).kept
  have notLast : last ≠ heap.cells.length := by omega
  have added : ((heap.push value).setNext last (some heap.cells.length)).cells[heap.cells.length]? =
      some ⟨value, none⟩ := by
    rw [setNext, List.getElem?_modify_ne _ _ notLast, push, malloc]
    exact List.getElem?_concat_length
  have tail : Segment ((heap.push value).setNext last (some heap.cells.length)) start
      heap.cells.length heap.cells.length [value] := .last value added (by omega)
  clear lastOwn
  induction segment with
  | last other stored own =>
    refine .node last heap.cells.length other [value] ?_ own tail
    rw [setNext, List.getElem?_modify_eq, kept last _ stored]
    rfl
  | node address next other rest stored own behind inductionHypothesis =>
    have different : last ≠ address := by
      rintro rfl
      cases lastStored.symm.trans stored
    refine .node address next other (rest ++ [value]) ?_ own inductionHypothesis
    rw [setNext, List.getElem?_modify_ne _ _ different]
    exact kept address _ stored

/-- The pointer to the first node once there is a further one. -/
def firstOr (head : Option Nat) (address : Nat) : Option Nat :=
  match head with
  | none => some address
  | some first => some first

/-- The heap once the last node, if there is one, points to a further one. -/
def linkBehind (heap : NodeHeap α) (cur : Option Nat) (address : Nat) : NodeHeap α :=
  match cur with
  | none => heap
  | some last => heap.setNext last (some address)

/-- A further node is at the end of the list, with both cursors moved, and the nodes
that were there before the list are kept. -/
theorem Building.link {old heap : NodeHeap α} {head cur : Option Nat} {values : List α}
    (building : Building heap old.cells.length head cur values) (grown : Extends old heap)
    (value : α) :
    Building (linkBehind (heap.push value) cur heap.cells.length) old.cells.length
        (firstOr head heap.cells.length) (some heap.cells.length) (values ++ [value]) ∧
      Extends old (linkBehind (heap.push value) cur heap.cells.length) := by
  have pushed := grown.trans (extends_push heap value)
  cases building with
  | empty =>
    refine ⟨.linked _ _ [value] (.last value ?_ grown.length), pushed⟩
    exact List.getElem?_concat_length
  | linked first last values segment =>
    exact ⟨.linked first _ _ (segment.link value),
      pushed.setNext last _ segment.last_stored.2⟩

end NodeHeap

end Evlpc.Library
