import Mathlib.Data.List.Basic
import Mathlib.Logic.Nontrivial.Basic

/-!
# Addressed storage

A store gives every address a content; addresses are integers, so that an
offset on either side of an object denotes some cell and no access is clipped.
`load` reads a run of cells as a list and `write` replaces a run. Loads of
neighbouring runs compose, and what was written is what is loaded. A write changes
the cells of its run only, and an update that is to change a range only must end its
writes in the range.
-/

namespace Evlpc.Library

universe u
variable {β : Type u}

/-- Contents of all addresses. -/
def Store (β : Type u) : Type u := Int → β

namespace Store

/-- The cells at `address`, `address + 1`, …, in order. -/
def load (store : Store β) (address : Int) : Nat → List β
  | 0 => []
  | count + 1 => store address :: store.load (address + 1) count

/-- Put the given contents at consecutive addresses, from `address` on. -/
def write (store : Store β) (address : Int) : List β → Store β
  | [] => store
  | value :: rest => fun cell =>
      if cell = address then value else store.write (address + 1) rest cell

/-- As many cells are loaded as are asked for. -/
theorem load_length (store : Store β) (address : Int) (count : Nat) :
    (store.load address count).length = count := by
  induction count generalizing address with
  | zero => rfl
  | succ count inductionHypothesis => simp [load, inductionHypothesis]

/-- A run of cells is its first part followed by its second. -/
theorem load_add (store : Store β) (address : Int) (first second : Nat) :
    store.load address (first + second) =
      store.load address first ++ store.load (address + first) second := by
  induction first generalizing address with
  | zero => simp [load]
  | succ first inductionHypothesis =>
    have shifted : address + 1 + (first : Int) = address + ((first + 1 : Nat) : Int) := by omega
    rw [show first + 1 + second = (first + second) + 1 by omega, load, inductionHypothesis, shifted,
      load, List.cons_append]

/-- The first cells that are loaded are a load of their own. -/
theorem load_take (store : Store β) (address : Int) (first count : Nat) (within : first ≤ count) :
    (store.load address count).take first = store.load address first := by
  obtain ⟨second, rfl⟩ := Nat.exists_eq_add_of_le within
  rw [load_add, List.take_left' (load_length store address first)]

/-- So are the others. -/
theorem load_drop (store : Store β) (address : Int) (first count : Nat) (within : first ≤ count) :
    (store.load address count).drop first = store.load (address + first) (count - first) := by
  obtain ⟨second, rfl⟩ := Nat.exists_eq_add_of_le within
  rw [load_add, List.drop_left' (load_length store address first), Nat.add_sub_cancel_left]

/-- A load depends only on the cells it covers. -/
theorem load_congr (left right : Store β) (start : Int) (count : Nat)
    (agree : ∀ cell, start ≤ cell → cell < start + count → left cell = right cell) :
    left.load start count = right.load start count := by
  induction count generalizing start with
  | zero => rfl
  | succ count inductionHypothesis =>
    have head : left start = right start := agree start (by omega) (by omega)
    rw [load, load, head, inductionHypothesis (start + 1)]
    intro cell after before
    exact agree cell (by omega) (by omega)

/-- What was written is what is loaded. -/
theorem load_write (store : Store β) (address : Int) (contents : List β) :
    (store.write address contents).load address contents.length = contents := by
  induction contents generalizing address with
  | nil => rfl
  | cons value rest inductionHypothesis =>
    have tail : (store.write address (value :: rest)).load (address + 1) rest.length =
        (store.write (address + 1) rest).load (address + 1) rest.length := by
      apply load_congr
      intro cell after _
      simp only [write, show cell ≠ address by omega, if_false]
    have head : store.write address (value :: rest) address = value := by simp [write]
    rw [List.length_cons, load, head, tail, inductionHypothesis]

/-- A write leaves the cells in front of its run and behind it. -/
theorem write_outside (store : Store β) (address : Int) (contents : List β) (cell : Int)
    (outside : cell < address ∨ address + contents.length ≤ cell) :
    store.write address contents cell = store cell := by
  induction contents generalizing address with
  | nil => rfl
  | cons value rest inductionHypothesis =>
    rw [List.length_cons] at outside
    have elsewhere : cell ≠ address := by omega
    simp only [write, if_neg elsewhere]
    exact inductionHypothesis (address + 1) (by omega)

/-- A write puts its contents in the cells of its run. -/
theorem write_inside (store : Store β) (address : Int) (contents : List β) (offset : Nat)
    (within : offset < contents.length) :
    store.write address contents (address + offset) = contents[offset] := by
  induction contents generalizing address offset with
  | nil => exact absurd within (Nat.not_lt_zero _)
  | cons value rest inductionHypothesis =>
    cases offset with
    | zero => simp [write]
    | succ offset =>
      have shifted : address + ((offset + 1 : Nat) : Int) = address + 1 + offset := by omega
      have behind : address + 1 + (offset : Int) ≠ address := by omega
      rw [shifted]
      simp only [write, if_neg behind]
      exact inductionHypothesis (address + 1) offset (Nat.lt_of_succ_lt_succ within)

/-- A load apart from a write finds what was there before. -/
theorem load_write_outside (store : Store β) (address start : Int) (contents : List β)
    (count : Nat) (apart : start + count ≤ address ∨ address + contents.length ≤ start) :
    (store.write address contents).load start count = store.load start count := by
  apply load_congr
  intro cell _ _
  exact write_outside store address contents cell (by omega)

/-- A write within a load replaces its part of it. -/
theorem load_write_within (store : Store β) (start : Int) (skipped count : Nat)
    (contents : List β) (within : skipped + contents.length ≤ count) :
    (store.write (start + skipped) contents).load start count =
      (store.load start count).take skipped ++
        (contents ++ (store.load start count).drop (skipped + contents.length)) := by
  obtain ⟨rest, rfl⟩ := Nat.exists_eq_add_of_le within
  have behind : start + ((skipped + contents.length : Nat) : Int) =
      start + skipped + contents.length := by omega
  rw [load_take _ _ _ _ (by omega), load_drop _ _ _ _ (by omega), Nat.add_sub_cancel_left, load_add,
    load_add, load_write, load_write_outside _ _ _ _ _ (.inl (Int.le_refl _)),
    load_write_outside _ _ _ _ _ (.inr (by omega)), List.append_assoc]

/-- An update of a store changes no cell out of a range, whatever the store holds. -/
def ChangesOnly (update : Store β → Store β) (low high : Int) : Prop :=
  ∀ store cell, cell < low ∨ high ≤ cell → update store cell = store cell

/-- Two updates after each other that change a range only. -/
theorem ChangesOnly.comp {first second : Store β → Store β} {low high : Int}
    (one : ChangesOnly first low high) (two : ChangesOnly second low high) :
    ChangesOnly (fun store => second (first store)) low high := by
  intro store cell outside
  exact (two (first store) cell outside).trans (one store cell outside)

/-- A write to a run in a range changes the range only. -/
theorem write_changesOnly (address : Int) (contents : List β) (low high : Int)
    (starts : low ≤ address) (ends : address + contents.length ≤ high) :
    ChangesOnly (fun store => store.write address contents) low high := by
  intro store cell outside
  exact write_outside store address contents cell (by omega)

/-- A write that changes a range only ends in it, whatever was updated before: its last cell
gets the same content, whatever the store held there. -/
theorem ChangesOnly.write_ends [Nontrivial β] (before : Store β → Store β) (address : Int)
    (contents : List β) (low high : Int)
    (only : ChangesOnly (fun store => (before store).write address contents) low high)
    (room : address ≤ high) : address + contents.length ≤ high := by
  by_contra beyond
  have last : contents.length - 1 < contents.length := by omega
  have put : ∀ store : Store β, contents[contents.length - 1] =
      store (address + ((contents.length - 1 : Nat) : Int)) := by
    intro store
    rw [← only store _ (by omega)]
    exact (write_inside (before store) address contents _ last).symm
  obtain ⟨one, other, different⟩ := exists_pair_ne β
  exact different ((put fun _ => one).symm.trans (put fun _ => other))

end Store

end Evlpc.Library
