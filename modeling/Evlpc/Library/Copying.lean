import Evlpc.Library.Store

/-!
# Copies within a store

A copy between two runs of cells moves one cell at a time, in an order that is its
own affair. If the runs have no cell in common, every order gives the same contents:
those of the source as it was before.
-/

namespace Evlpc.Library.Store

universe u
variable {β : Type u}

/-- The cell at an offset of the source is copied to the same offset of the target. -/
def copyCell (store : Store β) (target source : Int) (offset : Nat) : Store β := fun cell =>
  if cell = target + offset then store (source + offset) else store cell

/-- The cells at the given offsets are copied, in this order. -/
def copyCells (store : Store β) (target source : Int) : List Nat → Store β
  | [] => store
  | offset :: offsets => (store.copyCell target source offset).copyCells target source offsets

/-- No cell is in both of two runs of the same length. -/
def Apart (target source : Int) (count : Nat) : Prop :=
  ∀ cell : Int, target ≤ cell → cell < target + count → ¬ (source ≤ cell ∧ cell < source + count)

/-- Two runs are apart if they are empty or one ends where the other begins. -/
theorem apart_iff (target source : Int) (count : Nat) :
    Apart target source count ↔ count = 0 ∨ target + count ≤ source ∨ source + count ≤ target := by
  constructor
  · intro apart
    have first := apart target
    have second := apart source
    omega
  · intro separated cell _ _
    omega

/-- What a write of loaded cells puts in every cell. -/
theorem write_load_apply (store other : Store β) (target source : Int) (count : Nat) (cell : Int) :
    store.write target (other.load source count) cell =
      if target ≤ cell ∧ cell < target + count then other (source + (cell - target))
      else store cell := by
  induction count generalizing target source with
  | zero =>
    rw [load, write, if_neg (by omega)]
  | succ count inductionHypothesis =>
    rw [load]
    by_cases first : cell = target
    · have here : source + (cell - target) = source := by omega
      simp only [write, if_pos first]
      rw [if_pos (by omega), here]
    · have shifted : source + 1 + (cell - (target + 1)) = source + (cell - target) := by omega
      have bounds : (target + 1 ≤ cell ∧ cell < target + 1 + count) ↔
          (target ≤ cell ∧ cell < target + ((count + 1 : Nat) : Int)) := by omega
      simp only [write, if_neg first]
      rw [inductionHypothesis, shifted]
      simp only [bounds]

/-- Copied cells hold what the source held before, if the runs are apart. Induct over
the order; no copy touches the source. -/
theorem copyCells_apply (store : Store β) (target source : Int) (count : Nat) (order : List Nat)
    (apart : Apart target source count) (within : ∀ offset ∈ order, offset < count) (cell : Int) :
    ((∃ offset ∈ order, cell = target + offset) →
      store.copyCells target source order cell = store (source + (cell - target))) ∧
    ((¬ ∃ offset ∈ order, cell = target + offset) →
      store.copyCells target source order cell = store cell) := by
  induction order generalizing store with
  | nil =>
    refine ⟨?_, fun _ => rfl⟩
    rintro ⟨offset, member, -⟩
    cases member
  | cons first rest inductionHypothesis =>
    have firstWithin := within first List.mem_cons_self
    obtain ⟨copied, kept⟩ := inductionHypothesis (store.copyCell target source first)
      (fun offset member => within offset (List.mem_cons_of_mem first member))
    have sourceKept : ∀ offset < count,
        store.copyCell target source first (source + offset) = store (source + offset) := by
      intro offset below
      rw [copyCell, if_neg]
      intro same
      exact apart (target + first) (by omega) (by omega) (by omega)
    constructor
    · rintro ⟨offset, member, rfl⟩
      have back : source + (target + (offset : Int) - target) = source + offset := by omega
      rw [back] at copied ⊢
      by_cases later : ∃ other ∈ rest, target + (offset : Int) = target + (other : Int)
      · rw [copyCells, copied later, sourceKept offset (within offset member)]
      · have here : offset = first := by
          rcases List.mem_cons.mp member with same | inRest
          · exact same
          · exact absurd ⟨offset, inRest, rfl⟩ later
        rw [copyCells, kept later, copyCell, if_pos (by rw [here]), here]
    · intro untouched
      have elsewhere : cell ≠ target + first := fun same =>
        untouched ⟨first, List.mem_cons_self, same⟩
      rw [copyCells, kept, copyCell, if_neg elsewhere]
      rintro ⟨offset, member, same⟩
      exact untouched ⟨offset, List.mem_cons_of_mem first member, same⟩

/-- A copy between runs that are apart is a load and a write, whatever its order. -/
theorem copyCells_any_order (store : Store β) (target source : Int) (count : Nat)
    (order : List Nat) (apart : Apart target source count)
    (covers : ∀ offset, offset ∈ order ↔ offset < count) :
    store.copyCells target source order = store.write target (store.load source count) := by
  funext cell
  obtain ⟨copied, kept⟩ := copyCells_apply store target source count order apart
    (fun offset member => (covers offset).mp member) cell
  rw [write_load_apply]
  by_cases inside : target ≤ cell ∧ cell < target + count
  · rw [if_pos inside]
    exact copied ⟨(cell - target).toNat, (covers _).mpr (by omega), by omega⟩
  · rw [if_neg inside]
    apply kept
    rintro ⟨offset, member, rfl⟩
    have below := (covers offset).mp member
    omega

end Evlpc.Library.Store
