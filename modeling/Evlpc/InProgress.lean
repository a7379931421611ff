import Evlpc.Library.Machine
import Mathlib.Logic.Function.Basic
import Mathlib.Data.List.Range

/-!
# The table of slots in progress

`InProgress` hands out the slots of a table of fixed size. Which slots are held is
told by the `inuse` flags alone. The constructor takes the table as `malloc` left
it, and the calls clear two of the three pointers of a slot.

Next to the table it is recorded which slots are held: those that were handed out
and have not been given back since.
-/

namespace Evlpc

open Library

universe u
variable {π : Type u}

/-- `InProgress_t`. A pointer is NULL if it is `none`; `inuse` is what its byte
reads as. -/
structure InProgressItem (π : Type u) where
  magic : UInt32
  data : Option π
  data2 : Option π
  data3 : Option π
  inuse : Bool

/-- `InProgress`: the number of slots, and the heap from `inp` on. -/
structure InProgress (π : Type u) where
  mNItems : Int32
  inp : Nat → InProgressItem π

/-- The constructor, where `malloc` succeeds and returns this heap. -/
def InProgress.construct (nItems : Int32) (heap : Nat → InProgressItem π) : InProgress π :=
  ⟨nItems, heap⟩

/-- The indices of the table. -/
def InProgress.slots (progress : InProgress π) : List Nat :=
  List.range progress.mNItems.toInt.toNat

/-- The loop of `alloc_slot`, from the given slot on. -/
def allocFrom (progress : InProgress π) (rand : Int32) : List Nat → InProgress π × Int32
  | [] => (progress, -1)
  | i :: later =>
    if (progress.inp i).inuse = false then
      let item := { progress.inp i with
        inuse := true, data := none, data2 := none, magic := rand.toUInt32 }
      ({ progress with inp := Function.update progress.inp i item }, Int32.ofNat i)
    else allocFrom progress rand later

/-- `alloc_slot`, with what `rand` returns. -/
def allocSlot (progress : InProgress π) (rand : Int32) : InProgress π × Int32 :=
  allocFrom progress rand progress.slots

/-- `return_slot`. The comparison converts the number of slots to `unsigned int`. -/
def returnSlot (progress : InProgress π) (i : UInt32) : InProgress π × Int32 :=
  if i ≥ progress.mNItems.toUInt32 then (progress, -1)
  else
    let cleared := { progress.inp i.toNat with data := none, data2 := none, magic := 0 }
    let returned := { progress with
      inp := Function.update progress.inp i.toNat { cleared with inuse := false } }
    if cleared.inuse = false then (returned, -1) else (returned, 0)

/-- A table and the slots that are held. -/
structure HeldSlots (π : Type u) where
  progress : InProgress π
  held : Nat → Bool

/-- A new table, of which nothing is held. -/
def HeldSlots.start (nItems : Int32) (heap : Nat → InProgressItem π) : HeldSlots π :=
  ⟨InProgress.construct nItems heap, fun _ => false⟩

/-- The calls of a slot table: `alloc_slot`, with what `rand` returns, and `return_slot`.
-/
inductive SlotCall where
  | alloc (rand : Int32) : SlotCall
  | giveBack (i : UInt32) : SlotCall
deriving DecidableEq, Repr

/-- The calls. A slot that `alloc_slot` returns is held until `return_slot` accepts
it. -/
def slotMachine : Machine (HeldSlots π) SlotCall where
  step state call :=
    match call with
    | .alloc rand =>
      let (progress, result) := allocSlot state.progress rand
      if result = -1 then some { state with progress := progress }
      else some ⟨progress, Function.update state.held result.toInt.toNat true⟩
    | .giveBack i =>
      let (progress, result) := returnSlot state.progress i
      if result = 0 then some ⟨progress, Function.update state.held i.toNat false⟩
      else some { state with progress := progress }

/-- What a slot allocator is for. A call of `alloc_slot` fails exactly if all slots
are held, and otherwise returns one that is not, with its pointers cleared. A call
of `return_slot` accepts exactly the slots that are held, and changes no flag
otherwise. -/
def AllocatesSlots (state : HeldSlots π) : SlotCall → Prop
  | .alloc rand =>
    ((allocSlot state.progress rand).2 = -1 ↔ ∀ slot ∈ state.progress.slots, state.held slot) ∧
    ((allocSlot state.progress rand).2 ≠ -1 → ∃ slot ∈ state.progress.slots,
      (allocSlot state.progress rand).2.toInt = slot ∧ state.held slot = false ∧
      ((allocSlot state.progress rand).1.inp slot).data = none ∧
      ((allocSlot state.progress rand).1.inp slot).data2 = none ∧
      ((allocSlot state.progress rand).1.inp slot).data3 = none)
  | .giveBack i =>
    ((returnSlot state.progress i).2 = 0 ↔
      i.toNat ∈ state.progress.slots ∧ state.held i.toNat) ∧
    (¬ (i.toNat ∈ state.progress.slots ∧ state.held i.toNat) →
      (returnSlot state.progress i).2 = -1 ∧ ∀ slot,
        ((returnSlot state.progress i).1.inp slot).inuse = (state.progress.inp slot).inuse)

/-- The first slot whose flag is clear. -/
def InProgress.firstFree (progress : InProgress π) : Option Nat :=
  progress.slots.find? fun slot => !(progress.inp slot).inuse

/-- The call meets nothing that `malloc` left: the first slot with a clear flag has
no third pointer, or without such a slot all are held; and the flag of a slot that
is given back is not set unless the slot is held. -/
def MeetsNoGarbage (state : HeldSlots π) : SlotCall → Prop
  | .alloc _ =>
    match state.progress.firstFree with
    | some slot => (state.progress.inp slot).data3 = none
    | none => ∀ slot ∈ state.progress.slots, state.held slot
  | .giveBack i => i.toNat ∈ state.progress.slots →
      (state.progress.inp i.toNat).inuse → state.held i.toNat

/-- There are slots, and the flag of every held slot is set. -/
structure HeldSlots.Flagged (state : HeldSlots π) : Prop where
  positive : 0 < state.progress.mNItems
  flagged : ∀ slot, state.held slot → slot ∈ state.progress.slots ∧
    (state.progress.inp slot).inuse

/-- In a new table nothing is held. -/
theorem start_flagged (nItems : Int32) (positive : 0 < nItems) (heap : Nat → InProgressItem π) :
    (HeldSlots.start nItems heap).Flagged := by
  refine ⟨positive, ?_⟩
  intro slot held
  cases held

section Calls

variable (progress : InProgress π)

/-- An index of the table is an `int`. -/
theorem slot_small (slot : Nat) (member : slot ∈ progress.slots) : slot < 2147483648 := by
  rw [InProgress.slots, List.mem_range, Int32.toNat_toInt] at member
  exact Nat.lt_trans member progress.mNItems.toNatClampNeg_lt

/-- An index is returned as the number it is. -/
theorem slot_result (slot : Nat) (member : slot ∈ progress.slots) :
    (Int32.ofNat slot).toInt = slot ∧ Int32.ofNat slot ≠ -1 := by
  have value := Int32.toInt_ofNat_of_lt (slot_small progress slot member)
  refine ⟨value, fun same => ?_⟩
  have error : (-1 : Int32).toInt = -1 := by decide
  rw [same, error] at value
  omega

/-- The comparison in `return_slot` tells the indices of the table. -/
theorem slots_unsigned (positive : 0 < progress.mNItems) (i : UInt32) :
    i ≥ progress.mNItems.toUInt32 ↔ i.toNat ∉ progress.slots := by
  have count := Int32.toNat_toUInt32_of_le (Int32.le_of_lt positive)
  rw [InProgress.slots, List.mem_range, Int32.toNat_toInt, ← count, ge_iff_le,
    UInt32.le_iff_toNat_le, Nat.not_lt]

/-- The table after a slot has been handed out. -/
def InProgress.handedOut (slot : Nat) (rand : Int32) : InProgress π :=
  { progress with inp := Function.update progress.inp slot { progress.inp slot with
      inuse := true, data := none, data2 := none, magic := rand.toUInt32 } }

/-- The table after a slot has been given back. -/
def InProgress.givenBack (slot : Nat) : InProgress π :=
  { progress with inp := Function.update progress.inp slot { progress.inp slot with
      data := none, data2 := none, magic := 0, inuse := false } }

/-- `alloc_slot` hands out the first slot with a clear flag. -/
theorem allocSlot_firstFree (rand : Int32) :
    allocSlot progress rand =
      match progress.firstFree with
      | some slot => (progress.handedOut slot rand, Int32.ofNat slot)
      | none => (progress, -1) := by
  rw [allocSlot, InProgress.firstFree]
  induction progress.slots with
  | nil => rfl
  | cons slot later inductionHypothesis =>
    rw [allocFrom, List.find?_cons]
    cases flag : (progress.inp slot).inuse with
    | true => simpa using inductionHypothesis
    | false => rfl

/-- `return_slot` clears the slot, and accepts it if its flag was set. -/
theorem returnSlot_inside (positive : 0 < progress.mNItems) (i : UInt32)
    (member : i.toNat ∈ progress.slots) :
    returnSlot progress i =
      (progress.givenBack i.toNat, if (progress.inp i.toNat).inuse then 0 else -1) := by
  have below : ¬ i ≥ progress.mNItems.toUInt32 := by
    rw [slots_unsigned progress positive]
    exact not_not.mpr member
  rw [returnSlot, if_neg below]
  cases flag : (progress.inp i.toNat).inuse with
  | true => simp [flag, InProgress.givenBack]
  | false => simp [flag, InProgress.givenBack]

/-- `return_slot` refuses an index behind the table. -/
theorem returnSlot_outside (positive : 0 < progress.mNItems) (i : UInt32)
    (outside : i.toNat ∉ progress.slots) : returnSlot progress i = (progress, -1) := by
  rw [returnSlot, if_pos ((slots_unsigned progress positive i).mpr outside)]

/-- What the first free slot is, and what it means that there is none. -/
theorem firstFree_some (slot : Nat) (found : progress.firstFree = some slot) :
    slot ∈ progress.slots ∧ (progress.inp slot).inuse = false := by
  have clear := List.find?_some found
  exact ⟨List.mem_of_find?_eq_some found, by simpa using clear⟩

/-- Without a clear flag, all flags are set. -/
theorem firstFree_none (full : progress.firstFree = none) (slot : Nat)
    (member : slot ∈ progress.slots) : (progress.inp slot).inuse := by
  have set := List.find?_eq_none.mp full slot member
  simpa using set

end Calls

section Steps

variable (state : HeldSlots π) (flagged : state.Flagged)
include flagged

/-- A slot with a clear flag is not held. -/
theorem clear_unheld (slot : Nat) (clear : (state.progress.inp slot).inuse = false) :
    state.held slot = false := by
  cases held : state.held slot with
  | false => rfl
  | true =>
    have set := (flagged.flagged slot held).2
    rw [clear] at set
    cases set

/-- `alloc_slot` does its work exactly if it meets no garbage. -/
theorem alloc_meetsNoGarbage_iff (rand : Int32) :
    MeetsNoGarbage state (.alloc rand) ↔ AllocatesSlots state (.alloc rand) := by
  have spec := allocSlot_firstFree state.progress rand
  cases first : state.progress.firstFree with
  | none =>
    rw [first] at spec
    simp only [MeetsNoGarbage, AllocatesSlots, first, spec]
    constructor
    · intro full
      exact ⟨iff_of_true trivial full, fun notError => absurd rfl notError⟩
    · rintro ⟨full, -⟩
      exact full.mp trivial
  | some slot =>
    rw [first] at spec
    obtain ⟨member, clear⟩ := firstFree_some state.progress slot first
    obtain ⟨value, notError⟩ := slot_result state.progress slot member
    have unheld := clear_unheld state flagged slot clear
    have notFull : ¬ ∀ slot ∈ state.progress.slots, state.held slot := by
      intro full
      have held := full slot member
      rw [unheld] at held
      cases held
    simp only [MeetsNoGarbage, AllocatesSlots, first, spec]
    constructor
    · intro noThird
      refine ⟨iff_of_false notError notFull, fun _ => ⟨slot, member, value, unheld, ?_, ?_, ?_⟩⟩
      · simp [InProgress.handedOut]
      · simp [InProgress.handedOut]
      · simpa [InProgress.handedOut] using noThird
    · rintro ⟨-, returned⟩
      obtain ⟨other, -, otherValue, -, -, -, noThird⟩ := returned notError
      obtain rfl : slot = other := by omega
      simpa [InProgress.handedOut] using noThird

/-- `return_slot` does its work exactly if it meets no garbage. -/
theorem giveBack_meetsNoGarbage_iff (i : UInt32) :
    MeetsNoGarbage state (.giveBack i) ↔ AllocatesSlots state (.giveBack i) := by
  have refused : ¬ (-1 : Int32) = 0 := by decide
  by_cases inside : i.toNat ∈ state.progress.slots
  · have spec := returnSlot_inside state.progress flagged.positive i inside
    simp only [MeetsNoGarbage, AllocatesSlots, spec, inside, true_and, true_imp_iff]
    cases flag : (state.progress.inp i.toNat).inuse with
    | false =>
      have unheld := clear_unheld state flagged i.toNat flag
      simp only [Bool.false_eq_true, if_false, false_imp_iff, true_iff, unheld]
      refine ⟨iff_of_false refused id, fun _ => ⟨trivial, ?_⟩⟩
      intro slot
      by_cases same : slot = i.toNat
      · subst same
        simp [InProgress.givenBack, flag]
      · simp [InProgress.givenBack, Function.update_of_ne same]
    | true =>
      simp only [if_true, true_imp_iff]
      constructor
      · intro held
        exact ⟨iff_of_true trivial held, fun unheld => absurd held unheld⟩
      · rintro ⟨isHeld, -⟩
        exact isHeld.mp trivial
  · have spec := returnSlot_outside state.progress flagged.positive i inside
    simp only [MeetsNoGarbage, AllocatesSlots, spec, inside, false_and, false_imp_iff, true_iff]
    exact ⟨iff_of_false refused id, fun _ => ⟨trivial, fun _ => trivial⟩⟩

/-- A call does what it should exactly if it meets no garbage. -/
theorem meetsNoGarbage_iff (call : SlotCall) :
    MeetsNoGarbage state call ↔ AllocatesSlots state call := by
  cases call with
  | alloc rand => exact alloc_meetsNoGarbage_iff state flagged rand
  | giveBack i => exact giveBack_meetsNoGarbage_iff state flagged i

/-- What a call does: a slot is handed out, a slot is given back, or nothing. -/
theorem slotMachine_step (next : HeldSlots π) (call : SlotCall)
    (moved : slotMachine.step state call = some next) :
    (∃ rand slot, call = .alloc rand ∧ state.progress.firstFree = some slot ∧
      slot ∈ state.progress.slots ∧
      next = ⟨state.progress.handedOut slot rand, Function.update state.held slot true⟩) ∨
    (∃ i, call = .giveBack i ∧ i.toNat ∈ state.progress.slots ∧
      next = ⟨state.progress.givenBack i.toNat, Function.update state.held i.toNat false⟩) ∨
    next = state := by
  have refused : ¬ (-1 : Int32) = 0 := by decide
  cases call with
  | alloc rand =>
    have spec := allocSlot_firstFree state.progress rand
    cases first : state.progress.firstFree with
    | none =>
      rw [first] at spec
      simp only [slotMachine, spec, if_true, Option.some.injEq] at moved
      exact Or.inr (Or.inr moved.symm)
    | some slot =>
      rw [first] at spec
      obtain ⟨member, -⟩ := firstFree_some state.progress slot first
      obtain ⟨value, notError⟩ := slot_result state.progress slot member
      simp only [slotMachine, spec, if_neg notError, Option.some.injEq, value,
        Int.toNat_natCast] at moved
      exact Or.inl ⟨rand, slot, rfl, rfl, member, moved.symm⟩
  | giveBack i =>
    by_cases inside : i.toNat ∈ state.progress.slots
    · right
      left
      refine ⟨i, rfl, inside, ?_⟩
      have spec := returnSlot_inside state.progress flagged.positive i inside
      cases flag : (state.progress.inp i.toNat).inuse with
      | true =>
        simp only [slotMachine, spec, flag, if_true, Option.some.injEq] at moved
        exact moved.symm
      | false =>
        simp only [slotMachine, spec, flag, Bool.false_eq_true, if_false, if_neg refused,
          Option.some.injEq] at moved
        rw [← moved, ← clear_unheld state flagged i.toNat flag, Function.update_eq_self]
    · have spec := returnSlot_outside state.progress flagged.positive i inside
      simp only [slotMachine, spec, if_neg refused, Option.some.injEq] at moved
      exact Or.inr (Or.inr moved.symm)

/-- Every call keeps the flags of the held slots set. -/
theorem slotMachine_flagged (next : HeldSlots π) (call : SlotCall)
    (moved : slotMachine.step state call = some next) : next.Flagged := by
  rcases slotMachine_step state flagged next call moved with
    ⟨rand, slot, -, -, member, rfl⟩ | ⟨i, -, -, rfl⟩ | rfl
  · refine ⟨flagged.positive, ?_⟩
    intro other held
    by_cases same : other = slot
    · subst same
      exact ⟨member, by simp [InProgress.handedOut]⟩
    · simp only [InProgress.handedOut, Function.update_of_ne same] at held ⊢
      exact flagged.flagged other held
  · refine ⟨flagged.positive, ?_⟩
    intro other held
    by_cases same : other = i.toNat
    · subst same
      simp at held
    · simp only [InProgress.givenBack, Function.update_of_ne same] at held ⊢
      exact flagged.flagged other held
  · exact flagged

end Steps

section Zeroed

/-- No garbage is left: a set flag belongs to a held slot, and there are no third
pointers. -/
structure HeldSlots.Zeroed (state : HeldSlots π) : Prop where
  flagged : state.Flagged
  held : ∀ slot ∈ state.progress.slots, (state.progress.inp slot).inuse → state.held slot
  noThird : ∀ slot ∈ state.progress.slots, (state.progress.inp slot).data3 = none

/-- In memory that was zeroed there is no garbage to meet. -/
theorem HeldSlots.Zeroed.meetsNoGarbage {state : HeldSlots π} (zeroed : state.Zeroed)
    (call : SlotCall) : MeetsNoGarbage state call := by
  cases call with
  | alloc rand =>
    cases first : state.progress.firstFree with
    | none =>
      simp only [MeetsNoGarbage, first]
      intro slot member
      exact zeroed.held slot member (firstFree_none state.progress first slot member)
    | some slot =>
      simp only [MeetsNoGarbage, first]
      exact zeroed.noThird slot (firstFree_some state.progress slot first).1
  | giveBack i => exact zeroed.held i.toNat

/-- No call leaves garbage. -/
theorem slotMachine_zeroed (state next : HeldSlots π) (call : SlotCall) (zeroed : state.Zeroed)
    (moved : slotMachine.step state call = some next) : next.Zeroed := by
  have flagged := slotMachine_flagged state zeroed.flagged next call moved
  rcases slotMachine_step state zeroed.flagged next call moved with
    ⟨rand, slot, -, -, -, rfl⟩ | ⟨i, -, -, rfl⟩ | rfl
  · refine ⟨flagged, ?_, ?_⟩
    · intro other member set
      by_cases same : other = slot
      · subst same
        simp
      · simp only [InProgress.handedOut, Function.update_of_ne same] at set ⊢
        exact zeroed.held other member set
    · intro other member
      have noThird := zeroed.noThird other member
      by_cases same : other = slot
      · subst same
        simpa [InProgress.handedOut] using noThird
      · simpa [InProgress.handedOut, Function.update_of_ne same] using noThird
  · refine ⟨flagged, ?_, ?_⟩
    · intro other member set
      by_cases same : other = i.toNat
      · subst same
        simp [InProgress.givenBack] at set
      · simp only [InProgress.givenBack, Function.update_of_ne same] at set ⊢
        exact zeroed.held other member set
    · intro other member
      have noThird := zeroed.noThird other member
      by_cases same : other = i.toNat
      · subst same
        simpa [InProgress.givenBack] using noThird
      · simpa [InProgress.givenBack, Function.update_of_ne same] using noThird
  · exact zeroed

/-- The flags that are set are those of the slots below a count. -/
def FilledTo (progress : InProgress π) (count : Nat) : Prop :=
  ∀ slot ∈ progress.slots, (progress.inp slot).inuse = decide (slot < count)

/-- The first slot behind those that are filled is the one to hand out. -/
theorem FilledTo.firstFree {progress : InProgress π} {count : Nat}
    (filled : FilledTo progress count) (inside : count ∈ progress.slots) :
    progress.firstFree = some count := by
  rw [InProgress.firstFree, InProgress.slots, List.find?_range_eq_some]
  refine ⟨by simp [filled count inside], inside, ?_⟩
  intro slot below
  have before : slot ∈ progress.slots := by
    rw [InProgress.slots, List.mem_range] at inside ⊢
    omega
  simp [filled slot before, below]

/-- With it handed out, one slot more is filled. -/
theorem FilledTo.handedOut {progress : InProgress π} {count : Nat}
    (filled : FilledTo progress count) (rand : Int32) :
    FilledTo (progress.handedOut count rand) (count + 1) := by
  intro slot member
  by_cases same : slot = count
  · subst same
    simp [InProgress.handedOut]
  · have before := filled slot member
    simp only [InProgress.handedOut, Function.update_of_ne same, before, decide_eq_decide]
    omega

/-- In a table filled up to a slot, allocations go on to every later one, and meet
the third pointer that `malloc` left there. -/
theorem third_reached (further : Nat) (state : HeldSlots π) (flagged : state.Flagged)
    (count : Nat) (filled : FilledTo state.progress count)
    (member : count + further ∈ state.progress.slots)
    (allocates : slotMachine.Along AllocatesSlots state
      (List.replicate (further + 1) (.alloc 0))) :
    (state.progress.inp (count + further)).data3 = none := by
  induction further generalizing state count with
  | zero =>
    have noThird := (alloc_meetsNoGarbage_iff state flagged 0).mpr allocates.1
    simp only [MeetsNoGarbage, filled.firstFree member] at noThird
    exact noThird
  | succ further inductionHypothesis =>
    have inside : count ∈ state.progress.slots := by
      rw [InProgress.slots, List.mem_range] at member ⊢
      omega
    have spec := allocSlot_firstFree state.progress 0
    rw [filled.firstFree inside] at spec
    obtain ⟨value, notError⟩ := slot_result state.progress count inside
    have moved : slotMachine.step state (.alloc 0) = some
        ⟨state.progress.handedOut count 0, Function.update state.held count true⟩ := by
      simp only [slotMachine, spec, if_neg notError, value, Int.toNat_natCast]
    have onward : count + (further + 1) = count + 1 + further := by omega
    rw [onward] at member ⊢
    have noThird := inductionHypothesis _ (slotMachine_flagged state flagged _ _ moved) (count + 1)
      (filled.handedOut 0) member (allocates.2 _ moved)
    have later : count + 1 + further ≠ count := by omega
    simpa only [InProgress.handedOut, Function.update_of_ne later] using noThird

variable (nItems : Int32) (positive : 0 < nItems) (heap : Nat → InProgressItem π)
include positive

/-- In a new table over zeroed memory no flag is set. -/
theorem start_zeroed
    (zeroed : ∀ slot < nItems.toInt.toNat, (heap slot).inuse = false ∧ (heap slot).data3 = none) :
    (HeldSlots.start nItems heap).Zeroed where
  flagged := start_flagged nItems positive heap
  held := by
    intro slot member set
    have unset := (zeroed slot (List.mem_range.mp member)).1
    exact absurd (unset.symm.trans set) (by decide)
  noThird := by
    intro slot member
    exact (zeroed slot (List.mem_range.mp member)).2

/-- A slot that nobody holds cannot be given back, so its flag must be clear. -/
theorem flags_clear
    (allocates : ∀ calls, slotMachine.Along AllocatesSlots (HeldSlots.start nItems heap) calls)
    (slot : Nat) (below : slot < nItems.toInt.toNat) : (heap slot).inuse = false := by
  have member : slot ∈ (InProgress.construct nItems heap).slots := List.mem_range.mpr below
  have word : slot < 2 ^ 32 := by
    have small := slot_small (InProgress.construct nItems heap) slot member
    omega
  have returns := (allocates [.giveBack (UInt32.ofNat slot)]).1
  have guarded := (meetsNoGarbage_iff _ (start_flagged nItems positive heap) _).mpr returns
  simp only [MeetsNoGarbage, UInt32.toNat_ofNat_of_lt' word] at guarded
  cases set : (heap slot).inuse with
  | false => rfl
  | true =>
    have held := guarded member set
    cases held

/-- Each slot is handed out in the end, so its third pointer must be NULL. -/
theorem thirds_null
    (allocates : ∀ calls, slotMachine.Along AllocatesSlots (HeldSlots.start nItems heap) calls)
    (slot : Nat) (below : slot < nItems.toInt.toNat) : (heap slot).data3 = none := by
  have filled : FilledTo (InProgress.construct nItems heap) 0 := by
    intro other member
    have unset := flags_clear nItems positive heap allocates other (List.mem_range.mp member)
    simpa [InProgress.construct] using unset
  have noThird := third_reached slot (HeldSlots.start nItems heap)
    (start_flagged nItems positive heap) 0 filled
    (by rw [Nat.zero_add]; exact List.mem_range.mpr below) (allocates _)
  rw [Nat.zero_add] at noThird
  exact noThird

end Zeroed

/-- Along any calls the table is a correct slot allocator exactly if none of them
meets garbage; and it is one along all calls exactly if `malloc` returned memory
in which all flags are clear and all third pointers are NULL. -/
theorem allocates_slots_iff (nItems : Int32) (positive : 0 < nItems)
    (heap : Nat → InProgressItem π) :
    (∀ calls, slotMachine.Along AllocatesSlots (HeldSlots.start nItems heap) calls ↔
      slotMachine.Along MeetsNoGarbage (HeldSlots.start nItems heap) calls) ∧
    ((∀ calls, slotMachine.Along AllocatesSlots (HeldSlots.start nItems heap) calls) ↔
      ∀ slot < nItems.toInt.toNat, (heap slot).inuse = false ∧ (heap slot).data3 = none) := by
  have flagged := start_flagged nItems positive heap
  constructor
  · intro calls
    exact slotMachine.along_iff_guard HeldSlots.Flagged MeetsNoGarbage AllocatesSlots
      (fun state call holds => meetsNoGarbage_iff state holds call)
      (fun state call next holds _ moved => slotMachine_flagged state holds next call moved)
      _ calls flagged
  · constructor
    · intro allocates slot below
      exact ⟨flags_clear nItems positive heap allocates slot below,
        thirds_null nItems positive heap allocates slot below⟩
    · intro zeroed calls
      exact slotMachine.along_of_invariant HeldSlots.Zeroed AllocatesSlots
        (fun state call holds =>
          (meetsNoGarbage_iff state holds.flagged call).mp (holds.meetsNoGarbage call))
        (fun state call next holds moved => slotMachine_zeroed state next call holds moved)
        _ calls (start_zeroed nItems positive heap zeroed)

/-- A table of two slots in zeroed memory. -/
def zeroedHeap : Nat → InProgressItem Nat := fun _ => ⟨0, none, none, none, false⟩

/-- Memory in which the flag of the second slot is set. -/
def flaggedHeap : Nat → InProgressItem Nat := fun slot => ⟨0, none, none, none, slot == 1⟩

/-- In zeroed memory the table is always a slot allocator. With a flag left set it is one
along calls that do not meet it, but not along all. -/
theorem allocates_slots_two :
    (∀ calls, slotMachine.Along AllocatesSlots (HeldSlots.start 2 zeroedHeap) calls) ∧
    slotMachine.Along AllocatesSlots (HeldSlots.start 2 flaggedHeap) [.alloc 5, .giveBack 0] ∧
    slotMachine.Along MeetsNoGarbage (HeldSlots.start 2 flaggedHeap) [.alloc 5, .giveBack 0] ∧
    ¬ ∀ calls, slotMachine.Along AllocatesSlots (HeldSlots.start 2 flaggedHeap) calls := by
  have meetsNone : slotMachine.Along MeetsNoGarbage (HeldSlots.start 2 flaggedHeap)
      [.alloc 5, .giveBack 0] := by
    refine ⟨rfl, fun next moved => ?_⟩
    obtain rfl := Option.some.inj moved
    exact ⟨fun _ _ => rfl, fun _ _ => trivial⟩
  refine ⟨(allocates_slots_iff 2 (by decide) zeroedHeap).2.mpr fun _ _ => ⟨rfl, rfl⟩,
    ((allocates_slots_iff 2 (by decide) flaggedHeap).1 _).mpr meetsNone, meetsNone, ?_⟩
  intro allocates
  have clear := (allocates_slots_iff 2 (by decide) flaggedHeap).2.mp allocates 1 (by decide)
  exact absurd clear.1 (by decide)

/-- A single slot of which `malloc` left the flag set is never handed out, though
nothing is held. -/
theorem garbage_flag_blocks :
    ¬ slotMachine.Along AllocatesSlots
      (HeldSlots.start 1 fun _ => (⟨0, none, none, none, true⟩ : InProgressItem Nat))
      [.alloc 0] := by
  intro allocates
  have held := allocates.1.1.mp rfl 0 (by decide)
  cases held

end Evlpc
