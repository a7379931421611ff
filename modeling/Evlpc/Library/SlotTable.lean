import Mathlib.Data.Set.Card
import Mathlib.Data.Fintype.Card

/-!
# A registry mirrored by a table of slots

A registry maps keys to tokens. A table of slots mirrors it if each registered
key stands in the slot that is its token, and every other slot holds a key that
is never registered and marks the slot as free. The table is then the registry's
inverse, so a key stands in at most one slot.

The mirror survives taking a free slot for a new key and freeing the slot of a
registered one. A table without a free slot has as many registered keys as slots.
-/

namespace Evlpc.Library

universe u v
variable {κ : Type u} {ι : Type v}

/-- The registry consists of the keys in the occupied slots, each with its slot. -/
def Mirrors (registry : κ → Option ι) (keys : ι → κ) (free : κ) : Prop :=
  ∀ key slot, registry key = some slot ↔ keys slot = key ∧ key ≠ free

namespace Mirrors

variable {registry : κ → Option ι} {keys : ι → κ} {free : κ}

/-- An empty registry mirrors a table of free slots. -/
theorem empty (vacant : ∀ slot, keys slot = free) : Mirrors (fun _ => none) keys free := by
  intro key slot
  constructor
  · intro registered
    cases registered
  · rintro ⟨stored, occupied⟩
    exact absurd (stored.symm.trans (vacant slot)) occupied

/-- An occupied slot is the token of its key. -/
theorem token (mirrored : Mirrors registry keys free) (slot : ι) (occupied : keys slot ≠ free) :
    registry (keys slot) = some slot :=
  (mirrored (keys slot) slot).mpr ⟨rfl, occupied⟩

/-- No key stands in two slots. -/
theorem distinct (mirrored : Mirrors registry keys free) (first second : ι)
    (occupied : keys first ≠ free) (same : keys first = keys second) : first = second := by
  have firstToken := mirrored.token first occupied
  have secondToken := mirrored.token second (same ▸ occupied)
  rw [same, secondToken] at firstToken
  exact (Option.some.inj firstToken).symm

/-- An unregistered key stands in no slot. -/
theorem absent (mirrored : Mirrors registry keys free) (key : κ) (slot : ι)
    (unregistered : registry key = none) (occupying : key ≠ free) : keys slot ≠ key := by
  intro stored
  have registered := (mirrored key slot).mpr ⟨stored, occupying⟩
  rw [unregistered] at registered
  cases registered

section Updates

variable [DecidableEq κ] [DecidableEq ι]

/-- Registering a new key and taking a free slot for it keeps them alike. -/
theorem occupy (mirrored : Mirrors registry keys free) (key : κ) (slot : ι)
    (vacant : keys slot = free) (unregistered : registry key = none) (occupying : key ≠ free) :
    Mirrors (Function.update registry key (some slot)) (Function.update keys slot key) free := by
  intro other place
  by_cases sameSlot : place = slot
  · subst sameSlot
    by_cases sameKey : other = key
    · simp [sameKey, occupying]
    · have elsewhere := mirrored other place
      rw [vacant] at elsewhere
      simp only [Function.update_self, Function.update_of_ne sameKey, elsewhere]
      constructor
      · rintro ⟨stored, occupied⟩
        exact absurd stored.symm occupied
      · rintro ⟨stored, -⟩
        exact absurd stored.symm sameKey
  · by_cases sameKey : other = key
    · subst sameKey
      have stored := mirrored.absent other place unregistered occupying
      simp [Function.update_of_ne sameSlot, stored, Ne.symm sameSlot]
    · simp only [Function.update_of_ne sameSlot, Function.update_of_ne sameKey]
      exact mirrored other place

/-- Removing a key and freeing its slot keeps them alike. -/
theorem release (mirrored : Mirrors registry keys free) (key : κ) (slot : ι)
    (registered : registry key = some slot) :
    Mirrors (Function.update registry key none) (Function.update keys slot free) free := by
  obtain ⟨stored, occupied⟩ := (mirrored key slot).mp registered
  intro other place
  by_cases sameSlot : place = slot
  · subst sameSlot
    simp only [Function.update_self]
    constructor
    · intro kept
      by_cases sameKey : other = key
      · simp [sameKey] at kept
      · rw [Function.update_of_ne sameKey] at kept
        exact absurd (((mirrored other place).mp kept).1.symm.trans stored) sameKey
    · rintro ⟨same, occupied⟩
      exact absurd same.symm occupied
  · by_cases sameKey : other = key
    · subst sameKey
      simp only [Function.update_self, Function.update_of_ne sameSlot]
      constructor
      · intro kept
        cases kept
      · rintro ⟨same, -⟩
        exact absurd (mirrored.distinct slot place (stored ▸ occupied)
          (stored.trans same.symm)).symm sameSlot
    · simp only [Function.update_of_ne sameSlot, Function.update_of_ne sameKey]
      exact mirrored other place

end Updates

/-- While fewer keys are registered than there are slots, some slot is free. -/
theorem room [Fintype ι] (mirrored : Mirrors registry keys free)
    (fewer : Set.ncard {key | registry key ≠ none} < Fintype.card ι) :
    ∃ slot, keys slot = free := by
  by_contra full
  have occupied : ∀ slot, keys slot ≠ free := fun slot vacant => full ⟨slot, vacant⟩
  have injective : Function.Injective keys := fun first second same =>
    mirrored.distinct first second (occupied first) same
  have registered : {key | registry key ≠ none} = Set.range keys := by
    ext key
    constructor
    · intro member
      obtain ⟨slot, found⟩ := Option.ne_none_iff_exists'.mp member
      exact ⟨slot, ((mirrored key slot).mp found).1⟩
    · rintro ⟨slot, rfl⟩
      simp [mirrored.token slot (occupied slot)]
  have counted : Set.ncard (Set.range keys) = Fintype.card ι := by
    rw [← Set.image_univ, Set.ncard_image_of_injective _ injective, Set.ncard_univ,
      Nat.card_eq_fintype_card]
  rw [registered, counted] at fewer
  exact Nat.lt_irrefl _ fewer

end Mirrors

end Evlpc.Library
