import Evlpc.ProcessMsg
import Mathlib.Logic.Function.Basic

/-!
# The callback table as a map

`register_cb` and `cbfuncs` are to be a map from the known payload types to
callbacks. Both guard their index into `pbcbs` by comparing the type with
`MT_MAX`, and both admit `MT_MAX` itself, which is one behind the last entry: a
received header of that type is looked up in the word that follows the table.
-/

namespace Evlpc

open Library

universe u
variable {κ : Type u}

/-- The index into `pbcbs` that `cbfuncs` and `register_cb` use for a type, if
their guards admit it. -/
def tableIndex (payloadType : UInt32) : Option Nat :=
  if payloadType > 0 ∧ payloadType ≤ MsgTypes.max.code then some payloadType.toNat else none

/-- `cbfuncs` reads the table at this index and nowhere else. -/
theorem cbfuncs_reads (pbcbs : PbCbs κ) (payloadType : UInt32) :
    cbfuncs pbcbs payloadType = (tableIndex payloadType).bind pbcbs := by
  unfold cbfuncs tableIndex
  split <;> rfl

/-- `register_cb` writes the table at this index and nowhere else. -/
theorem registerCb_writes (pbcbs : PbCbs κ) (payloadType : UInt32) (func : κ) :
    registerCb pbcbs payloadType func =
      ((tableIndex payloadType).map fun index =>
        Function.update pbcbs index (some func)).getD pbcbs := by
  unfold registerCb tableIndex
  split
  · funext index
    simp [Function.update_apply]
  · rfl

/-- `pbcbs` when the process starts: a static array of null pointers, and behind
it whatever the linker puts there. -/
def staticPbCbs (behind : PbCbs κ) : PbCbs κ := fun index =>
  if index < MsgTypes.max.code.toNat then none else behind index

/-- The table after calls of `register_cb`. -/
def registerAll (pbcbs : PbCbs κ) (registrations : List (UInt32 × κ)) : PbCbs κ :=
  registrations.foldl (fun table registration => registerCb table registration.1 registration.2)
    pbcbs

/-- The function of the last call for a type. -/
def lastRegistered (payloadType : UInt32) : List (UInt32 × κ) → Option κ
  | [] => none
  | registration :: later =>
    match lastRegistered payloadType later with
    | some func => some func
    | none => if registration.1 = payloadType then some registration.2 else none

/-- The indices into `pbcbs` used by calls of `register_cb` and one of `cbfuncs`. -/
def usedIndices (registrations : List (UInt32 × κ)) (payloadType : UInt32) : List Nat :=
  (registrations.map Prod.fst ++ [payloadType]).filterMap tableIndex

/-- What a callback table is for: the last function registered for a known type is
found, nothing is found for any other type, and no index is outside the table. -/
structure MapsTypes (behind : PbCbs κ) (registrations : List (UInt32 × κ))
    (payloadType : UInt32) : Prop where
  found : cbfuncs (registerAll (staticPbCbs behind) registrations) payloadType =
    if 0 < payloadType ∧ payloadType < MsgTypes.max.code then
      lastRegistered payloadType registrations
    else none
  inside : ∀ index ∈ usedIndices registrations payloadType, index < MsgTypes.max.code.toNat

/-- A registration is seen by the lookups of its own type. -/
theorem cbfuncs_registerCb (pbcbs : PbCbs κ) (registered : UInt32) (func : κ)
    (payloadType : UInt32) (admitted : payloadType > 0 ∧ payloadType ≤ MsgTypes.max.code) :
    cbfuncs (registerCb pbcbs registered func) payloadType =
      if registered = payloadType then some func else cbfuncs pbcbs payloadType := by
  have index : ∀ table : PbCbs κ, cbfuncs table payloadType = table payloadType.toNat :=
    fun _ => if_pos admitted
  rw [index, index]
  by_cases same : registered = payloadType
  · subst same
    simp [registerCb, if_pos admitted]
  · have other : payloadType.toNat ≠ registered.toNat :=
      fun equal => same (UInt32.toNat_inj.mp equal).symm
    rw [if_neg same, registerCb]
    split
    · exact if_neg other
    · rfl

/-- A lookup after any registrations finds the last one of its type, or what was
there before. -/
theorem cbfuncs_registerAll (pbcbs : PbCbs κ) (registrations : List (UInt32 × κ))
    (payloadType : UInt32) (admitted : payloadType > 0 ∧ payloadType ≤ MsgTypes.max.code) :
    cbfuncs (registerAll pbcbs registrations) payloadType =
      (lastRegistered payloadType registrations).or (cbfuncs pbcbs payloadType) := by
  induction registrations generalizing pbcbs with
  | nil => rfl
  | cons registration later inductionHypothesis =>
    have rest := inductionHypothesis (registerCb pbcbs registration.1 registration.2)
    rw [cbfuncs_registerCb pbcbs registration.1 registration.2 payloadType admitted] at rest
    rw [registerAll, List.foldl_cons, ← registerAll, rest, lastRegistered]
    cases lastRegistered payloadType later with
    | some func => rfl
    | none =>
      by_cases same : registration.1 = payloadType
      · rw [if_pos same, if_pos same]
        rfl
      · rw [if_neg same, if_neg same]

/-- An admitted type is inside the table unless it is `MT_MAX`. -/
theorem tableIndex_inside (payloadType : UInt32) :
    (∀ index, tableIndex payloadType = some index → index < MsgTypes.max.code.toNat) ↔
      payloadType ≠ MsgTypes.max.code := by
  constructor
  · rintro inside rfl
    exact Nat.lt_irrefl _ (inside _ rfl)
  · intro different index used
    unfold tableIndex at used
    split at used
    case isTrue admitted =>
      obtain rfl := Option.some.inj used
      have most := UInt32.le_iff_toNat_le.mp admitted.2
      have notMost : payloadType.toNat ≠ MsgTypes.max.code.toNat :=
        fun same => different (UInt32.toNat_inj.mp same)
      omega
    case isFalse => cases used

/-- No call leaves the table exactly if none is for `MT_MAX`. -/
theorem usedIndices_inside (registrations : List (UInt32 × κ)) (payloadType : UInt32) :
    (∀ index ∈ usedIndices registrations payloadType, index < MsgTypes.max.code.toNat) ↔
      (∀ registration ∈ registrations, registration.1 ≠ MsgTypes.max.code) ∧
        payloadType ≠ MsgTypes.max.code := by
  simp only [usedIndices, List.mem_filterMap, List.mem_append, List.mem_map, List.mem_singleton]
  constructor
  · intro inside
    constructor
    · intro registration member
      apply (tableIndex_inside registration.1).mp
      intro index used
      exact inside index ⟨registration.1, Or.inl ⟨registration, member, rfl⟩, used⟩
    · apply (tableIndex_inside payloadType).mp
      intro index used
      exact inside index ⟨payloadType, Or.inr rfl, used⟩
  · rintro ⟨registered, looked⟩ index ⟨type, ⟨registration, member, rfl⟩ | rfl, used⟩
    · exact (tableIndex_inside registration.1).mpr (registered registration member) index used
    · exact (tableIndex_inside type).mpr looked index used

/-- The table is the map it is meant to be, and used within its bounds, exactly if
neither a registration nor the lookup is for the type `MT_MAX`. -/
theorem mapsTypes_iff (behind : PbCbs κ) (registrations : List (UInt32 × κ))
    (payloadType : UInt32) :
    MapsTypes behind registrations payloadType ↔
      (∀ registration ∈ registrations, registration.1 ≠ MsgTypes.max.code) ∧
        payloadType ≠ MsgTypes.max.code := by
  constructor
  · intro maps
    exact (usedIndices_inside registrations payloadType).mp maps.inside
  · intro known
    refine ⟨?_, (usedIndices_inside registrations payloadType).mpr known⟩
    by_cases admitted : payloadType > 0 ∧ payloadType ≤ MsgTypes.max.code
    · have below : payloadType < MsgTypes.max.code :=
        UInt32.lt_of_le_of_ne admitted.2 known.2
      have unset : cbfuncs (staticPbCbs behind) payloadType = none := by
        rw [cbfuncs, if_pos admitted, staticPbCbs, if_pos (UInt32.lt_iff_toNat_lt.mp below)]
      rw [cbfuncs_registerAll _ _ _ admitted, unset, if_pos ⟨admitted.1, below⟩, Option.or_none]
    · rw [cbfuncs, if_neg admitted, if_neg]
      exact fun inside => admitted ⟨inside.1, UInt32.le_of_lt inside.2⟩

/-- A header of type `MT_MAX` is looked up behind the table, and found. -/
theorem mapsTypes_max_fails :
    cbfuncs (registerAll (staticPbCbs fun _ => some ()) []) MsgTypes.max.code = some () ∧
      ¬ MapsTypes (fun _ => some ()) [] MsgTypes.max.code := by
  have found : cbfuncs (registerAll (staticPbCbs fun _ => some ()) []) MsgTypes.max.code =
      some () := rfl
  refine ⟨found, fun maps => ?_⟩
  have expected := maps.found
  rw [found] at expected
  cases expected

end Evlpc
