import Evlpc.ProcessMsg

/-!
# The header validation on its own

`validate_pb_msg_common` makes the decision of `process_msg` on the header of a
message, over `uint32_t` counters that it changes through pointers. It drops what is
left if the header is malformed and steps over an empty message itself; the caller
steps over any other message.

Nothing in the source calls it yet. The loop that would call it from `process_msg`
is compared with the one that is there.
-/

namespace Evlpc

open Library

universe u
variable {κ : Type u}

/-- What `validate_pb_msg_common` returns: 0, or one of the `PB_MSG_DISP` values. -/
inductive PbMsgDisp where
  | zero
  | accept
  | invalid
  | readMore
  | empty
deriving DecidableEq, Repr

/-- The returned value, and the counters behind the pointers. -/
structure Validation where
  disposition : PbMsgDisp
  leftoverDataSize : UInt32
  currentLocation : UInt32
deriving DecidableEq, Repr

/-- `validate_pb_msg_common`. -/
def validatePbMsgCommon (memory : Store UInt8) (pbMsg : Int)
    (leftoverDataSize currentLocation : UInt32) : Validation :=
  let packetLength := loadWord32 memory pbMsg
  if packetLength.toUInt64 < sizeofPbHeader then ⟨.invalid, 0, currentLocation⟩
  else if leftoverDataSize < packetLength then ⟨.readMore, leftoverDataSize, currentLocation⟩
  else if packetLength.toUInt64 = sizeofPbHeader then
    ⟨.empty, leftoverDataSize - packetLength, currentLocation + packetLength⟩
  else ⟨.zero, leftoverDataSize, currentLocation⟩

section Cases

variable (memory : Store UInt8) (pbMsg : Int) (leftover location : UInt32)

/-- A length below the header's own size drops what is left. -/
theorem validate_malformed (small : (loadWord32 memory pbMsg).toNat < sizeofPbHeader.toNat) :
    validatePbMsgCommon memory pbMsg leftover location = ⟨.invalid, 0, location⟩ := by
  rw [validatePbMsgCommon, if_pos ((header_small_iff _).mpr small)]

/-- A message that is not complete leaves the counters alone. -/
theorem validate_incomplete (admitted : sizeofPbHeader.toNat ≤ (loadWord32 memory pbMsg).toNat)
    (incomplete : leftover.toNat < (loadWord32 memory pbMsg).toNat) :
    validatePbMsgCommon memory pbMsg leftover location = ⟨.readMore, leftover, location⟩ := by
  rw [validatePbMsgCommon, if_neg ((header_admitted_iff _).mpr admitted),
    if_pos (UInt32.lt_iff_toNat_lt.mpr incomplete)]

/-- A complete message is stepped over here only if it is empty. -/
theorem validate_complete (admitted : sizeofPbHeader.toNat ≤ (loadWord32 memory pbMsg).toNat)
    (complete : (loadWord32 memory pbMsg).toNat ≤ leftover.toNat) :
    validatePbMsgCommon memory pbMsg leftover location =
      if (loadWord32 memory pbMsg).toUInt64 = sizeofPbHeader then
        ⟨.empty, leftover - loadWord32 memory pbMsg, location + loadWord32 memory pbMsg⟩
      else ⟨.zero, leftover, location⟩ := by
  have enough : ¬ leftover < loadWord32 memory pbMsg :=
    fun incomplete => Nat.not_lt.mpr complete (UInt32.lt_iff_toNat_lt.mp incomplete)
  rw [validatePbMsgCommon, if_neg ((header_admitted_iff _).mpr admitted), if_neg enough]

/-- Unless the caller has to stop, the header has been found complete. -/
theorem validate_continues
    (goesOn : ¬ ((validatePbMsgCommon memory pbMsg leftover location).disposition = .invalid ∨
      (validatePbMsgCommon memory pbMsg leftover location).disposition = .readMore)) :
    sizeofPbHeader.toNat ≤ (loadWord32 memory pbMsg).toNat ∧
      (loadWord32 memory pbMsg).toNat ≤ leftover.toNat := by
  by_cases small : (loadWord32 memory pbMsg).toNat < sizeofPbHeader.toNat
  · rw [validate_malformed memory pbMsg leftover location small] at goesOn
    exact absurd (Or.inl rfl) goesOn
  · by_cases incomplete : leftover.toNat < (loadWord32 memory pbMsg).toNat
    · rw [validate_incomplete memory pbMsg leftover location (Nat.not_lt.mp small) incomplete]
        at goesOn
      exact absurd (Or.inr rfl) goesOn
    · exact ⟨Nat.not_lt.mp small, Nat.not_lt.mp incomplete⟩

/-- A complete message takes its length off what is left. -/
theorem leftover_steps (admitted : sizeofPbHeader.toNat ≤ (loadWord32 memory pbMsg).toNat)
    (complete : (loadWord32 memory pbMsg).toNat ≤ leftover.toNat) :
    (leftover - loadWord32 memory pbMsg).toNat < leftover.toNat := by
  have size : sizeofPbHeader.toNat = 32 := rfl
  rw [UInt32.toNat_sub_of_le _ _ (UInt32.le_iff_toNat_le.mpr complete)]
  omega

end Cases

/-- The counters that a complete message leaves for the next iteration. An empty one
has been stepped over already. -/
theorem validate_decreases (memory : Store UInt8) (pbMsg : Int) (leftover location : UInt32)
    (goesOn : ¬ ((validatePbMsgCommon memory pbMsg leftover location).disposition = .invalid ∨
      (validatePbMsgCommon memory pbMsg leftover location).disposition = .readMore)) :
    ((validatePbMsgCommon memory pbMsg leftover location).disposition = .empty →
      (validatePbMsgCommon memory pbMsg leftover location).leftoverDataSize.toNat <
        leftover.toNat) ∧
    ((validatePbMsgCommon memory pbMsg leftover location).disposition ≠ .empty →
      ((validatePbMsgCommon memory pbMsg leftover location).leftoverDataSize -
        loadWord32 memory pbMsg).toNat < leftover.toNat) := by
  obtain ⟨admitted, complete⟩ := validate_continues memory pbMsg leftover location goesOn
  have steps := leftover_steps memory pbMsg leftover admitted complete
  rw [validate_complete memory pbMsg leftover location admitted complete]
  split
  · exact ⟨fun _ => steps, fun other => absurd rfl other⟩
  · exact ⟨fun impossible => PbMsgDisp.noConfusion impossible, fun _ => steps⟩

/-- What the loop over `validate_pb_msg_common` does: the callbacks it invokes, and the
bytes it leaves. -/
structure ValidatedRun (κ : Type u) where
  calls : List (Call κ)
  leftoverDataSize : UInt32
deriving DecidableEq, Repr

/-- Calls before what the rest of the loop does. -/
def ValidatedRun.calling (calls : List (Call κ)) (later : ValidatedRun κ) : ValidatedRun κ where
  calls := calls ++ later.calls
  leftoverDataSize := later.leftoverDataSize

/-- The loop of `process_msg` with its header validation factored out, entered with the
two counters. -/
def validatedLoop (pbcbs : PbCbs κ) (memory : Store UInt8) (base : Int)
    (leftoverDataSize currentLocation : UInt32) : ValidatedRun κ :=
  if sizeofPbHeader ≤ leftoverDataSize.toUInt64 then
    let pbMsg := base + currentLocation.toNat
    let validation := validatePbMsgCommon memory pbMsg leftoverDataSize currentLocation
    if _stops : validation.disposition = .invalid ∨ validation.disposition = .readMore then
      ⟨[], validation.leftoverDataSize⟩
    else if _empty : validation.disposition = .empty then
      validatedLoop pbcbs memory base validation.leftoverDataSize validation.currentLocation
    else
      let calls := match cbfuncs pbcbs (loadWord32 memory (pbMsg + 8)) with
        | some cbfunc => [⟨cbfunc, pbMsg, loadWord32 memory pbMsg⟩]
        | none => []
      ValidatedRun.calling calls (validatedLoop pbcbs memory base
        (validation.leftoverDataSize - loadWord32 memory pbMsg)
        (validation.currentLocation + loadWord32 memory pbMsg))
  else ⟨[], leftoverDataSize⟩
termination_by leftoverDataSize.toNat
decreasing_by
  · exact (validate_decreases memory _ _ _ _stops).1 _empty
  · exact (validate_decreases memory _ _ _ _stops).2 _empty

/-- `process_msg` over this loop. -/
def processValidated (pbcbs : PbCbs κ) (memory : Store UInt8) (base : Int) (siz : Int64) :
    ValidatedRun κ :=
  validatedLoop pbcbs memory base siz.toUInt64.toUInt32 0

section Steps

variable (pbcbs : PbCbs κ) (memory : Store UInt8) (base : Int) (leftover location : UInt32)

/-- The condition of the loop. -/
theorem validatedGuard_iff :
    sizeofPbHeader ≤ leftover.toUInt64 ↔ sizeofPbHeader.toNat ≤ leftover.toNat := by
  rw [UInt64.le_iff_toNat_le, UInt32.toNat_toUInt64]

/-- With less than a header left, the loop waits. -/
theorem validatedLoop_short (short : leftover.toNat < sizeofPbHeader.toNat) :
    validatedLoop pbcbs memory base leftover location = ⟨[], leftover⟩ := by
  rw [validatedLoop, if_neg]
  rw [validatedGuard_iff]
  exact Nat.not_le.mpr short

/-- A length below that of a header drops what is left. -/
theorem validatedLoop_malformed (whole : sizeofPbHeader.toNat ≤ leftover.toNat)
    (small : (loadWord32 memory (base + location.toNat)).toNat < sizeofPbHeader.toNat) :
    validatedLoop pbcbs memory base leftover location = ⟨[], 0⟩ := by
  have validation := validate_malformed memory _ leftover location small
  rw [validatedLoop, if_pos ((validatedGuard_iff leftover).mpr whole)]
  simp only [validation]
  exact dif_pos (Or.inl trivial)

/-- With less than a frame left, the loop waits. -/
theorem validatedLoop_incomplete (whole : sizeofPbHeader.toNat ≤ leftover.toNat)
    (admitted : sizeofPbHeader.toNat ≤ (loadWord32 memory (base + location.toNat)).toNat)
    (incomplete : leftover.toNat < (loadWord32 memory (base + location.toNat)).toNat) :
    validatedLoop pbcbs memory base leftover location = ⟨[], leftover⟩ := by
  have validation := validate_incomplete memory _ leftover location admitted incomplete
  rw [validatedLoop, if_pos ((validatedGuard_iff leftover).mpr whole)]
  simp only [validation]
  exact dif_pos (Or.inr trivial)

/-- A complete message is stepped over, by the validation or after its callback. -/
theorem validatedLoop_frame
    (admitted : sizeofPbHeader.toNat ≤ (loadWord32 memory (base + location.toNat)).toNat)
    (complete : (loadWord32 memory (base + location.toNat)).toNat ≤ leftover.toNat) :
    validatedLoop pbcbs memory base leftover location =
      ValidatedRun.calling (frameCalls pbcbs memory (base + location.toNat))
        (validatedLoop pbcbs memory base (leftover - loadWord32 memory (base + location.toNat))
          (location + loadWord32 memory (base + location.toNat))) := by
  have validation := validate_complete memory _ leftover location admitted complete
  rw [validatedLoop, if_pos ((validatedGuard_iff leftover).mpr (Nat.le_trans admitted complete)),
    frameCalls]
  by_cases empty : (loadWord32 memory (base + location.toNat)).toUInt64 = sizeofPbHeader
  · rw [if_pos empty] at validation ⊢
    simp only [validation]
    rfl
  · rw [if_neg empty] at validation ⊢
    simp only [validation]
    rfl

end Steps

/-- The two runs invoke the same callbacks and leave the same bytes. -/
structure Agree (validated : ValidatedRun κ) (processed : Processed κ) : Prop where
  calls : validated.calls = processed.calls
  leftover : validated.leftoverDataSize = processed.leftoverDataSize.toUInt32

/-- In a buffer below 2^31 the loops agree from any position on. -/
theorem validatedLoop_agrees (pbcbs : PbCbs κ) (memory : Store UInt8) (base : Int)
    (leftover location : Int32)
    (inRange : location.toUInt32.toNat + leftover.toUInt32.toNat < 2147483648) :
    Agree (validatedLoop pbcbs memory base leftover.toUInt32 location.toUInt32)
      (processLoop pbcbs memory base leftover location) := by
  have loops := processLoop_induction pbcbs memory base
    (fun offset left processed => ∀ leftover location : UInt32, leftover.toNat = left →
      location.toNat = offset → offset + left < 2147483648 →
      Agree (validatedLoop pbcbs memory base leftover location) processed)
  refine loops ?short ?malformed ?incomplete ?frame _ leftover location _ rfl rfl inRange _ _ rfl
    rfl inRange
  case short =>
    intro offset left counter same short leftover location counted located _
    rw [validatedLoop_short pbcbs memory base leftover location (by omega)]
    exact ⟨rfl, UInt32.toNat_inj.mp (counted.trans same.symm)⟩
  case malformed =>
    intro offset left whole small leftover location counted located _
    rw [validatedLoop_malformed pbcbs memory base leftover location (by omega)
      (by rw [located]; exact small)]
    exact ⟨rfl, rfl⟩
  case incomplete =>
    intro offset left counter same whole admitted incomplete leftover location counted located _
    rw [validatedLoop_incomplete pbcbs memory base leftover location (by omega)
      (by rw [located]; exact admitted) (by rw [located, counted]; exact incomplete)]
    exact ⟨rfl, UInt32.toNat_inj.mp (counted.trans same.symm)⟩
  case frame =>
    intro offset left later admitted complete agrees leftover location counted located below
    rw [validatedLoop_frame pbcbs memory base leftover location (by rw [located]; exact admitted)
      (by rw [located, counted]; exact complete), located]
    have within : loadWord32 memory (base + offset) ≤ leftover :=
      UInt32.le_iff_toNat_le.mpr (by omega)
    have behind := agrees (leftover - loadWord32 memory (base + offset))
      (location + loadWord32 memory (base + offset))
      (by rw [UInt32.toNat_sub_of_le _ _ within, counted])
      (by rw [UInt32.toNat_add, located]; omega) (by omega)
    refine ⟨?_, behind.leftover⟩
    rw [ValidatedRun.calling, Processed.reading, behind.calls]

/-- On every buffer below 2^31 and with every callback table, the loop over
`validate_pb_msg_common` makes the calls of `process_msg` and leaves as many bytes. -/
theorem validated_loop_agrees (pbcbs : PbCbs κ) (memory : Store UInt8) (base : Int) (siz : Int64)
    (length : 0 ≤ siz.toInt) (inRange : siz.toInt < 2147483648) :
    (processValidated pbcbs memory base siz).calls = (processMsg pbcbs memory base siz).calls ∧
      ((processValidated pbcbs memory base siz).leftoverDataSize.toNat : Int) =
        (processMsg pbcbs memory base siz).leftoverDataSize.toInt := by
  obtain ⟨count, counted⟩ : ∃ count : Nat, siz = Int64.ofNat count ∧ count < 2147483648 := by
    refine ⟨siz.toInt.toNat, ?_, by omega⟩
    rw [← Int64.ofInt_eq_ofNat, Int.toNat_of_nonneg length, Int64.ofInt_toInt]
  obtain ⟨rfl, small⟩ := counted
  have narrowed : (Int64.ofNat count).toInt32.toUInt32.toNat = count := by
    rw [Conversions.narrow_size]
    omega
  have word : (Int64.ofNat count).toUInt64.toUInt32 = (Int64.ofNat count).toInt32.toUInt32 := by
    apply UInt32.toNat_inj.mp
    rw [Conversions.size_as_word, Conversions.narrow_size]
  have zero : (0 : Int32).toUInt32.toNat = 0 := rfl
  have start : (0 : Int32).toUInt32.toNat + (Int64.ofNat count).toInt32.toUInt32.toNat <
      2147483648 := by
    rw [narrowed, zero]
    omega
  have agree := validatedLoop_agrees pbcbs memory base (Int64.ofNat count).toInt32 0 start
  have bounded := (processLoop_within pbcbs memory base count (Int64.ofNat count).toInt32 0 0
    narrowed rfl (by omega)).2
  rw [processValidated, processMsg, word]
  refine ⟨agree.calls, ?_⟩
  change ((validatedLoop pbcbs memory base (Int64.ofNat count).toInt32.toUInt32
    (0 : Int32).toUInt32).leftoverDataSize.toNat : Int) = _
  rw [agree.leftover]
  exact (Conversions.signed_small _ _ rfl (by omega)).symm

/-- An empty message, a message with a callback, and three more bytes. -/
theorem validated_loop_agrees_messages :
    let memory : Store UInt8 := fun cell =>
      if cell = 0 then 32 else if cell = 32 then 40 else if cell = 40 then 1 else 0
    let pbcbs : PbCbs Unit := fun _ => some ()
    (processMsg pbcbs memory 0 75).calls = [⟨(), 32, 40⟩] ∧
    (processValidated pbcbs memory 0 75).calls = (processMsg pbcbs memory 0 75).calls ∧
      ((processValidated pbcbs memory 0 75).leftoverDataSize.toNat : Int) =
        (processMsg pbcbs memory 0 75).leftoverDataSize.toInt :=
  ⟨by decide +kernel, validated_loop_agrees _ _ 0 75 (by decide) (by decide)⟩

end Evlpc
