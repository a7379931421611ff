import Mathlib.Data.List.Basic

/-!
# Messages under way on several channels

Messages are under way in one list, each with its channel, in the order in which they were
sent. What a party takes from the front of its own channel and what it sends meanwhile is
one move, and moves are put together to longer ones: the messages of a channel are taken in
the order in which they were sent, whatever happens on the others.
-/

namespace Evlpc.Library.Channels

variable {Channel Message : Type*} [DecidableEq Channel]

/-- The messages on a channel, in the order in which they were sent. -/
def toward (channel : Channel) (underWay : List (Channel × Message)) : List Message :=
  underWay.filterMap fun sent => if sent.1 = channel then some sent.2 else none

variable (channel : Channel)

/-- Nothing is under way to anyone on an empty network. -/
theorem toward_nil : toward channel ([] : List (Channel × Message)) = [] := rfl

/-- What is sent later comes later. -/
theorem toward_append (underWay sent : List (Channel × Message)) :
    toward channel (underWay ++ sent) = toward channel underWay ++ toward channel sent :=
  List.filterMap_append

/-- A message to the receiver is the first of its messages. -/
theorem toward_same (message : Message) (underWay : List (Channel × Message)) :
    toward channel ((channel, message) :: underWay) = message :: toward channel underWay := by
  simp [toward]

/-- A message to another receiver is none of them. -/
theorem toward_different (other : Channel) (message : Message)
    (underWay : List (Channel × Message)) (different : other ≠ channel) :
    toward channel ((other, message) :: underWay) = toward channel underWay := by
  simp [toward, different]

/-- The messages on a channel are those under way with it. -/
theorem mem_toward (message : Message) (underWay : List (Channel × Message)) :
    message ∈ toward channel underWay ↔ (channel, message) ∈ underWay := by
  rw [toward, List.mem_filterMap]
  constructor
  · rintro ⟨⟨other, sent⟩, member, found⟩
    split at found
    · rename_i same
      obtain rfl := Option.some.inj found
      exact same ▸ member
    · cases found
  · intro member
    exact ⟨(channel, message), member, if_pos rfl⟩

/-- Messages are taken from the front of a channel, and others are sent. -/
structure Moved (taken : List Message) (sent before after : List (Channel × Message)) : Prop where
  own : toward channel before ++ toward channel sent = taken ++ toward channel after
  others : ∀ other, other ≠ channel →
    toward other after = toward other before ++ toward other sent
  members : ∀ message ∈ after, message ∈ before ∨ message ∈ sent

/-- Nothing is taken. -/
theorem moved_sent (sent before : List (Channel × Message)) :
    Moved channel [] sent before (before ++ sent) where
  own := (toward_append channel before sent).symm
  others := fun other _ => toward_append other before sent
  members := fun _ => List.mem_append.mp

variable {channel}

/-- Two moves make a longer one. -/
theorem Moved.trans {first second : List Message}
    {sent more before between after : List (Channel × Message)}
    (one : Moved channel first sent before between)
    (two : Moved channel second more between after) :
    Moved channel (first ++ second) (sent ++ more) before after where
  own := by
    rw [toward_append, ← List.append_assoc, one.own, List.append_assoc, two.own,
      List.append_assoc]
  others := by
    intro other different
    rw [two.others other different, one.others other different, toward_append, List.append_assoc]
  members := by
    intro message member
    rcases two.members message member with here | here
    · rcases one.members message here with there | there
      · exact Or.inl there
      · exact Or.inr (List.mem_append_left more there)
    · exact Or.inr (List.mem_append_right sent here)

/-- The first message on a channel is somewhere among those under way, and can be taken out.
Induct over these: the messages in front of it are on other channels. -/
theorem moved_first (message : Message) (before : List (Channel × Message)) (later : List Message)
    (coming : toward channel before = message :: later) (sent : List (Channel × Message)) :
    ∃ index, before[index]? = some (channel, message) ∧
      Moved channel [message] sent before (before.eraseIdx index ++ sent) := by
  suffices taken : ∃ index, before[index]? = some (channel, message) ∧
      toward channel before = message :: toward channel (before.eraseIdx index) ∧
      ∀ other, other ≠ channel → toward other (before.eraseIdx index) = toward other before by
    obtain ⟨index, found, own, others⟩ := taken
    refine ⟨index, found, ?_, ?_, ?_⟩
    · rw [own, toward_append]
      rfl
    · intro other different
      rw [toward_append, others other different]
    · intro one member
      exact (List.mem_append.mp member).imp List.mem_of_mem_eraseIdx id
  induction before with
  | nil => cases coming
  | cons front before inductionHypothesis =>
    obtain ⟨destination, sent⟩ := front
    by_cases here : destination = channel
    · subst here
      rw [toward_same] at coming
      obtain rfl := (List.cons.inj coming).1
      refine ⟨0, rfl, toward_same destination sent before, ?_⟩
      intro other different
      exact (toward_different other destination sent before different.symm).symm
    · rw [toward_different _ _ _ _ here] at coming
      obtain ⟨index, found, own, others⟩ := inductionHypothesis coming
      refine ⟨index + 1, found, ?_, ?_⟩
      · rw [List.eraseIdx_cons_succ, toward_different _ _ _ _ here, toward_different _ _ _ _ here,
          own]
      · intro other different
        rw [List.eraseIdx_cons_succ]
        by_cases there : destination = other
        · subst there
          rw [toward_same, toward_same, others _ different]
        · rw [toward_different _ _ _ _ there, toward_different _ _ _ _ there,
            others other different]

end Evlpc.Library.Channels
