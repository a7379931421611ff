import Mathlib.Logic.Basic

/-!
# Two programs and two bounded byte streams

Each of two sequential programs is about to send a byte, to receive one, or stops. Bytes
stay in order in streams that hold so many at a time. A step of one program never disables
or changes a step of the other, so how the steps are mixed does not matter: if some run
comes to a configuration without steps, every run does, in as many steps.
-/

namespace Evlpc.Library.Streams

universe u

section Counted

variable {σ : Type u} (Step : σ → σ → Prop)

/-- So many steps lead from one configuration to another. -/
def Steps : Nat → σ → σ → Prop
  | 0, start, final => start = final
  | count + 1, start, final => ∃ next, Step start next ∧ Steps count next final

/-- Nothing can be done. -/
def Stuck (state : σ) : Prop := ∀ next, ¬ Step state next

/-- Two steps lead to the same configuration, or to configurations with a common
successor. -/
def Diamond : Prop :=
  ∀ start one other, Step start one → Step start other →
    one = other ∨ ∃ joined, Step one joined ∧ Step other joined

variable {Step}

/-- Runs can be joined. -/
theorem steps_append {first second : Nat} {start middle final : σ}
    (before : Steps Step first start middle) (after : Steps Step second middle final) :
    Steps Step (first + second) start final := by
  induction first generalizing start with
  | zero =>
    obtain rfl : start = middle := before
    rwa [Nat.zero_add]
  | succ first inductionHypothesis =>
    obtain ⟨next, moved, rest⟩ := before
    rw [Nat.add_right_comm]
    exact ⟨next, moved, inductionHypothesis rest⟩

/-- A step from the start of a finished run leads to the same end, one step sooner. -/
theorem strip (diamond : Diamond Step) {count : Nat} {start final next : σ}
    (finished : Steps Step count start final) (stuck : Stuck Step final)
    (moved : Step start next) : ∃ less, count = less + 1 ∧ Steps Step less next final := by
  induction count generalizing start next with
  | zero =>
    obtain rfl : start = final := finished
    exact absurd moved (stuck next)
  | succ count inductionHypothesis =>
    obtain ⟨first, went, rest⟩ := finished
    refine ⟨count, rfl, ?_⟩
    rcases diamond start next first moved went with rfl | ⟨joined, left, right⟩
    · exact rest
    · obtain ⟨less, rfl, reached⟩ := inductionHypothesis rest right
      exact ⟨joined, left, reached⟩

/-- If one run comes to an end, every run does: it is not longer, and goes on to the same
end. -/
theorem every_run_ends (diamond : Diamond Step) {count steps : Nat} {start final reached : σ}
    (finished : Steps Step count start final) (stuck : Stuck Step final)
    (run : Steps Step steps start reached) :
    ∃ left, count = steps + left ∧ Steps Step left reached final := by
  induction steps generalizing start count with
  | zero =>
    obtain rfl : start = reached := run
    exact ⟨count, (Nat.zero_add count).symm, finished⟩
  | succ steps inductionHypothesis =>
    obtain ⟨next, moved, rest⟩ := run
    obtain ⟨less, rfl, later⟩ := strip diamond finished stuck moved
    obtain ⟨left, rfl, ends⟩ := inductionHypothesis later rest
    exact ⟨left, Nat.add_right_comm steps left 1, ends⟩

/-- Where steps are left, one is possible. -/
theorem not_stuck {count : Nat} {start final : σ} (run : Steps Step count start final)
    (goesOn : start ≠ final) : ∃ next, Step start next := by
  cases count with
  | zero => exact absurd run goesOn
  | succ count =>
    obtain ⟨next, moved, _⟩ := run
    exact ⟨next, moved⟩

end Counted

/-- What a program is about to do. -/
inductive Action (Byte σ : Type) where
  | send (byte : Byte) (next : σ)
  | recv (next : Byte → σ)
  | stop

/-- Two programs, and the bytes on their way to each of them. -/
structure Pair (Byte σ τ : Type) where
  left : σ
  right : τ
  toRight : List Byte
  toLeft : List Byte

namespace Pair

variable {Byte σ τ : Type}

/-- The programs from the other side. -/
def swap (pair : Pair Byte σ τ) : Pair Byte τ σ :=
  ⟨pair.right, pair.left, pair.toLeft, pair.toRight⟩

/-- The left program sends a byte if the stream has room, or receives the next one. -/
def stepLeft (view : σ → Action Byte σ) (room : Nat) (pair : Pair Byte σ τ) :
    Option (Pair Byte σ τ) :=
  match view pair.left with
  | .send byte next =>
    if pair.toRight.length < room then
      some { pair with left := next, toRight := pair.toRight ++ [byte] }
    else none
  | .recv next =>
    match pair.toLeft with
    | [] => none
    | byte :: rest => some { pair with left := next byte, toLeft := rest }
  | .stop => none

/-- The same step of the right program. -/
def stepRight (view : τ → Action Byte τ) (room : Nat) (pair : Pair Byte σ τ) :
    Option (Pair Byte σ τ) :=
  (stepLeft view room pair.swap).map swap

end Pair

section Mixing

variable {Byte σ τ : Type} (leftView : σ → Action Byte σ) (rightView : τ → Action Byte τ)
  (roomRight roomLeft : Nat)

/-- One of the programs goes on. -/
def Step (pair next : Pair Byte σ τ) : Prop :=
  pair.stepLeft leftView roomRight = some next ∨ pair.stepRight rightView roomLeft = some next

/-- What a step of the left program can be. -/
theorem stepLeft_cases (view : σ → Action Byte σ) (room : Nat) (pair next : Pair Byte σ τ)
    (moved : pair.stepLeft view room = some next) :
    (∃ byte later, view pair.left = .send byte later ∧ pair.toRight.length < room ∧
      next = ⟨later, pair.right, pair.toRight ++ [byte], pair.toLeft⟩) ∨
    (∃ byte rest later, view pair.left = .recv later ∧ pair.toLeft = byte :: rest ∧
      next = ⟨later byte, pair.right, pair.toRight, rest⟩) := by
  rw [Pair.stepLeft] at moved
  cases action : view pair.left with
  | send byte later =>
    simp only [action] at moved
    by_cases fits : pair.toRight.length < room
    · rw [if_pos fits] at moved
      exact Or.inl ⟨byte, later, rfl, fits, (Option.some.inj moved).symm⟩
    · rw [if_neg fits] at moved
      cases moved
  | recv later =>
    simp only [action] at moved
    cases coming : pair.toLeft with
    | nil =>
      rw [coming] at moved
      cases moved
    | cons byte rest =>
      rw [coming] at moved
      exact Or.inr ⟨byte, rest, later, rfl, rfl, (Option.some.inj moved).symm⟩
  | stop =>
    rw [action] at moved
    cases moved

/-- The left program can send a byte if there is room. -/
theorem stepLeft_send (view : σ → Action Byte σ) (room : Nat) (pair : Pair Byte σ τ) (byte : Byte)
    (later : σ) (sends : view pair.left = .send byte later) (fits : pair.toRight.length < room) :
    pair.stepLeft view room =
      some ⟨later, pair.right, pair.toRight ++ [byte], pair.toLeft⟩ := by
  rw [Pair.stepLeft, sends]
  exact if_pos fits

/-- The left program can receive the next byte that is coming. -/
theorem stepLeft_recv (view : σ → Action Byte σ) (room : Nat) (pair : Pair Byte σ τ) (byte : Byte)
    (rest : List Byte) (later : Byte → σ) (receives : view pair.left = .recv later)
    (coming : pair.toLeft = byte :: rest) :
    pair.stepLeft view room = some ⟨later byte, pair.right, pair.toRight, rest⟩ := by
  rw [Pair.stepLeft, receives, coming]

/-- A step of the right program sends a byte into the room, or receives the next one. -/
theorem stepRight_cases (view : τ → Action Byte τ) (room : Nat) (pair next : Pair Byte σ τ)
    (moved : pair.stepRight view room = some next) :
    (∃ byte later, view pair.right = .send byte later ∧ pair.toLeft.length < room ∧
      next = ⟨pair.left, later, pair.toRight, pair.toLeft ++ [byte]⟩) ∨
    (∃ byte rest later, view pair.right = .recv later ∧ pair.toRight = byte :: rest ∧
      next = ⟨pair.left, later byte, rest, pair.toLeft⟩) := by
  obtain ⟨swapped, went, rfl⟩ := Option.map_eq_some_iff.mp moved
  rcases stepLeft_cases view room pair.swap swapped went with
    ⟨byte, later, sends, fits, rfl⟩ | ⟨byte, rest, later, receives, coming, rfl⟩
  · exact Or.inl ⟨byte, later, sends, fits, rfl⟩
  · exact Or.inr ⟨byte, rest, later, receives, coming, rfl⟩

/-- The right program can send a byte if there is room. -/
theorem stepRight_send (view : τ → Action Byte τ) (room : Nat) (pair : Pair Byte σ τ)
    (byte : Byte) (later : τ) (sends : view pair.right = .send byte later)
    (fits : pair.toLeft.length < room) :
    pair.stepRight view room =
      some ⟨pair.left, later, pair.toRight, pair.toLeft ++ [byte]⟩ := by
  rw [Pair.stepRight, stepLeft_send view room pair.swap byte later sends fits]
  rfl

/-- The right program can receive the next byte that is coming. -/
theorem stepRight_recv (view : τ → Action Byte τ) (room : Nat) (pair : Pair Byte σ τ)
    (byte : Byte) (rest : List Byte) (later : Byte → τ) (receives : view pair.right = .recv later)
    (coming : pair.toRight = byte :: rest) :
    pair.stepRight view room = some ⟨pair.left, later byte, rest, pair.toLeft⟩ := by
  rw [Pair.stepRight, stepLeft_recv view room pair.swap byte rest later receives coming]
  rfl

/-- Steps of the two programs can be done in either order. -/
theorem steps_commute (pair one other : Pair Byte σ τ)
    (left : pair.stepLeft leftView roomRight = some one)
    (right : pair.stepRight rightView roomLeft = some other) :
    ∃ joined, one.stepRight rightView roomLeft = some joined ∧
      other.stepLeft leftView roomRight = some joined := by
  rcases stepLeft_cases leftView roomRight pair one left with
    ⟨byte, later, sends, fits, rfl⟩ | ⟨byte, rest, later, receives, coming, rfl⟩
  · rcases stepRight_cases rightView roomLeft pair other right with
      ⟨answer, answered, answers, room, rfl⟩ | ⟨taken, behind, got, gets, there, rfl⟩
    · exact ⟨_, stepRight_send rightView roomLeft _ answer answered answers room,
        stepLeft_send leftView roomRight _ byte later sends fits⟩
    · have coming : pair.toRight ++ [byte] = taken :: (behind ++ [byte]) := by
        rw [there, List.cons_append]
      have shorter : behind.length < roomRight := by
        rw [there, List.length_cons] at fits
        omega
      exact ⟨_, stepRight_recv rightView roomLeft _ taken _ got gets coming,
        stepLeft_send leftView roomRight _ byte later sends shorter⟩
  · rcases stepRight_cases rightView roomLeft pair other right with
      ⟨answer, answered, answers, room, rfl⟩ | ⟨taken, behind, got, gets, there, rfl⟩
    · have arriving : pair.toLeft ++ [answer] = byte :: (rest ++ [answer]) := by
        rw [coming, List.cons_append]
      have shorter : rest.length < roomLeft := by
        rw [coming, List.length_cons] at room
        omega
      exact ⟨_, stepRight_send rightView roomLeft _ answer answered answers shorter,
        stepLeft_recv leftView roomRight _ byte _ later receives arriving⟩
    · exact ⟨_, stepRight_recv rightView roomLeft _ taken behind got gets there,
        stepLeft_recv leftView roomRight _ byte rest later receives coming⟩

/-- How the steps are mixed does not matter. -/
theorem step_diamond : Diamond (Step leftView rightView roomRight roomLeft) := by
  intro start one other moved otherMoved
  rcases moved with left | right
  · rcases otherMoved with otherLeft | otherRight
    · exact Or.inl (Option.some.inj (left.symm.trans otherLeft))
    · obtain ⟨joined, after, before⟩ :=
        steps_commute leftView rightView roomRight roomLeft start one other left otherRight
      exact Or.inr ⟨joined, Or.inr after, Or.inl before⟩
  · rcases otherMoved with otherLeft | otherRight
    · obtain ⟨joined, after, before⟩ :=
        steps_commute leftView rightView roomRight roomLeft start other one otherLeft right
      exact Or.inr ⟨joined, Or.inl before, Or.inr after⟩
    · exact Or.inl (Option.some.inj (right.symm.trans otherRight))

end Mixing

section Transferring

variable {Byte σ τ : Type}

/-- The program sends these bytes one after the other, and then is in the other state. -/
def Sends (view : σ → Action Byte σ) : σ → List Byte → σ → Prop
  | start, [], final => start = final
  | start, byte :: rest, final => ∃ next, view start = .send byte next ∧ Sends view next rest final

/-- The program receives these bytes one after the other, and then is in the other
state. -/
def Receives (view : σ → Action Byte σ) : σ → List Byte → σ → Prop
  | start, [], final => start = final
  | start, byte :: rest, final =>
    ∃ next, view start = .recv next ∧ Receives view (next byte) rest final

variable {view : σ → Action Byte σ}

/-- What is sent in two parts is sent. -/
theorem sends_append {start middle final : σ} {first second : List Byte}
    (before : Sends view start first middle) (after : Sends view middle second final) :
    Sends view start (first ++ second) final := by
  induction first generalizing start with
  | nil =>
    obtain rfl : start = middle := before
    exact after
  | cons byte first inductionHypothesis =>
    obtain ⟨next, sends, rest⟩ := before
    exact ⟨next, sends, inductionHypothesis rest⟩

/-- What is received in two parts is received. -/
theorem receives_append {start middle final : σ} {first second : List Byte}
    (before : Receives view start first middle) (after : Receives view middle second final) :
    Receives view start (first ++ second) final := by
  induction first generalizing start with
  | nil =>
    obtain rfl : start = middle := before
    exact after
  | cons byte first inductionHypothesis =>
    obtain ⟨next, receives, rest⟩ := before
    exact ⟨next, receives, inductionHypothesis rest⟩

variable (leftView : σ → Action Byte σ) (rightView : τ → Action Byte τ) (roomRight roomLeft : Nat)

/-- Bytes that one program sends are put into a stream with room for them. -/
theorem sends_steps (pair : Pair Byte σ τ) (bytes : List Byte) (final : σ)
    (sends : Sends leftView pair.left bytes final)
    (fits : pair.toRight.length + bytes.length ≤ roomRight) :
    Steps (Step leftView rightView roomRight roomLeft) bytes.length pair
      ⟨final, pair.right, pair.toRight ++ bytes, pair.toLeft⟩ := by
  induction bytes generalizing pair with
  | nil =>
    obtain rfl : pair.left = final := sends
    rw [List.append_nil]
    rfl
  | cons byte rest inductionHypothesis =>
    obtain ⟨next, sending, later⟩ := sends
    rw [List.length_cons] at fits
    refine ⟨_, Or.inl (stepLeft_send leftView roomRight pair byte next sending (by omega)), ?_⟩
    have moved := inductionHypothesis ⟨next, pair.right, pair.toRight ++ [byte], pair.toLeft⟩ later
      (by rw [List.length_append, List.length_singleton]; omega)
    rwa [List.append_assoc, List.singleton_append] at moved

/-- Bytes that one program receives are taken from the front of a stream. -/
theorem receives_steps (pair : Pair Byte σ τ) (bytes rest : List Byte) (final : σ)
    (receives : Receives leftView pair.left bytes final) (coming : pair.toLeft = bytes ++ rest) :
    Steps (Step leftView rightView roomRight roomLeft) bytes.length pair
      ⟨final, pair.right, pair.toRight, rest⟩ := by
  induction bytes generalizing pair with
  | nil =>
    obtain rfl : pair.left = final := receives
    obtain rfl : pair.toLeft = rest := coming
    rfl
  | cons byte bytes inductionHypothesis =>
    obtain ⟨next, receiving, later⟩ := receives
    exact ⟨_, Or.inl (stepLeft_recv leftView roomRight pair byte _ next receiving coming),
      inductionHypothesis ⟨next byte, pair.right, pair.toRight, bytes ++ rest⟩ later rfl⟩

variable {leftView rightView roomRight roomLeft} in
/-- The step relation from the other side. -/
theorem step_swap (pair next : Pair Byte σ τ)
    (moved : Step leftView rightView roomRight roomLeft pair next) :
    Step rightView leftView roomLeft roomRight pair.swap next.swap := by
  rcases moved with left | right
  · refine Or.inr ?_
    have same : pair.swap.stepRight leftView roomRight =
        (pair.stepLeft leftView roomRight).map Pair.swap := rfl
    rw [same, left]
    rfl
  · refine Or.inl ?_
    obtain ⟨swapped, went, rfl⟩ := Option.map_eq_some_iff.mp right
    exact went

variable {leftView rightView roomRight roomLeft} in

/-- A run is one of the pair with its sides exchanged. -/
theorem steps_swap {count : Nat} {pair final : Pair Byte σ τ}
    (run : Steps (Step leftView rightView roomRight roomLeft) count pair final) :
    Steps (Step rightView leftView roomLeft roomRight) count pair.swap final.swap := by
  induction count generalizing pair with
  | zero =>
    obtain rfl : pair = final := run
    rfl
  | succ count inductionHypothesis =>
    obtain ⟨next, moved, rest⟩ := run
    exact ⟨next.swap, step_swap pair next moved, inductionHypothesis rest⟩

/-- What one program sends and the other receives goes through a stream with room for one
byte. -/
theorem transfer (start final : σ) (start' final' : τ) (bytes toLeft : List Byte)
    (room : 0 < roomRight) (sends : Sends leftView start bytes final)
    (receives : Receives rightView start' bytes final') :
    Steps (Step leftView rightView roomRight roomLeft) (2 * bytes.length)
      ⟨start, start', [], toLeft⟩ ⟨final, final', [], toLeft⟩ := by
  induction bytes generalizing start start' with
  | nil =>
    obtain rfl : start = final := sends
    obtain rfl : start' = final' := receives
    rfl
  | cons byte rest inductionHypothesis =>
    obtain ⟨next, sending, later⟩ := sends
    obtain ⟨next', receiving, later'⟩ := receives
    have sent := stepLeft_send leftView roomRight ⟨start, start', [], toLeft⟩ byte next sending room
    have received := stepRight_recv rightView roomLeft ⟨next, start', [byte], toLeft⟩ byte []
      next' receiving rfl
    exact ⟨_, Or.inl sent, _, Or.inr received, inductionHypothesis next (next' byte) later later'⟩

/-- The same from the right program to the left one. -/
theorem transfer_back (start final : σ) (start' final' : τ) (bytes toRight : List Byte)
    (room : 0 < roomLeft) (sends : Sends rightView start' bytes final')
    (receives : Receives leftView start bytes final) :
    Steps (Step leftView rightView roomRight roomLeft) (2 * bytes.length)
      ⟨start, start', toRight, []⟩ ⟨final, final', toRight, []⟩ := by
  have there := transfer rightView leftView roomLeft roomRight start' final' start final bytes
    toRight room sends receives
  exact steps_swap there

end Transferring

/-- What a program calls: a call that sends, with the program that goes on when some bytes
are left, or one that receives no more than a count, with the program that goes on with
what it got. -/
inductive Call (Byte σ : Type) where
  | send (bytes : List Byte) (left : List Byte → σ)
  | recv (count : Nat) (got : List Byte → σ)
  | stop

section Calling

variable {Byte σ τ : Type} (call : σ → Call Byte σ)

/-- The program byte by byte. -/
def byteView (state : σ) : Action Byte σ :=
  match call state with
  | .send (byte :: rest) left => .send byte (left rest)
  | .recv (_ + 1) got => .recv fun byte => got [byte]
  | _ => .stop

/-- Calls that move less than they are asked to are made again for the rest. -/
structure Loops : Prop where
  sendAgain : ∀ state bytes left, call state = .send bytes left →
    ∀ rest, rest ≠ [] → rest <:+ bytes → call (left rest) = .send rest left
  recvAgain : ∀ state count got, call state = .recv count got →
    ∀ bytes, bytes.length < count →
      call (got bytes) = .recv (count - bytes.length) fun more => got (bytes ++ more)

/-- The left program makes a call that moves so many bytes, at least one and as many as
the stream takes or has. -/
def callLeft (room : Nat) (pair : Pair Byte σ τ) (cc : Nat) : Option (Pair Byte σ τ) :=
  match call pair.left with
  | .send bytes left =>
    if 0 < cc ∧ cc ≤ bytes.length ∧ pair.toRight.length + cc ≤ room then
      some { pair with left := left (bytes.drop cc), toRight := pair.toRight ++ bytes.take cc }
    else none
  | .recv count got =>
    if 0 < cc ∧ cc ≤ count ∧ cc ≤ pair.toLeft.length then
      some { pair with left := got (pair.toLeft.take cc), toLeft := pair.toLeft.drop cc }
    else none
  | .stop => none

/-- The same call of the right program. -/
def callRight (call : τ → Call Byte τ) (room : Nat) (pair : Pair Byte σ τ) (cc : Nat) :
    Option (Pair Byte σ τ) :=
  (callLeft call room pair.swap cc).map Pair.swap

variable {call} (loops : Loops call)
include loops

/-- What a call sends is sent byte by byte. -/
theorem sends_of_call (state : σ) (bytes front rest : List Byte) (left : List Byte → σ)
    (sending : call state = .send bytes left) (parts : front ++ rest = bytes)
    (notEmpty : front ≠ []) : Sends (byteView call) state front (left rest) := by
  induction front generalizing state bytes with
  | nil => exact absurd rfl notEmpty
  | cons byte front inductionHypothesis =>
    have view : byteView call state = .send byte (left (front ++ rest)) := by
      rw [byteView, sending, ← parts]
      rfl
    refine ⟨left (front ++ rest), view, ?_⟩
    by_cases last : front = []
    · rw [last]
      rfl
    · have behind : front ++ rest <:+ bytes := by
        rw [← parts]
        exact List.suffix_cons byte (front ++ rest)
      have again := loops.sendAgain state bytes left sending (front ++ rest)
        (List.append_ne_nil_of_left_ne_nil last rest) behind
      exact inductionHypothesis _ _ again rfl last

/-- What a call receives is received byte by byte. -/
theorem receives_of_call (state : σ) (count : Nat) (bytes : List Byte) (got : List Byte → σ)
    (receiving : call state = .recv count got) (within : bytes.length ≤ count)
    (notEmpty : bytes ≠ []) : Receives (byteView call) state bytes (got bytes) := by
  induction bytes generalizing state count got with
  | nil => exact absurd rfl notEmpty
  | cons byte bytes inductionHypothesis =>
    rw [List.length_cons] at within
    obtain ⟨fewer, rfl⟩ : ∃ fewer, count = fewer + 1 := ⟨count - 1, by omega⟩
    have view : byteView call state = .recv fun byte => got [byte] := by
      rw [byteView, receiving]
    refine ⟨_, view, ?_⟩
    by_cases last : bytes = []
    · rw [last]
      rfl
    · have more : 0 < bytes.length := List.length_pos_iff.mpr last
      have again := loops.recvAgain state (fewer + 1) got receiving [byte]
        (by rw [List.length_singleton]; omega)
      exact inductionHypothesis _ _ _ again (by rw [List.length_singleton]; omega) last

/-- A call is as many steps as it moves bytes. -/
theorem callLeft_steps (rightView : τ → Action Byte τ) (roomRight roomLeft cc : Nat)
    (pair next : Pair Byte σ τ) (called : callLeft call roomRight pair cc = some next) :
    0 < cc ∧ Steps (Step (byteView call) rightView roomRight roomLeft) cc pair next := by
  rw [callLeft] at called
  cases calling : call pair.left with
  | send bytes left =>
    simp only [calling] at called
    by_cases moves : 0 < cc ∧ cc ≤ bytes.length ∧ pair.toRight.length + cc ≤ roomRight
    · rw [if_pos moves] at called
      obtain rfl := Option.some.inj called
      obtain ⟨positive, within, fits⟩ := moves
      have length : (bytes.take cc).length = cc := List.length_take_of_le within
      have notEmpty : bytes.take cc ≠ [] := by
        intro empty
        rw [empty] at length
        exact Nat.ne_of_gt positive length.symm
      have sends := sends_of_call loops pair.left bytes (bytes.take cc) (bytes.drop cc) left
        calling (List.take_append_drop cc bytes) notEmpty
      have steps := sends_steps (byteView call) rightView roomRight roomLeft pair (bytes.take cc) _
        sends (by rw [length]; exact fits)
      rw [length] at steps
      exact ⟨positive, steps⟩
    · rw [if_neg moves] at called
      cases called
  | recv count got =>
    simp only [calling] at called
    by_cases moves : 0 < cc ∧ cc ≤ count ∧ cc ≤ pair.toLeft.length
    · rw [if_pos moves] at called
      obtain rfl := Option.some.inj called
      obtain ⟨positive, within, coming⟩ := moves
      have length : (pair.toLeft.take cc).length = cc := List.length_take_of_le coming
      have notEmpty : pair.toLeft.take cc ≠ [] := by
        intro empty
        rw [empty] at length
        exact Nat.ne_of_gt positive length.symm
      have receives := receives_of_call loops pair.left count (pair.toLeft.take cc) got calling
        (by rw [length]; exact within) notEmpty
      have steps := receives_steps (byteView call) rightView roomRight roomLeft pair
        (pair.toLeft.take cc) (pair.toLeft.drop cc) _ receives
        (List.take_append_drop cc pair.toLeft).symm
      rw [length] at steps
      exact ⟨positive, steps⟩
    · rw [if_neg moves] at called
      cases called
  | stop =>
    simp only [calling] at called
    cases called

omit loops in
/-- A step is a call that moves one byte. -/
theorem step_callLeft (room : Nat) (pair next : Pair Byte σ τ)
    (moved : pair.stepLeft (byteView call) room = some next) :
    callLeft call room pair 1 = some next := by
  rcases stepLeft_cases (byteView call) room pair next moved with
    ⟨byte, later, sends, fits, rfl⟩ | ⟨byte, rest, later, receives, coming, rfl⟩
  · rw [byteView] at sends
    rw [callLeft]
    cases calling : call pair.left with
    | send bytes left =>
      simp only [calling] at sends
      cases bytes with
      | nil => cases sends
      | cons first bytes =>
        obtain ⟨rfl, rfl⟩ := Action.send.inj sends
        have moves : 0 < 1 ∧ 1 ≤ (first :: bytes).length ∧ pair.toRight.length + 1 ≤ room :=
          ⟨Nat.one_pos, Nat.succ_le_succ (Nat.zero_le _), fits⟩
        exact if_pos moves
    | recv count got =>
      simp only [calling] at sends
      cases count with
      | zero => cases sends
      | succ count => cases sends
    | stop =>
      simp only [calling] at sends
      cases sends
  · rw [byteView] at receives
    rw [callLeft]
    cases calling : call pair.left with
    | send bytes left =>
      simp only [calling] at receives
      cases bytes with
      | nil => cases receives
      | cons first bytes => cases receives
    | recv count got =>
      simp only [calling] at receives
      cases count with
      | zero => cases receives
      | succ count =>
        obtain rfl := Action.recv.inj receives
        have moves : 0 < 1 ∧ 1 ≤ count + 1 ∧ 1 ≤ pair.toLeft.length := by
          rw [coming, List.length_cons]
          omega
        simp only []
        rw [if_pos moves, coming]
        rfl
    | stop =>
      simp only [calling] at receives
      cases receives

end Calling

section Runs

variable {Byte σ τ : Type} (leftCall : σ → Call Byte σ) (rightCall : τ → Call Byte τ)
  (roomRight roomLeft : Nat)

/-- One of the programs makes a call that moves something. -/
def CallStep (pair next : Pair Byte σ τ) : Prop :=
  ∃ cc, callLeft leftCall roomRight pair cc = some next ∨
    callRight rightCall roomLeft pair cc = some next

variable {leftCall rightCall roomRight roomLeft}

/-- A step is a call. -/
theorem callStep_of_step (pair next : Pair Byte σ τ)
    (moved : Step (byteView leftCall) (byteView rightCall) roomRight roomLeft pair next) :
    CallStep leftCall rightCall roomRight roomLeft pair next := by
  rcases moved with left | right
  · exact ⟨1, Or.inl (step_callLeft roomRight pair next left)⟩
  · obtain ⟨swapped, went, rfl⟩ := Option.map_eq_some_iff.mp right
    exact ⟨1, Or.inr (congrArg (Option.map Pair.swap) (step_callLeft roomLeft _ _ went))⟩

/-- A run byte by byte is one of calls that move a byte each. -/
theorem callSteps_of_steps {count : Nat} {pair final : Pair Byte σ τ}
    (run : Steps (Step (byteView leftCall) (byteView rightCall) roomRight roomLeft) count pair
      final) : Steps (CallStep leftCall rightCall roomRight roomLeft) count pair final := by
  induction count generalizing pair with
  | zero => exact run
  | succ count inductionHypothesis =>
    obtain ⟨next, moved, rest⟩ := run
    exact ⟨next, callStep_of_step pair next moved, inductionHypothesis rest⟩

/-- A call is one step or more. -/
theorem steps_of_callStep (leftLoops : Loops leftCall) (rightLoops : Loops rightCall)
    (pair next : Pair Byte σ τ)
    (called : CallStep leftCall rightCall roomRight roomLeft pair next) :
    ∃ cc, 0 < cc ∧
      Steps (Step (byteView leftCall) (byteView rightCall) roomRight roomLeft) cc pair next := by
  obtain ⟨cc, left | right⟩ := called
  · exact ⟨cc, callLeft_steps leftLoops (byteView rightCall) roomRight roomLeft cc pair next left⟩
  · obtain ⟨swapped, went, rfl⟩ := Option.map_eq_some_iff.mp right
    have steps := callLeft_steps rightLoops (byteView leftCall) roomLeft roomRight cc pair.swap
      swapped went
    exact ⟨cc, steps.1, steps_swap steps.2⟩

/-- A run of calls is one byte by byte, of at least as many steps. -/
theorem steps_of_callSteps (leftLoops : Loops leftCall) (rightLoops : Loops rightCall)
    {calls : Nat} {pair final : Pair Byte σ τ}
    (run : Steps (CallStep leftCall rightCall roomRight roomLeft) calls pair final) :
    ∃ count, calls ≤ count ∧
      Steps (Step (byteView leftCall) (byteView rightCall) roomRight roomLeft) count pair
        final := by
  induction calls generalizing pair with
  | zero => exact ⟨0, Nat.le_refl 0, run⟩
  | succ calls inductionHypothesis =>
    obtain ⟨next, called, rest⟩ := run
    obtain ⟨cc, positive, first⟩ := steps_of_callStep leftLoops rightLoops pair next called
    obtain ⟨count, within, later⟩ := inductionHypothesis rest
    exact ⟨cc + count, by omega, steps_append first later⟩

/-- However the calls of two looping programs are mixed and whatever they move, if some run
byte by byte comes to an end, every run makes no more calls than that has steps, and can
go on to the same end. -/
theorem every_call_run_ends (leftLoops : Loops leftCall) (rightLoops : Loops rightCall)
    {count calls : Nat} {start final reached : Pair Byte σ τ}
    (finished : Steps (Step (byteView leftCall) (byteView rightCall) roomRight roomLeft) count
      start final)
    (stuck : Stuck (Step (byteView leftCall) (byteView rightCall) roomRight roomLeft) final)
    (run : Steps (CallStep leftCall rightCall roomRight roomLeft) calls start reached) :
    calls ≤ count ∧
      ∃ left, Steps (Step (byteView leftCall) (byteView rightCall) roomRight roomLeft) left reached
        final ∧ Steps (CallStep leftCall rightCall roomRight roomLeft) left reached final := by
  obtain ⟨steps, within, bytes⟩ := steps_of_callSteps leftLoops rightLoops run
  obtain ⟨left, same, ends⟩ := every_run_ends
    (step_diamond (byteView leftCall) (byteView rightCall) roomRight roomLeft) finished stuck bytes
  exact ⟨by omega, left, ends, callSteps_of_steps ends⟩

end Runs

end Evlpc.Library.Streams
