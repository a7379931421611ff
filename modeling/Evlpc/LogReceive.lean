import Mathlib.Data.Stream.Init
import Evlpc.AfUnixWrapper

/-!
# A log receiver whose peer closes

`logrx` receives until its buffer is full or `recvfrom` fails. The children of the
connected log server read from a socket whose other end is closed some time; from
then on `recvfrom` returns 0. The loop checks the count for -1 only, and 0 leaves it
where it was.

The outcomes of the calls are a sequence that the environment chooses. The loop may
go on for ever, so that it is run with a bound on how often its condition is checked.
-/

namespace Evlpc

open Library

/-- The outcomes of successive `recvfrom` calls: -1, or a message, which is cut to
the space left. -/
abbrev Outcomes := Stream' (Option (List UInt8))

/-- The bytes of a message that a `recvfrom` call stores. -/
def receivedBytes (message : List UInt8) (buflen : Int32) : List UInt8 :=
  message.take buflen.toNatClampNeg

/-- The loop of `logrx` from the outcomes to come, the bytes stored and the space
left. The result is what it returns, with the bytes stored by then; there is none if
the loop goes on after so many checks of its condition. -/
def logrxLoop (outcomes : Outcomes) (stored : List UInt8) (buflen : Int32) :
    Nat → Option (Int32 × List UInt8)
  | 0 => none
  | checks + 1 =>
    if 0 < buflen then
      match outcomes.head with
      | none => some (-1, stored)
      | some message =>
        let received := receivedBytes message buflen
        logrxLoop outcomes.tail (stored ++ received) (buflen - Int32.ofNat received.length) checks
    else some (0, stored)

/-- `logrx`. -/
def logrx (outcomes : Outcomes) (buflen : Int32) (checks : Nat) : Option (Int32 × List UInt8) :=
  logrxLoop outcomes [] buflen checks

/-- From some call on the peer has closed its end, and `recvfrom` returns 0. -/
def PeerCloses (outcomes : Outcomes) : Prop :=
  ∃ first, ∀ call, first ≤ call → outcomes.get call = some []

/-- The call of `logrx` returns, and it returns 0 with a full buffer only. -/
structure EndsWithPeer (outcomes : Outcomes) (buflen : Int32) : Prop where
  ends : ∃ checks result, logrx outcomes buflen checks = some result
  full : ∀ checks stored, logrx outcomes buflen checks = some (0, stored) →
    (stored.length : Int) = buflen.toInt

/-- How many bytes the messages of the first calls bring. -/
def bytesArrived (outcomes : Outcomes) : Nat → Nat
  | 0 => 0
  | calls + 1 => (outcomes.head.elim 0 List.length) + bytesArrived outcomes.tail calls

section Iteration

variable (message : List UInt8) (buflen : Int32)

/-- A call receives the message as far as the buffer is long. -/
theorem receivedBytes_length :
    (receivedBytes message buflen).length = min buflen.toNatClampNeg message.length := by
  rw [receivedBytes, List.length_take]

/-- A buffer that is not full has space for at least one byte. -/
theorem waiting_iff : 0 < buflen ↔ 0 < buflen.toInt := by
  rw [Int32.lt_iff_toInt_lt, Int32.toInt_zero]

/-- The space left is what the message does not fill, and it is never negative. -/
theorem buflen_left (waiting : 0 < buflen) :
    (buflen - Int32.ofNat (receivedBytes message buflen).length).toInt =
      buflen.toInt - (receivedBytes message buflen).length ∧
    (receivedBytes message buflen).length ≤ buflen.toInt := by
  have space : 0 < buflen.toInt := (waiting_iff buflen).mp waiting
  have word : buflen.toInt < 2147483648 := buflen.toInt_lt
  have count : (receivedBytes message buflen).length ≤ buflen.toInt := by
    rw [receivedBytes_length, ← Int32.toNat_toInt]
    omega
  have stored : (Int32.ofNat (receivedBytes message buflen).length).toInt =
      (receivedBytes message buflen).length :=
    Int32.toInt_ofNat_of_lt (by omega)
  refine ⟨?_, count⟩
  rw [Int32.toInt_sub_of_le, stored]
  · rw [Int32.le_iff_toInt_le, stored, Int32.toInt_zero]
    omega
  · rw [Int32.le_iff_toInt_le, stored]
    exact count

end Iteration

section Loop

variable (outcomes : Outcomes) (stored : List UInt8) (buflen : Int32)

/-- A full buffer ends the loop. -/
theorem logrxLoop_full (checks : Nat) (full : ¬ 0 < buflen) :
    logrxLoop outcomes stored buflen (checks + 1) = some (0, stored) := by
  rw [logrxLoop, if_neg full]

/-- A call that fails ends the loop. -/
theorem logrxLoop_failed (checks : Nat) (waiting : 0 < buflen) (failed : outcomes.head = none) :
    logrxLoop outcomes stored buflen (checks + 1) = some (-1, stored) := by
  rw [logrxLoop, if_pos waiting, failed]

/-- A message is stored, and the loop goes on with the space left. -/
theorem logrxLoop_received (checks : Nat) (message : List UInt8) (waiting : 0 < buflen)
    (arrived : outcomes.head = some message) :
    logrxLoop outcomes stored buflen (checks + 1) =
      logrxLoop outcomes.tail (stored ++ receivedBytes message buflen)
        (buflen - Int32.ofNat (receivedBytes message buflen).length) checks := by
  rw [logrxLoop, if_pos waiting, arrived]

/-- A result of 0 means that the space left has been filled. -/
theorem logrxLoop_stored (checks : Nat) (contents : List UInt8) (length : 0 ≤ buflen.toInt)
    (returned : logrxLoop outcomes stored buflen checks = some (0, contents)) :
    (contents.length : Int) = stored.length + buflen.toInt := by
  induction checks generalizing outcomes stored buflen with
  | zero => cases returned
  | succ checks inductionHypothesis =>
    by_cases waiting : 0 < buflen
    · cases arrived : outcomes.head with
      | none =>
        rw [logrxLoop_failed outcomes stored buflen checks waiting arrived] at returned
        cases returned
      | some message =>
        rw [logrxLoop_received outcomes stored buflen checks message waiting arrived] at returned
        obtain ⟨left, fits⟩ := buflen_left message buflen waiting
        have filled := inductionHypothesis _ _ _ (by omega) returned
        rw [left, List.length_append] at filled
        omega
    · rw [logrxLoop_full outcomes stored buflen checks waiting, Option.some.injEq,
        Prod.mk.injEq] at returned
      rw [waiting_iff] at waiting
      rw [← returned.2]
      omega

/-- The loop ends when a call fails or enough bytes have arrived. -/
theorem logrxLoop_ends (calls : Nat)
    (enough : outcomes.get calls = none ∨ buflen.toInt ≤ bytesArrived outcomes calls) :
    ∃ checks result, logrxLoop outcomes stored buflen checks = some result := by
  induction calls generalizing outcomes stored buflen with
  | zero =>
    by_cases waiting : 0 < buflen
    · rcases enough with failed | arrived
      · exact ⟨1, _, logrxLoop_failed outcomes stored buflen 0 waiting failed⟩
      · rw [waiting_iff] at waiting
        rw [bytesArrived] at arrived
        omega
    · exact ⟨1, _, logrxLoop_full outcomes stored buflen 0 waiting⟩
  | succ calls inductionHypothesis =>
    by_cases waiting : 0 < buflen
    · cases arrived : outcomes.head with
      | none => exact ⟨1, _, logrxLoop_failed outcomes stored buflen 0 waiting arrived⟩
      | some message =>
        obtain ⟨left, fits⟩ := buflen_left message buflen waiting
        have later : outcomes.tail.get calls = none ∨
            (buflen - Int32.ofNat (receivedBytes message buflen).length).toInt ≤
              bytesArrived outcomes.tail calls := by
          rcases enough with failed | bytes
          · exact Or.inl failed
          · right
            rw [bytesArrived, arrived, Option.elim_some] at bytes
            rw [left, receivedBytes_length, ← Int32.toNat_toInt]
            omega
        obtain ⟨checks, result, ended⟩ := inductionHypothesis _
          (stored ++ receivedBytes message buflen) _ later
        refine ⟨checks + 1, result, ?_⟩
        rw [logrxLoop_received outcomes stored buflen checks message waiting arrived]
        exact ended
    · exact ⟨1, _, logrxLoop_full outcomes stored buflen 0 waiting⟩

/-- A loop that ends has seen a call fail or enough bytes arrive. -/
theorem logrxLoop_enough (checks : Nat) (result : Int32 × List UInt8)
    (ended : logrxLoop outcomes stored buflen checks = some result) :
    ∃ calls, outcomes.get calls = none ∨ buflen.toInt ≤ bytesArrived outcomes calls := by
  induction checks generalizing outcomes stored buflen with
  | zero => cases ended
  | succ checks inductionHypothesis =>
    by_cases waiting : 0 < buflen
    · cases arrived : outcomes.head with
      | none => exact ⟨0, Or.inl arrived⟩
      | some message =>
        rw [logrxLoop_received outcomes stored buflen checks message waiting arrived] at ended
        obtain ⟨left, fits⟩ := buflen_left message buflen waiting
        obtain ⟨calls, enough⟩ := inductionHypothesis _ _ _ ended
        refine ⟨calls + 1, ?_⟩
        rcases enough with failed | bytes
        · exact Or.inl failed
        · right
          rw [left, receivedBytes_length] at bytes
          rw [bytesArrived, arrived, Option.elim_some]
          omega
    · rw [waiting_iff] at waiting
      exact ⟨0, Or.inr (by rw [bytesArrived]; omega)⟩

/-- Behind the end of file, a buffer that is not full keeps the loop going. -/
theorem logrxLoop_closed (checks : Nat) (waiting : 0 < buflen) :
    logrxLoop (Stream'.const (some [])) stored buflen checks = none := by
  induction checks generalizing stored with
  | zero => rfl
  | succ checks inductionHypothesis =>
    have nothing : receivedBytes [] buflen = [] := List.take_nil
    rw [logrxLoop_received _ stored buflen checks [] waiting rfl, nothing, List.append_nil]
    have same : buflen - Int32.ofNat ([] : List UInt8).length = buflen := Int32.sub_zero buflen
    rw [same]
    exact inductionHypothesis stored

/-- One iteration is a step of the receiver that reads from a queue of messages. -/
theorem logrxStep_iteration (capacity : Nat) (socket : LogSocket) (message : List UInt8)
    (rest : List (List UInt8)) (queued : socket.queue = message :: rest)
    (space : buflen.toInt = capacity - socket.stored.length) (waiting : 0 < buflen) :
    logrxStep capacity socket =
      if 0 < buflen - Int32.ofNat (receivedBytes message buflen).length then
        some { socket with queue := rest, stored := socket.stored ++ receivedBytes message buflen }
      else
        some { socket with
          queue := rest
          stored := []
          returned := socket.returned ++ [socket.stored ++ receivedBytes message buflen] } := by
  obtain ⟨left, fits⟩ := buflen_left message buflen waiting
  have room : capacity - socket.stored.length = buflen.toNatClampNeg := by
    rw [← Int32.toNat_toInt]
    omega
  have partly : (socket.stored ++ receivedBytes message buflen).length < capacity ↔
      0 < buflen - Int32.ofNat (receivedBytes message buflen).length := by
    rw [waiting_iff, left, List.length_append]
    omega
  rw [logrxStep, queued, room]
  simp only [recvfrom, Option.map_some]
  rw [← receivedBytes]
  by_cases more : 0 < buflen - Int32.ofNat (receivedBytes message buflen).length
  · rw [if_pos more, if_pos (partly.mpr more)]
  · rw [if_neg more, if_neg (fun shorter => more (partly.mp shorter))]

/-- A call that returns 0 is a run of that receiver over the messages it takes. -/
theorem logMachine_logrx (capacity checks : Nat) (contents : List UInt8)
    (space : buflen.toInt = capacity - stored.length) (waiting : 0 < buflen)
    (returned : logrxLoop outcomes stored buflen checks = some (0, contents)) :
    ∃ messages, outcomes.take messages.length = messages.map some ∧
      ∀ socket rest, socket.stored = stored → socket.queue = messages ++ rest →
        (logMachine capacity).run socket (List.replicate messages.length .rx) =
          some { socket with
            queue := rest, stored := [], returned := socket.returned ++ [contents] } := by
  induction checks generalizing outcomes stored buflen with
  | zero => cases returned
  | succ checks inductionHypothesis =>
    cases arrived : outcomes.head with
    | none =>
      rw [logrxLoop_failed outcomes stored buflen checks waiting arrived] at returned
      cases returned
    | some message =>
      rw [logrxLoop_received outcomes stored buflen checks message waiting arrived] at returned
      obtain ⟨left, fits⟩ := buflen_left message buflen waiting
      by_cases more : 0 < buflen - Int32.ofNat (receivedBytes message buflen).length
      · obtain ⟨messages, taken, runs⟩ := inductionHypothesis _ _ _
          (by rw [left, List.length_append]; omega) more returned
        refine ⟨message :: messages, ?_, ?_⟩
        · rw [List.length_cons, Stream'.take_succ, arrived, taken, List.map_cons]
        · rintro socket rest rfl queued
          rw [List.length_cons, List.replicate_succ, Machine.run_cons_some]
          refine ⟨_, ?_, runs { socket with
            queue := messages ++ rest
            stored := socket.stored ++ receivedBytes message buflen } rest rfl rfl⟩
          have step := logrxStep_iteration buflen capacity socket message _ queued space waiting
          rwa [if_pos more] at step
      · cases checks with
        | zero => cases returned
        | succ checks =>
          rw [logrxLoop_full _ _ _ checks more, Option.some.injEq, Prod.mk.injEq] at returned
          refine ⟨[message], ?_, ?_⟩
          · rw [List.length_singleton, Stream'.take_succ, arrived]
            rfl
          · rintro socket rest rfl queued
            rw [← returned.2]
            refine (logMachine capacity).run_cons_some.mpr ⟨_, ?_, rfl⟩
            have step := logrxStep_iteration buflen capacity socket message rest queued space
              waiting
            rwa [if_neg more] at step

end Loop

/-- `logrx` ends with its peer if and only if the buffer's length is not negative, and
some call fails or the messages bring as many bytes as the buffer holds. -/
theorem ends_with_peer_iff (outcomes : Outcomes) (buflen : Int32) :
    EndsWithPeer outcomes buflen ↔ 0 ≤ buflen ∧
      ∃ calls, outcomes.get calls = none ∨ buflen.toInt ≤ bytesArrived outcomes calls := by
  constructor
  · intro behaves
    obtain ⟨checks, result, ended⟩ := behaves.ends
    refine ⟨?_, logrxLoop_enough outcomes [] buflen checks result ended⟩
    by_cases waiting : 0 < buflen
    · exact Int32.le_of_lt waiting
    · have filled := behaves.full 1 [] (logrxLoop_full outcomes [] buflen 0 waiting)
      rw [List.length_nil] at filled
      rw [Int32.le_iff_toInt_le, Int32.toInt_zero]
      omega
  · rintro ⟨length, calls, enough⟩
    rw [Int32.le_iff_toInt_le, Int32.toInt_zero] at length
    refine ⟨logrxLoop_ends outcomes [] buflen calls enough, ?_⟩
    intro checks stored returned
    have filled := logrxLoop_stored outcomes [] buflen checks stored length returned
    rw [List.length_nil] at filled
    omega

/-- The peer sends two bytes and closes; a buffer of four bytes is never returned. -/
theorem closed_peer_endless :
    ∃ outcomes, PeerCloses outcomes ∧ (∀ checks, logrx outcomes 4 checks = none) ∧
      ¬ EndsWithPeer outcomes 4 := by
  let outcomes : Outcomes := Stream'.cons (some [1, 2]) (Stream'.const (some []))
  have endless : ∀ checks, logrx outcomes 4 checks = none := by
    intro checks
    cases checks with
    | zero => rfl
    | succ checks =>
      rw [logrx, logrxLoop_received outcomes [] 4 checks [1, 2] (by decide) rfl]
      exact logrxLoop_closed [1, 2] 2 checks (by decide)
  refine ⟨outcomes, ⟨1, ?_⟩, endless, ?_⟩
  · intro call later
    obtain ⟨earlier, rfl⟩ := Nat.exists_eq_succ_of_ne_zero (by omega : call ≠ 0)
    rfl
  · intro behaves
    obtain ⟨checks, result, ended⟩ := behaves.ends
    rw [endless checks] at ended
    cases ended

end Evlpc
