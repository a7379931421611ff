import Evlpc.Session
import Evlpc.Library.Machine

/-!
# Runs of the session table

Sessions are made and replies arrive in any order. A ledger next to the table
says what happened: how many sessions were made, which of them are outstanding,
and whose callbacks were run. Every session is made with its own number next to
its data, so a callback is attributed to a session by the data it is given.

A reply is forged if its magic is 0 and no outstanding session has its id: the
slot's mark is then mistaken for a magic. Without forged replies, and with room
in the table whenever a session is made, table and ledger agree.
-/

namespace Evlpc

open Library

universe u v
variable {δ : Type u} {κ : Type v}

/-- The session table and what is known about its sessions. -/
structure Ledger (δ : Type u) (κ : Type v) where
  sessions : SessionState (Nat × δ) κ
  created : Nat
  outstanding : List (ObSession (Nat × δ) κ)
  answered : List Nat

/-- A process that has made no session. -/
def Ledger.start : Ledger δ κ where
  sessions := SessionState.start
  created := 0
  outstanding := []
  answered := []

/-- A call of `make_new_session`, or the arrival of an `MT_STD_REPLY`. -/
inductive SessionEvent (δ : Type u) (κ : Type v) where
  | make (data : δ) (magic : UInt32) (cb : κ) (currentTimeSec : UInt32)
  | reply (sid magic : UInt32) (stray : Option UInt32)

/-- Record whose callback was run. -/
def Ledger.record (ledger : Ledger δ κ) : Option (κ × Option (Nat × δ)) → Ledger δ κ
  | some (_, some (number, _)) =>
    { ledger with
      outstanding := ledger.outstanding.filter fun session => session.data.1 != number
      answered := number :: ledger.answered }
  | _ => ledger

/-- The effect of an event; a fault ends the run. -/
def Ledger.step (ledger : Ledger δ κ) : SessionEvent δ κ → Option (Ledger δ κ)
  | .make data magic cb currentTimeSec =>
    match makeNewSession ledger.sessions (ledger.created, data) magic cb currentTimeSec with
    | .error _ => none
    | .ok (sid, next) => some
      { sessions := next
        created := ledger.created + 1
        outstanding := ⟨sid, magic, (ledger.created, data), cb⟩ :: ledger.outstanding
        answered := ledger.answered }
  | .reply sid magic stray =>
    match answerSession ledger.sessions sid magic stray with
    | .error _ => none
    | .ok (called, next) => some ({ ledger with sessions := next }.record called)

/-- Sessions that are made and replies that come in, in any order. -/
def ledgerMachine : Machine (Ledger δ κ) (SessionEvent δ κ) := ⟨Ledger.step⟩

/-- The table agrees with the ledger, and every session made is either answered
or outstanding, once. -/
structure Ledger.Sound (ledger : Ledger δ κ) : Prop where
  consistent : Consistent ledger.sessions ledger.outstanding
  accounted : (ledger.answered ++ ledger.outstanding.map fun session => session.data.1).Perm
    (List.range ledger.created)

namespace Ledger.Sound

variable {ledger : Ledger δ κ}

/-- No request is answered twice, and none that is answered is outstanding. -/
theorem distinct (sound : ledger.Sound) :
    (ledger.answered ++ ledger.outstanding.map fun session => session.data.1).Nodup :=
  (List.Perm.nodup_iff sound.accounted).mpr List.nodup_range

/-- No session is answered twice. -/
theorem once (sound : ledger.Sound) : ledger.answered.Nodup := sound.distinct.of_append_left

/-- No request has two outstanding sessions. -/
theorem numbers (sound : ledger.Sound) :
    (ledger.outstanding.map fun session => session.data.1).Nodup :=
  sound.distinct.of_append_right

end Ledger.Sound

/-- At the start no request has been made. -/
theorem start_sound : (Ledger.start (δ := δ) (κ := κ)).Sound :=
  ⟨start_consistent, List.Perm.refl _⟩

/-- There is room in the table for the session an event makes. -/
def HasRoom (ledger : Ledger δ κ) : SessionEvent δ κ → Prop
  | .make _ _ _ _ => ledger.outstanding.length < maxSessions
  | .reply _ _ _ => True

/-- A reply in the table's range with magic 0 has the id of an outstanding session. -/
def Unforged (ledger : Ledger δ κ) : SessionEvent δ κ → Prop
  | .make _ _ _ _ => True
  | .reply sid magic _ => sid.toNat < ledger.sessions.obSessions.length → magic = 0 →
      ∃ session ∈ ledger.outstanding, session.sid = sid

/-- What a session table is for. A session can be made; a reply with the id and
the magic of an outstanding session runs that session's callback on its data; any
other reply in the table's range runs nothing and changes nothing. -/
def AnsweredRightly (ledger : Ledger δ κ) : SessionEvent δ κ → Prop
  | .make data magic cb currentTimeSec => ∃ sid next,
      makeNewSession ledger.sessions (ledger.created, data) magic cb currentTimeSec =
        .ok (sid, next)
  | .reply sid magic stray => sid.toNat < ledger.sessions.obSessions.length →
      (∀ session ∈ ledger.outstanding, session.sid = sid → session.magic = magic →
        ∃ next, answerSession ledger.sessions sid magic stray =
          .ok (some (session.cb, some session.data), next)) ∧
      ((∀ session ∈ ledger.outstanding, ¬ (session.sid = sid ∧ session.magic = magic)) →
        answerSession ledger.sessions sid magic stray = .ok (none, ledger.sessions))

/-- The id a new session gets is an index of the table of 1000 slots, and no
outstanding session has it. -/
def StoredInTable (ledger : Ledger δ κ) : SessionEvent δ κ → Prop
  | .make data magic cb currentTimeSec => ∃ sid next,
      makeNewSession ledger.sessions (ledger.created, data) magic cb currentTimeSec =
        .ok (sid, next) ∧
      sid.toNat < next.obSessions.length ∧ next.obSessions.length = maxSessions ∧
      ∀ session ∈ ledger.outstanding, session.sid ≠ sid
  | .reply _ _ _ => True

section Steps

variable (ledger : Ledger δ κ) (sound : ledger.Sound)
include sound

/-- Making a session with room in the table. -/
theorem make_sound (data : δ) (magic : UInt32) (cb : κ) (currentTimeSec : UInt32)
    (room : ledger.outstanding.length < maxSessions) :
    StoredInTable ledger (.make data magic cb currentTimeSec) ∧
      ∃ next, ledger.step (.make data magic cb currentTimeSec) = some next ∧ next.Sound ∧
        next.outstanding.length = ledger.outstanding.length + 1 := by
  obtain ⟨sid, table, made, inTable, fresh, consistent⟩ := makeNewSession_room sound.consistent room
    (ledger.created, data) magic cb currentTimeSec
  have size : table.obSessions.length = maxSessions := by
    have sized := consistent.size
    by_cases inited : table.inited = true
    · rwa [if_pos inited] at sized
    · rw [if_neg inited] at sized
      omega
  have others : ∀ session ∈ ledger.outstanding, session.sid ≠ sid :=
    fun session member same => fresh (List.mem_map.mpr ⟨session, member, same⟩)
  refine ⟨⟨sid, table, made, inTable, size, others⟩, _, by rw [Ledger.step, made], ?_, rfl⟩
  refine ⟨consistent, ?_⟩
  have accounted := sound.accounted.append_right [ledger.created]
  rw [← List.range_succ] at accounted
  refine List.Perm.trans ?_ accounted
  rw [List.append_assoc, List.map_cons]
  exact List.Perm.append_left _ (List.perm_append_singleton _ _).symm

/-- A reply to an outstanding session moves its number to the answered ones. -/
theorem reply_sound (session : ObSession (Nat × δ) κ) (member : session ∈ ledger.outstanding)
    (stray : Option UInt32) :
    ∃ table, answerSession ledger.sessions session.sid session.magic stray =
        .ok (some (session.cb, some session.data), table) ∧
      ({ ledger with sessions := table }.record (some (session.cb, some session.data))).Sound := by
  have rest := perm_cons_filter (fun session => session.data.1) ledger.outstanding session member
    sound.numbers
  obtain ⟨table, answered, consistent⟩ :=
    answerSession_outstanding sound.consistent session _ rest stray
  refine ⟨table, answered, consistent, ?_⟩
  have moved : (ledger.answered ++ ledger.outstanding.map fun session => session.data.1).Perm
      (session.data.1 :: ledger.answered ++ (ledger.outstanding.filter fun other =>
        other.data.1 != session.data.1).map fun session => session.data.1) :=
    (List.Perm.append_left _ (rest.map _)).trans List.perm_middle
  exact moved.symm.trans sound.accounted

/-- With room and without forgery a step keeps table and ledger in agreement. -/
theorem step_sound (event : SessionEvent δ κ) (next : Ledger δ κ) (room : HasRoom ledger event)
    (unforged : Unforged ledger event) (moved : ledger.step event = some next) : next.Sound := by
  cases event with
  | make data magic cb currentTimeSec =>
    obtain ⟨_, other, step, soundOther, _⟩ :=
      make_sound ledger sound data magic cb currentTimeSec room
    rw [step] at moved
    exact Option.some.inj moved ▸ soundOther
  | reply sid magic stray =>
    by_cases inTable : sid.toNat < ledger.sessions.obSessions.length
    · by_cases matched : ∃ session ∈ ledger.outstanding, session.sid = sid ∧ session.magic = magic
      · obtain ⟨session, member, rfl, rfl⟩ := matched
        obtain ⟨table, answered, soundNext⟩ := reply_sound ledger sound session member stray
        rw [Ledger.step, answered] at moved
        exact Option.some.inj moved ▸ soundNext
      · have ignored := answerSession_ignored sound.consistent sid magic stray inTable
          (fun session member same => matched ⟨session, member, same⟩) (unforged inTable)
        rw [Ledger.step, ignored] at moved
        exact Option.some.inj moved ▸ sound
    · cases answer : answerSession ledger.sessions sid magic stray with
      | error fault =>
        rw [Ledger.step, answer] at moved
        cases moved
      | ok result =>
        obtain ⟨called, table⟩ := result
        obtain ⟨rfl, rfl⟩ := answerSession_outside sid magic stray (Nat.not_lt.mp inTable) called
          table answer
        rw [Ledger.step, answer] at moved
        exact Option.some.inj moved ▸ sound

/-- A session is stored in the table exactly if there is room for it. -/
theorem stored_iff_room (event : SessionEvent δ κ) :
    HasRoom ledger event ↔ StoredInTable ledger event := by
  cases event with
  | make data magic cb currentTimeSec =>
    constructor
    · intro room
      exact (make_sound ledger sound data magic cb currentTimeSec room).1
    · rintro ⟨sid, table, made, _⟩
      apply Nat.lt_of_le_of_ne sound.consistent.outstanding_bound
      intro full
      rw [makeNewSession_full sound.consistent full] at made
      cases made
  | reply sid magic stray => exact Iff.rfl

/-- A step does what the table is for exactly if there is room and no forgery. -/
theorem rightly_iff_genuine (event : SessionEvent δ κ) :
    (HasRoom ledger event ∧ Unforged ledger event) ↔ AnsweredRightly ledger event := by
  cases event with
  | make data magic cb currentTimeSec =>
    constructor
    · rintro ⟨room, _⟩
      obtain ⟨sid, table, made, _⟩ := (make_sound ledger sound data magic cb currentTimeSec room).1
      exact ⟨sid, table, made⟩
    · rintro ⟨sid, table, made⟩
      refine ⟨Nat.lt_of_le_of_ne sound.consistent.outstanding_bound ?_, trivial⟩
      intro full
      rw [makeNewSession_full sound.consistent full] at made
      cases made
  | reply sid magic stray =>
    constructor
    · rintro ⟨_, unforged⟩ inTable
      constructor
      · rintro session member rfl rfl
        obtain ⟨table, answered, _⟩ := reply_sound ledger sound session member stray
        exact ⟨table, answered⟩
      · intro unmatched
        exact answerSession_ignored sound.consistent sid magic stray inTable unmatched
          (unforged inTable)
    · intro rightly
      refine ⟨trivial, ?_⟩
      rintro inTable rfl
      by_contra unoccupied
      have others : ∀ session ∈ ledger.outstanding, session.sid ≠ sid :=
        fun session member same => unoccupied ⟨session, member, same⟩
      exact answerSession_forged sound.consistent sid stray inTable others
        ((rightly inTable).2 fun session member same => others session member same.1)

end Steps

/-- Along every run, the table does what it is for, and no callback is run twice,
exactly if every session finds room and no reply is forged. -/
theorem answered_once_iff (events : List (SessionEvent δ κ)) :
    (ledgerMachine.Along AnsweredRightly Ledger.start events ∧
      ∀ final, ledgerMachine.run Ledger.start events = some final → final.answered.Nodup) ↔
    ledgerMachine.Along (fun ledger event => HasRoom ledger event ∧ Unforged ledger event)
      Ledger.start events := by
  have preserved : ∀ (ledger : Ledger δ κ) event next, ledger.Sound →
      HasRoom ledger event ∧ Unforged ledger event → ledgerMachine.step ledger event = some next →
      next.Sound := fun ledger event next sound genuine moved =>
    step_sound ledger sound event next genuine.1 genuine.2 moved
  have exact := ledgerMachine.along_iff_guard Ledger.Sound
    (fun ledger event => HasRoom ledger event ∧ Unforged ledger event) AnsweredRightly
    (fun ledger event sound => rightly_iff_genuine ledger sound event) preserved
    (Ledger.start (δ := δ) (κ := κ)) events start_sound
  constructor
  · exact fun rightly => exact.mp rightly.1
  · intro genuine
    refine ⟨exact.mpr genuine, ?_⟩
    intro final reached
    exact (ledgerMachine.guarded_invariant Ledger.Sound _ preserved _ final events start_sound
      genuine reached).once

/-- A session with magic 5, its reply, and a second reply with magic 0. -/
def answeredTwice : List (SessionEvent Unit Unit) :=
  [.make () 5 () 0, .reply 0 5 none, .reply 0 0 none]

/-- The third event is accepted against the mark of the answered slot, and the
callback of session 0 runs again. -/
theorem callback_run_twice :
    ∃ final, ledgerMachine.run Ledger.start answeredTwice = some final ∧
      final.sessions.obSessions.length = 1000 ∧ final.answered = [0, 0] ∧
      ¬ final.answered.Nodup := by
  have ends : (ledgerMachine.run Ledger.start answeredTwice).map (fun final =>
      (final.sessions.obSessions.length, final.answered)) = some (1000, [0, 0]) := by
    decide +kernel
  obtain ⟨final, reached, ids⟩ := Option.map_eq_some_iff.mp ends
  obtain ⟨size, answered⟩ := Prod.mk.inj ids
  exact ⟨final, reached, size, answered, by rw [answered]; decide⟩

/-- With room for every session and without forged replies, every session is
stored in the table, in a slot of its own. In runs without forged replies the
sessions are stored exactly if there is room for them. -/
theorem stored_in_table_iff (events : List (SessionEvent δ κ)) :
    (ledgerMachine.Along (fun ledger event => HasRoom ledger event ∧ Unforged ledger event)
        Ledger.start events →
      ledgerMachine.Along StoredInTable Ledger.start events) ∧
    (ledgerMachine.Along Unforged Ledger.start events →
      (ledgerMachine.Along StoredInTable Ledger.start events ↔
        ledgerMachine.Along HasRoom Ledger.start events)) := by
  have exact := ledgerMachine.along_iff_guard Ledger.Sound
    (fun ledger event => HasRoom ledger event ∧ Unforged ledger event)
    (fun ledger event => StoredInTable ledger event ∧ Unforged ledger event)
    (fun ledger event sound => and_congr_left' (stored_iff_room ledger sound event))
    (fun ledger event next sound genuine moved =>
      step_sound ledger sound event next genuine.1 genuine.2 moved)
    (Ledger.start (δ := δ) (κ := κ)) events start_sound
  rw [ledgerMachine.along_and, ledgerMachine.along_and] at exact
  constructor
  · intro genuine
    rw [ledgerMachine.along_and] at genuine
    exact (exact.mpr genuine).1
  · intro unforged
    constructor
    · exact fun stored => (exact.mp ⟨stored, unforged⟩).1
    · exact fun room => (exact.mpr ⟨room, unforged⟩).1

/-- Calls of `make_new_session` alone fill the table one by one. -/
theorem makes_fill (data : δ) (magic : UInt32) (cb : κ) (currentTimeSec : UInt32) (count : Nat)
    (ledger : Ledger δ κ) (sound : ledger.Sound)
    (room : ledger.outstanding.length + count ≤ maxSessions) :
    ∃ final, ledgerMachine.run ledger
        (List.replicate count (.make data magic cb currentTimeSec)) = some final ∧
      final.Sound ∧ final.outstanding.length = ledger.outstanding.length + count := by
  induction count generalizing ledger with
  | zero => exact ⟨ledger, rfl, sound, rfl⟩
  | succ count inductionHypothesis =>
    obtain ⟨_, next, moved, soundNext, more⟩ :=
      make_sound ledger sound data magic cb currentTimeSec (by omega)
    obtain ⟨final, reached, soundFinal, total⟩ := inductionHypothesis next soundNext (by omega)
    exact ⟨final, ledgerMachine.run_cons_some.mpr ⟨next, moved, reached⟩, soundFinal, by omega⟩

/-- One call more than the table has slots. -/
def unanswered : List (SessionEvent Unit Unit) :=
  List.replicate (maxSessions + 1) (.make () 5 () 0)

/-- A reply before any session exists, then a session. -/
def earlyReply : List (SessionEvent Unit Unit) := [.reply 3 9 (some 1), .make () 5 () 0]

/-- A session is stored in its table also when a reply came before it. -/
theorem stored_in_table_early : ledgerMachine.Along StoredInTable Ledger.start earlyReply := by
  apply (stored_in_table_iff earlyReply).1
  refine ⟨⟨trivial, fun _ zero => absurd zero (by decide)⟩, fun next moved =>
    ⟨⟨?_, trivial⟩, fun _ _ => trivial⟩⟩
  obtain rfl : Ledger.start = next := Option.some.inj moved
  exact Nat.zero_lt_succ _

/-- The session made after 1000 unanswered ones is not stored in the table. -/
theorem table_outgrown : ¬ ledgerMachine.Along StoredInTable Ledger.start unanswered := by
  intro stored
  obtain ⟨final, reached, sound, full⟩ := makes_fill () 5 () 0 maxSessions
    (Ledger.start (δ := Unit) (κ := Unit)) start_sound (Nat.le_of_eq (Nat.zero_add _))
  have split : unanswered =
      List.replicate maxSessions (.make () 5 () 0) ++ [.make () 5 () 0] := List.replicate_succ'
  rw [split] at stored
  obtain ⟨_, _, made, _⟩ := (((ledgerMachine.along_append _ _ _ _).mp stored).2 final reached).1
  rw [makeNewSession_full sound.consistent (full.trans (Nat.zero_add _))] at made
  cases made

end Evlpc
